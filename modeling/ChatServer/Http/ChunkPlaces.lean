import ChatServer.Http.HttpConnection

/-!
# Chunks on the wire

The loops over the chunks only move along what lies behind the head. Which bytes are taken for the
size of a chunk is decided by the table and by how the bytes come; the payload behind it has the
length that stands in the copy of the parser, with two bytes for the line end.
-/

namespace ChatServer.Http

set_option autoImplicit false

structure Place where
  stream : SocketStream
  held : Str
  parser : HttpResponseParser

namespace Place

def bytes (place : Place) : Str := place.held ++ place.stream.incoming

def skip (place : Place) (count : Nat) : Place where
  stream := place.stream.advance (count - place.held.length)
  held := place.held.drop count
  parser := place.parser

inductive Filled (config : HttpConfig) (place : Place) : Bool → Str → SocketStream → Prop where
  | held (some : place.held ≠ []) : Filled config place true place.held place.stream
  | read {begin_ : Bool} (asks : begin_ = true → place.held = [])
      (some : 0 < place.stream.arriving (config.buffSize - place.held.length)) :
      Filled config place begin_
        (place.held ++ place.stream.incoming.take
          (place.stream.arriving (config.buffSize - place.held.length)))
        (place.stream.advance (place.stream.arriving (config.buffSize - place.held.length)))

/-- The table has come to the end of a size line and stopped behind it. Where a buffer does not
hold the end of the line, the table begins anew with what is read next. -/
inductive SizeLine (machine : HttpClientMachine) (config : HttpConfig) :
    Bool → Place → Place → Prop where
  | ends {begin_ : Bool} {place behind : Place} {data : Str} {nparse : Nat}
      (filled : Filled config place begin_ data behind.stream)
      (ran : place.parser.execute machine data true = .ok (nparse, behind.parser))
      (left : behind.held = data.drop nparse) (correct : behind.parser.hasError machine = false)
      (room : behind.held.length ≠ config.buffSize)
      (finished : behind.parser.isFinished machine = true) : SizeLine machine config begin_ place behind
  | goesOn {begin_ : Bool} {place between behind : Place} {data : Str} {nparse : Nat}
      (filled : Filled config place begin_ data between.stream)
      (ran : place.parser.execute machine data true = .ok (nparse, between.parser))
      (left : between.held = data.drop nparse) (correct : between.parser.hasError machine = false)
      (room : between.held.length ≠ config.buffSize)
      (unfinished : between.parser.isFinished machine = false)
      (later : SizeLine machine config false between behind) : SizeLine machine config begin_ place behind

/-- A payload of this length and its line end are there, and their length is an `int`. -/
structure HasPayload (contentLen : Int) (place : Place) : Prop where
  nonneg : 0 ≤ contentLen
  narrow : contentLen + 2 < 2 ^ 31
  there : contentLen + 2 ≤ place.bytes.length

/-- So many chunks lie between the two places, each with a payload of this length. -/
inductive ChunksOff (machine : HttpClientMachine) (config : HttpConfig) (contentLen : Int) :
    Nat → Place → Place → Prop where
  | none (place : Place) : ChunksOff machine config contentLen 0 place place
  | chunk {count : Nat} {place behind last : Place} (line : SizeLine machine config true place behind)
      (payload : HasPayload contentLen behind)
      (later : ChunksOff machine config contentLen count (behind.skip (contentLen + 2).toNat) last) :
      ChunksOff machine config contentLen (count + 1) place last

theorem bytes_length (place : Place) :
    place.bytes.length = place.held.length + place.stream.incoming.length :=
  List.length_append

theorem skip_bytes (place : Place) (count : Nat) :
    (place.skip count).bytes = place.bytes.drop count := by
  rw [bytes, bytes, List.drop_append]
  rfl

variable {machine : HttpClientMachine} {config : HttpConfig} {begin_ : Bool}
  {place between behind : Place}

theorem filled_left {data : Str} {stream : SocketStream}
    (filled : Filled config place begin_ data stream) :
    data.length + stream.incoming.length = place.bytes.length ∧
      stream.connected = place.stream.connected := by
  rw [bytes_length]
  cases filled with
  | held => exact ⟨rfl, rfl⟩
  | read =>
      have within := place.stream.arriving_le (config.buffSize - place.held.length)
      refine ⟨?_, rfl⟩
      rw [List.length_append, List.length_take, SocketStream.advance_incoming, List.length_drop]
      omega

theorem size_line_left (line : SizeLine machine config begin_ place behind) :
    behind.bytes.length ≤ place.bytes.length ∧
      behind.stream.connected = place.stream.connected := by
  induction line with
  | ends filled _ left =>
      have kept := filled_left filled
      rw [bytes_length, left, List.length_drop]
      exact ⟨by omega, kept.2⟩
  | @goesOn _ _ between _ _ _ filled _ left _ _ _ _ induction =>
      have kept := filled_left filled
      have within := bytes_length between
      rw [left, List.length_drop] at within
      exact ⟨by omega, induction.2.trans kept.2⟩

theorem filled_of_asks {bytes : Str} {stream : SocketStream}
    (connected : place.stream.connected = true)
    (taken : (if (!begin_ || decide (place.held.length = 0)) = true then
      place.stream.read (config.buffSize - place.held.length) else ([], place.stream)) =
        (bytes, stream))
    (some : ¬((!begin_ || decide (place.held.length = 0)) = true ∧ bytes.length = 0)) :
    Filled config place begin_ (place.held ++ bytes) stream := by
  have within := place.stream.arriving_le (config.buffSize - place.held.length)
  by_cases asks : (!begin_ || decide (place.held.length = 0)) = true
  · rw [if_pos asks, SocketStream.read_open connected] at taken
    cases taken
    refine .read ?_ ?_
    · intro begins
      rw [begins] at asks
      exact List.length_eq_zero_iff.mp (of_decide_eq_true asks)
    · by_contra none
      apply some
      refine ⟨asks, ?_⟩
      rw [List.length_take]
      omega
  · rw [if_neg asks] at taken
    cases taken
    rw [Bool.not_eq_true, Bool.or_eq_false_iff, Bool.not_eq_false'] at asks
    rw [asks.1, List.append_nil]
    exact .held fun empty => of_decide_eq_false asks.2 (List.length_eq_zero_iff.mpr empty)

theorem recv_chunk_size_filled {data : Str} {stream : SocketStream}
    (connected : place.stream.connected = true)
    (filled : Filled config place begin_ data stream) (rounds : Nat) :
    recvChunkSize machine config (rounds + 1) begin_ place.stream place.held place.parser =
      place.parser.execute machine data true >>= fun executed =>
        if executed.2.hasError machine then .ok (none, stream.close)
        else if (data.drop executed.1).length = config.buffSize then .ok (none, stream.close)
        else if executed.2.isFinished machine then
          .ok (some (executed.2, data.drop executed.1), stream)
        else recvChunkSize machine config rounds false stream (data.drop executed.1) executed.2 := by
  rw [recvChunkSize]
  cases filled with
  | held some =>
      have holds : ¬place.held.length = 0 := fun none => some (List.length_eq_zero_iff.mp none)
      simp only [Bool.not_true, Bool.false_or, decide_eq_true_eq, holds, false_and, if_false,
        List.append_nil]
  | read asks some =>
      have asked : (!begin_ || decide (place.held.length = 0)) = true := by
        cases begin_ with
        | false => rfl
        | true => rw [asks rfl]; rfl
      have within := place.stream.arriving_le (config.buffSize - place.held.length)
      have length : ¬(place.stream.incoming.take
          (place.stream.arriving (config.buffSize - place.held.length))).length = 0 := by
        rw [List.length_take]
        omega
      simp only [asked, if_true, SocketStream.read_open connected, length, and_false, if_false]

theorem size_line_of_recv (rounds : Nat) :
    ∀ {begin_ : Bool} {place behind : Place}, place.stream.connected = true →
      recvChunkSize machine config rounds begin_ place.stream place.held place.parser =
        .ok (some (behind.parser, behind.held), behind.stream) →
      SizeLine machine config begin_ place behind := by
  induction rounds with
  | zero =>
      intro begin_ place behind _ received
      cases received
  | succ rounds induction =>
      intro begin_ place behind connected received
      have round := received
      rw [recvChunkSize] at received
      generalize taken : (if (!begin_ || decide (place.held.length = 0)) = true then
        place.stream.read (config.buffSize - place.held.length) else ([], place.stream)) = pair
        at received
      rcases pair with ⟨bytes, stream⟩
      dsimp only at received
      split at received
      · cases received
      · rename_i some
        have filled := filled_of_asks connected taken some
        rw [recv_chunk_size_filled connected filled] at round
        rcases bind_eq_ok round with ⟨⟨nparse, parser⟩, ran, checked⟩
        dsimp only at checked
        split at checked
        · cases checked
        · rename_i failed
          have correct := Bool.eq_false_of_not_eq_true failed
          split at checked
          · cases checked
          · rename_i full
            split at checked
            · rename_i finished
              obtain ⟨same, rfl⟩ := Prod.mk.inj (Except.ok.inj checked)
              obtain ⟨rfl, left⟩ := Prod.mk.inj (Option.some.inj same)
              exact .ends filled ran left.symm correct (left ▸ full) finished
            · rename_i unfinished
              have open_ : stream.connected = true := (filled_left filled).2.trans connected
              let between : Place := ⟨stream, (place.held ++ bytes).drop nparse, parser⟩
              have later : SizeLine machine config false between behind := induction open_ checked
              have left : between.held = (place.held ++ bytes).drop nparse := rfl
              exact .goesOn filled ran left correct full (Bool.eq_false_of_not_eq_true unfinished)
                later

theorem recv_of_size_line (line : SizeLine machine config begin_ place behind) :
    ∀ {rounds : Nat}, place.stream.connected = true →
      place.stream.incoming.length + begin_.toNat < rounds →
      recvChunkSize machine config rounds begin_ place.stream place.held place.parser =
        .ok (some (behind.parser, behind.held), behind.stream) := by
  induction line with
  | ends filled ran left correct room finished =>
      intro rounds connected enough
      obtain ⟨rounds, rfl⟩ := Nat.exists_eq_succ_of_ne_zero (Nat.ne_of_gt (Nat.zero_lt_of_lt enough))
      rw [recv_chunk_size_filled connected filled, ran, bind_ok]
      dsimp only
      rw [left] at room
      rw [correct, if_neg Bool.false_ne_true, if_neg room, if_pos finished, left]
  | @goesOn begin_ place between behind data nparse filled ran left correct room unfinished later
      induction =>
      intro rounds connected enough
      obtain ⟨rounds, rfl⟩ := Nat.exists_eq_succ_of_ne_zero (Nat.ne_of_gt (Nat.zero_lt_of_lt enough))
      have fewer : between.stream.incoming.length + 0 < rounds := by
        generalize between.stream = stream at filled
        cases filled with
        | held =>
            rw [Bool.toNat_true] at enough
            omega
        | read _ some =>
            have within := place.stream.arriving_le (config.buffSize - place.held.length)
            rw [SocketStream.advance_incoming, List.length_drop]
            omega
      rw [recv_chunk_size_filled connected filled, ran, bind_ok]
      dsimp only
      rw [left] at room
      rw [correct, if_neg Bool.false_ne_true, if_neg room, unfinished, if_neg Bool.false_ne_true,
        ← left]
      exact induction ((filled_left filled).2.trans connected) fewer

/-- The inner loop of a chunk finds the end of the size line where the table does. -/
theorem recv_chunk_size_iff (connected : place.stream.connected = true) :
    recvChunkSize machine config (place.stream.incoming.length + 2) true place.stream place.held
        place.parser = .ok (some (behind.parser, behind.held), behind.stream) ↔
      SizeLine machine config true place behind :=
  ⟨size_line_of_recv _ connected, fun line => recv_of_size_line line connected (by
    rw [Bool.toNat_true]; omega)⟩

end Place

section Payloads

variable {config : HttpConfig}

theorem recv_left_whole (rounds : Nat) :
    ∀ {stream after : SocketStream} {body grown : Str} {left : Int}, stream.connected = true →
      recvLeft config rounds stream body left = .ok (some grown, after) →
      grown.length = body.length + left.toNat ∧ left.toNat ≤ stream.incoming.length := by
  induction rounds with
  | zero =>
      intro stream after body grown left connected read
      rw [recvLeft] at read
      split at read
      · cases read
      · cases read
        exact ⟨by omega, by omega⟩
  | succ rounds induction =>
      intro stream after body grown left connected read
      rw [recvLeft] at read
      split at read
      · have most := stream.arriving_le (min left.toNat config.buffSize)
        rw [SocketStream.read_open connected] at read
        generalize stream.arriving (min left.toNat config.buffSize) = count at most read
        have bytes : (stream.incoming.take count).length = count := by
          rw [List.length_take]
          omega
        have still : (stream.advance count).connected = true := connected
        dsimp only at read
        rw [bytes] at read
        split at read
        · cases read
        · have rest := induction still read
          rw [List.length_append, bytes, SocketStream.advance_incoming, List.length_drop] at rest
          exact ⟨by omega, by omega⟩
      · cases read
        exact ⟨by omega, by omega⟩

/-- The rest of a payload is read when it is there. -/
theorem recv_left_takes (room : 0 < config.buffSize) (rounds : Nat) :
    ∀ {stream : SocketStream} {left : Nat} (body : Str), stream.connected = true →
      left ≤ rounds → left ≤ stream.incoming.length →
      recvLeft config rounds stream body left =
        .ok (some (body ++ stream.incoming.take left), stream.advance left) := by
  induction rounds with
  | zero =>
      intro stream left body _ enough _
      obtain rfl : left = 0 := by omega
      rw [recvLeft, if_neg (by omega), List.take_zero, List.append_nil, SocketStream.advance_zero]
  | succ rounds induction =>
      intro stream left body connected enough there
      rw [recvLeft]
      by_cases none : left = 0
      · subst none
        rw [if_neg (by omega), List.take_zero, List.append_nil, SocketStream.advance_zero]
      have positive : 0 < stream.arriving (min left config.buffSize) :=
        SocketStream.arriving_pos (by omega) (by omega)
      have within := stream.arriving_le (min left config.buffSize)
      rw [if_pos (by omega), Int.toNat_natCast, SocketStream.read_open connected]
      generalize stream.arriving (min left config.buffSize) = count at positive within
      have bytes : (stream.incoming.take count).length = count := by
        rw [List.length_take]
        omega
      have short : count ≤ left := by omega
      have less : (left : Int) - count = (left - count : Nat) := by omega
      have rest : left - count ≤ (stream.advance count).incoming.length := by
        rw [SocketStream.advance_incoming, List.length_drop]
        omega
      dsimp only
      rw [bytes, if_neg (by omega), less,
        @induction (stream.advance count) (left - count) _ connected (by omega) rest,
        SocketStream.advance_advance, SocketStream.advance_incoming, List.append_assoc,
        ← List.take_add, Nat.add_sub_cancel' short]

theorem checked_int_value {contentLen whole : Int} (checked : checkedInt contentLen = .ok whole) :
    whole = contentLen ∧ contentLen < 2 ^ 31 := by
  rw [checkedInt] at checked
  split at checked
  · rename_i inside
    exact ⟨(Except.ok.inj checked).symm, inside.2⟩
  · cases checked

theorem append_data_length {contentLen : Int} {body held after : Str}
    (appended : appendData body held contentLen = .ok after)
    (inside : contentLen + 2 ≤ held.length) :
    0 ≤ contentLen ∧ after.length = body.length + contentLen.toNat := by
  rw [appendData] at appended
  split at appended
  · cases appended
  · cases appended
    rw [List.length_append, List.length_take]
    omega

theorem drop_crlf_length {body after : Str} (dropped : dropCrlf body = .ok after) :
    after.length + 2 = body.length := by
  rw [dropCrlf] at dropped
  split at dropped
  · cases dropped
  · cases dropped
    rw [List.length_take]
    omega

namespace Place

variable {contentLen : Int} {place : Place} {body : Str}

theorem recv_payload_takes (room : 0 < config.buffSize) (connected : place.stream.connected = true)
    (payload : HasPayload contentLen place) (body : Str) :
    recvPayload config contentLen place.stream body place.held =
      .ok (some (body ++ place.bytes.take contentLen.toNat,
        (place.skip (contentLen + 2).toNat).held), (place.skip (contentLen + 2).toNat).stream) := by
  obtain ⟨nonneg, narrow, there⟩ := payload
  obtain ⟨size, rfl⟩ := Int.eq_ofNat_of_zero_le nonneg
  have whole : ((size : Int) + 2).toNat = size + 2 := by omega
  rw [bytes_length] at there
  rw [recvPayload, checkedInt, if_pos (by omega), bind_ok, Int.toNat_natCast, whole, skip, bytes]
  by_cases inside : (size : Int) + 2 ≤ place.held.length
  · have none : size + 2 - place.held.length = 0 := by omega
    rw [if_pos inside, appendData, if_neg (by omega), bind_ok, none, SocketStream.advance_zero,
      Int.toNat_natCast, List.take_append_of_le_length (by omega)]
  · have left : (size : Int) - place.held.length + 2 = (size + 2 - place.held.length : Nat) := by
      omega
    have rest : size + 2 - place.held.length ≤ place.stream.incoming.length := by omega
    rw [if_neg inside, left]
    dsimp only
    rw [Int.toNat_natCast,
      recv_left_takes room _ (body ++ place.held) connected (Nat.le_refl _) rest, bind_ok]
    have line : body ++ place.held ++
        place.stream.incoming.take (size + 2 - place.held.length) =
          body ++ (place.held ++ place.stream.incoming).take (size + 2) := by
      rw [List.append_assoc, List.take_append, List.take_of_length_le (show place.held.length ≤ size + 2 by omega)]
    have taken : ((place.held ++ place.stream.incoming).take (size + 2)).length = size + 2 := by
      rw [List.length_take, List.length_append]
      omega
    dsimp only
    rw [line, dropCrlf, if_neg (by rw [List.length_append]; omega), bind_ok, List.length_append,
      taken, List.take_append, List.take_of_length_le (by omega), List.take_take,
      List.drop_of_length_le (by omega)]
    have size_ : min (body.length + (size + 2) - 2 - body.length) (size + 2) = size := by omega
    rw [size_]

/-- Nothing else is taken off, except when the body already has bytes and the length is -1. -/
theorem payload_of_recv (connected : place.stream.connected = true)
    (start : body = [] ∨ 0 ≤ contentLen) {taken : Str × Str} {last : SocketStream}
    (received : recvPayload config contentLen place.stream body place.held =
      .ok (some taken, last)) : HasPayload contentLen place := by
  rcases bind_eq_ok received with ⟨whole, checked, read⟩
  rcases checked_int_value checked with ⟨same, narrow⟩
  rw [same] at read
  split at read
  · rename_i inside
    rcases bind_eq_ok read with ⟨grown, appended, _⟩
    have nonneg := (append_data_length appended inside).1
    exact ⟨nonneg, narrow, by rw [bytes_length]; omega⟩
  · rename_i outside
    rcases bind_eq_ok read with ⟨⟨got, between⟩, left, dropped⟩
    cases got with
    | none => cases dropped
    | some got =>
        rcases bind_eq_ok dropped with ⟨cut, shortened, _⟩
        have length := recv_left_whole _ connected left
        have shorter := drop_crlf_length shortened
        rw [List.length_append] at length
        have nonneg : 0 ≤ contentLen := by
          rcases start with rfl | nonneg
          · rw [List.length_nil] at length
            omega
          · exact nonneg
        exact ⟨nonneg, narrow, by rw [bytes_length]; omega⟩

end Place
end Payloads
end ChatServer.Http
