import ChatServer.Http.WSRounds
import ChatServer.Lib.Recorded

/-!
# What the receiver does to the bytes of a message

`WSRecvMessage` once more, with a record of every `resize` of `data` and of every byte of `data`
that `recv` stores or the mask is applied to. A length so large that `cur_len + length` wraps
passes the check of the limit: `data` shrinks, and `readFixSize` is given an address behind it,
but its `int64_t left` is negative, so that it stores nothing and returns a negative `int`.
-/

namespace ChatServer.Http

set_option autoImplicit false

open WordBytes Splice Recorded

/-- A `resize` of `data`, or one byte `data[index]` that is stored or unmasked, with the size that
`data` has then, for a frame of this length behind `cur_len` bytes. -/
inductive Access where
  | resized (size : Nat)
  | payload (curLen : Int) (length : Nat) (index : Int) (size : Nat)
  deriving DecidableEq

/-- `cur_len` is converted to `uint64_t` for `cur_len + length`. -/
def Wraps (curLen : Int) (length : Nat) : Prop := 2 ^ 64 ≤ curLen % 2 ^ 64 + length

def Access.Safe (maxSize : UInt32) : Access → Prop
  | .resized size => size < maxSize.toNat
  | .payload curLen length index size => 0 ≤ index ∧ index < size ∧ ¬Wraps curLen length

abbrev Recording (Value : Type) := Recorded Access Fault Value

def readOrRecorded (stream : Stream) (length : Nat) (next : Str → Stream → Recording Round) :
    Recording Round := do
  let (rt, bytes, stream) ← quiet (stream.readFixBuffer length)
  if rt ≤ 0 then pure (.broken stream) else next bytes stream

def readLengthRecorded (payload : BitVec 7) (stream : Stream)
    (next : Nat → Stream → Recording Round) : Recording Round :=
  if payload = 126 then
    readOrRecorded stream 2 fun len stream => next (byteswap 2 (ofLE len)) stream
  else if payload = 127 then
    readOrRecorded stream 8 fun len stream => next (byteswap 8 (ofLE len)) stream
  else next payload.toNat stream

def readMaskRecorded (mask : Bool) (stream : Stream) (next : Str → Stream → Recording Round) :
    Recording Round :=
  if mask then readOrRecorded stream 4 next else next [0, 0, 0, 0] stream

/-- `data[cur_len + i]` for each `i` below `count`. -/
def touched (curLen : Int) (length count size : Nat) : List Access :=
  (List.range count).map fun (i : Nat) => .payload curLen length (curLen + i) size

/-- The bytes up to the `i` at which `i < (int)length` ends the loop. -/
def unmaskRecorded (mask : Str) (curLen : Int) (length : Nat) (data : Str) : Recording Str :=
  (quiet (unmask mask curLen length data)).after
    (touched curLen length (int32 length).toNat data.length)

/-- From `data.resize` on. `&data[cur_len]` is an address: nothing is stored there yet. -/
def payloadRecorded (held : Partial) (head : WSFrameHead) (length total : Nat) (mask : Str)
    (stream : Stream) : Recording Round :=
  .after [.resized total] do
    let data ← quiet (resize held.data total)
    let (rt, bytes, stream) ← quiet (stream.readFixBuffer length)
    .after (touched held.curLen length bytes.length data.length) do
      if rt ≤ 0 then pure (.broken stream)
      else
        let data := splice data held.curLen.toNat bytes
        let data ← if head.mask then unmaskRecorded mask held.curLen length data else pure data
        let opcode :=
          if held.opcode = 0 ∧ head.opcode ≠ WSFrameHead.continueFrame then
            (head.opcode.toNat : Int)
          else held.opcode
        if head.fin then pure (.finished ⟨opcode, data⟩ stream)
        else pure (.again ⟨opcode, data, int32 (held.curLen + length)⟩ stream)

def dataRoundRecorded (maxSize : UInt32) (client : Bool) (held : Partial) (head : WSFrameHead)
    (stream : Stream) : Recording Round :=
  if !client && !head.mask then pure (.broken stream)
  else
    readLengthRecorded head.payload stream fun length stream =>
      let total := ((held.curLen + length) % 2 ^ 64).toNat
      if maxSize.toNat ≤ total then pure (.broken stream)
      else
        readMaskRecorded head.mask stream fun mask stream =>
          payloadRecorded held head length total mask stream

def recvRoundRecorded (maxSize : UInt32) (client : Bool) (held : Partial) (stream : Stream) :
    Recording Round :=
  readOrRecorded stream 2 fun bytes stream =>
    let head := WSFrameHead.ofBytes bytes
    if head.opcode = WSFrameHead.ping then do
      let sent ← quiet (wsPong stream)
      if sent.value ≤ 0 then pure (.broken sent.stream) else pure (.again held sent.stream)
    else if head.opcode = WSFrameHead.pong then pure (.again held stream)
    else if head.opcode = WSFrameHead.continueFrame ∨ head.opcode = WSFrameHead.textFrame ∨
        head.opcode = WSFrameHead.binFrame then
      dataRoundRecorded maxSize client held head stream
    else pure (.again held stream)

def recvLoopRecorded (maxSize : UInt32) (client : Bool) :
    Nat → Partial → Stream → Recording Received
  | 0, _, _ => quiet (.error (.undefined .endlessLoop))
  | rounds + 1, held, stream => do
      match ← recvRoundRecorded maxSize client held stream with
      | .again held stream => recvLoopRecorded maxSize client rounds held stream
      | .finished message stream => pure ⟨some message, stream, false⟩
      | .broken stream => pure ⟨none, stream, true⟩

def wsRecvRecorded (maxSize : UInt32) (client : Bool) (stream : Stream) : Recording Received :=
  recvLoopRecorded maxSize client (stream.incoming.length + 1) ⟨0, [], 0⟩ stream

structure Held (maxSize : UInt32) (held : Partial) : Prop where
  size : held.curLen = held.data.length
  below : held.data = [] ∨ held.data.length < maxSize.toNat

def RoundSafe (maxSize : UInt32) (left : Nat) : Round → Prop
  | .again held stream => Held maxSize held ∧ stream.incoming.length < left
  | .finished message _ => message.data.length < maxSize.toNat
  | .broken _ => True

/-- The round that `dataRound` gives up on when it forms the address is one that ends the loop. -/
def Follows (plain : Result Round) (round : Round) : Prop :=
  plain = .ok round ∨ plain = .error (.undefined .outOfBounds) ∧ ∃ after, round = .broken after

def Covers (maxSize : UInt32) (left : Nat) (plain : Result Round) (run : Recording Round) : Prop :=
  Yields (Access.Safe maxSize) (fun round => RoundSafe maxSize left round ∧ Follows plain round) run

variable {maxSize : UInt32} {client : Bool} {left length total : Nat} {stream : Stream}
  {held : Partial} {head : WSFrameHead} {mask : Str}

theorem broken_covers (after : Stream) :
    Covers maxSize left (.ok (.broken after)) (pure (.broken after)) :=
  yields_pure ⟨trivial, Or.inl rfl⟩

theorem again_covers {after : Stream} (kept : Held maxSize held)
    (shorter : after.incoming.length < left) :
    Covers maxSize left (.ok (.again held after)) (pure (.again held after)) :=
  yields_pure ⟨⟨kept, shorter⟩, Or.inl rfl⟩

theorem read_or_covers {plain : Str → Stream → Result Round}
    {recorded : Str → Stream → Recording Round} (small : length < 2 ^ 63)
    (each : ∀ bytes after, bytes.length = length →
      bytes.length + after.incoming.length = stream.incoming.length →
      Covers maxSize left (plain bytes after) (recorded bytes after)) :
    Covers maxSize left (readOr stream length plain) (readOrRecorded stream length recorded) := by
  rcases stream.read_fix_buffer_took small with ⟨rt, bytes, after, read, took⟩
  rw [readOr, readOrRecorded, read, bind_ok]
  apply yields_quiet_bind rfl
  dsimp only
  by_cases lost : rt ≤ 0
  · rw [if_pos lost, if_pos lost]
    exact broken_covers after
  · rw [if_neg lost, if_neg lost]
    apply each bytes after (took.full (by omega))
    rw [took.front, List.length_append]

theorem read_length_covers {payload : BitVec 7} {plain : Nat → Stream → Result Round}
    {recorded : Nat → Stream → Recording Round}
    (each : ∀ length after, length < 2 ^ 64 →
      after.incoming.length ≤ stream.incoming.length →
      Covers maxSize left (plain length after) (recorded length after)) :
    Covers maxSize left (readLength payload stream plain)
      (readLengthRecorded payload stream recorded) := by
  rw [readLength, readLengthRecorded]
  by_cases half : payload = 126
  · rw [if_pos half, if_pos half]
    apply read_or_covers (by omega)
    intro bytes after _ behind
    have bounded := byteswap_lt 2 (ofLE bytes)
    exact each _ after (by omega) (by omega)
  · rw [if_neg half, if_neg half]
    by_cases full : payload = 127
    · rw [if_pos full, if_pos full]
      apply read_or_covers (by omega)
      intro bytes after _ behind
      have bounded := byteswap_lt 8 (ofLE bytes)
      exact each _ after (by omega) (by omega)
    · rw [if_neg full, if_neg full]
      have bounded := payload.isLt
      exact each _ stream (by omega) (Nat.le_refl _)

theorem read_mask_covers {masked : Bool} {plain : Str → Stream → Result Round}
    {recorded : Str → Stream → Recording Round}
    (each : ∀ mask after, after.incoming.length ≤ stream.incoming.length →
      Covers maxSize left (plain mask after) (recorded mask after)) :
    Covers maxSize left (readMask masked stream plain)
      (readMaskRecorded masked stream recorded) := by
  cases masked with
  | false => exact each _ stream (Nat.le_refl _)
  | true =>
      apply read_or_covers (by omega)
      intro bytes after _ behind
      exact each bytes after (by omega)

/-- What `dataRound` does behind the mask. -/
def payloadRound (held : Partial) (head : WSFrameHead) (length total : Nat) (mask : Str)
    (stream : Stream) : Result Round := do
  let data ← resize held.data total
  if held.curLen < 0 ∨ data.length < held.curLen then .error (.undefined .outOfBounds)
  else
    readOr stream length fun bytes stream => do
      let data := splice data held.curLen.toNat bytes
      let data ← if head.mask then unmask mask held.curLen length data else .ok data
      let opcode :=
        if held.opcode = 0 ∧ head.opcode ≠ WSFrameHead.continueFrame then
          (head.opcode.toNat : Int)
        else held.opcode
      if head.fin then .ok (.finished ⟨opcode, data⟩ stream)
      else .ok (.again ⟨opcode, data, int32 (held.curLen + length)⟩ stream)

theorem touched_safe {size first count : Nat} (inside : first + count ≤ size)
    (exact : first + length < 2 ^ 64) :
    ∀ access ∈ touched first length count size, access.Safe maxSize := by
  intro access member
  rcases List.mem_map.mp member with ⟨i, below, same⟩
  have limit := List.mem_range.mp below
  rw [← same]
  refine ⟨by omega, by omega, ?_⟩
  rw [Wraps]
  omega

theorem unmask_keeps_size {data : Str} {first : Nat} (inside : first + length ≤ data.length)
    (indexed : first + length ≤ 2 ^ 31) :
    ∃ plain, unmask mask first length data = .ok plain ∧ plain.length = data.length := by
  by_cases empty : int32 length ≤ 0
  · refine ⟨data, ?_, rfl⟩
    rw [unmask, if_pos empty]
  · have small : length < 2 ^ 31 := by
      by_contra wide
      rw [int32_overflow (by omega) (by omega)] at empty
      omega
    rw [int32_of_small small] at empty
    rw [unmask, int32_of_small small, if_neg empty, checked_int_ok (by omega) (by omega), bind_ok,
      Int.toNat_natCast, Int.toNat_natCast]
    refine ⟨_, rfl, ?_⟩
    apply splice_length_inside
    rw [xor_mask_length, List.length_take, List.length_drop]
    omega

theorem unmask_recorded {data : Str} {first : Nat} (inside : first + length ≤ data.length)
    (indexed : first + length ≤ 2 ^ 31) :
    ∃ plain, unmask mask first length data = .ok plain ∧ plain.length = data.length ∧
      Yields (Access.Safe maxSize) (fun value => value = plain)
        (unmaskRecorded mask first length data) := by
  rcases @unmask_keeps_size length mask data first inside indexed with ⟨plain, done, kept⟩
  have count : (int32 length).toNat ≤ length := by
    by_cases small : length < 2 ^ 31
    · rw [int32_of_small small, Int.toNat_natCast]
    · have above := (int32_bounds length).2
      omega
  refine ⟨plain, done, kept, ?_⟩
  apply yields_after (touched_safe (by omega) (by omega))
  rw [done]
  exact yields_pure rfl

theorem joined_covers {opcode : Int} {data : Str} {curLen : Int} (fin : Bool)
    (below : data.length < maxSize.toNat) (size : curLen = data.length)
    (shorter : stream.incoming.length < left) :
    Covers maxSize left
      (if fin then .ok (.finished ⟨opcode, data⟩ stream)
        else .ok (.again ⟨opcode, data, curLen⟩ stream))
      (if fin then pure (.finished ⟨opcode, data⟩ stream)
        else pure (.again ⟨opcode, data, curLen⟩ stream)) := by
  cases fin with
  | true => exact yields_pure ⟨below, Or.inl rfl⟩
  | false => exact again_covers ⟨size, Or.inr below⟩ shorter

theorem int32_wrapped (wide : 2 ^ 64 - 2 ^ 31 ≤ length) (bounded : length < 2 ^ 64) :
    int32 length < 0 := by
  have turned := int32_add_turns ((length : Int) - 2 ^ 64) (2 ^ 32)
  have same : (length : Int) - 2 ^ 64 + 2 ^ 32 * 2 ^ 32 = length := by ring
  rw [same] at turned
  rw [turned, int32_eq (by omega) (by omega)]
  omega

/-- A sum that does not wrap: `data` gets exactly the bytes of the frame, at its end. -/
theorem payload_exact_covers (limit : maxSize.toNat ≤ 2 ^ 31)
    (below : held.data.length + length < maxSize.toNat)
    (size : held.curLen = held.data.length) (shorter : stream.incoming.length < left) :
    Covers maxSize left (payloadRound held head length (held.data.length + length) mask stream)
      (payloadRecorded held head length (held.data.length + length) mask stream) := by
  rcases held with ⟨opcode, data, curLen⟩
  dsimp only at below size
  subst size
  have grown := resize_grown data length
  have whole : (data ++ List.replicate length (0 : UInt8)).length = data.length + length := by
    rw [List.length_append, List.length_replicate]
  generalize data ++ List.replicate length (0 : UInt8) = room at grown whole
  have inside : ¬((data.length : Int) < 0 ∨ (room.length : Int) < data.length) := by omega
  rcases stream.read_fix_buffer_took (show length < 2 ^ 63 by omega) with
    ⟨rt, bytes, after, read, took⟩
  have short := took.short
  have behind := congrArg List.length took.front
  rw [List.length_append] at behind
  apply yields_after
  · intro access member
    rw [List.mem_singleton.mp member]
    exact below
  · apply yields_quiet_bind grown
    apply yields_quiet_bind read
    apply yields_after (touched_safe (by omega) (by omega))
    rw [payloadRound]
    dsimp only
    rw [grown, bind_ok, if_neg inside, readOr, read, bind_ok]
    dsimp only
    by_cases lost : rt ≤ 0
    · rw [if_pos lost, if_pos lost]
      exact broken_covers after
    · have full := took.full (by omega)
      have filled : (splice room data.length bytes).length = data.length + length := by
        rw [splice_length_inside _ _ _ (by omega)]
        exact whole
      have began : after.incoming.length < left := by omega
      have indexed : data.length + length ≤ 2 ^ 31 := by omega
      have counted : int32 ((data.length : Int) + length) = (data.length + length : Nat) := by
        rw [int32_eq (by omega) (by omega), Int.natCast_add]
      rw [if_neg lost, if_neg lost, Int.toNat_natCast]
      cases head.mask with
      | false =>
          apply joined_covers head.fin (by rw [filled]; exact below) _ began
          rw [counted, filled]
      | true =>
          rcases @unmask_recorded maxSize length mask (splice room data.length bytes) data.length
            (Nat.le_of_eq filled.symm) indexed with ⟨plain, unmasked, kept, recorded⟩
          simp only [if_true, unmasked, bind_ok]
          apply yields_bind recorded
          intro value same
          rw [same]
          apply joined_covers head.fin (by rw [kept, filled]; exact below) _ began
          rw [counted, kept, filled]

/-- A sum that wraps is below the size of `data`. Nothing is stored, and the loop ends. -/
theorem payload_wrapped_covers (size : held.curLen = held.data.length)
    (short : held.data.length < 2 ^ 31) (bounded : length < 2 ^ 64)
    (wrapped : 2 ^ 64 ≤ held.data.length + length)
    (sum : total = held.data.length + length - 2 ^ 64) (below : total < maxSize.toNat) :
    Covers maxSize left (payloadRound held head length total mask stream)
      (payloadRecorded held head length total mask stream) := by
  have shrunk : resize held.data total = .ok (held.data.take total) := by
    rw [resize, if_neg (by omega), Int.toNat_natCast, Nat.sub_eq_zero_of_le (by omega)]
    simp
  have cut : (held.data.take total).length = total := by
    rw [List.length_take]
    omega
  have negative := @int32_wrapped length (by omega) bounded
  have outside : held.curLen < 0 ∨ ((held.data.take total).length : Int) < held.curLen := by
    omega
  apply yields_after
  · intro access member
    rw [List.mem_singleton.mp member]
    exact below
  · apply yields_quiet_bind shrunk
    apply yields_quiet_bind (stream.read_fix_buffer_wide (show 2 ^ 63 ≤ length by omega))
    apply yields_after
    · intro access member
      cases member
    · dsimp only
      rw [if_pos (by omega)]
      apply yields_pure
      refine ⟨trivial, Or.inr ⟨?_, stream, rfl⟩⟩
      rw [payloadRound, shrunk, bind_ok, if_pos outside]

theorem data_round_covers (limit : maxSize.toNat ≤ 2 ^ 31) (kept : Held maxSize held)
    (shorter : stream.incoming.length < left) :
    Covers maxSize left (dataRound maxSize client held head stream)
      (dataRoundRecorded maxSize client held head stream) := by
  have short : held.data.length < 2 ^ 31 := by
    rcases kept.below with empty | below
    · rw [empty]
      decide
    · omega
  rw [dataRound, dataRoundRecorded]
  by_cases unmasked : (!client && !head.mask) = true
  · rw [if_pos unmasked, if_pos unmasked]
    exact broken_covers stream
  · rw [if_neg unmasked, if_neg unmasked]
    apply read_length_covers
    intro length first bounded behind
    dsimp only
    rw [kept.size]
    generalize sum : (((held.data.length : Int) + length) % 2 ^ 64).toNat = total
    by_cases above : maxSize.toNat ≤ total
    · rw [if_pos above, if_pos above]
      exact broken_covers first
    · rw [if_neg above, if_neg above]
      apply read_mask_covers
      intro mask second later
      have started : second.incoming.length < left := by omega
      rw [← kept.size]
      by_cases wrapped : 2 ^ 64 ≤ held.data.length + length
      · exact payload_wrapped_covers kept.size short bounded wrapped (by omega) (by omega)
      · have exact : total = held.data.length + length := by omega
        rw [exact] at above ⊢
        exact payload_exact_covers limit (by omega) kept.size started

theorem recv_round_covers (limit : maxSize.toNat ≤ 2 ^ 31) (kept : Held maxSize held) :
    Covers maxSize stream.incoming.length (recvRound maxSize client held stream)
      (recvRoundRecorded maxSize client held stream) := by
  apply read_or_covers (by omega)
  intro bytes after two behind
  have shorter : after.incoming.length < stream.incoming.length := by omega
  dsimp only
  split
  · rcases ws_control_sends after WSFrameHead.pong with ⟨answered, sent, _, same⟩
    rw [wsPong, sent, bind_ok]
    apply yields_quiet_bind rfl
    dsimp only
    rw [if_neg (by omega), if_neg (by omega)]
    exact again_covers kept (by rw [same]; exact shorter)
  · split
    · exact again_covers kept shorter
    · split
      · exact data_round_covers limit kept shorter
      · exact again_covers kept shorter

/-- What a call has returned, and what it returns where the address is given up on. -/
def CallSafe (maxSize : UInt32) (plain : Result Received) (received : Received) : Prop :=
  (∀ message, received.message = some message → message.data.length < maxSize.toNat) ∧
    (plain = .ok received ∨
      plain = .error (.undefined .outOfBounds) ∧ received.message = none)

theorem recv_loop_safe (limit : maxSize.toNat ≤ 2 ^ 31) (rounds : Nat) :
    ∀ {held : Partial} {stream : Stream}, Held maxSize held →
      stream.incoming.length < rounds →
      Yields (Access.Safe maxSize) (CallSafe maxSize (recvLoop maxSize client rounds held stream))
        (recvLoopRecorded maxSize client rounds held stream) := by
  induction rounds with
  | zero =>
      intro held stream _ enough
      omega
  | succ rounds induction =>
      intro held stream kept enough
      rw [recvLoop, recvLoopRecorded]
      apply yields_bind (recv_round_covers limit kept)
      rintro round ⟨safe, follows⟩
      cases round with
      | again held after =>
          rcases follows with same | ⟨_, _, broken⟩
          · rw [same, bind_ok]
            exact induction safe.1 (by have shorter := safe.2; omega)
          · cases broken
      | finished message after =>
          rcases follows with same | ⟨_, _, broken⟩
          · rw [same, bind_ok]
            apply yields_pure
            refine ⟨?_, Or.inl rfl⟩
            intro other returned
            cases returned
            exact safe
          · cases broken
      | broken after =>
          apply yields_pure
          constructor
          · intro message returned
            cases returned
          · rcases follows with same | ⟨stopped, _⟩
            · rw [same, bind_ok]
              exact Or.inl rfl
            · rw [stopped, bind_error]
              exact Or.inr ⟨rfl, rfl⟩

theorem nothing_held : Held maxSize ⟨0, [], 0⟩ := ⟨rfl, Or.inl rfl⟩

/-- Whatever arrives, every byte lies inside `data` at that moment, `data` stays below the limit,
no byte belongs to a frame whose length wraps, and a message that is returned is below the limit. -/
theorem ws_recv_message_accesses (maxSize : UInt32) (client : Bool) (stream : Stream)
    (limit : maxSize.toNat ≤ 2 ^ 31) :
    (∀ access ∈ (wsRecvRecorded maxSize client stream).events, access.Safe maxSize) ∧
      ∃ received, (wsRecvRecorded maxSize client stream).result = .ok received ∧
        CallSafe maxSize (wsRecvMessage maxSize client stream) received :=
  recv_loop_safe limit (stream.incoming.length + 1) nothing_held (Nat.lt_succ_self _)

/-- Two bytes, and then a frame that claims to have 2^64 - 1. -/
theorem ws_recv_message_accesses_wrapped :
    let stream : Stream :=
      ⟨[0x02, 0x02, 0x61, 0x62, 0x80, 0x7f, 0xff, 0xff, 0xff, 0xff, 0xff, 0xff, 0xff, 0xff, 0x63],
        [], fun _ => 0, 4096, by decide⟩
    (2147483648 : UInt32).toNat ≤ 2 ^ 31 ∧
      (∀ access ∈ (wsRecvRecorded 2147483648 true stream).events, access.Safe 2147483648) ∧
        ∃ received, (wsRecvRecorded 2147483648 true stream).result = .ok received ∧
          CallSafe 2147483648 (wsRecvMessage 2147483648 true stream) received :=
  ⟨by decide, ws_recv_message_accesses 2147483648 true _ (by decide)⟩

example :
    (wsRecvRecorded 2147483648 true
      ⟨[0x02, 0x02, 0x61, 0x62, 0x80, 0x7f, 0xff, 0xff, 0xff, 0xff, 0xff, 0xff, 0xff, 0xff, 0x63],
        [], fun _ => 0, 4096, by decide⟩).events =
      [.resized 2, .payload 0 2 0 2, .payload 0 2 1 2, .resized 1] := by
  decide +kernel

end ChatServer.Http
