import ChatServer.Http.WSSession

/-!
# What one round of the receiver does

Each read takes exactly the bytes of its field, however the stream cuts them. A data frame is
added to the message if it is not empty, the message stays below the limit, and its size and the
indices of its bytes are `int`; otherwise the loop ends without a message.
-/

namespace ChatServer.Http

set_option autoImplicit false

open WordBytes Splice

variable {stream : Stream} {rest : Str}

theorem read_or_takes {bytes : Str} (front : stream.incoming = bytes ++ rest) (filled : bytes ≠ [])
    (small : bytes.length < 2 ^ 31) :
    ∃ after, (∀ next, readOr stream bytes.length next = next bytes after) ∧
      after.incoming = rest ∧ after.outgoing = stream.outgoing := by
  have positive := List.length_pos_iff.mpr filled
  rcases Stream.read_fix_buffer_takes stream bytes rest front (by omega) with
    ⟨after, read, incoming, outgoing⟩
  refine ⟨after, fun next => ?_, incoming, outgoing⟩
  rw [readOr, read, bind_ok, int32_of_small small]
  simp only
  rw [if_neg (by omega)]

/-- The result of `readFixSize` is an `int`: an empty buffer and a very large one look like an
error. -/
theorem read_or_breaks {bytes : Str} (front : stream.incoming = bytes ++ rest)
    (lost : bytes = [] ∨ 2 ^ 31 ≤ bytes.length) (bounded : bytes.length < 2 ^ 32) :
    ∃ after, ∀ next, readOr stream bytes.length next = .ok (.broken after) := by
  rcases Stream.read_fix_buffer_takes stream bytes rest front (by omega) with ⟨after, read, _⟩
  refine ⟨after, fun next => ?_⟩
  have negative : int32 bytes.length ≤ 0 := by
    rcases lost with empty | wide
    · rw [empty]
      decide
    · rw [int32_overflow (by omega) (by omega)]
      omega
  rw [readOr, read, bind_ok]
  simp only
  rw [if_pos negative]

theorem read_length_takes {size : Nat} (bounded : size < 2 ^ 63)
    (front : stream.incoming = lengthBytes (payloadField size) size ++ rest) :
    ∃ after, (∀ next, readLength (payloadField size) stream next = next size after) ∧
      after.incoming = rest ∧ after.outgoing = stream.outgoing := by
  by_cases short : size < 126
  · have field := payload_field_short short
    rw [lengthBytes, if_neg field.2.1, if_neg field.2.2, List.nil_append] at front
    refine ⟨stream, fun next => ?_, front, rfl⟩
    rw [readLength, if_neg field.2.1, if_neg field.2.2, field.1]
  · by_cases half : size < 65536
    · have field : payloadField size = 126 := by rw [payloadField, if_neg short, if_pos half]
      rw [field, lengthBytes, if_pos rfl] at front
      have filled : toLE 2 (byteswap 2 size) ≠ [] := by simp [toLE]
      rcases read_or_takes front filled (by simp) with ⟨after, read, incoming, outgoing⟩
      rw [to_le_length] at read
      refine ⟨after, fun next => ?_, incoming, outgoing⟩
      rw [field, readLength, if_pos rfl, read, swapped_length 2 size (by omega)]
    · have field : payloadField size = 127 := by rw [payloadField, if_neg short, if_neg half]
      rw [field, lengthBytes, if_neg (by decide), if_pos rfl] at front
      have filled : toLE 8 (byteswap 8 size) ≠ [] := by simp [toLE]
      rcases read_or_takes front filled (by simp) with ⟨after, read, incoming, outgoing⟩
      rw [to_le_length] at read
      refine ⟨after, fun next => ?_, incoming, outgoing⟩
      rw [field, readLength, if_neg (by decide), if_pos rfl, read, swapped_length 8 size (by omega)]

/-- The value of the local `mask` behind `readMask`. -/
def localMask : Option UInt32 → Str
  | none => [0, 0, 0, 0]
  | some key => keyBytes key

theorem read_mask_takes {key : Option UInt32} (front : stream.incoming = maskBytes key ++ rest) :
    ∃ after, (∀ next, readMask key.isSome stream next = next (localMask key) after) ∧
      after.incoming = rest ∧ after.outgoing = stream.outgoing := by
  cases key with
  | none => exact ⟨stream, fun _ => rfl, front, rfl⟩
  | some key =>
      change stream.incoming = keyBytes key ++ rest at front
      have filled : keyBytes key ≠ [] := by simp [keyBytes, toLE]
      rcases read_or_takes front filled (by simp) with ⟨after, read, incoming, outgoing⟩
      rw [key_bytes_length] at read
      exact ⟨after, read, incoming, outgoing⟩

/-- The receiver can add data to a message of `length` bytes. -/
structure Accepts (maxSize : UInt32) (length : Nat) (key : Option UInt32) (data : Str) : Prop where
  filled : data ≠ []
  below : length + data.length < maxSize.toNat
  counted : data.length < 2 ^ 31
  indexed : key.isSome → length + data.length ≤ 2 ^ 31

def Stops : Result Round → Prop
  | .ok (.broken _) => True
  | .error _ => True
  | _ => False

abbrev holding (opcode : BitVec 4) (data : Str) : Partial :=
  ⟨(opcode.toNat : Int), data, (data.length : Int)⟩

theorem unmask_masked {held data : Str} (key : UInt32) (filled : data ≠ [])
    (small : data.length < 2 ^ 31) (indexed : held.length + data.length ≤ 2 ^ 31) :
    unmask (keyBytes key) held.length data.length (held ++ xorMask (keyBytes key) data) =
      .ok (held ++ data) := by
  have positive := List.length_pos_iff.mpr filled
  have same : (xorMask (keyBytes key) data).length = data.length := xor_mask_length _ _
  have back := splice_back held (xorMask (keyBytes key) data) data same.symm
  rw [unmask, int32_of_small small, if_neg (by omega), checked_int_ok (by omega) (by omega),
    bind_ok, Int.toNat_natCast, Int.toNat_natCast, List.drop_left, ← same, List.take_length,
    xor_mask_twice, back]

theorem unmask_overflow {mask held data : Str} {length : Nat} (positive : 0 < length)
    (small : length < 2 ^ 31) (beyond : 2 ^ 31 < held.length + length) :
    unmask mask held.length length data = .error (.undefined .signedOverflow) := by
  rw [unmask, int32_of_small small, if_neg (by omega), checked_int_overflow (by omega), bind_error]

/-- The opcode of a message is that of its first frame, which is not CONTINUE. -/
def joinedOpcode (held opcode : BitVec 4) : BitVec 4 := if held = 0 then opcode else held

variable {maxSize : UInt32} {client fin : Bool} {key : Option UInt32} {held opcode : BitVec 4}
  {before data : Str}

theorem data_round_sum (short : before.length < 2 ^ 31) (bounded : data.length < 2 ^ 63) :
    (((before.length : Int) + data.length) % 2 ^ 64).toNat = before.length + data.length := by
  omega

def Joined (held opcode : BitVec 4) (before data : Str) : Partial :=
  ⟨(joinedOpcode held opcode).toNat, before ++ data, int32 (before.length + data.length)⟩

theorem joined_opcode_step :
    (if ((held.toNat : Int) = 0 ∧ opcode ≠ WSFrameHead.continueFrame) then (opcode.toNat : Int)
      else held.toNat) = (joinedOpcode held opcode).toNat := by
  by_cases first : held = 0
  · by_cases continued : opcode = WSFrameHead.continueFrame
    · simp [joinedOpcode, first, continued, WSFrameHead.continueFrame]
    · simp [joinedOpcode, first, continued]
  · have apart : (held.toNat : Int) ≠ 0 := by
      intro zero
      exact first (BitVec.eq_of_toNat_eq (by simpa using zero))
    rw [if_neg (fun both => apart both.1), joinedOpcode, if_neg first]

theorem mask_passed (allowed : client = true ∨ key.isSome = true) :
    (!client && !key.isSome) = false := by
  rcases allowed with receiver | masked
  · simp [receiver]
  · simp [masked]

/-- A data frame up to its content: the limit is checked and the message grown for it. -/
theorem data_round_reads (allowed : client = true ∨ key.isSome = true)
    (short : before.length < 2 ^ 31) (below : before.length + data.length < maxSize.toNat)
    (front : stream.incoming = lengthBytes (payloadField data.length) data.length ++
      (maskBytes key ++ maskedData key data) ++ rest) :
    ∃ middle, middle.incoming = maskedData key data ++ rest ∧ middle.outgoing = stream.outgoing ∧
      dataRound maxSize client (holding held before) (frameHead opcode fin key data.length) stream =
        readOr middle data.length (fun bytes after => do
          let joined := splice (before ++ List.replicate data.length 0) before.length bytes
          let joined ←
            if key.isSome then unmask (localMask key) before.length data.length joined
            else .ok joined
          if fin then .ok (.finished ⟨(joinedOpcode held opcode).toNat, joined⟩ after)
          else .ok (.again ⟨(joinedOpcode held opcode).toNat, joined,
            int32 (before.length + data.length)⟩ after)) := by
  have passed := mask_passed allowed
  have maxBound := maxSize.toNat_lt
  have sum := @data_round_sum before data short (by omega)
  rw [List.append_assoc] at front
  rcases read_length_takes (by omega) front with ⟨first, length, incoming, outgoing⟩
  rw [List.append_assoc] at incoming
  rcases read_mask_takes incoming with ⟨middle, mask, behind, unsent⟩
  refine ⟨middle, behind, unsent.trans outgoing, ?_⟩
  have grown := resize_grown before data.length
  have inside : ¬((before.length : Int) < 0 ∨
      ((before ++ List.replicate data.length 0).length : Int) < before.length) := by
    rw [List.length_append]
    omega
  simp only [dataRound, passed, Bool.false_eq_true, if_false, length, sum]
  rw [if_neg (by omega)]
  simp only [mask, grown, bind_ok, Int.toNat_natCast]
  rw [if_neg inside]
  simp only [joined_opcode_step]

theorem data_round_accepts (allowed : client = true ∨ key.isSome = true)
    (short : before.length < 2 ^ 31) (accepts : Accepts maxSize before.length key data)
    (front : stream.incoming = lengthBytes (payloadField data.length) data.length ++
      (maskBytes key ++ maskedData key data) ++ rest) :
    ∃ after, after.incoming = rest ∧ after.outgoing = stream.outgoing ∧
      dataRound maxSize client (holding held before) (frameHead opcode fin key data.length) stream =
        .ok (if fin then .finished ⟨(joinedOpcode held opcode).toNat, before ++ data⟩ after
          else .again (Joined held opcode before data) after) := by
  rcases data_round_reads allowed short accepts.below front with
    ⟨middle, incoming, outgoing, round⟩
  have filled : maskedData key data ≠ [] := masked_data_ne_nil accepts.filled
  have same : (maskedData key data).length = data.length := masked_data_length key data
  rcases read_or_takes incoming filled (by rw [same]; exact accepts.counted) with
    ⟨after, read, behind, unsent⟩
  refine ⟨after, behind, unsent.trans outgoing, ?_⟩
  have joined :
      splice (before ++ List.replicate data.length 0) before.length (maskedData key data) =
        before ++ maskedData key data := splice_back _ _ _ (by simp)
  rw [round, ← same, read, same]
  simp only [joined]
  cases key with
  | none => cases fin <;> simp [maskedData, Joined, bind_ok]
  | some key =>
      have plain := @unmask_masked before data key accepts.filled accepts.counted
        (accepts.indexed rfl)
      cases fin <;> simp [maskedData, Joined, localMask, plain, bind_ok]

/-- A data frame that cannot be added ends the loop. -/
theorem data_round_refuses (allowed : client = true ∨ key.isSome = true)
    (short : before.length < 2 ^ 31) (bounded : data.length < 2 ^ 63)
    (refused : ¬Accepts maxSize before.length key data)
    (front : stream.incoming = lengthBytes (payloadField data.length) data.length ++
      (maskBytes key ++ maskedData key data) ++ rest) :
    Stops (dataRound maxSize client (holding held before) (frameHead opcode fin key data.length)
      stream) := by
  have maxBound := maxSize.toNat_lt
  by_cases below : before.length + data.length < maxSize.toNat
  · rcases @data_round_reads _ _ _ _ fin _ held opcode _ _ allowed short below front with
      ⟨middle, incoming, _, round⟩
    have same : (maskedData key data).length = data.length := masked_data_length key data
    rw [round, ← same]
    by_cases lost : maskedData key data = [] ∨ 2 ^ 31 ≤ (maskedData key data).length
    · rcases read_or_breaks incoming lost (by omega) with ⟨after, breaks⟩
      rw [breaks]
      trivial
    · rw [not_or] at lost
      rcases read_or_takes incoming lost.1 (by omega) with ⟨after, read, _⟩
      rw [read, same]
      have filled : data ≠ [] := by
        intro empty
        apply lost.1
        apply List.length_eq_zero_iff.mp
        rw [same, empty, List.length_nil]
      have positive := List.length_pos_iff.mpr filled
      -- what is left is the index of the unmasking loop
      have masked : key.isSome = true ∧ 2 ^ 31 < before.length + data.length := by
        by_contra indexed
        apply refused
        refine ⟨filled, below, by omega, ?_⟩
        intro some
        by_contra beyond
        exact indexed ⟨some, by omega⟩
      have overflow (joined : Str) : unmask (localMask key) before.length data.length joined =
          .error (.undefined .signedOverflow) :=
        unmask_overflow positive (by omega) masked.2
      simp only [masked.1, if_true, overflow, bind_error]
      trivial
  · rw [List.append_assoc] at front
    rcases read_length_takes (by omega) front with ⟨first, length, _⟩
    simp only [dataRound, mask_passed allowed, Bool.false_eq_true, if_false, length,
      data_round_sum short bounded]
    rw [if_pos (by omega)]
    trivial

theorem recv_round_head {head : WSFrameHead} (front : stream.incoming = head.bytes ++ rest)
    (current : Partial) :
    ∃ after, after.incoming = rest ∧ after.outgoing = stream.outgoing ∧
      recvRound maxSize client current stream =
        (if head.opcode = WSFrameHead.ping then do
          let sent ← wsPong after
          if sent.value ≤ 0 then .ok (.broken sent.stream) else .ok (.again current sent.stream)
        else if head.opcode = WSFrameHead.pong then .ok (.again current after)
        else if head.opcode = WSFrameHead.continueFrame ∨ head.opcode = WSFrameHead.textFrame ∨
            head.opcode = WSFrameHead.binFrame then
          dataRound maxSize client current head after
        else .ok (.again current after)) := by
  rcases read_or_takes front (by simp [WSFrameHead.bytes]) (by simp) with
    ⟨after, read, incoming, outgoing⟩
  refine ⟨after, incoming, outgoing, ?_⟩
  rw [WSFrameHead.bytes_length] at read
  simp only [recvRound, read, WSFrameHead.of_bytes_bytes]

theorem ws_control_sends (stream : Stream) (opcode : BitVec 4) :
    ∃ after, wsControl stream opcode = .ok ⟨2, after, false⟩ ∧
      after.outgoing = stream.outgoing ++ frameBytes opcode true none [] ∧
      after.incoming = stream.incoming := by
  rcases stream.write_fix_buffer_sends (frameHead opcode true none 0).bytes with
    ⟨after, wrote, outgoing, incoming⟩
  refine ⟨after, ?_, ?_, incoming⟩
  · simp only [wsControl]
    rw [show (⟨opcode, false, false, false, true, 0, false⟩ : WSFrameHead) =
      frameHead opcode true none 0 from rfl, wrote, bind_ok, WSFrameHead.bytes_length,
      int32_of_small (by decide)]
    rfl
  · rw [outgoing]
    simp [frameBytes, lengthBytes, payloadField, maskBytes, maskedData]

/-- A control frame costs two bytes of the stream and nothing else: only its head is read. -/
theorem recv_round_control {flags : WSFrameHead}
    (control : flags.opcode = WSFrameHead.close ∨ flags.opcode = WSFrameHead.ping ∨
      flags.opcode = WSFrameHead.pong)
    (front : stream.incoming = flags.bytes ++ rest) (current : Partial) :
    ∃ after, recvRound maxSize client current stream = .ok (.again current after) ∧
      after.incoming = rest := by
  rcases @recv_round_head _ _ maxSize client _ front current with ⟨middle, incoming, _, round⟩
  rcases control with close | ping | pong
  · refine ⟨middle, ?_, incoming⟩
    rw [round, close]
    rfl
  · rcases ws_control_sends middle WSFrameHead.pong with ⟨after, sent, _, behind⟩
    refine ⟨after, ?_, behind.trans incoming⟩
    rw [round, if_pos ping, wsPong, sent, bind_ok]
    rfl
  · refine ⟨middle, ?_, incoming⟩
    rw [round, pong]
    rfl

/-- The opcodes of data frames. -/
def Content (opcode : BitVec 4) : Prop :=
  opcode = WSFrameHead.continueFrame ∨ opcode = WSFrameHead.textFrame ∨
    opcode = WSFrameHead.binFrame

theorem recv_round_data {head : WSFrameHead} (content : Content head.opcode)
    (front : stream.incoming = head.bytes ++ rest) (current : Partial) :
    ∃ after, after.incoming = rest ∧ after.outgoing = stream.outgoing ∧
      recvRound maxSize client current stream = dataRound maxSize client current head after := by
  rcases @recv_round_head _ _ maxSize client _ front current with
    ⟨after, incoming, outgoing, round⟩
  refine ⟨after, incoming, outgoing, ?_⟩
  rw [round]
  rcases content with opcode | opcode | opcode <;> rw [opcode] <;> rfl

theorem recv_round_accepts (content : Content opcode) (allowed : client = true ∨ key.isSome = true)
    (short : before.length < 2 ^ 31) (accepts : Accepts maxSize before.length key data)
    (front : stream.incoming = frameBytes opcode fin key data ++ rest) :
    ∃ after, after.incoming = rest ∧ after.outgoing = stream.outgoing ∧
      recvRound maxSize client (holding held before) stream =
        .ok (if fin then .finished ⟨(joinedOpcode held opcode).toNat, before ++ data⟩ after
          else .again (Joined held opcode before data) after) := by
  rw [frameBytes, List.append_assoc] at front
  rcases @recv_round_data _ _ maxSize client (frameHead opcode fin key data.length) content front
    (holding held before) with ⟨middle, incoming, unsent, round⟩
  rcases @data_round_accepts _ _ _ _ fin _ held opcode _ _ allowed short accepts incoming with
    ⟨after, behind, outgoing, joined⟩
  exact ⟨after, behind, outgoing.trans unsent, round.trans joined⟩

theorem recv_round_refuses (content : Content opcode) (allowed : client = true ∨ key.isSome = true)
    (short : before.length < 2 ^ 31) (bounded : data.length < 2 ^ 63)
    (refused : ¬Accepts maxSize before.length key data)
    (front : stream.incoming = frameBytes opcode fin key data ++ rest) :
    Stops (recvRound maxSize client (holding held before) stream) := by
  rw [frameBytes, List.append_assoc] at front
  rcases @recv_round_data _ _ maxSize client (frameHead opcode fin key data.length) content front
    (holding held before) with ⟨middle, incoming, _, round⟩
  rw [round]
  exact data_round_refuses allowed short bounded refused incoming

theorem recv_round_negative {current : Partial} (content : Content opcode)
    (allowed : client = true ∨ key.isSome = true) (bounded : data.length < 2 ^ 63)
    (negative : current.curLen < 0)
    (front : stream.incoming = frameBytes opcode fin key data ++ rest) :
    Stops (recvRound maxSize client current stream) := by
  have maxBound := maxSize.toNat_lt
  rw [frameBytes, List.append_assoc] at front
  rcases @recv_round_data _ _ maxSize client (frameHead opcode fin key data.length) content front
    current with ⟨middle, incoming, _, round⟩
  rw [List.append_assoc] at incoming
  rcases read_length_takes bounded incoming with ⟨first, length, behind, _⟩
  rw [List.append_assoc] at behind
  rcases read_mask_takes behind with ⟨last, mask, _⟩
  rw [round]
  simp only [dataRound, mask_passed allowed, Bool.false_eq_true, if_false, length]
  split
  · trivial
  · rw [mask, resize, if_neg (by omega), bind_ok, if_pos (Or.inl negative)]
    trivial

end ChatServer.Http
