import ChatServer.Http2.FramePayload

/-!
# Payloads are decoded from their own bytes

Two runs of `parseFrom` on frames that differ only in the stream identifier and in flags
without influence on the layout should decode the same payload, from its own bytes, or
reject it when it is too short.
-/

namespace ChatServer.Http2

set_option autoImplicit false

open ChatServer.ByteArray

def layoutFlags (type : UInt8) : UInt8 :=
  match frameType type with
  | some .data => flagPadded
  | some .headers => flagPadded ||| flagPriority
  | some .pushPromise => flagPadded
  | _ => 0

structure SameLayout (header other : FrameHeader) : Prop where
  type : other.type = header.type
  length : other.length = header.length
  flags : other.flags &&& layoutFlags header.type = header.flags &&& layoutFlags header.type

/-- A run of `parseFrom` on a stream that starts with such a frame. What memory held before, how
the bytes were cut and what follows them is free. -/
structure Run (header : FrameHeader) (payload : Str) where
  fresh : Nat → Nat → UInt8
  stream : Stream
  sent : FrameHeader
  rest : Str
  same : SameLayout header sent
  front : stream.incoming = headerBytes sent ++ (payload ++ rest)

/-- The payload object of the frame that is returned, or `none` for the null pointer. -/
def Run.decoded {header : FrameHeader} {payload : Str} (run : Run header payload) :
    Result (Option (Option IFrame)) := do
  let (frame, _) ← FrameCodec.parseFrom run.fresh run.stream
  .ok (frame.map (·.data))

/-- What is decoded depends on the payload alone. -/
structure PayloadOnly (header : FrameHeader) (payload : Str) : Prop where
  same : ∃ result, ∀ run : Run header payload, run.decoded = .ok result
  inside : ∀ (run : Run header payload) (object : IFrame),
    run.decoded = .ok (some (some object)) → LaidOut header payload object
  short : payload.length < needed header payload →
    ∀ run : Run header payload, run.decoded = .ok none

section Transfer

variable {header other : FrameHeader} {payload : Str}

theorem flag_of_mask {first second mask flag : UInt8} (same : first &&& mask = second &&& mask)
    (covered : mask &&& flag = flag) : first &&& flag = second &&& flag := by
  rw [← covered, ← UInt8.and_assoc, same, UInt8.and_assoc]

theorem padded_same (same : SameLayout header other)
    (padType : frameType header.type = some .data ∨ frameType header.type = some .headers ∨
      frameType header.type = some .pushPromise) : other.padded = header.padded := by
  have covered : layoutFlags header.type &&& flagPadded = flagPadded := by
    unfold layoutFlags
    rcases padType with typed | typed | typed <;> rw [typed] <;> decide
  rw [FrameHeader.padded, FrameHeader.padded, flag_of_mask same.flags covered]

theorem has_priority_same (same : SameLayout header other)
    (typed : frameType header.type = some .headers) : other.hasPriority = header.hasPriority := by
  have covered : layoutFlags header.type &&& flagPriority = flagPriority := by
    rw [layoutFlags, typed]
    decide
  rw [FrameHeader.hasPriority, FrameHeader.hasPriority, flag_of_mask same.flags covered]

theorem needed_same (same : SameLayout header other) :
    needed other payload = needed header payload := by
  unfold needed
  rw [same.type]
  cases typed : frameType header.type with
  | none => rfl
  | some type =>
      cases type with
      | data => rw [padded_same same (.inl typed)]
      | headers => rw [padded_same same (.inr (.inl typed)), has_priority_same same typed]
      | pushPromise => rw [padded_same same (.inr (.inr typed))]
      | _ => rfl

theorem zero_pad_same (same : SameLayout header other) :
    ZeroPad other payload ↔ ZeroPad header payload := by
  unfold ZeroPad
  rw [same.type]
  apply and_congr_right
  intro padType
  rw [padded_same same padType]

theorem stale_read_same (same : SameLayout header other) :
    StaleRead other payload ↔ StaleRead header payload := by
  rw [StaleRead, StaleRead, same.type]

theorem laid_out_same {object : IFrame} (same : SameLayout header other)
    (laid : LaidOut header payload object) : LaidOut other payload object := by
  obtain ⟨typed, sized, conforms, split⟩ := laid
  have sameTyped : frameType other.type = some (frameTypeOf object) := by rw [same.type, typed]
  cases object with
  | data f =>
      have padded := padded_same same (.inl typed)
      refine ⟨sameTyped, ?_, ?_, ?_⟩
      · simpa only [Sized, payloadBytes, same.length, padded] using sized
      · simpa only [Conforms, padded] using conforms
      · simpa only [payloadBytes, padded] using split
  | headers f =>
      have padded := padded_same same (.inr (.inl typed))
      have priority := has_priority_same same typed
      refine ⟨sameTyped, ?_, ?_, ?_⟩
      · simpa only [Sized, payloadBytes, same.length, padded, priority] using sized
      · simpa only [Conforms, padded, priority] using conforms
      · simpa only [payloadBytes, padded, priority] using split
  | pushPromised f =>
      have padded := padded_same same (.inr (.inr typed))
      refine ⟨sameTyped, ?_, ?_, ?_⟩
      · simpa only [Sized, payloadBytes, same.length, padded] using sized
      · simpa only [Conforms, padded] using conforms
      · simpa only [payloadBytes, padded] using split
  | settings f => exact ⟨sameTyped, by simpa only [Sized, same.length] using sized, conforms, split⟩
  | goAway f => exact ⟨sameTyped, by simpa only [Sized, same.length] using sized, conforms, split⟩
  | priority f => exact ⟨sameTyped, sized, conforms, split⟩
  | rstStream f => exact ⟨sameTyped, sized, conforms, split⟩
  | ping f => exact ⟨sameTyped, sized, conforms, split⟩
  | windowUpdate f => exact ⟨sameTyped, sized, conforms, split⟩

end Transfer

section Runs

variable {header : FrameHeader} {payload : Str}

def Run.only (header : FrameHeader) (payload : Str) : Run header payload where
  fresh := fun _ _ => 0
  stream := ⟨headerBytes header ++ payload, [], fun _ => 0, 4096, by decide⟩
  sent := header
  rest := []
  same := ⟨rfl, rfl, rfl⟩
  front := by rw [List.append_nil]

/-- A run decodes what the `switch` makes of a buffer with the payload. -/
theorem run_loaded (run : Run header payload) (length : header.length.toNat = payload.length) :
    ∃ ba, Loaded run.sent payload ba ∧ run.sent.length.toNat = payload.length ∧
      (∀ frame, readFrame run.sent ba = .ok frame → run.decoded = .ok (frame.map (·.data))) ∧
      ∀ cause, readFrame run.sent ba = .error (.undefined cause) →
        run.decoded = .error (.undefined cause) := by
  have sentLength : run.sent.length.toNat = payload.length := by rw [run.same.length, length]
  obtain ⟨ba, next, loaded, _, returned, undefined⟩ :=
    parse_from_loaded run.fresh run.front sentLength
  refine ⟨ba, loaded, sentLength, ?_, ?_⟩
  · intro frame read
    rw [Run.decoded, returned frame read]
    rfl
  · intro cause read
    rw [Run.decoded, undefined cause read]
    rfl

theorem decoded_laid_out (run : Run header payload) (length : header.length.toNat = payload.length)
    {object : IFrame} (laid : LaidOut header payload object) (notZero : ¬ZeroPad header payload) :
    run.decoded = .ok (some (some object)) := by
  obtain ⟨ba, loaded, sentLength, returned, _⟩ := run_loaded run length
  rw [← zero_pad_same run.same] at notZero
  exact returned _ (read_laid_out loaded sentLength (laid_out_same run.same laid) notZero)

theorem decoded_rejected (run : Run header payload) (length : header.length.toNat = payload.length)
    (short : payload.length < needed header payload) (notStale : ¬StaleRead header payload) :
    run.decoded = .ok none := by
  obtain ⟨ba, loaded, sentLength, returned, _⟩ := run_loaded run length
  rw [← stale_read_same run.same] at notStale
  rw [← needed_same run.same] at short
  exact returned _ (read_rejected loaded sentLength short notStale)

theorem decoded_stale (run : Run header payload) (length : header.length.toNat = payload.length)
    (stale : StaleRead header payload) : ∃ object, run.decoded = .ok (some (some object)) := by
  obtain ⟨ba, loaded, sentLength, returned, _⟩ := run_loaded run length
  rw [← stale_read_same run.same] at stale
  obtain ⟨object, read⟩ := read_stale loaded sentLength stale
  exact ⟨object, returned _ read⟩

theorem decoded_null (run : Run header payload) (length : header.length.toNat = payload.length)
    (zero : ZeroPad header payload) : run.decoded = .error (.undefined .nullDeref) := by
  obtain ⟨ba, loaded, sentLength, _, undefined⟩ := run_loaded run length
  rw [← zero_pad_same run.same] at zero
  exact undefined _ (read_null loaded sentLength zero)

/-- CONTINUATION and unknown types have no payload object. -/
theorem decoded_without_reader (run : Run header payload)
    (length : header.length.toNat = payload.length)
    (noReader : frameType header.type = some .continuation ∨ frameType header.type = none) :
    run.decoded = .ok (if frameType header.type = none then none else some none) := by
  obtain ⟨ba, _, _, returned, _⟩ := run_loaded run length
  have sameType := run.same.type
  rcases noReader with typed | typed
  · have read : readFrame run.sent ba = .ok (some ⟨run.sent, none⟩) := by
      rw [readFrame, sameType, typed]
    rw [typed, returned _ read]
    rfl
  · have read : readFrame run.sent ba = .ok none := by
      rw [readFrame, sameType, typed]
    rw [typed, returned _ read]
    rfl

theorem stale_short (stale : StaleRead header payload) :
    payload.length < needed header payload := by
  obtain ⟨type, typed, _, below⟩ := stale
  rw [needed, typed]
  cases type with
  | data => exact absurd below (Nat.not_lt_zero _)
  | headers => exact absurd below (Nat.not_lt_zero _)
  | settings => exact absurd below (Nat.not_lt_zero _)
  | pushPromise => exact absurd below (Nat.not_lt_zero _)
  | continuation => exact absurd below (Nat.not_lt_zero _)
  | _ => exact below

theorem payload_only_of_safe (length : header.length.toNat = payload.length)
    (notStale : ¬StaleRead header payload) (notZero : ¬ZeroPad header payload) :
    PayloadOnly header payload := by
  by_cases short : payload.length < needed header payload
  · have rejected (run : Run header payload) := decoded_rejected run length short notStale
    refine ⟨⟨none, rejected⟩, ?_, fun _ => rejected⟩
    intro run object decoded
    rw [rejected run] at decoded
    cases decoded
  by_cases noReader : frameType header.type = some .continuation ∨ frameType header.type = none
  · refine ⟨⟨_, fun run => decoded_without_reader run length noReader⟩, ?_,
      fun below => absurd below short⟩
    intro run object decoded
    rw [decoded_without_reader run length noReader] at decoded
    split_ifs at decoded <;> cases decoded
  · obtain ⟨type, typed⟩ : ∃ type, frameType header.type = some type :=
      Option.ne_none_iff_exists'.mp fun none => noReader (.inr none)
    obtain ⟨object, laid⟩ := laid_out_of_enough typed
      (fun same => noReader (.inl (by rw [typed, same]))) length (Nat.not_lt.mp short)
    refine ⟨⟨_, fun run => decoded_laid_out run length laid notZero⟩, ?_,
      fun below => absurd below short⟩
    intro run other decoded
    rw [decoded_laid_out run length laid notZero] at decoded
    cases decoded
    exact laid

/-- A payload is decoded from its own bytes, or rejected, except when it is shorter than a fixed
size that is read, or ends with empty padding at the end of a block. -/
theorem payload_only_iff (header : FrameHeader) (payload : Str)
    (length : header.length.toNat = payload.length) :
    PayloadOnly header payload ↔ ¬StaleRead header payload ∧ ¬ZeroPad header payload := by
  constructor
  · intro only
    constructor
    · intro stale
      obtain ⟨object, decoded⟩ := decoded_stale (Run.only header payload) length stale
      rw [only.short (stale_short stale)] at decoded
      cases decoded
    · intro zero
      obtain ⟨result, same⟩ := only.same
      have decoded := decoded_null (Run.only header payload) length zero
      rw [same] at decoded
      cases decoded
  · rintro ⟨notStale, notZero⟩
    exact payload_only_of_safe length notStale notZero

end Runs

theorem payload_only_ping :
    PayloadOnly { length := 8, type := 0x6 } [1, 2, 3, 4, 5, 6, 7, 8] := by
  apply (payload_only_iff _ _ rfl).mpr
  constructor
  · rintro ⟨type, typed, _, below⟩
    cases typed
    exact absurd below (by decide)
  · rintro ⟨padType, _⟩
    exact absurd padType (by decide)

/-- A PRIORITY frame with four bytes of payload: the weight is taken from behind them. -/
def shortPriority (flags : UInt8) : Run { length := 4, type := 0x2 } [0, 0, 0, 0] where
  fresh := fun _ _ => 0
  stream := ⟨headerBytes { length := 4, type := 0x2, flags } ++ [0, 0, 0, 0], [], fun _ => 0, 4096,
    by decide⟩
  sent := { length := 4, type := 0x2, flags }
  rest := []
  same := ⟨rfl, rfl, by rw [show layoutFlags 0x2 = 0 from rfl, UInt8.and_zero, UInt8.and_zero]⟩
  front := by rw [List.append_nil]

theorem short_priority_decoded (flags : UInt8) :
    (shortPriority flags).decoded = .ok (some (some (.priority { weight := flags }))) := by
  obtain ⟨ba, loaded, _, returned, _⟩ := run_loaded (shortPriority flags) rfl
  have front : ba.unread = priorityBytes { weight := flags } ++ netBytes 4 (word31 0 0).toNat := by
    have behind : (headerBytes { length := 4, type := 0x2, flags }).drop 4 =
        [flags] ++ netBytes 4 (word31 0 0).toNat := by
      rw [headerBytes, List.drop_left' (net_bytes_length 4 _)]
      rfl
    have zeros : netBytes 4 (word31 0 0).toNat = [0, 0, 0, 0] := by decide
    rw [loaded.front, if_neg (List.cons_ne_nil _ _), priorityBytes, List.append_assoc, ← behind]
    exact congrArg (· ++ _) zeros.symm
  have read : readFrame (shortPriority flags).sent ba =
      .ok (some ⟨(shortPriority flags).sent, some (.priority { weight := flags })⟩) :=
    read_frame_spec loaded.inv loaded.order rfl front trivial trivial trivial
  rw [returned _ read]
  rfl

/-- The weight is the flags byte of the header, and nothing is rejected. -/
theorem short_priority_leaks :
    (shortPriority 0).decoded = .ok (some (some (.priority { weight := 0 }))) ∧
      (shortPriority 1).decoded = .ok (some (some (.priority { weight := 1 }))) ∧
      ¬PayloadOnly { length := 4, type := 0x2 } [0, 0, 0, 0] := by
  have first := short_priority_decoded 0
  have second := short_priority_decoded 1
  refine ⟨first, second, ?_⟩
  intro only
  obtain ⟨result, same⟩ := only.same
  rw [same] at first second
  cases first.symm.trans second

end ChatServer.Http2
