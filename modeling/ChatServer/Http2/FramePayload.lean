import ChatServer.Http2.FrameRoundTrip

/-!
# What the `switch` makes of a payload

A payload that is long enough for its type is the layout of one object, which is what its
reader returns. The others are rejected, with two exceptions. The readers of fixed size do not
look at the length in the header: behind a payload that is too short for them they find the
rest of the header, and read on. And padding of no bytes is read through a null `m_cur` when
the payload ends with a block.
-/

namespace ChatServer.Http2

set_option autoImplicit false

open ChatServer.ByteArray
open WordBytes

theorem net_bytes_of (bytes : Str) :
    ofLE bytes.reverse < 256 ^ bytes.length ∧ netBytes bytes.length (ofLE bytes.reverse) = bytes := by
  have bound := of_le_lt bytes.reverse
  have back := to_le_of_le bytes.reverse
  rw [List.length_reverse] at bound back
  refine ⟨bound, ?_⟩
  rw [netBytes, fixedBytes, if_neg (by decide), back, List.reverse_reverse]

theorem net32_of {bytes : Str} (length : bytes.length = 4) :
    ∃ value : UInt32, netBytes 4 value.toNat = bytes := by
  obtain ⟨bound, spelled⟩ := net_bytes_of bytes
  rw [length] at bound spelled
  refine ⟨UInt32.ofNat (ofLE bytes.reverse), ?_⟩
  rw [UInt32.toNat_ofNat', Nat.mod_eq_of_lt (by omega), spelled]

theorem net16_of {bytes : Str} (length : bytes.length = 2) :
    ∃ value : UInt16, netBytes 2 value.toNat = bytes := by
  obtain ⟨bound, spelled⟩ := net_bytes_of bytes
  rw [length] at bound spelled
  refine ⟨UInt16.ofNat (ofLE bytes.reverse), ?_⟩
  rw [UInt16.toNat_ofNat', Nat.mod_eq_of_lt (by omega), spelled]

theorem word_of {bytes : Str} (length : bytes.length = 4) :
    ∃ high low, netBytes 4 (word31 high low).toNat = bytes := by
  obtain ⟨value, spelled⟩ := net32_of length
  exact ⟨high1 value, low31 value, by rw [word31_split, spelled]⟩

theorem priority_of {bytes : Str} (length : bytes.length = 5) :
    ∃ frame, priorityBytes frame = bytes := by
  have fourLength : (bytes.take 4).length = 4 := by
    rw [List.length_take]
    omega
  have lastLength : (bytes.drop 4).length = 1 := by
    rw [List.length_drop]
    omega
  obtain ⟨high, low, four⟩ := word_of fourLength
  obtain ⟨weight, last⟩ := List.length_eq_one_iff.mp lastLength
  refine ⟨⟨low, high, weight⟩, ?_⟩
  rw [priorityBytes, PriorityFrame.eStreamDep, four, ← last, List.take_append_drop]

theorem item_of {bytes : Str} (length : bytes.length = 6) : ∃ item, itemBytes item = bytes := by
  have frontLength : (bytes.take 2).length = 2 := by
    rw [List.length_take]
    omega
  have backLength : (bytes.drop 2).length = 4 := by
    rw [List.length_drop]
    omega
  obtain ⟨identifier, front⟩ := net16_of frontLength
  obtain ⟨value, back⟩ := net32_of backLength
  refine ⟨⟨identifier, value⟩, ?_⟩
  rw [itemBytes, front, back, List.take_append_drop]

theorem items_of (count : Nat) : ∀ bytes : Str, 6 * count ≤ bytes.length →
    ∃ (items : List SettingsItem) (ignored : Str), items.length = count ∧
      bytes = items.flatMap itemBytes ++ ignored := by
  induction count with
  | zero => exact fun bytes _ => ⟨[], bytes, rfl, rfl⟩
  | succ count induction =>
      intro bytes enough
      have firstLength : (bytes.take 6).length = 6 := by
        rw [List.length_take]
        omega
      obtain ⟨item, first⟩ := item_of firstLength
      obtain ⟨items, ignored, counted, split⟩ := induction (bytes.drop 6) (by
        rw [List.length_drop]
        omega)
      refine ⟨item :: items, ignored, by rw [List.length_cons, counted], ?_⟩
      rw [List.flatMap_cons, first, List.append_assoc, ← split, List.take_append_drop]

/-- Enough bytes for pad length, padding and what stands between. -/
theorem padded_of {padded : Bool} {middleLength : Nat} {payload : Str}
    (enough : (if padded then 1 + (payload.headD 0).toNat else 0) + middleLength ≤ payload.length) :
    ∃ pad middle data padding, payload = paddedBytes padded pad middle data padding ∧
      middle.length = middleLength ∧ PadFits padded pad padding := by
  unfold paddedBytes PadFits
  cases padded with
  | false =>
      rw [if_neg Bool.false_ne_true, Nat.zero_add] at enough
      refine ⟨0, payload.take middleLength, payload.drop middleLength, [], ?_, ?_, rfl, rfl⟩
      · rw [if_neg Bool.false_ne_true, List.take_append_drop]
      · rw [List.length_take, Nat.min_eq_left enough]
  | true =>
      cases payload with
      | nil =>
          rw [if_pos rfl, List.length_nil] at enough
          omega
      | cons pad tail =>
          simp only [if_true, List.headD_cons, List.length_cons] at enough ⊢
          let count := tail.length - middleLength - pad.toNat
          refine ⟨pad, tail.take middleLength, (tail.drop middleLength).take count,
            (tail.drop middleLength).drop count, ?_, ?_, ?_⟩
          · rw [List.take_append_drop, List.take_append_drop, List.singleton_append]
          · rw [List.length_take]
            omega
          · rw [List.length_drop, List.length_drop]
            omega

/-- The payload is the layout of the object; payloads of fixed size and settings may be followed
by bytes that are ignored. -/
structure LaidOut (header : FrameHeader) (payload : Str) (object : IFrame) : Prop where
  typed : frameType header.type = some (frameTypeOf object)
  sized : Sized header object
  conforms : Conforms header object
  split : ∃ ignored, payload = payloadBytes header object ++ ignored

def needed (header : FrameHeader) (payload : Str) : Nat :=
  let pad := if header.padded then 1 + (payload.headD 0).toNat else 0
  match frameType header.type with
  | some .data => pad + 0
  | some .headers => pad + if header.hasPriority then 5 else 0
  | some .priority => 5
  | some .rstStream => 4
  | some .settings => 0
  | some .pushPromise => pad + 4
  | some .ping => 8
  | some .goaway => 8
  | some .windowUpdate => 4
  | some .continuation => 0
  | none => 0

theorem cut_front {payload : Str} {count : Nat} (enough : count ≤ payload.length) :
    (payload.take count).length = count ∧ payload = payload.take count ++ payload.drop count := by
  refine ⟨?_, (List.take_append_drop count payload).symm⟩
  rw [List.length_take, Nat.min_eq_left enough]

def fixedSize : FrameType → Nat
  | .priority => 5
  | .rstStream => 4
  | .ping => 8
  | .goaway => 8
  | .windowUpdate => 4
  | _ => 0

/-- Any bytes of that size are the layout of an object, the debug data of GOAWAY apart. -/
theorem fixed_of (header : FrameHeader) {type : FrameType} (fixed : 0 < fixedSize type)
    {front : Str} (length : front.length = fixedSize type) (data : Str)
    (sized : header.length.toNat - 8 = data.length) :
    ∃ object, frameTypeOf object = type ∧ Sized header object ∧ Conforms header object ∧
      payloadBytes header object = front ++ if type = .goaway then data else [] := by
  cases type with
  | priority =>
      obtain ⟨frame, spelled⟩ := priority_of length
      exact ⟨.priority frame, rfl, trivial, trivial, spelled.trans (List.append_nil _).symm⟩
  | rstStream =>
      obtain ⟨errorCode, spelled⟩ := net32_of length
      exact ⟨.rstStream ⟨errorCode⟩, rfl, trivial, trivial, spelled.trans (List.append_nil _).symm⟩
  | ping =>
      exact ⟨.ping ⟨front, length⟩, rfl, trivial, trivial, (List.append_nil _).symm⟩
  | goaway =>
      obtain ⟨firstLength, split⟩ := cut_front (show 4 ≤ front.length by rw [length]; decide)
      have lastLength : (front.drop 4).length = 4 := by
        rw [List.length_drop, length]
        rfl
      obtain ⟨r, lastStreamId, first⟩ := word_of firstLength
      obtain ⟨errorCode, last⟩ := net32_of lastLength
      refine ⟨.goAway ⟨lastStreamId, r, errorCode, data⟩, rfl, sized, trivial, ?_⟩
      rw [payloadBytes, GoAwayFrame.rLastStreamId, first, last, ← List.append_assoc, ← split, if_pos rfl]
  | windowUpdate =>
      obtain ⟨r, increment, spelled⟩ := word_of length
      exact ⟨.windowUpdate ⟨r, increment⟩, rfl, trivial, trivial,
        spelled.trans (List.append_nil _).symm⟩
  | data => exact absurd fixed (Nat.lt_irrefl 0)
  | headers => exact absurd fixed (Nat.lt_irrefl 0)
  | settings => exact absurd fixed (Nat.lt_irrefl 0)
  | pushPromise => exact absurd fixed (Nat.lt_irrefl 0)
  | continuation => exact absurd fixed (Nat.lt_irrefl 0)

theorem laid_out_fixed {header : FrameHeader} {payload : Str} {type : FrameType}
    (typed : frameType header.type = some type) (fixed : 0 < fixedSize type)
    (length : header.length.toNat = payload.length) (enough : fixedSize type ≤ payload.length) :
    ∃ object, LaidOut header payload object := by
  obtain ⟨frontLength, split⟩ := cut_front enough
  have debug : header.length.toNat - 8 = (payload.drop 8).length := by
    rw [length, List.length_drop]
  obtain ⟨object, sameType, sized, conforms, bytes⟩ :=
    fixed_of header fixed frontLength (payload.drop 8) debug
  rw [← sameType] at typed
  by_cases goaway : type = .goaway
  · subst goaway
    rw [if_pos rfl] at bytes
    refine ⟨object, typed, sized, conforms, [], ?_⟩
    rw [bytes, List.append_nil]
    exact split
  · rw [if_neg goaway, List.append_nil] at bytes
    refine ⟨object, typed, sized, conforms, payload.drop (fixedSize type), ?_⟩
    rw [bytes]
    exact split

theorem optional_priority {header : FrameHeader} {middle : Str}
    (length : middle.length = if header.hasPriority then 5 else 0) :
    ∃ priority : PriorityFrame,
      (if header.hasPriority then priorityBytes priority else []) = middle ∧
        (header.hasPriority = false → priority = {}) := by
  cases marked : header.hasPriority with
  | false =>
      rw [marked] at length
      refine ⟨{}, ?_, fun _ => rfl⟩
      rw [if_neg Bool.false_ne_true, List.length_eq_zero_iff.mp length]
  | true =>
      rw [marked] at length
      obtain ⟨priority, spelled⟩ := priority_of length
      refine ⟨priority, spelled, ?_⟩
      intro impossible
      cases impossible

/-- A payload that is long enough is the layout of an object. -/
theorem laid_out_of_enough {header : FrameHeader} {payload : Str} {type : FrameType}
    (typed : frameType header.type = some type) (hasReader : type ≠ .continuation)
    (length : header.length.toNat = payload.length)
    (enough : needed header payload ≤ payload.length) : ∃ object, LaidOut header payload object := by
  unfold needed at enough
  rw [typed] at enough
  cases type with
  | data =>
      obtain ⟨pad, middle, data, padding, split, none, fits⟩ := padded_of enough
      rw [List.length_eq_zero_iff.mp none] at split
      refine ⟨.data ⟨pad, data, padding⟩, typed, ?_, fits, [], ?_⟩
      · exact length.trans (congrArg List.length split)
      · rw [List.append_nil]
        exact split
  | headers =>
      obtain ⟨pad, middle, data, padding, split, middleLength, fits⟩ := padded_of enough
      obtain ⟨priority, spelled, default⟩ := optional_priority middleLength
      rw [← spelled] at split
      refine ⟨.headers { pad, priority, data, padding }, typed, ?_, ⟨fits, default, rfl, rfl⟩, [], ?_⟩
      · exact length.trans (congrArg List.length split)
      · rw [List.append_nil]
        exact split
  | settings =>
      obtain ⟨items, ignored, counted, split⟩ := items_of (payload.length / 6) payload
        (Nat.mul_div_le _ _)
      refine ⟨.settings ⟨items⟩, typed, ?_, trivial, ignored, split⟩
      change header.length.toNat / 6 = items.length
      rw [length, counted]
  | pushPromise =>
      obtain ⟨pad, middle, data, padding, split, middleLength, fits⟩ := padded_of enough
      obtain ⟨r, streamId, spelled⟩ := word_of middleLength
      rw [← spelled] at split
      refine ⟨.pushPromised ⟨pad, streamId, r, data, padding⟩, typed, ?_, fits, [], ?_⟩
      · exact length.trans (congrArg List.length split)
      · rw [List.append_nil]
        exact split
  | priority => exact laid_out_fixed typed (by decide) length enough
  | rstStream => exact laid_out_fixed typed (by decide) length enough
  | ping => exact laid_out_fixed typed (by decide) length enough
  | goaway => exact laid_out_fixed typed (by decide) length enough
  | windowUpdate => exact laid_out_fixed typed (by decide) length enough
  | continuation => exact absurd rfl hasReader

/-- Padding is announced and empty, and the payload fills its last block: the reader then reads
no bytes at the end of the buffer. -/
def ZeroPad (header : FrameHeader) (payload : Str) : Prop :=
  (frameType header.type = some .data ∨ frameType header.type = some .headers ∨
    frameType header.type = some .pushPromise) ∧
  header.padded = true ∧ payload.head? = some 0 ∧ payload.length % 4096 = 0

/-- A payload that is not empty but shorter than its reader takes. -/
def StaleRead (header : FrameHeader) (payload : Str) : Prop :=
  ∃ type, frameType header.type = some type ∧ 0 < payload.length ∧ payload.length < fixedSize type

theorem loaded_front {header : FrameHeader} {payload bytes ignored : Str} {ba : ByteArray}
    (loaded : Loaded header payload ba) (split : payload = bytes ++ ignored) :
    ∃ rest, ba.unread = bytes ++ rest := by
  rw [loaded.front]
  by_cases none : payload = []
  · rw [if_pos none]
    rw [none] at split
    rw [(List.append_eq_nil_iff.mp split.symm).1]
    exact ⟨[], rfl⟩
  · rw [if_neg none, split, List.append_assoc]
    exact ⟨_, rfl⟩

theorem padded_ends {header : FrameHeader} {payload : Str} {ba : ByteArray}
    (loaded : Loaded header payload ba) (padType : frameType header.type = some .data ∨
      frameType header.type = some .headers ∨ frameType header.type = some .pushPromise)
    (notZero : ¬ZeroPad header payload) {pad : UInt8} {middle data padding : Str}
    (split : payload = paddedBytes header.padded pad middle data padding)
    (few : middle.length ≤ 5) (fits : PadFits header.padded pad padding) :
    EndsInside header.padded data padding ba payload.length := by
  apply ends_inside loaded fits
  · intro padded
    rw [padded, paddedBytes, if_pos rfl] at split
    by_cases zero : pad = 0
    · right
      rw [zero] at split
      refine ⟨by rw [split]; exact List.cons_ne_nil _ _, ?_⟩
      intro whole
      exact notZero ⟨padType, padded, by rw [split]; rfl, whole⟩
    · exact .inl zero
  · intro notPadded none
    rw [split, paddedBytes, notPadded, none, if_neg Bool.false_ne_true, List.append_nil]
    exact few

theorem read_laid_out {header : FrameHeader} {payload : Str} {object : IFrame} {ba : ByteArray}
    (loaded : Loaded header payload ba) (length : header.length.toNat = payload.length)
    (laid : LaidOut header payload object) (notZero : ¬ZeroPad header payload) :
    readFrame header ba = .ok (some ⟨header, some object⟩) := by
  obtain ⟨typed, sized, conforms, ignored, split⟩ := laid
  obtain ⟨rest, front⟩ := loaded_front loaded split
  have whole (bytes : Str) (same : header.length.toNat = bytes.length)
      (other : payload = bytes ++ ignored) : payload = bytes := by
    have lengths := congrArg List.length other
    rw [List.length_append] at lengths
    rw [List.length_eq_zero_iff.mp (show ignored.length = 0 by omega), List.append_nil] at other
    exact other
  apply read_frame_spec loaded.inv loaded.order typed front sized conforms
  cases object with
  | data f =>
      change EndsInside header.padded f.data f.padding ba header.length.toNat
      rw [length]
      exact padded_ends loaded (.inl typed) notZero (whole _ sized split) (Nat.zero_le 5) conforms
  | headers f =>
      change EndsInside header.padded f.data f.padding ba header.length.toNat
      rw [length]
      refine padded_ends loaded (.inr (.inl typed)) notZero (whole _ sized split) ?_ conforms.1
      split_ifs
      · rw [priorityBytes, List.length_append, net_bytes_length]
        exact Nat.le_refl 5
      · exact Nat.zero_le 5
  | pushPromised f =>
      change EndsInside header.padded f.data f.padding ba header.length.toNat
      rw [length]
      refine padded_ends loaded (.inr (.inr typed)) notZero (whole _ sized split) ?_ conforms
      rw [net_bytes_length]
      decide
  | priority f => trivial
  | rstStream f => trivial
  | settings f => trivial
  | ping f => trivial
  | goAway f => trivial
  | windowUpdate f => trivial

/-- Behind a payload that is not empty at least the nine bytes of the header can be read. -/
theorem loaded_long {header : FrameHeader} {payload : Str} {ba : ByteArray}
    (loaded : Loaded header payload ba) (some : payload ≠ []) : 9 ≤ ba.unread.length := by
  rw [loaded.front, if_neg some, List.length_append, List.length_drop, header_bytes_length]
  omega

theorem read_stale {header : FrameHeader} {payload : Str} {ba : ByteArray}
    (loaded : Loaded header payload ba) (length : header.length.toNat = payload.length)
    (stale : StaleRead header payload) :
    ∃ object, readFrame header ba = .ok (some ⟨header, some object⟩) := by
  obtain ⟨type, typed, positive, short⟩ := stale
  have long := loaded_long loaded (List.length_pos_iff.mp positive)
  have fixedLe : fixedSize type ≤ 8 := by cases type <;> decide
  obtain ⟨frontLength, split⟩ := cut_front (show fixedSize type ≤ ba.unread.length by omega)
  obtain ⟨object, sameType, sized, conforms, bytes⟩ :=
    fixed_of header (by omega) frontLength [] (show header.length.toNat - 8 = 0 by omega)
  have noData : (if type = .goaway then ([] : Str) else []) = [] := by split_ifs <;> rfl
  rw [noData, List.append_nil] at bytes
  refine ⟨object, ?_⟩
  apply read_frame_spec loaded.inv loaded.order (by rw [typed, sameType]) (by rw [bytes]; exact split)
    sized conforms
  cases object with
  | data f => rw [← sameType] at short; exact absurd short (Nat.not_lt_zero _)
  | headers f => rw [← sameType] at short; exact absurd short (Nat.not_lt_zero _)
  | pushPromised f => rw [← sameType] at short; exact absurd short (Nat.not_lt_zero _)
  | priority f => trivial
  | rstStream f => trivial
  | settings f => trivial
  | ping f => trivial
  | goAway f => trivial
  | windowUpdate f => trivial

theorem read_fuint32_some {ba : ByteArray} (inv : Inv ba) (order : ba.endian = .big)
    (enough : 4 ≤ ba.unread.length) : ∃ word, ba.readFuint32 = .ok (word, ba.skip 4) := by
  obtain ⟨frontLength, split⟩ := cut_front enough
  obtain ⟨word, spelled⟩ := net32_of frontLength
  rw [← spelled] at split
  have read := net32_reads word ba _ inv order split
  rw [net_bytes_length] at read
  exact ⟨word, read⟩

theorem priority_returns (start : PriorityFrame) {ba : ByteArray} (inv : Inv ba)
    (order : ba.endian = .big) (enough : ba.unread = [] ∨ 5 ≤ ba.unread.length) :
    ∃ result, start.readFrom ba = .ok result ∧ (ba.unread = [] → result.1 = false) := by
  rcases enough with empty | enough
  · refine ⟨(false, start, ba), ?_, fun _ => rfl⟩
    rw [PriorityFrame.readFrom, read_fuint32_empty inv empty]
    rfl
  · obtain ⟨frontLength, split⟩ := cut_front enough
    obtain ⟨frame, spelled⟩ := priority_of frontLength
    rw [← spelled] at split
    refine ⟨_, priority_reads frame start inv order split, ?_⟩
    intro empty
    rw [empty] at enough
    exact absurd enough (by decide)

theorem made_thrown {Body : Type} {header : FrameHeader} {wrap : Body → IFrame}
    {read : Result (Body × ByteArray)} {exception : CppException}
    (thrown : read = .error (.thrown exception)) :
    (caught read >>= fun read => .ok (read.map fun body =>
      (⟨header, some (wrap body.1)⟩ : Frame))) = .ok none := by
  rw [thrown]
  rfl

theorem loaded_cons {header : FrameHeader} {pad : UInt8} {tail : Str} {ba : ByteArray}
    (loaded : Loaded header (pad :: tail) ba) :
    ∃ rest, ba.unread = [pad] ++ rest ∧ 8 ≤ rest.length := by
  have long := loaded_long loaded (List.cons_ne_nil pad tail)
  obtain ⟨rest, front⟩ := loaded_front loaded (show pad :: tail = [pad] ++ tail from rfl)
  refine ⟨rest, front, ?_⟩
  rw [front, List.length_append, List.length_singleton] at long
  omega

theorem loaded_empty {header : FrameHeader} {ba : ByteArray} (loaded : Loaded header [] ba) :
    ba.unread = [] := by
  rw [loaded.front, if_pos rfl]

theorem data_short {header : FrameHeader} {payload : Str} {ba : ByteArray}
    (loaded : Loaded header payload ba) (length : header.length.toNat = payload.length)
    (short : payload.length < if header.padded then 1 + (payload.headD 0).toNat else 0) :
    ∃ exception, DataFrame.readFrom ba header = .error (.thrown exception) := by
  split_ifs at short with padded
  · rw [DataFrame.readFrom, if_pos padded]
    cases payload with
    | nil =>
        rw [read_fuint8_empty loaded.inv (loaded_empty loaded), bind_error]
        exact ⟨_, rfl⟩
    | cons pad tail =>
        obtain ⟨rest, front, _⟩ := loaded_cons loaded
        rw [List.headD_cons] at short
        rw [read_fuint8_reads .big pad ba rest loaded.inv loaded.order front, bind_ok]
        dsimp only
        rw [read_sized_negative (by omega), bind_error]
        exact ⟨_, rfl⟩
  · exact absurd short (Nat.not_lt_zero _)

theorem push_promised_short {header : FrameHeader} {payload : Str} {ba : ByteArray}
    (loaded : Loaded header payload ba) (length : header.length.toNat = payload.length)
    (short : payload.length <
      (if header.padded then 1 + (payload.headD 0).toNat else 0) + 4) :
    ∃ exception, PushPromisedFrame.readFrom ba header = .error (.thrown exception) := by
  have inv := loaded.inv
  have order := loaded.order
  unfold PushPromisedFrame.readFrom
  split_ifs at short ⊢ with padded
  · cases payload with
    | nil =>
        rw [read_fuint8_empty inv (loaded_empty loaded), bind_error]
        exact ⟨_, rfl⟩
    | cons pad tail =>
        obtain ⟨rest, front, long⟩ := loaded_cons loaded
        rw [List.headD_cons] at short
        have atWord := skip_unread front
        obtain ⟨word, wordRead⟩ := read_fuint32_some (skip_inv inv front) order
          (by rw [atWord]; omega)
        rw [read_fuint8_reads .big pad ba rest inv order front, bind_ok]
        dsimp only
        rw [wordRead, bind_ok]
        dsimp only
        rw [read_sized_negative (by omega), bind_error]
        exact ⟨_, rfl⟩
  · cases payload with
    | nil =>
        rw [read_fuint32_empty inv (loaded_empty loaded), bind_error]
        exact ⟨_, rfl⟩
    | cons first tail =>
        have long := loaded_long loaded (List.cons_ne_nil first tail)
        obtain ⟨word, wordRead⟩ := read_fuint32_some inv order (by omega)
        rw [wordRead, bind_ok]
        dsimp only
        rw [read_sized_negative (by omega), bind_error]
        exact ⟨_, rfl⟩

/-- The first two parts of a HEADERS payload, when nothing or enough is there to read. -/
theorem read_priority_length (header : FrameHeader) (len : Int) (frame : HeadersFrame)
    {ba : ByteArray} (inv : Inv ba) (order : ba.endian = .big)
    (enough : ba.unread = [] ∨ 5 ≤ ba.unread.length) :
    ∃ next after, HeadersFrame.readPriority len frame ba header =
      .ok (len - (if header.hasPriority then 5 else 0 : Nat), next, after) := by
  obtain ⟨⟨done, priority, after⟩, read, _⟩ := priority_returns frame.priority inv order enough
  unfold HeadersFrame.readPriority
  cases header.hasPriority with
  | true =>
      rw [if_pos rfl, read, bind_ok]
      exact ⟨_, _, rfl⟩
  | false =>
      rw [if_neg Bool.false_ne_true, if_neg Bool.false_ne_true, Int.natCast_zero, Int.sub_zero]
      exact ⟨_, _, rfl⟩

theorem headers_short {header : FrameHeader} {payload : Str} {ba : ByteArray}
    (loaded : Loaded header payload ba) (length : header.length.toNat = payload.length)
    (short : payload.length <
      (if header.padded then 1 + (payload.headD 0).toNat else 0) +
        if header.hasPriority then 5 else 0) :
    ∃ exception, HeadersFrame.readFrom ba header = .error (.thrown exception) := by
  have inv := loaded.inv
  have order := loaded.order
  -- what is left of the length when the data is read
  have negative (len : Int) (frame : HeadersFrame) (next : ByteArray)
      (padRead : HeadersFrame.readPad ba header = .ok (len, frame, next)) (nextInv : Inv next)
      (nextOrder : next.endian = .big) (enough : next.unread = [] ∨ 5 ≤ next.unread.length)
      (below : len < (if header.hasPriority then 5 else 0 : Nat)) :
      ∃ exception, HeadersFrame.readFrom ba header = .error (.thrown exception) := by
    obtain ⟨after, last, priorityRead⟩ :=
      read_priority_length header len frame nextInv nextOrder enough
    rw [HeadersFrame.readFrom, padRead, bind_ok]
    dsimp only
    rw [priorityRead, bind_ok]
    dsimp only
    rw [read_sized_negative (by omega), bind_error]
    exact ⟨_, rfl⟩
  cases padded : header.padded with
  | false =>
      rw [padded, if_neg Bool.false_ne_true, Nat.zero_add] at short
      refine negative header.length.toNat {} ba ?_ inv order ?_ ?_
      · rw [HeadersFrame.readPad, padded]
        rfl
      · cases payload with
        | nil => exact .inl (loaded_empty loaded)
        | cons first tail =>
            have long := loaded_long loaded (List.cons_ne_nil first tail)
            right
            omega
      · rw [length]
        exact Int.ofNat_lt.mpr short
  | true =>
      rw [padded, if_pos rfl] at short
      cases payload with
      | nil =>
          rw [HeadersFrame.readFrom, HeadersFrame.readPad, if_pos padded,
            read_fuint8_empty inv (loaded_empty loaded), bind_error, bind_error]
          exact ⟨_, rfl⟩
      | cons pad tail =>
          obtain ⟨rest, front, long⟩ := loaded_cons loaded
          rw [List.headD_cons] at short
          have behind := skip_unread front
          refine negative (header.length.toNat - (1 + pad.toNat)) { pad } (ba.skip [pad].length) ?_
            (skip_inv inv front) order ?_ ?_
          · rw [HeadersFrame.readPad, if_pos padded,
              read_fuint8_reads .big pad ba rest inv order front, bind_ok]
          · right
            rw [behind]
            omega
          · rw [length]
            omega

/-- The readers of fixed size find nothing in front of them. -/
theorem fixed_empty {header : FrameHeader} {type : FrameType} {ba : ByteArray}
    (typed : frameType header.type = some type) (fixed : 0 < fixedSize type)
    (inv : Inv ba) (order : ba.endian = .big) (empty : ba.unread = []) :
    readFrame header ba = .ok none := by
  have noWord := read_fuint32_empty inv empty
  unfold readFrame
  rw [typed]
  cases type with
  | priority =>
      obtain ⟨⟨done, frame, after⟩, read, failed⟩ := priority_returns {} inv order (.inl empty)
      have notDone : done = false := failed empty
      dsimp only
      rw [read, bind_ok, notDone]
      rfl
  | rstStream =>
      apply made_thrown
      rw [RstStreamFrame.readFrom, noWord, bind_error]
  | ping =>
      apply made_thrown
      rw [PingFrame.readFrom, read_empty inv empty (by decide), bind_error]
  | goaway =>
      apply made_thrown
      rw [GoAwayFrame.readFrom, noWord, bind_error]
  | windowUpdate =>
      apply made_thrown
      rw [WindowUpdateFrame.readFrom, noWord, bind_error]
  | data => exact absurd fixed (Nat.lt_irrefl 0)
  | headers => exact absurd fixed (Nat.lt_irrefl 0)
  | settings => exact absurd fixed (Nat.lt_irrefl 0)
  | pushPromise => exact absurd fixed (Nat.lt_irrefl 0)
  | continuation => exact absurd fixed (Nat.lt_irrefl 0)

theorem read_rejected {header : FrameHeader} {payload : Str} {ba : ByteArray}
    (loaded : Loaded header payload ba) (length : header.length.toNat = payload.length)
    (short : payload.length < needed header payload) (notStale : ¬StaleRead header payload) :
    readFrame header ba = .ok none := by
  have rejected {type : FrameType} (typed : frameType header.type = some type)
      (below : payload.length < fixedSize type) : readFrame header ba = .ok none := by
    have none : payload = [] := by
      by_contra some
      exact notStale ⟨type, typed, List.length_pos_iff.mpr some, below⟩
    subst none
    exact fixed_empty typed below loaded.inv loaded.order (loaded_empty loaded)
  unfold needed at short
  cases typed : frameType header.type with
  | none =>
      rw [typed] at short
      exact absurd short (Nat.not_lt_zero _)
  | some type =>
      rw [typed] at short
      cases type with
      | data =>
          obtain ⟨_, thrown⟩ := data_short loaded length short
          rw [readFrame, typed]
          exact made_thrown thrown
      | headers =>
          obtain ⟨_, thrown⟩ := headers_short loaded length short
          rw [readFrame, typed]
          exact made_thrown thrown
      | pushPromise =>
          obtain ⟨_, thrown⟩ := push_promised_short loaded length short
          rw [readFrame, typed]
          exact made_thrown thrown
      | priority => exact rejected typed short
      | rstStream => exact rejected typed short
      | ping => exact rejected typed short
      | goaway => exact rejected typed short
      | windowUpdate => exact rejected typed short
      | settings => exact absurd short (Nat.not_lt_zero _)
      | continuation => exact absurd short (Nat.not_lt_zero _)

theorem zero_pad_full {header : FrameHeader} {payload : Str} {ba : ByteArray}
    (loaded : Loaded header payload ba) (zero : ZeroPad header payload) :
    4096 ≤ payload.length ∧ ba.position = 0 ∧ ba.capacity = payload.length := by
  obtain ⟨_, _, first, whole⟩ := zero
  obtain ⟨blocks, capacity, _⟩ := loaded_capacity loaded
  have some : payload ≠ [] := by
    rintro rfl
    cases first
  have positive := List.length_pos_iff.mpr some
  have position := loaded.position
  have snug := loaded.snug
  have size := loaded_size loaded
  have sizeLe := loaded.inv.sizeLe
  rw [if_neg some] at position
  refine ⟨by omega, position, by omega⟩

/-- The parts of such a payload: there are bytes left for the data. -/
theorem zero_pad_cut {header : FrameHeader} {payload : Str} {ba : ByteArray}
    (loaded : Loaded header payload ba) (zero : ZeroPad header payload) (middleLength : Nat)
    (few : middleLength ≤ 5) :
    ∃ middle data rest, ba.unread = [0] ++ (middle ++ (data ++ rest)) ∧
      middle.length = middleLength ∧ data ≠ [] ∧
      payload.length = 1 + middle.length + data.length := by
  obtain ⟨long, _, _⟩ := zero_pad_full loaded zero
  obtain ⟨_, _, first, _⟩ := zero
  cases payload with
  | nil => cases first
  | cons pad tail =>
      cases first
      rw [List.length_cons] at long
      obtain ⟨frontLength, split⟩ := cut_front (show middleLength ≤ tail.length by omega)
      obtain ⟨rest, front⟩ := loaded_front loaded
        (show 0 :: tail = ([0] ++ (tail.take middleLength ++ tail.drop middleLength)) ++ [] by
          rw [← split, List.append_nil, List.singleton_append])
      rw [List.append_assoc, List.append_assoc] at front
      refine ⟨tail.take middleLength, tail.drop middleLength, rest, front, frontLength, ?_, ?_⟩
      · apply List.ne_nil_of_length_pos
        rw [List.length_drop]
        omega
      · rw [List.length_cons, List.length_drop, frontLength]
        omega

section Null

variable {header : FrameHeader} {payload : Str} {ba : ByteArray}

theorem padding_null {Value : Type} (loaded : Loaded header payload ba)
    (zero : ZeroPad header payload) {last : ByteArray} (inv : Inv last)
    (sameCapacity : last.capacity = ba.capacity) (position : last.position = payload.length)
    (next : Str × ByteArray → Result Value) :
    (readSized last (0 : UInt8).toNat >>= next) = .error (.undefined .nullDeref) := by
  obtain ⟨_, _, capacity⟩ := zero_pad_full loaded zero
  have zeroToNat : (0 : UInt8).toNat = 0 := rfl
  rw [zeroToNat, read_sized_null inv (by rw [position, sameCapacity, capacity]), bind_error]

theorem data_null (loaded : Loaded header payload ba)
    (length : header.length.toNat = payload.length) (zero : ZeroPad header payload) :
    DataFrame.readFrom ba header = .error (.undefined .nullDeref) := by
  obtain ⟨_, start, _⟩ := zero_pad_full loaded zero
  obtain ⟨middle, data, rest, front, none, some, total⟩ :=
    zero_pad_cut loaded zero 0 (Nat.zero_le _)
  have zeroToNat : (0 : UInt8).toNat = 0 := rfl
  rw [List.length_eq_zero_iff.mp none, List.nil_append] at front
  have endInv := skip_inv (skip_inv loaded.inv front) (skip_unread front)
  rw [data_padded_eq zero.2.1 loaded.inv loaded.order front (by omega) (.inl some)]
  apply padding_null loaded zero endInv rfl
  change ba.position + 1 + data.length = payload.length
  omega

theorem headers_null (loaded : Loaded header payload ba)
    (length : header.length.toNat = payload.length) (zero : ZeroPad header payload) :
    HeadersFrame.readFrom ba header = .error (.undefined .nullDeref) := by
  have padded := zero.2.1
  obtain ⟨_, start, _⟩ := zero_pad_full loaded zero
  obtain ⟨middle, data, rest, front, middleLength, some, total⟩ :=
    zero_pad_cut loaded zero (if header.hasPriority then 5 else 0) (by split_ifs <;> decide)
  obtain ⟨priority, spelled, default⟩ := optional_priority middleLength
  have zeroToNat : (0 : UInt8).toNat = 0 := rfl
  have whole : ba.unread = headersFront header 0 priority ++ (data ++ rest) := by
    rw [headersFront, spelled, if_pos padded, List.append_assoc, front]
  have frontLength : (headersFront header 0 priority).length = 1 + middle.length := by
    rw [headersFront, spelled, if_pos padded, List.length_append, List.length_singleton]
  have endInv := skip_inv (skip_inv loaded.inv whole) (skip_unread whole)
  rw [headers_eq loaded.inv loaded.order whole (fun _ => rfl) default (by omega) (.inl some),
    if_pos padded]
  apply padding_null loaded zero endInv rfl
  change ba.position + (headersFront header 0 priority).length + data.length = payload.length
  omega

theorem push_promised_null (loaded : Loaded header payload ba)
    (length : header.length.toNat = payload.length) (zero : ZeroPad header payload) :
    PushPromisedFrame.readFrom ba header = .error (.undefined .nullDeref) := by
  obtain ⟨_, start, _⟩ := zero_pad_full loaded zero
  obtain ⟨middle, data, rest, front, middleLength, some, total⟩ :=
    zero_pad_cut loaded zero 4 (by decide)
  obtain ⟨r, streamId, spelled⟩ := word_of middleLength
  have zeroToNat : (0 : UInt8).toNat = 0 := rfl
  rw [← spelled] at front
  have atWord := skip_unread front
  have endInv := skip_inv (skip_inv (skip_inv loaded.inv front) atWord) (skip_unread atWord)
  rw [net_bytes_length] at endInv
  rw [push_promised_padded_eq zero.2.1 loaded.inv loaded.order front (by omega) (.inl some)]
  apply padding_null loaded zero endInv rfl
  change ba.position + 1 + 4 + data.length = payload.length
  omega

theorem read_null (loaded : Loaded header payload ba)
    (length : header.length.toNat = payload.length) (zero : ZeroPad header payload) :
    readFrame header ba = .error (.undefined .nullDeref) := by
  unfold readFrame
  rcases zero.1 with typed | typed | typed
  · simp only [typed, data_null loaded length zero, caught, bind_error]
  · simp only [typed, headers_null loaded length zero, caught, bind_error]
  · simp only [typed, push_promised_null loaded length zero, caught, bind_error]

end Null

end ChatServer.Http2
