import ChatServer.Http2.Frame

/-!
# The layout of frames

The bytes of a header and of each payload, stated once: writers put exactly these bytes at
the cursor, and readers that find them there return the frame. Where a reader takes a
string of no bytes it still follows `m_cur`, so the cursor must not stand at the end of the
last block then.
-/

namespace ChatServer.Http2

set_option autoImplicit false

open ChatServer.ByteArray
open WordBytes

theorem extract_low {high low : Nat} (front : BitVec high) (back : BitVec low) :
    (front ++ back).extractLsb' 0 low = back := by
  ext i inside
  simp [BitVec.getLsbD_append, inside]

theorem extract_high {high low : Nat} (front : BitVec high) (back : BitVec low) :
    (front ++ back).extractLsb' low high = front := by
  ext i inside
  simp [BitVec.getLsbD_append, inside]

theorem low31_word31 (high : BitVec 1) (low : BitVec 31) : low31 (word31 high low) = low :=
  extract_low high low

theorem high1_word31 (high : BitVec 1) (low : BitVec 31) : high1 (word31 high low) = high :=
  extract_high high low

theorem word31_split (word : UInt32) : word31 (high1 word) (low31 word) = word :=
  congrArg UInt32.ofBitVec BitVec.extractLsb'_append_extractLsb'

def netBytes (width value : Nat) : Str := fixedBytes .big width value

theorem net_bytes_length (width value : Nat) : (netBytes width value).length = width :=
  fixed_bytes_length .big width value

theorem write_fuint32_writes (value : UInt32) :
    Writes (fun ba => ba.writeFuint32 value) .big (netBytes 4 value.toNat) :=
  write_fixed_writes .big 4 value.toNat

theorem write_fuint16_writes (value : UInt16) :
    Writes (fun ba => ba.writeFuint16 value) .big (netBytes 2 value.toNat) :=
  write_fixed_writes .big 2 value.toNat

theorem write_byte_writes (byte : UInt8) :
    Writes (fun ba => ba.writeFuint8 byte) .big [byte] := write_writes .big [byte]

theorem net32_reads (value : UInt32) : Reads readFuint32 .big (netBytes 4 value.toNat) value :=
  read_fuint32_reads .big value

theorem net16_reads (value : UInt16) : Reads readFuint16 .big (netBytes 2 value.toNat) value :=
  read_fuint16_reads .big value

def headerBytes (header : FrameHeader) : Str :=
  netBytes 4 header.lenType.toNat ++ ([header.flags] ++ netBytes 4 header.rId.toNat)

theorem header_bytes_length (header : FrameHeader) : (headerBytes header).length = 9 := by
  rw [headerBytes, List.length_append, List.length_append, net_bytes_length, net_bytes_length]
  rfl

theorem header_writes (header : FrameHeader) :
    Writes header.writeTo .big (headerBytes header) :=
  writes_bind (write_fuint32_writes header.lenType)
    (writes_bind (write_byte_writes header.flags) (write_fuint32_writes header.rId))

theorem of_words_eq (header : FrameHeader) :
    FrameHeader.ofWords header.lenType header.flags header.rId = header := by
  have length : header.lenType.toBitVec.extractLsb' 8 24 = header.length :=
    extract_high header.length header.type.toBitVec
  have type : header.lenType.toBitVec.extractLsb' 0 8 = header.type.toBitVec :=
    extract_low header.length header.type.toBitVec
  rw [FrameHeader.ofWords, length, type, FrameHeader.rId, high1_word31, low31_word31]

theorem header_reads (header : FrameHeader) :
    Reads FrameHeader.readFrom .big (headerBytes header) header := by
  have taken := reads_bind (fun (lenType : UInt32) ba => ba.readFuint8 >>= fun read =>
      read.2.readFuint32 >>= fun last =>
        .ok (FrameHeader.ofWords lenType read.1 last.1, last.2)) (net32_reads header.lenType)
    (reads_bind (fun (flags : UInt8) ba => ba.readFuint32 >>= fun last =>
        .ok (FrameHeader.ofWords header.lenType flags last.1, last.2))
      (read_fuint8_reads .big header.flags)
      (reads_map (FrameHeader.ofWords header.lenType header.flags) (net32_reads header.rId)))
  rw [of_words_eq] at taken
  exact taken

def paddedBytes (padded : Bool) (pad : UInt8) (middle data padding : Str) : Str :=
  if padded then [pad] ++ (middle ++ (data ++ padding)) else middle ++ data

def priorityBytes (frame : PriorityFrame) : Str :=
  netBytes 4 frame.eStreamDep.toNat ++ [frame.weight]

def itemBytes (item : SettingsItem) : Str :=
  netBytes 2 item.identifier.toNat ++ netBytes 4 item.value.toNat

/-- The bytes of a payload under the flags of its header. -/
def payloadBytes (header : FrameHeader) : IFrame → Str
  | .data f => paddedBytes header.padded f.pad [] f.data f.padding
  | .headers f =>
      paddedBytes header.padded f.pad (if header.hasPriority then priorityBytes f.priority else [])
        f.data f.padding
  | .priority f => priorityBytes f
  | .rstStream f => netBytes 4 f.errorCode.toNat
  | .settings f => f.items.flatMap itemBytes
  | .pushPromised f =>
      paddedBytes header.padded f.pad (netBytes 4 f.rStreamId.toNat) f.data f.padding
  | .ping f => f.data
  | .goAway f => netBytes 4 f.rLastStreamId.toNat ++ (netBytes 4 f.errorCode.toNat ++ f.data)
  | .windowUpdate f => netBytes 4 f.rIncrement.toNat

def frameTypeOf : IFrame → FrameType
  | .data _ => .data
  | .headers _ => .headers
  | .priority _ => .priority
  | .rstStream _ => .rstStream
  | .settings _ => .settings
  | .pushPromised _ => .pushPromise
  | .ping _ => .ping
  | .goAway _ => .goaway
  | .windowUpdate _ => .windowUpdate

theorem priority_writes (frame : PriorityFrame) :
    Writes frame.writeTo .big (priorityBytes frame) :=
  writes_bind (write_fuint32_writes frame.eStreamDep) (write_byte_writes frame.weight)

theorem items_write (items : List SettingsItem) :
    Writes (SettingsFrame.writeItems items) .big (items.flatMap itemBytes) := by
  induction items with
  | nil => exact fun ba inv _ => ⟨ba, rfl, put_nil inv⟩
  | cons item rest induction =>
      rw [List.flatMap_cons]
      have first : Writes item.writeTo .big (itemBytes item) :=
        writes_bind (write_fuint16_writes item.identifier) (write_fuint32_writes item.value)
      exact writes_bind first induction

/-- Nothing is written. -/
theorem skip_writes : Writes (fun ba => .ok ba) .big [] :=
  fun ba inv _ => ⟨ba, rfl, put_nil inv⟩

theorem optional_writes {writer : ByteArray → Result ByteArray} {bytes : Str} (condition : Bool)
    (writes : Writes writer .big bytes) :
    Writes (fun ba => if condition then writer ba else .ok ba) .big
      (if condition then bytes else []) := by
  cases condition with
  | false => exact skip_writes
  | true => exact writes

/-- The payloads whose writer reports success and writes nothing but their fields. -/
def Writable : IFrame → Prop
  | .headers f => f.kvs = []
  | .pushPromised _ => False
  | _ => True

theorem padded_bytes_eq (padded : Bool) (pad : UInt8) (middle data padding : Str) :
    paddedBytes padded pad middle data padding =
      (if padded then [pad] else []) ++ (middle ++ (data ++ if padded then padding else [])) := by
  cases padded with
  | false =>
      simp only [paddedBytes, Bool.false_eq_true, if_false, List.nil_append, List.append_nil]
  | true => simp only [paddedBytes, if_true]

theorem data_writes (header : FrameHeader) (frame : DataFrame) :
    Writes (fun ba => frame.writeTo ba header) .big
      (paddedBytes header.padded frame.pad [] frame.data frame.padding) := by
  unfold DataFrame.writeTo paddedBytes
  cases header.padded with
  | false => exact write_writes .big frame.data
  | true =>
      rw [if_pos rfl, List.nil_append]
      exact writes_bind (write_byte_writes frame.pad)
        (writes_bind (write_writes .big frame.data) (write_writes .big frame.padding))

/-- The four parts of a HEADERS payload, when nothing is packed. -/
theorem headers_write_eq (header : FrameHeader) {frame : HeadersFrame} (noKvs : frame.kvs = [])
    (fresh : Nat → Nat → UInt8) (ba : ByteArray) :
    frame.writeTo fresh ba header =
      ((if header.padded then ba.writeFuint8 frame.pad else .ok ba) >>= fun ba =>
        (if header.hasPriority then frame.priority.writeTo ba else .ok ba) >>= fun ba =>
          ba.write frame.data >>= fun ba =>
            if header.padded then ba.write frame.padding else .ok ba) >>= fun after =>
              .ok (frame, after) := by
  have packed : frame.packKvs fresh = .ok frame := by
    unfold HeadersFrame.packKvs
    cases frame.hpack with
    | none => rfl
    | some hp => exact if_pos noKvs
  unfold HeadersFrame.writeTo
  cases header.padded <;> cases header.hasPriority <;>
    simp only [packed, bind_ok, bind_assoc, Bool.false_eq_true, if_true, if_false]

theorem headers_writes (header : FrameHeader) (frame : HeadersFrame) :
    Writes (fun ba => (if header.padded then ba.writeFuint8 frame.pad else .ok ba) >>= fun ba =>
      (if header.hasPriority then frame.priority.writeTo ba else .ok ba) >>= fun ba =>
        ba.write frame.data >>= fun ba =>
          if header.padded then ba.write frame.padding else .ok ba) .big
      (payloadBytes header (.headers frame)) := by
  rw [payloadBytes, padded_bytes_eq]
  exact writes_bind (optional_writes header.padded (write_byte_writes frame.pad))
    (writes_bind (optional_writes header.hasPriority (priority_writes frame.priority))
      (writes_bind (write_writes .big frame.data)
        (optional_writes header.padded (write_writes .big frame.padding))))

theorem go_away_writes (frame : GoAwayFrame) :
    Writes frame.writeTo .big
      (netBytes 4 frame.rLastStreamId.toNat ++ (netBytes 4 frame.errorCode.toNat ++ frame.data)) := by
  have last : Writes (fun ba => if frame.data = [] then .ok ba else ba.write frame.data) .big
      frame.data := by
    by_cases none : frame.data = []
    · simp only [none]
      exact skip_writes
    · simp only [if_neg none]
      exact write_writes .big frame.data
  exact writes_bind (write_fuint32_writes frame.rLastStreamId)
    (writes_bind (write_fuint32_writes frame.errorCode) last)

theorem caught_writes (frame : IFrame) {writer : ByteArray → Result ByteArray} {bytes : Str}
    (writes : Writes writer .big bytes) {ba : ByteArray} (inv : Inv ba)
    (order : ba.endian = .big) :
    ∃ after, (caught (writer ba) >>= fun written => .ok (written.map fun ba => (frame, ba))) =
        (.ok (some (frame, after)) : Result (Option (IFrame × ByteArray))) ∧ Put ba bytes after := by
  obtain ⟨after, returned, put⟩ := writes ba inv order
  refine ⟨after, ?_, put⟩
  rw [returned]
  rfl

theorem payload_writes (header : FrameHeader) {frame : IFrame} (writable : Writable frame)
    (fresh : Nat → Nat → UInt8) {ba : ByteArray} (inv : Inv ba) (order : ba.endian = .big) :
    ∃ after, frame.writeTo fresh ba header = .ok (some (frame, after)) ∧
      Put ba (payloadBytes header frame) after := by
  cases frame with
  | data f => exact caught_writes _ (data_writes header f) inv order
  | headers f =>
      obtain ⟨after, returned, put⟩ := headers_writes header f ba inv order
      dsimp only at returned
      refine ⟨after, ?_, put⟩
      rw [IFrame.writeTo, headers_write_eq header writable, returned]
      rfl
  | priority f => exact caught_writes _ (priority_writes f) inv order
  | rstStream f => exact caught_writes _ (write_fuint32_writes f.errorCode) inv order
  | settings f => exact caught_writes _ (items_write f.items) inv order
  | pushPromised f => exact writable.elim
  | ping f => exact caught_writes _ (write_writes .big f.data) inv order
  | goAway f => exact caught_writes _ (go_away_writes f) inv order
  | windowUpdate f => exact caught_writes _ (write_fuint32_writes f.rIncrement) inv order

theorem read_sized_take {ba : ByteArray} {text rest : Str} (inv : Inv ba)
    (split : ba.unread = text ++ rest) (block : text ≠ [] ∨ ba.position < ba.capacity) :
    readSized ba text.length = .ok (text, ba.skip text.length) := by
  rw [readSized, resize_empty, bind_ok, List.length_replicate]
  by_cases none : text = []
  · subst none
    have inside := block.resolve_left (fun some => some rfl)
    rw [List.length_nil, read_spec inv (Nat.zero_le _) inside, List.take_zero]
    rfl
  · exact read_unread inv split none

theorem read_sized_negative {ba : ByteArray} {len : Int} (negative : len < 0) :
    readSized ba len = .error (.thrown .lengthError) := by
  rw [readSized, resize, if_pos negative, bind_error]

/-- Reading nothing at the end of the last block. -/
theorem read_sized_null {ba : ByteArray} (inv : Inv ba) (full : ba.position = ba.capacity) :
    readSized ba (0 : Nat) = .error (.undefined .nullDeref) := by
  have pointer := cur_none inv full
  have sized : resize [] ((0 : Nat) : Int) = .ok [] := rfl
  rw [readSized, sized, bind_ok, List.length_nil, ByteArray.read, if_neg (Nat.not_lt_zero _), pointer]

/-- The padding starts inside a block. -/
theorem padding_inside {ba : ByteArray} {data padding rest : Str} (inv : Inv ba)
    (split : ba.unread = data ++ (padding ++ rest))
    (last : padding ≠ [] ∨ ba.position + data.length < ba.capacity) :
    ba.position + data.length < ba.capacity := by
  rcases last with some | inside
  · have bound := unread_bound inv split
    have sizeLe := inv.sizeLe
    have positive := List.length_pos_iff.mpr some
    rw [List.length_append] at bound
    omega
  · exact inside

/-- The padding is as long as the pad length says; without the flag there is none. -/
def PadFits (padded : Bool) (pad : UInt8) (padding : Str) : Prop :=
  if padded then padding.length = pad.toNat else pad = 0 ∧ padding = []

def EndsInside (padded : Bool) (data padding : Str) (ba : ByteArray) (count : Nat) : Prop :=
  (if padded then padding else data) ≠ [] ∨ ba.position + count < ba.capacity

/-- A padded DATA payload up to its padding. -/
theorem data_padded_eq {header : FrameHeader} (padded : header.padded = true) {pad : UInt8}
    {data rest : Str} {ba : ByteArray} (inv : Inv ba) (order : ba.endian = .big)
    (front : ba.unread = [pad] ++ (data ++ rest))
    (len : (header.length.toNat : Int) - pad.toNat - 1 = data.length)
    (block : data ≠ [] ∨ (ba.skip 1).position < ba.capacity) :
    DataFrame.readFrom ba header =
      readSized ((ba.skip 1).skip data.length) pad.toNat >>= fun read =>
        .ok ({ pad, data, padding := read.1 }, read.2) := by
  have padRead := read_fuint8_reads .big pad ba _ inv order front
  have dataRead := read_sized_take (skip_inv inv front) (skip_unread front) block
  rw [List.length_singleton] at padRead dataRead
  rw [DataFrame.readFrom, if_pos padded, padRead, bind_ok]
  dsimp only
  rw [len, dataRead, bind_ok]

theorem data_reads {header : FrameHeader} {frame : DataFrame} {ba : ByteArray} {rest : Str}
    (inv : Inv ba) (order : ba.endian = .big)
    (front : ba.unread = payloadBytes header (.data frame) ++ rest)
    (sized : header.length.toNat = (payloadBytes header (.data frame)).length)
    (fits : PadFits header.padded frame.pad frame.padding)
    (ends : EndsInside header.padded frame.data frame.padding ba header.length.toNat) :
    ∃ after, DataFrame.readFrom ba header = .ok (frame, after) := by
  obtain ⟨pad, data, padding⟩ := frame
  unfold payloadBytes paddedBytes at front sized
  unfold PadFits at fits
  unfold EndsInside at ends
  cases padded : header.padded with
  | false =>
      rw [padded] at front sized fits ends
      simp only [Bool.false_eq_true, if_false, List.nil_append] at front sized fits ends
      obtain ⟨rfl, rfl⟩ := fits
      have taken := read_sized_take inv front (ends.imp_right fun inside => by omega)
      rw [DataFrame.readFrom, padded, if_neg Bool.false_ne_true, sized, taken, bind_ok]
      exact ⟨_, rfl⟩
  | true =>
      rw [padded] at front sized fits ends
      simp only [if_true, List.nil_append, List.append_assoc, List.length_append,
        List.length_singleton] at front sized fits ends
      have dataInv := skip_inv inv front
      have atData := skip_unread front
      rw [List.length_singleton] at dataInv atData
      have inside := padding_inside dataInv atData (ends.imp_right fun inside => by
        change ba.position + 1 + data.length < ba.capacity
        omega)
      have paddingRead := read_sized_take (skip_inv dataInv atData) (skip_unread atData) (.inr inside)
      rw [data_padded_eq padded inv order front (by omega)
        (.inr (Nat.lt_of_le_of_lt (Nat.le_add_right _ _) inside)), ← fits, paddingRead, bind_ok]
      exact ⟨_, rfl⟩

/-- A padded PUSH_PROMISE payload up to its padding. -/
theorem push_promised_padded_eq {header : FrameHeader} (padded : header.padded = true) {pad : UInt8}
    {streamId : BitVec 31} {r : BitVec 1} {data rest : Str} {ba : ByteArray} (inv : Inv ba)
    (order : ba.endian = .big)
    (front : ba.unread = [pad] ++ (netBytes 4 (word31 r streamId).toNat ++ (data ++ rest)))
    (len : (header.length.toNat : Int) - 5 - pad.toNat = data.length)
    (block : data ≠ [] ∨ ((ba.skip 1).skip 4).position < ba.capacity) :
    PushPromisedFrame.readFrom ba header =
      readSized (((ba.skip 1).skip 4).skip data.length) pad.toNat >>= fun read =>
        .ok ({ pad, streamId, r, data, padding := read.1 }, read.2) := by
  have padRead := read_fuint8_reads .big pad ba _ inv order front
  have wordInv := skip_inv inv front
  have atWord := skip_unread front
  have wordRead := net32_reads (word31 r streamId) _ _ wordInv order atWord
  have dataInv := skip_inv wordInv atWord
  have atData := skip_unread atWord
  rw [net_bytes_length] at wordRead dataInv atData
  have dataRead := read_sized_take dataInv atData block
  rw [List.length_singleton] at padRead wordRead dataRead
  rw [PushPromisedFrame.readFrom, if_pos padded, padRead, bind_ok]
  dsimp only
  rw [wordRead, bind_ok]
  dsimp only
  rw [len, dataRead, bind_ok, low31_word31, high1_word31]

theorem push_promised_reads {header : FrameHeader} {frame : PushPromisedFrame} {ba : ByteArray}
    {rest : Str} (inv : Inv ba) (order : ba.endian = .big)
    (front : ba.unread = payloadBytes header (.pushPromised frame) ++ rest)
    (sized : header.length.toNat = (payloadBytes header (.pushPromised frame)).length)
    (fits : PadFits header.padded frame.pad frame.padding)
    (ends : EndsInside header.padded frame.data frame.padding ba header.length.toNat) :
    ∃ after, PushPromisedFrame.readFrom ba header = .ok (frame, after) := by
  obtain ⟨pad, streamId, r, data, padding⟩ := frame
  unfold payloadBytes paddedBytes PushPromisedFrame.rStreamId at front sized
  unfold PadFits at fits
  unfold EndsInside at ends
  cases padded : header.padded with
  | false =>
      rw [padded] at front sized fits ends
      simp only [Bool.false_eq_true, if_false, List.append_assoc, List.length_append,
        net_bytes_length] at front sized fits ends
      obtain ⟨rfl, rfl⟩ := fits
      have wordRead := net32_reads (word31 r streamId) ba _ inv order front
      have dataInv := skip_inv inv front
      have atData := skip_unread front
      have len : (header.length.toNat : Int) - 4 = data.length := by omega
      rw [net_bytes_length] at wordRead dataInv atData
      have dataRead := read_sized_take dataInv atData (ends.imp_right fun inside => by
        change ba.position + 4 < ba.capacity
        omega)
      rw [PushPromisedFrame.readFrom, padded, if_neg Bool.false_ne_true, wordRead, bind_ok]
      dsimp only
      rw [len, dataRead, bind_ok, low31_word31, high1_word31]
      exact ⟨_, rfl⟩
  | true =>
      rw [padded] at front sized fits ends
      simp only [if_true, List.append_assoc, List.length_append, net_bytes_length,
        List.length_singleton] at front sized fits ends
      have wordInv := skip_inv inv front
      have atWord := skip_unread front
      have dataInv := skip_inv wordInv atWord
      have atData := skip_unread atWord
      rw [List.length_singleton, net_bytes_length] at dataInv atData
      have inside := padding_inside dataInv atData (ends.imp_right fun inside => by
        change ba.position + 1 + 4 + data.length < ba.capacity
        omega)
      have paddingRead := read_sized_take (skip_inv dataInv atData) (skip_unread atData) (.inr inside)
      rw [push_promised_padded_eq padded inv order front (by omega)
        (.inr (Nat.lt_of_le_of_lt (Nat.le_add_right _ _) inside)), ← fits, paddingRead, bind_ok]
      exact ⟨_, rfl⟩

theorem priority_reads (frame start : PriorityFrame) {ba : ByteArray} {rest : Str} (inv : Inv ba)
    (order : ba.endian = .big) (front : ba.unread = priorityBytes frame ++ rest) :
    start.readFrom ba = .ok (true, frame, ba.skip 5) := by
  obtain ⟨streamDep, exclusive, weight⟩ := frame
  unfold priorityBytes PriorityFrame.eStreamDep at front
  rw [List.append_assoc] at front
  have wordRead := net32_reads (word31 exclusive streamDep) ba _ inv order front
  have weightRead := read_fuint8_reads .big weight _ rest (skip_inv inv front) order
    (skip_unread front)
  rw [net_bytes_length] at wordRead weightRead
  rw [PriorityFrame.readFrom, wordRead]
  simp only [caught, bind_ok, weightRead, low31_word31, high1_word31, skip_skip]
  rfl

theorem read_pad_spec {header : FrameHeader} {pad : UInt8} {ba : ByteArray} {rest : Str}
    (inv : Inv ba) (order : ba.endian = .big)
    (front : ba.unread = (if header.padded then [pad] else []) ++ rest)
    (noPad : header.padded = false → pad = 0) :
    HeadersFrame.readPad ba header =
      .ok (header.length.toNat - (if header.padded then [pad] else []).length - pad.toNat, { pad },
        ba.skip (if header.padded then [pad] else []).length) := by
  unfold HeadersFrame.readPad
  cases padded : header.padded with
  | false =>
      rw [noPad padded]
      simp only [Bool.false_eq_true, if_false, List.length_nil, skip_zero inv]
      simp
  | true =>
      rw [padded] at front
      simp only [if_true] at front ⊢
      rw [read_fuint8_reads .big pad ba _ inv order front, bind_ok, List.length_singleton]
      simp only [Int.natCast_one, Int.sub_sub]

theorem read_priority_spec {header : FrameHeader} {priority : PriorityFrame} {ba : ByteArray}
    {rest : Str} (pad : UInt8) (len : Int) (inv : Inv ba) (order : ba.endian = .big)
    (front : ba.unread = (if header.hasPriority then priorityBytes priority else []) ++ rest)
    (noPriority : header.hasPriority = false → priority = {}) :
    HeadersFrame.readPriority len { pad } ba header =
      .ok (len - (if header.hasPriority then priorityBytes priority else []).length,
        { pad, priority },
        ba.skip (if header.hasPriority then priorityBytes priority else []).length) := by
  have length : (priorityBytes priority).length = 5 := by
    rw [priorityBytes, List.length_append, net_bytes_length]
    rfl
  unfold HeadersFrame.readPriority
  cases marked : header.hasPriority with
  | false =>
      rw [noPriority marked]
      simp only [Bool.false_eq_true, if_false, List.length_nil, skip_zero inv]
      simp
  | true =>
      rw [marked] at front
      simp only [if_true] at front ⊢
      rw [priority_reads priority {} inv order front, bind_ok, length]
      rfl

def headersFront (header : FrameHeader) (pad : UInt8) (priority : PriorityFrame) : Str :=
  (if header.padded then [pad] else []) ++
    if header.hasPriority then priorityBytes priority else []

theorem headers_bytes_eq (header : FrameHeader) (frame : HeadersFrame) :
    payloadBytes header (.headers frame) = headersFront header frame.pad frame.priority ++
      (frame.data ++ if header.padded then frame.padding else []) := by
  rw [payloadBytes, padded_bytes_eq, headersFront, List.append_assoc]

/-- A HEADERS payload up to its padding, with `data` as long as the other parts leave it. -/
theorem headers_eq {header : FrameHeader} {pad : UInt8} {priority : PriorityFrame}
    {data rest : Str} {ba : ByteArray} (inv : Inv ba) (order : ba.endian = .big)
    (front : ba.unread = headersFront header pad priority ++ (data ++ rest))
    (noPad : header.padded = false → pad = 0)
    (noPriority : header.hasPriority = false → priority = {})
    (len : (header.length.toNat : Int) - (headersFront header pad priority).length - pad.toNat =
      data.length)
    (block : data ≠ [] ∨
      (ba.skip (headersFront header pad priority).length).position < ba.capacity) :
    HeadersFrame.readFrom ba header =
      if header.padded then
        readSized ((ba.skip (headersFront header pad priority).length).skip data.length)
          pad.toNat >>= fun read => .ok ({ pad, priority, data, padding := read.1 }, read.2)
      else .ok ({ pad, priority, data },
        (ba.skip (headersFront header pad priority).length).skip data.length) := by
  unfold headersFront at front len block ⊢
  rw [List.append_assoc] at front
  rw [List.length_append] at len block ⊢
  rw [← skip_skip] at block ⊢
  have padRead := read_pad_spec inv order front noPad
  have middleInv := skip_inv inv front
  have middle := skip_unread front
  have priorityRead := read_priority_spec pad
    (header.length.toNat - (if header.padded then [pad] else []).length - pad.toNat)
    middleInv order middle noPriority
  have dataRead := read_sized_take (skip_inv middleInv middle) (skip_unread middle) block
  generalize (if header.padded then [pad] else []).length = padLength at *
  generalize (if header.hasPriority then priorityBytes priority else []).length = priorityLength at *
  have left : (header.length.toNat : Int) - padLength - pad.toNat - priorityLength =
      data.length := by omega
  rw [HeadersFrame.readFrom, padRead, bind_ok]
  dsimp only
  rw [priorityRead, bind_ok]
  dsimp only
  rw [left, dataRead, bind_ok]

theorem headers_reads {header : FrameHeader} {frame : HeadersFrame} {ba : ByteArray} {rest : Str}
    (inv : Inv ba) (order : ba.endian = .big)
    (front : ba.unread = payloadBytes header (.headers frame) ++ rest)
    (sized : header.length.toNat = (payloadBytes header (.headers frame)).length)
    (fits : PadFits header.padded frame.pad frame.padding)
    (noPriority : header.hasPriority = false → frame.priority = {})
    (noPack : frame.hpack = none ∧ frame.kvs = [])
    (ends : EndsInside header.padded frame.data frame.padding ba header.length.toNat) :
    ∃ after, HeadersFrame.readFrom ba header = .ok (frame, after) := by
  rw [headers_bytes_eq] at front sized
  obtain ⟨pad, priority, data, padding, hpack, kvs⟩ := frame
  obtain ⟨rfl, rfl⟩ := noPack
  rw [List.append_assoc, List.append_assoc] at front
  rw [List.length_append, List.length_append] at sized
  unfold PadFits at fits
  unfold EndsInside at ends
  have dataInv := skip_inv inv front
  have atData := skip_unread front
  dsimp only at front sized fits ends noPriority dataInv atData
  cases padded : header.padded with
  | false =>
      rw [padded] at fits sized ends
      simp only [Bool.false_eq_true, if_false, List.length_nil] at fits sized ends
      obtain ⟨rfl, rfl⟩ := fits
      have zero : (0 : UInt8).toNat = 0 := rfl
      have read := headers_eq inv order front (fun _ => rfl) noPriority (by omega)
        (ends.imp_right fun inside => by
          rw [skip_position]
          omega)
      rw [read, padded]
      exact ⟨_, rfl⟩
  | true =>
      rw [padded] at fits sized ends atData
      simp only [if_true] at fits sized ends atData
      have inside := padding_inside dataInv atData (ends.imp_right fun inside => by
        change ba.position + (headersFront header pad priority).length + data.length < ba.capacity
        omega)
      have paddingRead := read_sized_take (skip_inv dataInv atData) (skip_unread atData) (.inr inside)
      have read := headers_eq inv order front
        (fun notPadded => absurd (notPadded.symm.trans padded) Bool.false_ne_true) noPriority
        (by omega) (.inr (Nat.lt_of_le_of_lt (Nat.le_add_right _ _) inside))
      rw [read, padded, if_pos rfl, ← fits, paddingRead, bind_ok]
      exact ⟨_, rfl⟩

theorem item_reads (item : SettingsItem) :
    Reads SettingsItem.readFrom .big (itemBytes item) item :=
  reads_bind (fun (identifier : UInt16) ba => ba.readFuint32 >>= fun read =>
      .ok (({ identifier, value := read.1 } : SettingsItem), read.2)) (net16_reads item.identifier)
    (reads_map (fun value : UInt32 =>
      ({ identifier := item.identifier, value } : SettingsItem)) (net32_reads item.value))

theorem items_read (items : List SettingsItem) :
    Reads (SettingsFrame.readItems items.length) .big (items.flatMap itemBytes) items := by
  induction items with
  | nil =>
      intro ba rest inv order front
      rw [List.flatMap_nil, List.length_nil, List.length_nil, skip_zero inv]
      rfl
  | cons item rest induction =>
      rw [List.flatMap_cons]
      exact reads_bind (fun (first : SettingsItem) ba =>
          SettingsFrame.readItems rest.length ba >>= fun read => .ok (first :: read.1, read.2))
        (item_reads item) (reads_map (item :: ·) induction)

theorem ping_reads (frame : PingFrame) : Reads PingFrame.readFrom .big frame.data frame := by
  intro ba rest inv order front
  obtain ⟨data, dataSize⟩ := frame
  have some : data ≠ [] := by
    rintro rfl
    cases dataSize
  have taken : ba.read 8 = .ok (data, ba.skip data.length) :=
    dataSize ▸ read_unread inv front some
  rw [PingFrame.readFrom, taken, bind_ok]
  dsimp only
  rw [dif_pos dataSize]

theorem go_away_reads {header : FrameHeader} {frame : GoAwayFrame} {ba : ByteArray} {rest : Str}
    (inv : Inv ba) (order : ba.endian = .big)
    (front : ba.unread = payloadBytes header (.goAway frame) ++ rest)
    (sized : header.length.toNat - 8 = frame.data.length) :
    ∃ after, GoAwayFrame.readFrom ba header = .ok (frame, after) := by
  obtain ⟨lastStreamId, r, errorCode, data⟩ := frame
  simp only [payloadBytes, GoAwayFrame.rLastStreamId, List.append_assoc] at front sized
  have wordRead := net32_reads (word31 r lastStreamId) ba _ inv order front
  have codeInv := skip_inv inv front
  have atCode := skip_unread front
  have codeRead := net32_reads errorCode _ _ codeInv order atCode
  have dataInv := skip_inv codeInv atCode
  have atData := skip_unread atCode
  generalize (ba.skip (netBytes 4 (word31 r lastStreamId).toNat).length) = middle at *
  generalize (middle.skip (netBytes 4 errorCode.toNat).length) = last at *
  unfold GoAwayFrame.readFrom
  rw [wordRead, bind_ok]
  dsimp only
  rw [codeRead, bind_ok]
  dsimp only
  rw [low31_word31, high1_word31]
  by_cases none : data = []
  · subst none
    rw [List.length_nil] at sized
    exact ⟨last, if_neg (by omega)⟩
  · have positive := List.length_pos_iff.mpr none
    have len : (header.length.toNat : Int) - 8 = data.length := by omega
    rw [if_pos (by omega), len, read_sized_take dataInv atData (.inl none), bind_ok]
    exact ⟨_, rfl⟩

def Conforms (header : FrameHeader) : IFrame → Prop
  | .data f => PadFits header.padded f.pad f.padding
  | .headers f =>
      PadFits header.padded f.pad f.padding ∧ (header.hasPriority = false → f.priority = {}) ∧
        f.hpack = none ∧ f.kvs = []
  | .pushPromised f => PadFits header.padded f.pad f.padding
  | _ => True

/-- How the length in the header goes with the payload; payloads of fixed size do not use it. -/
def Sized (header : FrameHeader) : IFrame → Prop
  | .settings f => header.length.toNat / SettingsItem.size = f.items.length
  | .goAway f => header.length.toNat - 8 = f.data.length
  | .data f => header.length.toNat = (payloadBytes header (.data f)).length
  | .headers f => header.length.toNat = (payloadBytes header (.headers f)).length
  | .pushPromised f => header.length.toNat = (payloadBytes header (.pushPromised f)).length
  | _ => True

/-- Reading the last string does not follow a null `m_cur`. -/
def EndsSafely (header : FrameHeader) (ba : ByteArray) : IFrame → Prop
  | .data f => EndsInside header.padded f.data f.padding ba header.length.toNat
  | .headers f => EndsInside header.padded f.data f.padding ba header.length.toNat
  | .pushPromised f => EndsInside header.padded f.data f.padding ba header.length.toNat
  | _ => True

/-- The `switch` on a buffer that holds the payload of a frame. -/
theorem read_frame_spec {header : FrameHeader} {frame : IFrame} {ba : ByteArray} {rest : Str}
    (inv : Inv ba) (order : ba.endian = .big)
    (typed : frameType header.type = some (frameTypeOf frame))
    (front : ba.unread = payloadBytes header frame ++ rest) (sized : Sized header frame)
    (conforms : Conforms header frame) (ends : EndsSafely header ba frame) :
    readFrame header ba = .ok (some ⟨header, some frame⟩) := by
  unfold readFrame
  rw [typed]
  cases frame with
  | data f =>
      obtain ⟨after, read⟩ := data_reads inv order front sized conforms ends
      simp only [frameTypeOf, read, caught, bind_ok, Option.map_some]
  | headers f =>
      obtain ⟨fits, noPriority, noPack⟩ := conforms
      obtain ⟨after, read⟩ := headers_reads inv order front sized fits noPriority noPack ends
      simp only [frameTypeOf, read, caught, bind_ok, Option.map_some]
  | priority f =>
      have read := priority_reads f {} inv order front
      simp only [frameTypeOf, read, bind_ok, if_true]
  | rstStream f =>
      have read := reads_map (fun errorCode : UInt32 => (⟨errorCode⟩ : RstStreamFrame))
        (net32_reads f.errorCode) ba rest inv order front
      change RstStreamFrame.readFrom ba = _ at read
      simp only [frameTypeOf, read, caught, bind_ok, Option.map_some]
  | settings f =>
      have read := reads_map (fun items : List SettingsItem => (⟨items⟩ : SettingsFrame))
        (items_read f.items) ba rest inv order front
      rw [← (show header.length.toNat / SettingsItem.size = f.items.length from sized)] at read
      change SettingsFrame.readFrom ba header = _ at read
      simp only [frameTypeOf, read, caught, bind_ok, Option.map_some]
  | pushPromised f =>
      obtain ⟨after, read⟩ := push_promised_reads inv order front sized conforms ends
      simp only [frameTypeOf, read, caught, bind_ok, Option.map_some]
  | ping f =>
      have read := ping_reads f ba rest inv order front
      simp only [frameTypeOf, read, caught, bind_ok, Option.map_some]
  | goAway f =>
      obtain ⟨after, read⟩ := go_away_reads inv order front sized
      simp only [frameTypeOf, read, caught, bind_ok, Option.map_some]
  | windowUpdate f =>
      obtain ⟨r, increment⟩ := f
      have read := reads_map (fun word : UInt32 =>
        (⟨high1 word, low31 word⟩ : WindowUpdateFrame)) (net32_reads (word31 r increment)) ba rest
        inv order front
      change WindowUpdateFrame.readFrom ba = _ at read
      simp only [frameTypeOf, read, caught, bind_ok, Option.map_some, low31_word31, high1_word31]

end ChatServer.Http2
