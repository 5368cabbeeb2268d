import ChatServer.Http2.FrameLayout

/-!
# Frames survive the connection

Whatever the network does to the segmentation, `parseFrom` ends with one buffer: the payload
at its start and, where the payload is short, the rest of the header behind it. For the
frames that `serializeTo` wrote the payload readers stop before that rest.
-/

namespace ChatServer.Http2

set_option autoImplicit false

open ChatServer.ByteArray

/-- The buffer when the payload is about to be read. Without payload the cursor still stands
behind the header. -/
structure Loaded (header : FrameHeader) (payload : Str) (ba : ByteArray) : Prop where
  inv : Inv ba
  order : ba.endian = .big
  baseSize : ba.baseSize = 4096
  front : ba.unread =
    if payload = [] then [] else payload ++ (headerBytes header).drop payload.length
  position : ba.position = if payload = [] then 9 else 0
  snug : ba.capacity < max 4097 (payload.length + 4096)

theorem loaded_capacity {header : FrameHeader} {payload : Str} {ba : ByteArray}
    (loaded : Loaded header payload ba) : ∃ blocks, ba.capacity = 4096 * blocks ∧ 0 < blocks := by
  have counted := loaded.inv.capacityEq
  rw [loaded.baseSize] at counted
  exact ⟨ba.nodes.length, counted, loaded.inv.rooted⟩

theorem header_received (fresh : Nat → Nat → UInt8) {stream : Stream} {header : FrameHeader}
    {rest : Str} (front : stream.incoming = headerBytes header ++ rest) :
    ∃ next ba, stream.readFixSize (ByteArray.new 4096 fresh) FrameHeader.size =
        .ok (9, next, ba) ∧ next.incoming = rest ∧ Inv ba ∧ ba.endian = .big ∧
      ba.baseSize = 4096 ∧ ba.contents = headerBytes header ∧ ba.capacity = 4096 := by
  have length := header_bytes_length header
  obtain ⟨next, ba, received, behind, put, snug⟩ :=
    stream.read_fix_size_put (new_inv 4096 fresh (by decide)) (headerBytes header) rest front
  rw [length] at received snug
  refine ⟨next, ba, received, behind, put.inv, put.endian, put.baseSize, ?_, ?_⟩
  · have written := put.contents
    exact written.trans (Splice.splice_at_end [] (headerBytes header))
  · have bound : ba.capacity < max (4096 + 1) (0 + 9 + 4096) := snug
    have counted := put.inv.capacityEq
    have rooted := put.inv.rooted
    rw [put.baseSize, show (ByteArray.new 4096 fresh).baseSize = 4096 from rfl] at counted
    omega

theorem parse_loaded (fresh : Nat → Nat → UInt8) {stream : Stream} {header : FrameHeader}
    {payload rest : Str} (front : stream.incoming = headerBytes header ++ (payload ++ rest))
    (length : header.length.toNat = payload.length) :
    ∃ ba next, Loaded header payload ba ∧ next.incoming = rest ∧
      FrameCodec.parse fresh stream = readFrame header ba >>= fun frame => .ok (frame, next) := by
  obtain ⟨middle, ba, received, behind, inv, order, baseSize, contents, capacity⟩ :=
    header_received fresh front
  have startInv := seek_inv inv (Nat.zero_le ba.size)
  have startFront : (ba.seek 0).unread = headerBytes header ++ [] := by
    rw [unread, seek_contents, seek_position, contents, List.drop_zero, List.append_nil]
  have headerRead := header_reads header (ba.seek 0) [] startInv order startFront
  have headerLength := header_bytes_length header
  have size : ba.size = 9 := by
    rw [← contents_length inv, contents, headerLength]
  have steps : FrameCodec.parse fresh stream =
      FrameCodec.readPayload middle header ((ba.seek 0).skip (headerBytes header).length) := by
    rw [FrameCodec.parse, received, bind_ok]
    dsimp only
    rw [if_neg (by decide), set_position_seek inv (Nat.zero_le _), bind_ok, headerRead]
    rfl
  rw [steps, FrameCodec.readPayload]
  by_cases none : payload = []
  · subst none
    rw [List.length_nil] at length
    rw [if_neg (by omega)]
    refine ⟨_, middle, ?_, behind, rfl⟩
    refine ⟨skip_inv startInv startFront, order, baseSize, ?_, ?_, ?_⟩
    · rw [if_pos rfl, skip_unread startFront]
    · rw [if_pos rfl, skip_position, seek_position, headerLength]
    · change ba.capacity < max 4097 (0 + 4096)
      omega
  · have some := List.length_pos_iff.mpr none
    have rewound : ((ba.seek 0).skip (headerBytes header).length).setPosition 0 = .ok (ba.seek 0) :=
      set_position_seek (skip_inv startInv startFront) (Nat.zero_le _)
    obtain ⟨next, full, loadedAll, left, put, snug⟩ :=
      middle.read_fix_size_put startInv payload rest behind
    have positive : ¬int32 (payload.length : Int) ≤ 0 := by
      have bound := header.length.isLt
      rw [int32_eq (by omega) (by omega)]
      omega
    rw [if_pos (by omega), rewound, bind_ok, length, loadedAll, bind_ok]
    dsimp only
    rw [if_neg positive, set_position_seek put.inv (Nat.zero_le _), bind_ok]
    refine ⟨_, next, ?_, left, rfl⟩
    refine ⟨seek_inv put.inv (Nat.zero_le _), put.endian.trans order, put.baseSize.trans baseSize,
      ?_, ?_, ?_⟩
    · have behindPayload := put_unread startInv put
      rw [seek_contents, contents, seek_position, Nat.zero_add] at behindPayload
      rw [if_neg none]
      exact behindPayload
    · rw [if_neg none]
      rfl
    · have bound : full.capacity < max (ba.capacity + 1) (0 + payload.length + ba.baseSize) := snug
      change full.capacity < max 4097 (payload.length + 4096)
      omega

theorem parse_from_loaded (fresh : Nat → Nat → UInt8) {stream : Stream} {header : FrameHeader}
    {payload rest : Str} (front : stream.incoming = headerBytes header ++ (payload ++ rest))
    (length : header.length.toNat = payload.length) :
    ∃ ba next, Loaded header payload ba ∧ next.incoming = rest ∧
      (∀ frame, readFrame header ba = .ok frame →
        FrameCodec.parseFrom fresh stream = .ok (frame, next)) ∧
      ∀ cause, readFrame header ba = .error (.undefined cause) →
        FrameCodec.parseFrom fresh stream = .error (.undefined cause) := by
  obtain ⟨ba, next, loaded, left, parsed⟩ := parse_loaded fresh front length
  refine ⟨ba, next, loaded, left, ?_, ?_⟩
  · intro frame read
    rw [FrameCodec.parseFrom, parsed, read]
    rfl
  · intro cause read
    rw [FrameCodec.parseFrom, parsed, read]
    rfl

def onWire : IFrame → IFrame
  | .headers f => .headers { f with hpack := none }
  | frame => frame

def PadGiven (header : FrameHeader) : IFrame → Prop
  | .data f => header.padded = true → f.pad ≠ 0
  | .headers f => header.padded = true → f.pad ≠ 0
  | _ => True

/-- The frames of the eight types that are written and read, with consistent fields. -/
structure Transferable (header : FrameHeader) (data : IFrame) : Prop where
  typed : frameType header.type = some (frameTypeOf data)
  writable : Writable data
  conforms : Conforms header (onWire data)
  padGiven : PadGiven header data
  short : (payloadBytes header data).length < 2 ^ 24

def withLength (header : FrameHeader) (data : IFrame) : FrameHeader :=
  { header with length := BitVec.ofNat 24 (payloadBytes header data).length }

theorem assemble_spec (fresh : Nat → Nat → UInt8) {header : FrameHeader} {data : IFrame}
    (transferable : Transferable header data) :
    ∃ ba, FrameCodec.assemble fresh ⟨header, some data⟩ = .ok (some
        (⟨withLength header data, some data⟩, ba)) ∧
      Inv ba ∧ ba.contents =
        headerBytes (withLength header data) ++ payloadBytes header data := by
  have newInv := new_inv 4096 fresh (by decide)
  obtain ⟨first, headerWritten, headerPut⟩ := header_writes header _ newInv rfl
  obtain ⟨firstContents, atEnd⟩ := put_at_end newInv rfl headerPut
  obtain ⟨second, payloadWritten, payloadPut⟩ :=
    payload_writes header transferable.writable fresh headerPut.inv headerPut.endian
  obtain ⟨secondContents, _⟩ := put_at_end headerPut.inv atEnd payloadPut
  have moved : (second.position - FrameHeader.size : Int) = (payloadBytes header data).length := by
    have position : second.position = 0 + (headerBytes header).length +
        (payloadBytes header data).length := payloadPut.position.trans (by rw [headerPut.position]; rfl)
    rw [header_bytes_length] at position
    rw [position, FrameHeader.size]
    omega
  have rewindInv := seek_inv payloadPut.inv (Nat.zero_le second.size)
  obtain ⟨third, headerAgain, againPut⟩ := header_writes (withLength header data) (second.seek 0)
    rewindInv (payloadPut.endian.trans headerPut.endian)
  refine ⟨third, ?_, againPut.inv, ?_⟩
  · rw [FrameCodec.assemble, headerWritten, bind_ok]
    dsimp only
    rw [payloadWritten, bind_ok]
    dsimp only
    rw [set_position_seek payloadPut.inv (Nat.zero_le _), bind_ok, moved, BitVec.ofInt_natCast,
      ← withLength, headerAgain, bind_ok]
  · have nothing : (ByteArray.new 4096 fresh).contents = [] := rfl
    rw [againPut.contents, seek_contents, seek_position, secondContents, firstContents, nothing,
      List.nil_append, Splice.splice, List.take_zero, List.nil_append, Nat.zero_add,
      header_bytes_length, ← header_bytes_length header, List.drop_left]

theorem serialize_spec (fresh : Nat → Nat → UInt8) (stream : Stream) {header : FrameHeader}
    {data : IFrame} (transferable : Transferable header data) :
    ∃ next, FrameCodec.serializeTo fresh stream ⟨header, some data⟩ =
        .ok (((9 + (payloadBytes header data).length : Nat) : Int),
          ⟨withLength header data, some data⟩, next) ∧
      next.outgoing = stream.outgoing ++
        (headerBytes (withLength header data) ++ payloadBytes header data) := by
  obtain ⟨ba, assembled, inv, contents⟩ := assemble_spec fresh transferable
  have short := transferable.short
  have startInv := seek_inv inv (Nat.zero_le ba.size)
  have size : ba.size = 9 + (payloadBytes header data).length := by
    rw [← contents_length inv, contents, List.length_append, header_bytes_length]
  have unread : (ba.seek 0).unread = ba.contents := List.drop_zero
  have returned : int32 (ba.size : Int) = ((9 + (payloadBytes header data).length : Nat) : Int) := by
    rw [size, int32_of_small (by omega)]
  have positive : ¬int32 ((ba.seek 0).getReadSize : Int) ≤ 0 := by
    have total : (ba.seek 0).getReadSize = ba.size := Nat.sub_zero ba.size
    rw [total, returned]
    omega
  obtain ⟨next, after, written, sent, sameSize⟩ := stream.write_fix_size_sends startInv
  rw [unread, contents] at sent
  refine ⟨next, ?_, sent⟩
  rw [FrameCodec.serializeTo, assembled, bind_ok]
  dsimp only
  rw [set_position_seek inv (Nat.zero_le _), bind_ok, written, bind_ok]
  dsimp only
  rw [if_neg positive, sameSize, seek_size, returned]

theorem items_length (items : List SettingsItem) :
    (items.flatMap itemBytes).length = 6 * items.length := by
  induction items with
  | nil => rfl
  | cons item rest induction =>
      rw [List.flatMap_cons, List.length_append, induction, itemBytes, List.length_append,
        net_bytes_length, net_bytes_length, List.length_cons]
      omega

theorem with_length_bytes (header : FrameHeader) (data other : IFrame) :
    payloadBytes (withLength header data) (onWire other) = payloadBytes header other := by
  cases other <;> rfl

theorem with_length_to_nat {header : FrameHeader} {data : IFrame}
    (short : (payloadBytes header data).length < 2 ^ 24) :
    (withLength header data).length.toNat = (payloadBytes header data).length := by
  rw [withLength, BitVec.toNat_ofNat, Nat.mod_eq_of_lt short]

theorem sent_sized {header : FrameHeader} {data : IFrame}
    (short : (payloadBytes header data).length < 2 ^ 24) :
    Sized (withLength header data) (onWire data) := by
  have length := with_length_to_nat short
  cases data with
  | data f => exact length
  | headers f => exact length
  | pushPromised f => exact length
  | settings f =>
      change (withLength header (.settings f)).length.toNat / 6 = f.items.length
      rw [length, payloadBytes, items_length]
      omega
  | goAway f =>
      change (withLength header (.goAway f)).length.toNat - 8 = f.data.length
      rw [length, payloadBytes, List.length_append, List.length_append, net_bytes_length,
        net_bytes_length]
      omega
  | priority f => trivial
  | rstStream f => trivial
  | ping f => trivial
  | windowUpdate f => trivial

theorem loaded_size {header : FrameHeader} {payload : Str} {ba : ByteArray}
    (loaded : Loaded header payload ba) : payload.length ≤ ba.size := by
  have total := unread_length loaded.inv
  rw [loaded.front, getReadSize] at total
  split_ifs at total with none
  · rw [none]
    exact Nat.zero_le _
  · rw [List.length_append] at total
    omega

theorem ends_inside {header : FrameHeader} {payload : Str} {ba : ByteArray}
    (loaded : Loaded header payload ba) {padded : Bool} {pad : UInt8} {data padding : Str}
    (fits : PadFits padded pad padding)
    (given : padded = true → pad ≠ 0 ∨ payload ≠ [] ∧ payload.length % 4096 ≠ 0)
    (few : padded = false → data = [] → payload.length ≤ 5) :
    EndsInside padded data padding ba payload.length := by
  obtain ⟨blocks, capacity, positive⟩ := loaded_capacity loaded
  have size := loaded_size loaded
  have sizeLe := loaded.inv.sizeLe
  have position := loaded.position
  unfold PadFits at fits
  unfold EndsInside
  cases padded with
  | true =>
      rcases given rfl with some | ⟨some, partBlock⟩
      · left
        rintro rfl
        exact some (UInt8.toNat_inj.mp fits.symm)
      · right
        rw [if_neg some] at position
        omega
  | false =>
      by_cases none : data = []
      · right
        have small := few rfl none
        by_cases empty : payload = []
        · rw [if_pos empty] at position
          omega
        · rw [if_neg empty] at position
          omega
      · exact .inl none

theorem sent_ends {header : FrameHeader} {data : IFrame} {ba : ByteArray}
    (transferable : Transferable header data)
    (loaded : Loaded (withLength header data) (payloadBytes header data) ba) :
    EndsSafely (withLength header data) ba (onWire data) := by
  have length := with_length_to_nat transferable.short
  have conforms := transferable.conforms
  have given := transferable.padGiven
  cases data with
  | data f =>
      change EndsInside header.padded f.data f.padding ba _
      rw [length]
      apply ends_inside loaded conforms (fun padded => .inl (given padded))
      intro padded none
      rw [payloadBytes, paddedBytes, padded, none]
      exact Nat.zero_le 5
  | headers f =>
      change EndsInside header.padded f.data f.padding ba _
      rw [length]
      apply ends_inside loaded conforms.1 (fun padded => .inl (given padded))
      intro padded none
      rw [payloadBytes, paddedBytes, padded, none, if_neg Bool.false_ne_true, List.append_nil]
      split_ifs
      · rw [priorityBytes, List.length_append, net_bytes_length]
        exact Nat.le_refl 5
      · exact Nat.zero_le 5
  | pushPromised f => exact transferable.writable.elim
  | priority f => trivial
  | rstStream f => trivial
  | settings f => trivial
  | ping f => trivial
  | goAway f => trivial
  | windowUpdate f => trivial

theorem sent_conforms {header : FrameHeader} {data : IFrame}
    (conforms : Conforms header (onWire data)) : Conforms (withLength header data) (onWire data) := by
  cases data <;> exact conforms

/-- A frame that `serializeTo` wrote is read back, however the bytes were cut on the way: the
header with the length of the payload and the payload field by field. -/
theorem frame_round_trips (fresh freshReader : Nat → Nat → UInt8) (sender : Stream)
    (header : FrameHeader) (data : IFrame) (transferable : Transferable header data) :
    ∃ bytes count sent, FrameCodec.serializeTo fresh sender ⟨header, some data⟩ =
        .ok (count, ⟨withLength header data, some data⟩, sent) ∧
      sent.outgoing = sender.outgoing ++ bytes ∧
      (withLength header data).length.toNat = (payloadBytes header data).length ∧
      ∀ (receiver : Stream) (rest : Str), receiver.incoming = bytes ++ rest →
        ∃ next, FrameCodec.parseFrom freshReader receiver =
            .ok (some ⟨withLength header data, some (onWire data)⟩, next) ∧
          next.incoming = rest := by
  obtain ⟨sent, serialized, outgoing⟩ := serialize_spec fresh sender transferable
  have length := with_length_to_nat transferable.short
  refine ⟨_, _, sent, serialized, outgoing, length, ?_⟩
  intro receiver rest incoming
  rw [List.append_assoc] at incoming
  obtain ⟨ba, next, loaded, left, parsed, _⟩ := parse_from_loaded freshReader incoming length
  refine ⟨next, parsed _ ?_, left⟩
  have front : ba.unread = payloadBytes (withLength header data) (onWire data) ++
      (if payloadBytes header data = [] then []
        else (headerBytes (withLength header data)).drop (payloadBytes header data).length) := by
    rw [with_length_bytes, loaded.front]
    split_ifs with none
    · rw [none]
      rfl
    · rfl
  have typed : frameType (withLength header data).type = some (frameTypeOf (onWire data)) := by
    have sameType : frameTypeOf (onWire data) = frameTypeOf data := by cases data <;> rfl
    rw [sameType]
    exact transferable.typed
  exact read_frame_spec loaded.inv loaded.order typed front (sent_sized transferable.short)
    (sent_conforms transferable.conforms) (sent_ends transferable loaded)

/-- A padded DATA frame that is received byte by byte. -/
theorem frame_round_trips_data :
    ∃ bytes count sent, FrameCodec.serializeTo (fun _ _ => 0) ⟨[], [], fun _ => 2, 4096, by decide⟩
        ⟨{ flags := 0x8, identifier := 1 },
          some (.data { pad := 2, data := [1, 2, 3], padding := [0, 0] })⟩ =
        .ok (count, ⟨withLength { flags := 0x8, identifier := 1 }
          (.data { pad := 2, data := [1, 2, 3], padding := [0, 0] }),
          some (.data { pad := 2, data := [1, 2, 3], padding := [0, 0] })⟩, sent) ∧
      sent.outgoing = bytes ∧
      ∃ next, FrameCodec.parseFrom (fun _ _ => 0xFF) ⟨bytes, [], fun _ => 0, 4096, by decide⟩ =
        .ok (some ⟨withLength { flags := 0x8, identifier := 1 }
          (.data { pad := 2, data := [1, 2, 3], padding := [0, 0] }),
          some (.data { pad := 2, data := [1, 2, 3], padding := [0, 0] })⟩, next) := by
  obtain ⟨bytes, count, sent, serialized, outgoing, _, parsed⟩ := frame_round_trips (fun _ _ => 0)
    (fun _ _ => 0xFF) ⟨[], [], fun _ => 2, 4096, by decide⟩ { flags := 0x8, identifier := 1 }
    (.data { pad := 2, data := [1, 2, 3], padding := [0, 0] })
    ⟨rfl, trivial, rfl, fun _ => by decide, by decide⟩
  obtain ⟨next, read, _⟩ := parsed ⟨bytes, [], fun _ => 0, 4096, by decide⟩ []
    (List.append_nil bytes).symm
  exact ⟨bytes, count, sent, serialized, outgoing, next, read⟩

/-- `serializeTo` reports success, and `parseFrom` makes the frame of what was sent. -/
def FrameRoundTrips (fresh freshReader : Nat → Nat → UInt8) (sender : Stream)
    (header : FrameHeader) (data : IFrame) : Prop :=
  ∃ bytes count sized sent, FrameCodec.serializeTo fresh sender ⟨header, some data⟩ =
      .ok (count, ⟨sized, some data⟩, sent) ∧ 0 ≤ count ∧
    sent.outgoing = sender.outgoing ++ bytes ∧
    ∀ receiver : Stream, receiver.incoming = bytes →
      ∃ next, FrameCodec.parseFrom freshReader receiver = .ok (some ⟨sized, some data⟩, next)

theorem refused_not_round_trips {fresh freshReader : Nat → Nat → UInt8} {sender sent : Stream}
    {header : FrameHeader} {data : IFrame} {frame : Frame}
    (refused : FrameCodec.serializeTo fresh sender ⟨header, some data⟩ = .ok (-1, frame, sent)) :
    ¬FrameRoundTrips fresh freshReader sender header data := by
  rintro ⟨bytes, count, sized, after, serialized, succeeded, _⟩
  rw [refused] at serialized
  have failed : -1 = count := congrArg Prod.fst (Except.ok.inj serialized)
  omega

theorem push_promised_writes (header : FrameHeader) (frame : PushPromisedFrame) :
    Writes (fun ba => frame.writeTo ba header) .big
      (payloadBytes header (.pushPromised frame)) := by
  rw [payloadBytes, paddedBytes]
  unfold PushPromisedFrame.writeTo
  cases header.padded with
  | false =>
      exact writes_bind (write_fuint32_writes frame.rStreamId) (write_writes .big frame.data)
  | true =>
      rw [if_pos rfl]
      exact writes_bind (write_byte_writes frame.pad)
        (writes_bind (write_fuint32_writes frame.rStreamId)
          (writes_bind (write_writes .big frame.data) (write_writes .big frame.padding)))

theorem push_promise_refused (fresh : Nat → Nat → UInt8) (sender : Stream) (header : FrameHeader)
    (frame : PushPromisedFrame) :
    FrameCodec.serializeTo fresh sender ⟨header, some (.pushPromised frame)⟩ =
      .ok (-1, ⟨header, some (.pushPromised frame)⟩, sender) := by
  have newInv := new_inv 4096 fresh (by decide)
  obtain ⟨first, headerWritten, headerPut⟩ := header_writes header _ newInv rfl
  obtain ⟨second, payloadWritten, _⟩ :=
    push_promised_writes header frame first headerPut.inv headerPut.endian
  dsimp only at payloadWritten
  rw [FrameCodec.serializeTo, FrameCodec.assemble, headerWritten, bind_ok]
  dsimp only
  rw [IFrame.writeTo, payloadWritten]
  rfl

/-- No PUSH_PROMISE frame is ever sent. -/
theorem push_promise_never_round_trips (fresh freshReader : Nat → Nat → UInt8) (sender : Stream)
    (header : FrameHeader) (frame : PushPromisedFrame) :
    ¬FrameRoundTrips fresh freshReader sender header (.pushPromised frame) :=
  refused_not_round_trips (push_promise_refused fresh sender header frame)

/-- The promise of stream 2 with one octet of header data, and no padding. -/
theorem push_promise_not_sent :
    ¬FrameRoundTrips (fun _ _ => 0) (fun _ _ => 0) ⟨[], [], fun _ => 0, 4096, by decide⟩
      { type := 0x5, flags := 0x4, identifier := 1 }
      (.pushPromised { streamId := 2, data := [0x82] }) :=
  refused_not_round_trips (push_promise_refused _ _ _ _)

end ChatServer.Http2
