import ChatServer.Http2.ConnectionRuns
import ChatServer.Http2.FrameRoundTrip
import ChatServer.Http2.HPackSync

/-!
# Frames on the wire of a connection

A HEADERS frame is enqueued with its header list and an `HPack` on the table of the connection.
It is packed when the writer serialises it, so the order in which frames are written is also the
order in which the table changes. The reader parses one frame after the other and sees blocks
instead of header lists.
-/

namespace ChatServer.Http2

set_option autoImplicit false

def Frame.withTable (frame : Frame) (table : DynamicTable) : Frame :=
  match frame.data with
  | some (.headers headers) =>
      { frame with data := some (.headers { headers with hpack := some ⟨[], table⟩ }) }
  | _ => frame

def Frame.tableBehind (frame : Frame) (table : DynamicTable) : DynamicTable :=
  match frame.data with
  | some (.headers headers) => (headers.hpack.map HPack.table).getD table
  | _ => table

/-- `doWrite` over what was enqueued, until `doSend` of a frame fails. -/
def writeFrames (fresh : Nat → Nat → UInt8) :
    DynamicTable → Stream → List Frame → Result (Bool × DynamicTable × Stream)
  | table, stream, [] => .ok (true, table, stream)
  | table, stream, frame :: rest => do
      let (rt, frame, stream) ← FrameCodec.serializeTo fresh stream (frame.withTable table)
      if rt > 0 then writeFrames fresh (frame.tableBehind table) stream rest
      else .ok (false, frame.tableBehind table, stream)

/-- This many rounds of `doRead`, which `parseFrom` ends with the null pointer. -/
def readFrames (fresh : Nat → Nat → UInt8) : Nat → Stream → Result (Option (List Frame) × Stream)
  | 0, stream => .ok (some [], stream)
  | count + 1, stream => do
      match ← FrameCodec.parseFrom fresh stream with
      | (none, stream) => .ok (none, stream)
      | (some frame, stream) => do
          let (rest, stream) ← readFrames fresh count stream
          .ok (rest.map fun rest => frame :: rest, stream)

/-- What `writeTo` does is what it does with the block in the place of the header list. -/
theorem headers_write_packed {fresh : Nat → Nat → UInt8} {frame packed : HeadersFrame}
    (packs : frame.packKvs fresh = .ok packed) (header : FrameHeader) (ba : ByteArray) :
    frame.writeTo fresh ba header =
      ({ packed with kvs := [] }.writeTo fresh ba header >>= fun written =>
        .ok (packed, written.2)) := by
  have parts : packed.pad = frame.pad ∧ packed.priority = frame.priority ∧
      packed.padding = frame.padding := by
    unfold HeadersFrame.packKvs at packs
    cases hpack : frame.hpack with
    | none =>
        rw [hpack] at packs
        rw [← Except.ok.inj packs]
        exact ⟨rfl, rfl, rfl⟩
    | some hp =>
        rw [hpack] at packs
        dsimp only at packs
        split_ifs at packs
        · rw [← Except.ok.inj packs]
          exact ⟨rfl, rfl, rfl⟩
        · obtain ⟨written, _, packs⟩ := bind_eq_ok packs
          rw [← Except.ok.inj packs]
          exact ⟨rfl, rfl, rfl⟩
  obtain ⟨pad, priority, padding⟩ := parts
  have plain : ({ packed with kvs := [] } : HeadersFrame).kvs = [] := rfl
  rw [headers_write_eq header plain]
  unfold HeadersFrame.writeTo
  cases header.padded <;> cases header.hasPriority <;>
    simp only [packs, pad, priority, padding, bind_ok, bind_assoc, Bool.false_eq_true, if_true,
      if_false]

/-- The frame with the block that `pack` made, as if it had been given so. -/
def HeadersFrame.unpacked (frame : HeadersFrame) : IFrame := .headers { frame with kvs := [] }

theorem write_packed {fresh : Nat → Nat → UInt8} {frame packed : HeadersFrame}
    (packs : frame.packKvs fresh = .ok packed) (header : FrameHeader) (ba : ByteArray) :
    (IFrame.headers frame).writeTo fresh ba header =
      (packed.unpacked.writeTo fresh ba header >>= fun written =>
        .ok (written.map fun written => (.headers packed, written.2))) := by
  unfold HeadersFrame.unpacked IFrame.writeTo
  dsimp only
  rw [headers_write_packed packs]
  cases HeadersFrame.writeTo { packed with kvs := [] } fresh ba header with
  | ok written => rfl
  | error fault => cases fault <;> rfl

theorem assemble_packed {fresh : Nat → Nat → UInt8} {frame packed : HeadersFrame}
    (packs : frame.packKvs fresh = .ok packed) {header sized : FrameHeader} {ba : ByteArray}
    {data : Option IFrame} (assembled : FrameCodec.assemble fresh ⟨header, some packed.unpacked⟩ =
      .ok (some (⟨sized, data⟩, ba))) :
    FrameCodec.assemble fresh ⟨header, some (.headers frame)⟩ =
      .ok (some (⟨sized, some (.headers packed)⟩, ba)) := by
  unfold FrameCodec.assemble at assembled ⊢
  obtain ⟨first, headed, assembled⟩ := bind_eq_ok assembled
  obtain ⟨written, wrote, assembled⟩ := bind_eq_ok assembled
  rw [headed, bind_ok]
  dsimp only
  rw [write_packed packs, wrote, bind_ok, bind_ok]
  cases written with
  | none => cases assembled
  | some written =>
      obtain ⟨rewound, moved, assembled⟩ := bind_eq_ok assembled
      obtain ⟨last, again, assembled⟩ := bind_eq_ok assembled
      obtain ⟨same, rfl⟩ := Prod.mk.inj (Option.some.inj (Except.ok.inj assembled))
      rw [Option.map_some]
      dsimp only
      rw [moved, bind_ok, again, bind_ok, ← (Frame.mk.inj same).1]

theorem serialize_packed {fresh : Nat → Nat → UInt8} {frame packed : HeadersFrame}
    (packs : frame.packKvs fresh = .ok packed) {header sized : FrameHeader} {sender sent : Stream}
    {data : Option IFrame} {count : Int}
    (serialized : FrameCodec.serializeTo fresh sender ⟨header, some packed.unpacked⟩ =
      .ok (count, ⟨sized, data⟩, sent)) (positive : 0 < count) :
    FrameCodec.serializeTo fresh sender ⟨header, some (.headers frame)⟩ =
      .ok (count, ⟨sized, some (.headers packed)⟩, sent) := by
  unfold FrameCodec.serializeTo at serialized ⊢
  obtain ⟨made, assembled, serialized⟩ := bind_eq_ok serialized
  cases made with
  | none =>
      have failed := congrArg Prod.fst (Except.ok.inj serialized)
      dsimp only at failed
      omega
  | some made =>
      obtain ⟨rewound, moved, serialized⟩ := bind_eq_ok serialized
      obtain ⟨written, wrote, serialized⟩ := bind_eq_ok serialized
      rw [assemble_packed packs assembled, bind_ok]
      dsimp only
      rw [moved, bind_ok, wrote, bind_ok]
      dsimp only at serialized ⊢
      split_ifs at serialized ⊢ with failed
      · have less := congrArg Prod.fst (Except.ok.inj serialized)
        dsimp only at less
        omega
      · obtain ⟨counted, both⟩ := Prod.mk.inj (Except.ok.inj serialized)
        obtain ⟨same, rfl⟩ := Prod.mk.inj both
        have head : made.1.header = sized := congrArg Frame.header same
        rw [counted, head]

/-- The block in the frame is that of the fields chosen for the header list. -/
theorem pack_kvs_spec (fresh : Nat → Nat → UInt8) {table last : DynamicTable}
    {kvs : List (Str × Str)} {fields : List HeaderField}
    (chosen : chooseAll table kvs = .ok (fields, last)) (sendable : ∀ h ∈ fields, Sendable h)
    (short : (blockBytes fields).length < 2 ^ 31) :
    ({ hpack := some ⟨[], table⟩, kvs } : HeadersFrame).packKvs fresh =
      .ok { data := blockBytes fields, hpack := some ⟨fields, last⟩, kvs } := by
  unfold HeadersFrame.packKvs
  dsimp only
  by_cases none : kvs = []
  · subst none
    obtain ⟨rfl, rfl⟩ := Prod.mk.inj (Except.ok.inj chosen)
    rfl
  · rw [if_neg none, pack_string_spec fresh ⟨[], table⟩ chosen sendable short, bind_ok,
      List.nil_append]

inductive OfMessage : Frame → Prop where
  | headers (id : UInt32) (kvs : List (Str × Str)) (ends : Bool) :
      OfMessage (headersFrame id kvs ends)
  | data (id : UInt32) (body : Str) (last ends : Bool) (short : body.length < 2 ^ 24) :
      OfMessage (Http2SocketStream.dataFrame id body last ends)

/-- The header lists fit into frames, one after the other on a shared table. -/
def BlocksFit : DynamicTable → List Frame → Prop
  | _, [] => True
  | table, frame :: rest =>
      match frame.data with
      | some (.headers headers) => ∃ fields next, chooseAll table headers.kvs = .ok (fields, next) ∧
          Transmissible fields ∧ (blockBytes fields).length < 2 ^ 24 ∧ BlocksFit next rest
      | _ => BlocksFit table rest

def fieldFits (h : HeaderField) : Bool :=
  (literals h).all fun literal =>
    (match asWritten literal.1 literal.2 with
      | .ok bytes => decide (bytes.length < 255)
      | .error _ => false) && decide (literal.1.length < 2 ^ 32)

def blocksFit : DynamicTable → List Frame → Bool
  | _, [] => true
  | table, frame :: rest =>
      match frame.data with
      | some (.headers headers) =>
          match chooseAll table headers.kvs with
          | .ok (fields, next) => fields.all fieldFits &&
              decide ((blockBytes fields).length < 2 ^ 24) && blocksFit next rest
          | .error _ => false
      | _ => blocksFit table rest

theorem field_fits_sound {h : HeaderField} (fits : fieldFits h = true) :
    ShortLiterals h ∧ BoundedTexts h := by
  have each := List.all_eq_true.mp fits
  constructor
  · intro literal member
    have both := (Bool.and_eq_true_iff.mp (each literal member)).1
    cases written : asWritten literal.1 literal.2 with
    | ok bytes =>
        rw [written] at both
        exact ⟨bytes, rfl, of_decide_eq_true both⟩
    | error fault =>
        rw [written] at both
        cases both
  · intro literal member
    exact of_decide_eq_true (Bool.and_eq_true_iff.mp (each literal member)).2

theorem blocks_fit_sound {frames : List Frame} :
    ∀ {table : DynamicTable}, blocksFit table frames = true → BlocksFit table frames := by
  induction frames with
  | nil => exact fun _ => trivial
  | cons frame rest induction =>
      intro table fits
      unfold blocksFit at fits
      unfold BlocksFit
      split
      · rename_i headers payload
        rw [payload] at fits
        dsimp only at fits
        cases chosen : chooseAll table headers.kvs with
        | error fault =>
            rw [chosen] at fits
            cases fits
        | ok made =>
            obtain ⟨fields, next⟩ := made
            rw [chosen] at fits
            obtain ⟨both, later⟩ := Bool.and_eq_true_iff.mp fits
            obtain ⟨all, short⟩ := Bool.and_eq_true_iff.mp both
            have bound := of_decide_eq_true short
            have each := fun h member => field_fits_sound (List.all_eq_true.mp all h member)
            exact ⟨fields, next, rfl, ⟨fun h member => (each h member).1,
              fun h member => (each h member).2, by omega⟩, bound, induction later⟩
      · rename_i other
        split at fits
        · rename_i headers payload
          exact absurd payload (other headers)
        · exact induction fits

def arrivedHeaders (id : UInt32) (ends : Bool) (block : Str) : Frame :=
  ⟨withLength (headersFrame id [] ends).header (.headers { data := block }),
    some (.headers { data := block })⟩

def arrivedData (id : UInt32) (body : Str) (last ends : Bool) : Frame :=
  let frame := Http2SocketStream.dataFrame id body last ends
  ⟨withLength frame.header (.data { data := body }), frame.data⟩

def Crosses (fresh freshReader : Nat → Nat → UInt8) (table last : DynamicTable)
    (frame arrived : Frame) : Prop :=
  ∀ sender : Stream, ∃ count packed sent bytes,
    FrameCodec.serializeTo fresh sender (frame.withTable table) = .ok (count, packed, sent) ∧
      0 < count ∧ packed.tableBehind table = last ∧ sent.outgoing = sender.outgoing ++ bytes ∧
      ∀ (receiver : Stream) (rest : Str), receiver.incoming = bytes ++ rest →
        ∃ next, FrameCodec.parseFrom freshReader receiver = .ok (some arrived, next) ∧
          next.incoming = rest

/-- The reader makes the frame of the bytes of a consistent one. -/
theorem transferable_read (fresh : Nat → Nat → UInt8) {header : FrameHeader} {data : IFrame}
    (transferable : Transferable header data) {receiver : Stream} {rest : Str}
    (incoming : receiver.incoming =
      headerBytes (withLength header data) ++ payloadBytes header data ++ rest) :
    ∃ next, FrameCodec.parseFrom fresh receiver =
        .ok (some ⟨withLength header data, some (onWire data)⟩, next) ∧ next.incoming = rest := by
  rw [List.append_assoc] at incoming
  obtain ⟨ba, next, loaded, left, parsed, _⟩ :=
    parse_from_loaded fresh incoming (with_length_to_nat transferable.short)
  refine ⟨next, parsed _ ?_, left⟩
  have front : ba.unread = payloadBytes (withLength header data) (onWire data) ++
      (if payloadBytes header data = [] then []
        else (headerBytes (withLength header data)).drop (payloadBytes header data).length) := by
    rw [with_length_bytes, loaded.front]
    split_ifs with none
    · rw [none]
      rfl
    · rfl
  have typed : frameType (withLength header data).type = some (frameTypeOf (onWire data)) := by
    have sameType : frameTypeOf (onWire data) = frameTypeOf data := by cases data <;> rfl
    rw [sameType]
    exact transferable.typed
  exact read_frame_spec loaded.inv loaded.order typed front (sent_sized transferable.short)
    (sent_conforms transferable.conforms) (sent_ends transferable loaded)

theorem headers_frame_plain (id : UInt32) (kvs : List (Str × Str)) (ends : Bool) :
    (headersFrame id kvs ends).header.padded = false ∧
      (headersFrame id kvs ends).header.hasPriority = false := by
  change decide ((if ends then flagEndHeaders ||| Http2Stream.flagEndStream else flagEndHeaders) &&&
      flagPadded ≠ 0) = false ∧
    decide ((if ends then flagEndHeaders ||| Http2Stream.flagEndStream else flagEndHeaders) &&&
      flagPriority ≠ 0) = false
  cases ends <;> decide

theorem data_frame_plain (id : UInt32) (body : Str) (last ends : Bool) :
    (Http2SocketStream.dataFrame id body last ends).header.padded = false := by
  change decide ((if ends && last then Http2Stream.flagEndStream else 0) &&& flagPadded ≠ 0) = false
  cases last <;> cases ends <;> decide

theorem packed_payload {id : UInt32} {kvs : List (Str × Str)} {ends : Bool} {block : Str}
    (hpack : Option HPack) (list : List (Str × Str)) :
    payloadBytes (headersFrame id kvs ends).header (.headers { data := block, hpack, kvs := list }) =
      block := by
  have plain := headers_frame_plain id kvs ends
  rw [payloadBytes, plain.1, plain.2]
  rfl

theorem headers_cross (fresh freshReader : Nat → Nat → UInt8) {table last : DynamicTable}
    {kvs : List (Str × Str)} {fields : List HeaderField} (id : UInt32) (ends : Bool)
    (chosen : chooseAll table kvs = .ok (fields, last)) (sendable : ∀ h ∈ fields, Sendable h)
    (short : (blockBytes fields).length < 2 ^ 24) :
    Crosses fresh freshReader table last (headersFrame id kvs ends)
      (arrivedHeaders id ends (blockBytes fields)) := by
  intro sender
  let packed : HeadersFrame := { data := blockBytes fields, hpack := some ⟨fields, last⟩, kvs }
  have packs := pack_kvs_spec fresh chosen sendable (by omega)
  have bytes : payloadBytes (headersFrame id kvs ends).header packed.unpacked = blockBytes fields :=
    packed_payload _ _
  have transferable : Transferable (headersFrame id kvs ends).header packed.unpacked := by
    constructor
    · exact out_frame_type .headers _ _ _
    · rfl
    · refine ⟨?_, fun _ => rfl, rfl, rfl⟩
      rw [(headers_frame_plain id kvs ends).1]
      exact ⟨rfl, rfl⟩
    · intro padded
      rw [(headers_frame_plain id kvs ends).1] at padded
      cases padded
    · rw [bytes]
      exact short
  obtain ⟨sent, serialized, outgoing⟩ := serialize_spec fresh sender transferable
  have positive : 0 < ((9 + (payloadBytes (headersFrame id kvs ends).header
      packed.unpacked).length : Nat) : Int) := by omega
  have written := serialize_packed packs serialized positive
  refine ⟨_, _, sent, _, written, positive, rfl, outgoing, ?_⟩
  intro receiver rest incoming
  obtain ⟨next, read, left⟩ := transferable_read freshReader transferable incoming
  refine ⟨next, ?_, left⟩
  rw [read]
  have sized : withLength (headersFrame id kvs ends).header packed.unpacked =
      withLength (headersFrame id [] ends).header (.headers { data := blockBytes fields }) := by
    unfold withLength
    rw [bytes, packed_payload]
    rfl
  rw [sized]
  rfl

theorem data_cross (fresh freshReader : Nat → Nat → UInt8) (table : DynamicTable) (id : UInt32)
    {body : Str} (short : body.length < 2 ^ 24) (last ends : Bool) :
    Crosses fresh freshReader table table (Http2SocketStream.dataFrame id body last ends)
      (arrivedData id body last ends) := by
  intro sender
  have bytes : payloadBytes (Http2SocketStream.dataFrame id body last ends).header
      (.data { data := body }) = body := by
    rw [payloadBytes, data_frame_plain]
    rfl
  have transferable : Transferable (Http2SocketStream.dataFrame id body last ends).header
      (.data { data := body }) := by
    constructor
    · exact out_frame_type .data _ _ _
    · trivial
    · change PadFits _ _ _
      rw [data_frame_plain]
      exact ⟨rfl, rfl⟩
    · intro padded
      rw [data_frame_plain] at padded
      cases padded
    · rw [bytes]
      exact short
  obtain ⟨sent, serialized, outgoing⟩ := serialize_spec fresh sender transferable
  refine ⟨_, _, sent, _, serialized, by omega, rfl, outgoing, ?_⟩
  intro receiver rest incoming
  exact transferable_read freshReader transferable incoming

/-- Frame for frame, what is read of what was written. The blocks are those of the fields that
were chosen from the table as it was then. -/
inductive Arrives : DynamicTable → List Frame → List Frame → Prop where
  | nil (table : DynamicTable) : Arrives table [] []
  | headers {table last : DynamicTable} {kvs : List (Str × Str)} {fields : List HeaderField}
      {rest wire : List Frame} (id : UInt32) (ends : Bool)
      (chosen : chooseAll table kvs = .ok (fields, last)) (sendable : ∀ h ∈ fields, Sendable h)
      (short : (blockBytes fields).length < 2 ^ 24) (later : Arrives last rest wire) :
      Arrives table (headersFrame id kvs ends :: rest)
        (arrivedHeaders id ends (blockBytes fields) :: wire)
  | data {table : DynamicTable} {rest wire : List Frame} (id : UInt32) (body : Str)
      (last ends : Bool) (later : Arrives table rest wire) :
      Arrives table (Http2SocketStream.dataFrame id body last ends :: rest)
        (arrivedData id body last ends :: wire)

def AllCross (fresh freshReader : Nat → Nat → UInt8) (table : DynamicTable)
    (frames wire : List Frame) : Prop :=
  ∀ sender : Stream, ∃ last sent bytes,
    writeFrames fresh table sender frames = .ok (true, last, sent) ∧
      sent.outgoing = sender.outgoing ++ bytes ∧
      ∀ (receiver : Stream) (rest : Str), receiver.incoming = bytes ++ rest →
        ∃ next, readFrames freshReader frames.length receiver = .ok (some wire, next) ∧
          next.incoming = rest

theorem all_cross_cons {fresh freshReader : Nat → Nat → UInt8} {table last : DynamicTable}
    {frame arrived : Frame} {rest wire : List Frame}
    (first : Crosses fresh freshReader table last frame arrived)
    (others : AllCross fresh freshReader last rest wire) :
    AllCross fresh freshReader table (frame :: rest) (arrived :: wire) := by
  intro sender
  obtain ⟨count, packed, sent, bytes, serialized, positive, behind, outgoing, read⟩ := first sender
  obtain ⟨final, after, more, written, outgoingRest, readRest⟩ := others sent
  refine ⟨final, after, bytes ++ more, ?_, ?_, ?_⟩
  · rw [writeFrames, serialized, bind_ok]
    dsimp only
    rw [if_pos positive, behind, written]
  · rw [outgoingRest, outgoing, List.append_assoc]
  · intro receiver left incoming
    rw [List.append_assoc] at incoming
    obtain ⟨middle, parsed, remaining⟩ := read receiver _ incoming
    obtain ⟨next, parsedRest, remainingRest⟩ := readRest middle left remaining
    refine ⟨next, ?_, remainingRest⟩
    rw [List.length_cons, readFrames, parsed, bind_ok]
    dsimp only
    rw [parsedRest, bind_ok]
    rfl

theorem frames_cross (fresh freshReader : Nat → Nat → UInt8) {frames : List Frame}
    (messages : ∀ frame ∈ frames, OfMessage frame) :
    ∀ {table : DynamicTable}, table.Bounded → BlocksFit table frames →
      ∃ wire, Arrives table frames wire ∧ AllCross fresh freshReader table frames wire := by
  induction frames with
  | nil =>
      intro table _ _
      refine ⟨[], .nil table, ?_⟩
      intro sender
      exact ⟨table, sender, [], rfl, (List.append_nil _).symm, fun receiver _ incoming =>
        ⟨receiver, rfl, incoming⟩⟩
  | cons frame rest induction =>
      intro table bounded fits
      obtain ⟨own, others⟩ := List.forall_mem_cons.mp messages
      cases own with
      | headers id kvs ends =>
          obtain ⟨fields, next, chosen, fit, short, later⟩ := fits
          obtain ⟨sendable, nextBounded⟩ := choose_all_sendable bounded chosen fit
          obtain ⟨wire, arrives, cross⟩ := induction others nextBounded later
          exact ⟨_, .headers id ends chosen sendable short arrives,
            all_cross_cons (headers_cross fresh freshReader id ends chosen sendable short) cross⟩
      | data id body last ends short =>
          obtain ⟨wire, arrives, cross⟩ := induction others bounded fits
          exact ⟨_, .data id body last ends arrives,
            all_cross_cons (data_cross fresh freshReader table id short last ends) cross⟩

end ChatServer.Http2
