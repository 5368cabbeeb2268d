import ChatServer.Http2.FrameRoundTrip
import ChatServer.Http2.HeaderBlock

/-!
# Received frames of one stream

`Http2Stream::handleFrame` with its helpers, and what a received header block does to the
process: `HPack::parse` reads it through a buffer over the string of the frame, whose destructor
deletes that string's memory.
-/

namespace ChatServer.Http2

set_option autoImplicit false

/-- The part of a `std::string` that `c_str()` shows to C. -/
def cString (text : Str) : Str := text.takeWhile (· ≠ 0)

def toLower (byte : UInt8) : UInt8 := if 0x41 ≤ byte ∧ byte ≤ 0x5A then byte + 0x20 else byte

/-- Keys that `CaseInsensitiveLess` does not tell apart. -/
def sameKey (lhs rhs : Str) : Bool :=
  (cString lhs).map toLower = (cString rhs).map toLower

/-- What a stream stores in an `HttpRequest` or `HttpResponse`. Headers are found by key, so the
order of the map is left out. -/
structure HttpMessage where
  body : Str := []
  headers : List (Str × Str) := []
  deriving DecidableEq

def HttpMessage.setHeader (message : HttpMessage) (key val : Str) : HttpMessage :=
  if message.headers.any (fun entry => sameKey entry.1 key) then
    { message with
      headers := message.headers.map fun entry =>
        if sameKey entry.1 key then (entry.1, val) else entry }
  else { message with headers := message.headers ++ [(key, val)] }

inductive StreamState where
  | idle
  | opened
  | closed
  | reservedLocal
  | reservedRemote
  | halfCloseLocal
  | halfCloseRemote
  deriving DecidableEq, Repr

structure Http2Stream where
  state : StreamState := .idle
  isStream : Bool := false
  request : Option HttpMessage := none
  response : Option HttpMessage := none
  /-- The headers of `m_recvHPack`; its table is the connection's. -/
  recvHPack : Option (List HeaderField) := none
  /-- `m_handler`, code of the application that returns or throws. -/
  handler : Option (Frame → Except CppException Int) := none
  /-- `m_data`, where a null pointer marks the end. -/
  data : List (Option DataFrame) := []

namespace Http2Stream

def getDataBody : List (Option DataFrame) → Result Str
  | [] => .ok []
  | none :: _ => .error (.undefined .nullDeref)
  | some frame :: rest => do
      let body ← getDataBody rest
      .ok (frame.data ++ body)

/-- Body and headers of the message that has ended: `initRequest()`, and the same steps for a
response. -/
def initMessage (stream : Http2Stream) (message : Option HttpMessage) :
    Result (HttpMessage × List (Option DataFrame)) := do
  let (message, data) ← if stream.isStream then .ok (message.getD {}, stream.data)
    else do
      let body ← getDataBody stream.data
      .ok ({ message.getD {} with body }, [])
  let headers := stream.recvHPack.getD []
  .ok (headers.foldl (fun message i => message.setHeader i.name i.value) message, data)

/-- `handleHeadersFrame`: the return value, and the stream and the table `m_recvTable` of its
connection, which is `none` once the connection is gone. -/
def handleHeadersFrame (stream : Http2Stream) (table : Option DynamicTable) (frame : Frame) :
    Result (Int × Http2Stream × Option DynamicTable) :=
  match frame.data with
  | some (.headers headers) =>
      match table with
      | some table => do
          let (rt, hp) ← parseString { headers := stream.recvHPack.getD [], table } headers.data
          .ok (rt, { stream with recvHPack := some hp.headers }, some hp.table)
      | none => .ok (-1, stream, none)
  | _ => .ok (-1, stream, table)

def handleDataFrame (stream : Http2Stream) (table : Option DynamicTable) (frame : Frame) :
    Result (Int × Http2Stream × Option DynamicTable) :=
  match frame.data with
  | some (.data data) =>
      match table with
      | some table => .ok (0, { stream with data := stream.data ++ [some data] }, some table)
      | none => .ok (-1, stream, none)
  | _ => .ok (-1, stream, table)

def handleRstStreamFrame (stream : Http2Stream) (table : Option DynamicTable) :
    Result (Int × Http2Stream × Option DynamicTable) :=
  .ok (0, { stream with state := .closed }, table)

/-- The first `if` of `handleFrame`, with `CHAT_ASSERT(rt != -1)`. -/
def handleByType (stream : Http2Stream) (table : Option DynamicTable) (frame : Frame) :
    Result (Int × Http2Stream × Option DynamicTable) :=
  match frameType frame.header.type with
  | some .headers => do
      let (rt, stream, table) ← stream.handleHeadersFrame table frame
      if rt = -1 then .error .aborted else .ok (rt, stream, table)
  | some .data => stream.handleDataFrame table frame
  | some .rstStream => stream.handleRstStreamFrame table
  | _ => .ok (0, stream, table)

def callHandler (stream : Http2Stream) (frame : Frame) : Result Unit :=
  match stream.handler with
  | none => .ok ()
  | some handler =>
      match handler frame with
      | .ok _ => .ok ()
      | .error exception => .error (.thrown exception)

/-- What follows END_STREAM. -/
def finish (stream : Http2Stream) (isClient : Bool) : Result Http2Stream :=
  let stream := { stream with
    state := .closed
    data := if stream.isStream then stream.data ++ [none] else stream.data }
  if isClient then do
    let (response, data) ← stream.initMessage stream.response
    .ok { stream with response := some response, data }
  else do
    let (request, data) ← stream.initMessage stream.request
    .ok { stream with request := some request, data }

def flagEndStream : UInt8 := 0x1

def handleFrame (stream : Http2Stream) (table : Option DynamicTable) (frame : Frame)
    (isClient : Bool) : Result (Int × Http2Stream × Option DynamicTable) := do
  let (rt, stream, table) ← stream.handleByType table frame
  let _ ← stream.callHandler frame
  if frame.header.flags &&& flagEndStream ≠ 0 then
    let stream ← stream.finish isClient
    .ok (rt, stream, table)
  else .ok (rt, stream, table)

end Http2Stream

def Frame.endsStream (frame : Frame) : Bool := frame.header.flags &&& Http2Stream.flagEndStream ≠ 0

open ChatServer.ByteArray

theorem read_sized_length {ba after : ByteArray} {len : Int} {text : Str}
    (done : readSized ba len = .ok (text, after)) : (text.length : Int) ≤ max len 0 := by
  obtain ⟨blank, resized, read⟩ := bind_eq_ok done
  have length := read_length_le read
  unfold resize at resized
  split_ifs at resized with negative
  cases resized
  rw [List.take_nil, List.nil_append, List.length_replicate, List.length_nil] at length
  omega

/-- The data of a HEADERS payload is no longer than the header says. -/
theorem headers_data_length {ba after : ByteArray} {header : FrameHeader} {frame : HeadersFrame}
    (done : HeadersFrame.readFrom ba header = .ok (frame, after)) :
    frame.data.length ≤ header.length.toNat := by
  obtain ⟨⟨len, first, middle⟩, padRead, done⟩ := bind_eq_ok done
  obtain ⟨⟨left, second, last⟩, priorityRead, done⟩ := bind_eq_ok done
  obtain ⟨⟨data, behind⟩, dataRead, done⟩ := bind_eq_ok done
  have lenLe : len ≤ header.length.toNat := by
    unfold HeadersFrame.readPad at padRead
    split_ifs at padRead
    · obtain ⟨⟨pad, next⟩, _, returned⟩ := bind_eq_ok padRead
      cases returned
      omega
    · cases padRead
      exact Int.le_refl _
  have leftLe : left ≤ len := by
    unfold HeadersFrame.readPriority at priorityRead
    split_ifs at priorityRead
    · obtain ⟨⟨_, priority, next⟩, _, returned⟩ := bind_eq_ok priorityRead
      cases returned
      omega
    · cases priorityRead
      exact Int.le_refl _
  have dataLength := read_sized_length dataRead
  have sameData : frame.data = data := by
    dsimp only at done
    split_ifs at done
    · obtain ⟨⟨padding, next⟩, _, returned⟩ := bind_eq_ok done
      cases returned
      rfl
    · cases done
      rfl
  rw [sameData]
  omega

theorem made_inv {Body : Type} {header : FrameHeader} {wrap : Body → IFrame} {frame : Frame}
    {read : Result (Body × ByteArray)}
    (made : (caught read >>= fun read => .ok (read.map fun body =>
      (⟨header, some (wrap body.1)⟩ : Frame))) = .ok (some frame)) :
    ∃ body, read = .ok body ∧ frame = ⟨header, some (wrap body.1)⟩ := by
  cases read with
  | ok body =>
      cases made
      exact ⟨body, rfl, rfl⟩
  | error fault => cases fault <;> cases made

theorem read_frame_header {header : FrameHeader} {ba : ByteArray} {frame : Frame}
    (read : readFrame header ba = .ok (some frame)) : frame.header = header := by
  have made {Body : Type} {wrap : Body → IFrame} {body : Result (Body × ByteArray)}
      (done : (caught body >>= fun read => .ok (read.map fun body =>
        (⟨header, some (wrap body.1)⟩ : Frame))) = .ok (some frame)) : frame.header = header := by
    obtain ⟨_, _, same⟩ := made_inv done
    rw [same]
  unfold readFrame at read
  split at read
  · exact made read
  · exact made read
  · obtain ⟨⟨done, priority, after⟩, _, returned⟩ := bind_eq_ok read
    cases done <;> cases returned
    rfl
  · exact made read
  · exact made read
  · exact made read
  · exact made read
  · exact made read
  · exact made read
  · cases read
    rfl
  · cases read

theorem parse_from_inv {fresh : Nat → Nat → UInt8} {stream next : Stream} {frame : Frame}
    (accepted : FrameCodec.parseFrom fresh stream = .ok (some frame, next)) :
    ∃ ba, readFrame frame.header ba = .ok (some frame) := by
  have parsed : FrameCodec.parse fresh stream = .ok (some frame, next) := by
    unfold FrameCodec.parseFrom at accepted
    cases outcome : FrameCodec.parse fresh stream with
    | ok result =>
        rw [outcome] at accepted
        exact accepted
    | error fault =>
        rw [outcome] at accepted
        cases fault <;> cases accepted
  obtain ⟨⟨rt, middle, received⟩, _, parsed⟩ := bind_eq_ok parsed
  dsimp only at parsed
  split_ifs at parsed
  · cases parsed
  obtain ⟨rewound, _, parsed⟩ := bind_eq_ok parsed
  obtain ⟨headerRead, _, parsed⟩ := bind_eq_ok parsed
  have switched {header : FrameHeader} {ba : ByteArray} {last : Stream}
      (done : (readFrame header ba >>= fun frame => .ok (frame, last)) =
        (.ok (some frame, next) : Result (Option Frame × Stream))) :
      ∃ ba, readFrame frame.header ba = .ok (some frame) := by
    obtain ⟨found, read, returned⟩ := bind_eq_ok done
    cases returned
    exact ⟨ba, by rw [read_frame_header read, read]⟩
  cases headerRead with
  | none => cases parsed
  | some read =>
      obtain ⟨header, ba⟩ := read
      dsimp only at parsed
      unfold FrameCodec.readPayload at parsed
      split_ifs at parsed with positive
      · obtain ⟨start, _, parsed⟩ := bind_eq_ok parsed
        obtain ⟨⟨count, behind, full⟩, _, parsed⟩ := bind_eq_ok parsed
        dsimp only at parsed
        split_ifs at parsed
        · cases parsed
        obtain ⟨loaded, _, parsed⟩ := bind_eq_ok parsed
        exact switched parsed
      · exact switched parsed

theorem accepted_headers {fresh : Nat → Nat → UInt8} {stream next : Stream} {frame : Frame}
    (accepted : FrameCodec.parseFrom fresh stream = .ok (some frame, next))
    (typed : frameType frame.header.type = some .headers) :
    ∃ headers, frame.data = some (.headers headers) ∧ headers.data.length < 2 ^ 24 := by
  obtain ⟨ba, read⟩ := parse_from_inv accepted
  rw [readFrame, typed] at read
  obtain ⟨⟨headers, after⟩, body, same⟩ := made_inv read
  refine ⟨headers, by rw [same], ?_⟩
  exact Nat.lt_of_le_of_lt (headers_data_length body) frame.header.length.isLt

/-- No assertion fails, which no caller could stop. -/
def NoAbort {Value : Type} (result : Result Value) : Prop := result ≠ .error .aborted

/-- Handling a HEADERS frame violates no assertion: its block was parsed, or parsing failed with
an exception or another error code. -/
structure BlockTolerated (stream : Http2Stream) (table : Option DynamicTable) (frame : Frame)
    (isClient : Bool) : Prop where
  noAbort : NoAbort (stream.handleFrame table frame isClient)
  parsed : Tolerated (stream.handleHeadersFrame table frame)

theorem fatal_not_tolerated {Value : Type} {outcome : Result (Int × Value)} (fatal : Fatal outcome) :
    ¬Tolerated outcome := by
  obtain ⟨fault, failed, uncaught⟩ := fatal
  rw [failed]
  cases fault with
  | thrown exception => exact absurd rfl (uncaught exception)
  | undefined cause => exact id
  | aborted => exact id

namespace Http2Stream

theorem handle_headers_fatal (stream : Http2Stream) (table : DynamicTable) {frame : Frame}
    {headers : HeadersFrame} (given : frame.data = some (.headers headers)) :
    Fatal (stream.handleHeadersFrame (some table) frame) := by
  rw [handleHeadersFrame, given]
  exact fatal_bind (over_borrowed_fatal _)

theorem handle_by_type_fatal (stream : Http2Stream) (table : Option DynamicTable) {frame : Frame}
    (typed : frameType frame.header.type = some .headers) :
    Fatal (stream.handleByType table frame) := by
  rw [handleByType, typed]
  cases given : frame.data with
  | none => exact ⟨.aborted, by rw [handleHeadersFrame, given]; rfl, by simp⟩
  | some body =>
      cases body with
      | headers headers =>
          cases table with
          | none => exact ⟨.aborted, by rw [handleHeadersFrame, given]; rfl, by simp⟩
          | some table => exact fatal_bind (handle_headers_fatal stream table given)
      | _ => exact ⟨.aborted, by rw [handleHeadersFrame, given]; rfl, by simp⟩

theorem handle_frame_fatal (stream : Http2Stream) (table : Option DynamicTable) {frame : Frame}
    (isClient : Bool) (typed : frameType frame.header.type = some .headers) :
    Fatal (stream.handleFrame table frame isClient) :=
  fatal_bind (handle_by_type_fatal stream table typed)

end Http2Stream

/-- Whatever the stream, the tables of the connection and the bytes of the block are, no accepted
HEADERS frame is tolerated. -/
theorem accepted_block_never_tolerated (fresh : Nat → Nat → UInt8) (wire next : Stream)
    (frame : Frame) (accepted : FrameCodec.parseFrom fresh wire = .ok (some frame, next))
    (typed : frameType frame.header.type = some .headers) (stream : Http2Stream)
    (table : Option DynamicTable) (isClient : Bool) :
    Fatal (stream.handleFrame table frame isClient) ∧ ¬BlockTolerated stream table frame isClient := by
  obtain ⟨headers, given, _⟩ := accepted_headers accepted typed
  refine ⟨Http2Stream.handle_frame_fatal stream table isClient typed, ?_⟩
  intro tolerated
  cases table with
  | none =>
      have parsed := tolerated.parsed
      rw [Http2Stream.handleHeadersFrame, given] at parsed
      exact parsed rfl
  | some table =>
      exact fatal_not_tolerated (Http2Stream.handle_headers_fatal stream table given) tolerated.parsed

def oneByteHeader : FrameHeader := { length := 1, type := 0x1, flags := 0x4, identifier := 1 }

def oneByteFrame (byte : UInt8) : Frame := ⟨oneByteHeader, some (.headers { data := [byte] })⟩

def oneByteWire (byte : UInt8) : Stream :=
  ⟨headerBytes oneByteHeader ++ ([byte] ++ []), [], fun _ => 0, 4096, Nat.zero_lt_succ 4095⟩

theorem one_byte_accepted (byte : UInt8) :
    ∃ next, FrameCodec.parseFrom (fun _ _ => 0) (oneByteWire byte) =
      .ok (some (oneByteFrame byte), next) := by
  obtain ⟨ba, next, loaded, _, parsed, _⟩ :=
    parse_from_loaded (fun _ _ => 0) (show (oneByteWire byte).incoming = _ from rfl) rfl
  have notPadded : oneByteHeader.padded = false := by decide
  have noPriority : oneByteHeader.hasPriority = false := by decide
  have bytes : payloadBytes oneByteHeader (.headers { data := [byte] }) = [byte] := by
    rw [payloadBytes, notPadded, noPriority]
    rfl
  have front : ba.unread = payloadBytes oneByteHeader (.headers { data := [byte] }) ++
      (headerBytes oneByteHeader).drop 1 := by
    rw [bytes]
    exact loaded.front
  have sized : Sized oneByteHeader (.headers { data := [byte] }) := by
    rw [Sized, bytes]
    rfl
  have conforms : Conforms oneByteHeader (.headers { data := [byte] }) := by
    rw [Conforms, notPadded]
    exact ⟨⟨rfl, rfl⟩, fun _ => rfl, rfl, rfl⟩
  have ends : EndsSafely oneByteHeader ba (.headers { data := [byte] }) := by
    rw [EndsSafely, notPadded]
    exact .inl (List.cons_ne_nil byte [])
  exact ⟨next, parsed _ (read_frame_spec loaded.inv loaded.order rfl front sized conforms ends)⟩

/-- The indexed field `:method: GET`, for which the block is read to its end. -/
theorem accepted_block_never_tolerated_get :
    Fatal (({} : Http2Stream).handleFrame (some DynamicTable.new) (oneByteFrame 0x82) false) ∧
      ¬BlockTolerated {} (some DynamicTable.new) (oneByteFrame 0x82) false := by
  obtain ⟨next, accepted⟩ := one_byte_accepted 0x82
  exact accepted_block_never_tolerated (fun _ _ => 0) (oneByteWire 0x82) next _ accepted rfl {} _ false

theorem method_field_ends_process :
    (∃ next, FrameCodec.parseFrom (fun _ _ => 0) (oneByteWire 0x82) =
      .ok (some (oneByteFrame 0x82), next)) ∧
      ({} : Http2Stream).handleFrame (some DynamicTable.new) (oneByteFrame 0x82) false =
        .error (.undefined .invalidDelete) ∧
      ¬BlockTolerated {} (some DynamicTable.new) (oneByteFrame 0x82) false := by
  have handled : ({} : Http2Stream).handleFrame (some DynamicTable.new) (oneByteFrame 0x82) false =
      .error (.undefined .invalidDelete) := rfl
  refine ⟨one_byte_accepted 0x82, handled, ?_⟩
  intro tolerated
  exact tolerated.parsed

end ChatServer.Http2
