import Mathlib.Logic.Function.Basic
import ChatServer.Http2.Http2Stream

/-!
# Connections

`Http2SocketStream` with the two classes made from it, `Http2Session` on the server and
`Http2Connection` on the client: the settings of both sides, the streams, flow control, the
frames that are received and those that are sent.

Windows are `int32_t` and wrap: the stored sums come from `__sync_add_and_fetch` or from `+=`
in a program built without optimisation. The `int` sum in `updateWindowSizeByDiff` is only
compared for a log line and is left out.

A stream lives as long as somebody points to it, also when it is no longer in the map of the
connection. `heap` holds the streams by address and `streams` is the map; nobody sets a frame
handler, so `close` only marks the end of the data.
-/

namespace ChatServer.Http2

set_option autoImplicit false

def defaultMaxFrameSize : UInt32 := 16384

def maxMaxFrameSize : UInt32 := 0xFFFFFF

def defaultInitialWindowSize : UInt32 := 65535

def maxInitialWindowSize : UInt32 := 0x7FFFFFFF

/-- `MAX_INITIAL_WINDOW_SIZE` as the windows compare with it. -/
def maxWindow : Int := 2 ^ 31 - 1

structure Http2Settings where
  headerTableSize : UInt32 := 4096
  maxHeaderListSize : UInt32 := 0x400000
  maxConcurrentStreams : UInt32 := 0xffffffff
  maxFrameSize : UInt32 := defaultMaxFrameSize
  initialWindowSize : UInt32 := defaultInitialWindowSize
  enablePush : Bool := false
  /-- A larger value is never stored. -/
  windowLe : initialWindowSize ≤ maxInitialWindowSize := by decide
  deriving DecidableEq

inductive Setting where
  | headerTableSize
  | enablePush
  | maxConcurrentStreams
  | initialWindowSize
  | maxFrameSize
  | maxHeaderListSize
  deriving DecidableEq, Repr

/-- The cast of an item's identifier; `none` is the `default` of the `switch`. -/
def setting (identifier : UInt16) : Option Setting :=
  match identifier.toNat with
  | 0x1 => some .headerTableSize
  | 0x2 => some .enablePush
  | 0x3 => some .maxConcurrentStreams
  | 0x4 => some .initialWindowSize
  | 0x5 => some .maxFrameSize
  | 0x6 => some .maxHeaderListSize
  | _ => none

/-- `m_owner` takes the settings that are received, `m_peer` those that are sent. -/
inductive Side where
  | owner
  | peer
  deriving DecidableEq, Repr

def FrameType.code : FrameType → UInt8
  | .data => 0x0
  | .headers => 0x1
  | .priority => 0x2
  | .rstStream => 0x3
  | .settings => 0x4
  | .pushPromise => 0x5
  | .ping => 0x6
  | .goaway => 0x7
  | .windowUpdate => 0x8
  | .continuation => 0x9

def flagAck : UInt8 := 0x1

def flagEndHeaders : UInt8 := 0x4

def protocolError : UInt32 := 0x1

def streamClosedError : UInt32 := 0x5

/-- The stream a header names, as a `uint32_t`. -/
def FrameHeader.streamId (header : FrameHeader) : UInt32 := ⟨header.identifier.setWidth 32⟩

/-- A frame as it is handed to `sendFrame`; the length is set when it is written. -/
def outFrame (type : FrameType) (flags : UInt8) (streamId : UInt32) (data : Option IFrame) : Frame :=
  ⟨{ type := type.code, flags, identifier := low31 streamId }, data⟩

structure ManagedStream extends Http2Stream where
  id : UInt32 := 0
  handleCount : UInt8 := 0
  sendWindow : Int := 0
  recvWindow : Int := 0
  /-- Both are `int32_t` values. -/
  sendFits : int32 sendWindow = sendWindow := by decide
  recvFits : int32 recvWindow = recvWindow := by decide

structure Http2SocketStream where
  isClient : Bool
  sendTable : DynamicTable := DynamicTable.new
  recvTable : DynamicTable := DynamicTable.new
  sn : UInt32
  owner : Http2Settings := {}
  peer : Http2Settings := {}
  sendWindow : Int := defaultInitialWindowSize.toNat
  recvWindow : Int := defaultInitialWindowSize.toNat
  heap : Nat → ManagedStream := fun _ => {}
  allocated : Nat := 0
  streams : UInt32 → Option Nat := fun _ => none
  connected : Bool := true
  /-- What the next frames written to the socket directly return. -/
  writes : Nat → Int := fun _ => 1
  /-- The frames that were enqueued or written. -/
  emitted : List Frame := []
  /-- The streams whose `handleRequest` waits in the queue of `m_worker`. -/
  scheduled : List Nat := []
  /-- The requests passed to the servlets. -/
  dispatched : List (UInt32 × HttpMessage) := []
  /-- The keys of `m_ctxs`: requests that wait for their response. -/
  ctxs : List UInt32 := []
  /-- The contexts `doRecv` returned, with their responses. -/
  answered : List (UInt32 × Option HttpMessage) := []

namespace Http2SocketStream

def new (isClient : Bool) : Http2SocketStream where
  isClient := isClient
  sn := if isClient then 0xFFFFFFFF else 0

def modify (conn : Http2SocketStream) (ref : Nat) (change : ManagedStream → ManagedStream) :
    Http2SocketStream :=
  { conn with heap := Function.update conn.heap ref (change (conn.heap ref)) }

/-- `m_streamMgr.foreach`. What is done to one stream does not depend on the others. -/
def foreach (conn : Http2SocketStream) (change : ManagedStream → ManagedStream) :
    Http2SocketStream :=
  { conn with
    heap := fun ref =>
      if conn.streams (conn.heap ref).id = some ref then change (conn.heap ref)
      else conn.heap ref }

def sendFrame (conn : Http2SocketStream) (frame : Frame) (async : Bool) :
    Int × Http2SocketStream :=
  if conn.connected then
    if async then (1, { conn with emitted := conn.emitted ++ [frame] })
    else
      let rt := conn.writes 0
      (rt, { conn with
        writes := fun call => conn.writes (call + 1)
        emitted := if 0 < rt then conn.emitted ++ [frame] else conn.emitted })
  else (-1, conn)

/-- A call of `sendFrame(frame, true)` whose result is not looked at. -/
def enqueue (conn : Http2SocketStream) (frame : Frame) : Http2SocketStream :=
  (conn.sendFrame frame true).2

def sendGoAway (conn : Http2SocketStream) (lastStreamId error : UInt32) (debug : Str) :
    Http2SocketStream :=
  conn.enqueue (outFrame .goaway 0 0 (some (.goAway
    { lastStreamId := low31 lastStreamId, errorCode := error, data := debug })))

def sendSettingsAck (conn : Http2SocketStream) : Http2SocketStream :=
  conn.enqueue (outFrame .settings flagAck 0 none)

def sendRstStream (conn : Http2SocketStream) (streamId errorCode : UInt32) : Http2SocketStream :=
  conn.enqueue (outFrame .rstStream 0 streamId (some (.rstStream { errorCode })))

def sendPing (conn : Http2SocketStream) (ack : Bool) (data : PingFrame) : Http2SocketStream :=
  conn.enqueue (outFrame .ping (if ack then flagAck else 0) 0 (some (.ping data)))

def getStream (conn : Http2SocketStream) (id : UInt32) : Option Nat := conn.streams id

/-- The constructor of `Http2Stream`, and `m_streamMgr.add`. -/
def addStream (conn : Http2SocketStream) (id : UInt32) : Http2SocketStream :=
  { conn with
    heap := Function.update conn.heap conn.allocated
      { id
        sendWindow := int32 conn.peer.initialWindowSize.toNat
        recvWindow := int32 conn.owner.initialWindowSize.toNat
        sendFits := int32_int32 _
        recvFits := int32_int32 _ }
    allocated := conn.allocated + 1
    streams := Function.update conn.streams id (some conn.allocated) }

def newStreamAt (conn : Http2SocketStream) (id : UInt32) : Option Nat × Http2SocketStream :=
  if id ≤ conn.sn then (none, conn)
  else (some conn.allocated, { conn with sn := id }.addStream id)

def newStream (conn : Http2SocketStream) : Nat × Http2SocketStream :=
  (conn.allocated, { conn with sn := conn.sn + 2 }.addStream (conn.sn + 2))

end Http2SocketStream

namespace ManagedStream

def close (stream : ManagedStream) : ManagedStream :=
  { stream with data := stream.data ++ [none] }

def updateSendWindowByDiff (diff : Int) (stream : ManagedStream) : ManagedStream :=
  { stream with sendWindow := int32 (stream.sendWindow + diff), sendFits := int32_int32 _ }

def updateRecvWindowByDiff (diff : Int) (stream : ManagedStream) : ManagedStream :=
  { stream with recvWindow := int32 (stream.recvWindow + diff), recvFits := int32_int32 _ }

end ManagedStream

namespace Http2SocketStream

def delStream (conn : Http2SocketStream) (id : UInt32) : Http2SocketStream :=
  let conn := match conn.getStream id with
    | some ref => conn.modify ref ManagedStream.close
    | none => conn
  { conn with streams := Function.update conn.streams id none }

/-- `AsyncSocketStream::innerClose`, with `onClose`. The map keeps its streams. -/
def innerClose (conn : Http2SocketStream) : Http2SocketStream :=
  { conn.foreach ManagedStream.close with connected := false, ctxs := [] }

def onTimeOut (conn : Http2SocketStream) (sn : UInt32) : Http2SocketStream :=
  { conn with ctxs := conn.ctxs.erase sn }.delStream sn

def sendWindowUpdate (conn : Http2SocketStream) (streamId n : UInt32) : Http2SocketStream :=
  let frame := outFrame .windowUpdate 0 streamId (some (.windowUpdate { increment := low31 n }))
  let conn := if streamId = 0 then { conn with recvWindow := int32 (conn.recvWindow + n.toNat) }
    else match conn.getStream streamId with
      | some ref => conn.modify ref (ManagedStream.updateRecvWindowByDiff (int32 n.toNat))
      | none => conn
  conn.enqueue frame

/-- `MAX_INITIAL_WINDOW_SIZE - window`, computed in `uint32_t`. -/
def refill (window : Int) : UInt32 := ⟨BitVec.ofInt 32 (maxWindow - window)⟩

def handleWindowUpdate (conn : Http2SocketStream) (frame : Frame) : Http2SocketStream :=
  match frame.data with
  | some (.windowUpdate wuf) =>
      if frame.header.streamId ≠ 0 then
        match conn.getStream frame.header.streamId with
        | none => conn.sendGoAway conn.sn protocolError []
        | some ref =>
            if (conn.heap ref).sendWindow + wuf.increment.toNat > maxWindow then
              conn.sendGoAway conn.sn protocolError []
            else conn.modify ref (ManagedStream.updateSendWindowByDiff wuf.increment.toNat)
      else if conn.sendWindow + wuf.increment.toNat > maxWindow then
        conn.sendGoAway conn.sn protocolError []
      else { conn with sendWindow := int32 (conn.sendWindow + wuf.increment.toNat) }
  | _ => conn.innerClose

/-- The first half of `handleRecvData`: the window of the connection. -/
def chargeConnection (conn : Http2SocketStream) (length : Nat) : Http2SocketStream :=
  let conn := { conn with recvWindow := int32 (conn.recvWindow - length) }
  if conn.recvWindow < maxWindow / 4 then conn.sendWindowUpdate 0 (refill conn.recvWindow) else conn

def chargeStream (conn : Http2SocketStream) (ref length : Nat) : Http2SocketStream :=
  let conn := conn.modify ref fun stream =>
    { stream with recvWindow := int32 (stream.recvWindow - length), recvFits := int32_int32 _ }
  if (conn.heap ref).recvWindow < maxWindow / 4 then
    conn.sendWindowUpdate (conn.heap ref).id (refill (conn.heap ref).recvWindow)
  else conn

def handleRecvData (conn : Http2SocketStream) (frame : Frame) (ref : Nat) : Http2SocketStream :=
  let length := frame.header.length.toNat
  if length ≠ 0 then (conn.chargeConnection length).chargeStream ref length else conn

def settings (conn : Http2SocketStream) : Side → Http2Settings
  | .owner => conn.owner
  | .peer => conn.peer

def store (conn : Http2SocketStream) (side : Side) (change : Http2Settings → Http2Settings) :
    Http2SocketStream :=
  match side with
  | .owner => { conn with owner := change conn.owner }
  | .peer => { conn with peer := change conn.peer }

/-- `table.setMaxDataSize(v)`. -/
def setMaxDataSize (conn : Http2SocketStream) (side : Side) (v : Int) : Http2SocketStream :=
  match side with
  | .owner => { conn with sendTable := { conn.sendTable with maxDataSize := v } }
  | .peer => { conn with recvTable := { conn.recvTable with maxDataSize := v } }

/-- `updateRecvWindowByDiff` for the settings that were sent, `updateSendWindowByDiff` for those
that were received. No stream ever reports an error, so no RST_STREAM is sent. -/
def updateWindowByDiff (conn : Http2SocketStream) (side : Side) (diff : Int) : Http2SocketStream :=
  match side with
  | .peer => conn.foreach (ManagedStream.updateRecvWindowByDiff diff)
  | .owner => conn.foreach (ManagedStream.updateSendWindowByDiff diff)

/-- One round of the loop of `updateSettings`. -/
def updateSetting (side : Side) (conn : Http2SocketStream) (i : SettingsItem) : Http2SocketStream :=
  match setting i.identifier with
  | some .headerTableSize =>
      (conn.store side fun sts => { sts with headerTableSize := i.value }).setMaxDataSize side
        (int32 i.value.toNat)
  | some .enablePush =>
      let conn := if i.value ≠ 0 ∧ i.value ≠ 1 then conn.sendGoAway conn.sn protocolError []
        else conn
      conn.store side fun sts => { sts with enablePush := i.value ≠ 0 }
  | some .maxConcurrentStreams =>
      conn.store side fun sts => { sts with maxConcurrentStreams := i.value }
  | some .initialWindowSize =>
      if windowLe : i.value ≤ maxInitialWindowSize then
        let diff := int32 ((i.value.toNat : Int) - (conn.settings side).initialWindowSize.toNat)
        let conn := conn.store side fun sts => { sts with initialWindowSize := i.value, windowLe }
        conn.updateWindowByDiff side diff
      else conn.sendGoAway conn.sn protocolError []
  | some .maxFrameSize =>
      let conn := conn.store side fun sts => { sts with maxFrameSize := i.value }
      if i.value < defaultMaxFrameSize ∨ i.value > maxMaxFrameSize then
        conn.sendGoAway conn.sn protocolError []
      else conn
  | some .maxHeaderListSize =>
      conn.store side fun sts => { sts with maxHeaderListSize := i.value }
  | none => conn

def updateSettings (conn : Http2SocketStream) (side : Side) (items : List SettingsItem) :
    Http2SocketStream :=
  items.foldl (updateSetting side) conn

def handleRecvSetting (conn : Http2SocketStream) (frame : Frame) : Result Http2SocketStream :=
  match frame.data with
  | some (.settings s) => .ok (conn.updateSettings .owner s.items)
  | _ => .error (.undefined .nullDeref)

def handleSendSetting (conn : Http2SocketStream) (items : List SettingsItem) : Http2SocketStream :=
  conn.updateSettings .peer items

def settingsFrame (items : List SettingsItem) : Frame :=
  outFrame .settings 0 0 (some (.settings { items }))

def sendSettings (conn : Http2SocketStream) (items : List SettingsItem) : Http2SocketStream :=
  let (rt, conn) := conn.sendFrame (settingsFrame items) true
  if rt > 0 then conn.handleSendSetting items else conn

/-- `Http2Session::onStreamClose` on the server, `Http2Connection::onStreamClose` on the
client. -/
def onStreamClose (conn : Http2SocketStream) (ref : Nat) : Http2SocketStream :=
  let stream := conn.heap ref
  if conn.isClient then
    let conn := conn.delStream stream.id
    if stream.id ∈ conn.ctxs then
      { conn with
        ctxs := conn.ctxs.erase stream.id
        answered := conn.answered ++ [(stream.id, stream.response)] }
    else conn
  else
    match stream.request with
    | none => (conn.sendGoAway conn.sn protocolError []).delStream stream.id
    | some _ =>
        if stream.handleCount = 0 then { conn with scheduled := conn.scheduled ++ [ref] } else conn

/-- The stream of a frame: an existing one, or on the server a new one. -/
def locate (conn : Http2SocketStream) (frame : Frame) : Option Nat × Http2SocketStream :=
  match conn.getStream frame.header.streamId with
  | some ref => (some ref, conn)
  | none =>
      if conn.isClient then (none, conn)
      else
        match conn.newStreamAt frame.header.streamId with
        | (some ref, conn) => (some ref, conn)
        | (none, conn) =>
            if frameType frame.header.type ≠ some .rstStream then
              (none, conn.sendRstStream conn.sn streamClosedError)
            else (none, conn)

def account (conn : Http2SocketStream) (ref : Nat) (frame : Frame) : Http2SocketStream :=
  if frameType frame.header.type = some .data then conn.handleRecvData frame ref else conn

/-- `stream->handleFrame(frame, m_isClient)`. -/
def handleFrame (conn : Http2SocketStream) (ref : Nat) (frame : Frame) : Result Http2SocketStream :=
  do
  let (_, stream, table) ← (conn.heap ref).toHttp2Stream.handleFrame (some conn.recvTable) frame
    conn.isClient
  .ok { conn.modify ref fun managed => { managed with toHttp2Stream := stream } with
    recvTable := table.getD conn.recvTable }

/-- What `doRecv` does with the stream once it is found. `onHeaderEnd` does nothing. -/
def deliver (conn : Http2SocketStream) (ref : Nat) (frame : Frame) : Result Http2SocketStream := do
  let conn ← (conn.account ref frame).handleFrame ref frame
  if (conn.heap ref).state = .closed then .ok (conn.onStreamClose ref) else .ok conn

def control (conn : Http2SocketStream) (frame : Frame) : Result Http2SocketStream :=
  match frameType frame.header.type with
  | some .settings =>
      if frame.header.flags &&& flagAck = 0 then do
        let conn ← conn.handleRecvSetting frame
        .ok conn.sendSettingsAck
      else .ok conn
  | some .ping =>
      if frame.header.flags &&& flagAck = 0 then
        match frame.data with
        | some (.ping data) => .ok (conn.sendPing true data)
        | _ => .error (.undefined .nullDeref)
      else .ok conn
  | _ => .ok conn

/-- `doRecv`, given what `parseFrom` returned. -/
def doRecv (conn : Http2SocketStream) (parsed : Option Frame) : Result Http2SocketStream :=
  match parsed with
  | none => .ok conn.innerClose
  | some frame =>
      if frameType frame.header.type = some .windowUpdate then .ok (conn.handleWindowUpdate frame)
      else if frame.header.streamId ≠ 0 then
        match conn.locate frame with
        | (some ref, conn) => conn.deliver ref frame
        | (none, conn) => .ok conn
      else conn.control frame

/-- Where an exception leaves the connection: only `handleFrame` of a stream throws. -/
def interrupted (conn : Http2SocketStream) (frame : Frame) : Http2SocketStream :=
  match conn.locate frame with
  | (some ref, conn) => conn.account ref frame
  | (none, conn) => conn

/-- `text.substr(pos, len)` with `int` arguments: a negative one is a huge `size_t`. -/
def substr (text : Str) (pos len : Int) : Result Str :=
  if pos < 0 ∨ text.length < pos then .error (.thrown .outOfRange)
  else if len < 0 then .ok (text.drop pos.toNat)
  else .ok ((text.drop pos.toNat).take len.toNat)

/-- Both windows after a DATA frame with `len` bytes. -/
def consume (conn : Http2SocketStream) (ref : Nat) (len : Int) : Http2SocketStream :=
  { conn.modify ref (ManagedStream.updateSendWindowByDiff (int32 (-len))) with
    sendWindow := int32 (conn.sendWindow - len) }

def dataFrame (id : UInt32) (body : Str) (last endStream : Bool) : Frame :=
  outFrame .data (if endStream && last then Http2Stream.flagEndStream else 0) id
    (some (.data { data := body }))

/-- The loop of `sendData`. A round that takes bytes from the data brings its end nearer, and
one that goes back makes the next one throw, so a few more rounds than bytes are enough. -/
def sendDataLoop (ref : Nat) (data : Str) (maxFrameSize : Int) (async endStream : Bool) :
    Nat → Http2SocketStream → Int → Int → Result (Int × Http2SocketStream)
  | 0, _, _, _ => .error (.undefined .endlessLoop)
  | rounds + 1, conn, pos, length => do
      let len := if length > maxFrameSize then maxFrameSize else length
      let body ← substr data pos len
      let (rt, conn) := conn.sendFrame
        (dataFrame (conn.heap ref).id body (length = len) endStream) async
      if rt ≤ 0 then .ok (rt, conn)
      else
        let conn := conn.consume ref len
        if 0 < int32 (length - len) then
          sendDataLoop ref data maxFrameSize async endStream rounds conn (int32 (pos + len))
            (int32 (length - len))
        else .ok (1, conn)

def sendData (conn : Http2SocketStream) (ref : Nat) (data : Str) (async endStream : Bool) :
    Result (Int × Http2SocketStream) :=
  sendDataLoop ref data (int32 (conn.peer.maxFrameSize - 9).toNat) async endStream
    (data.length + 2) conn 0 (int32 data.length)

end Http2SocketStream

def HttpMessage.getHeader (message : HttpMessage) (key : Str) : Str :=
  ((message.headers.find? fun entry => sameKey entry.1 key).map Prod.snd).getD []

structure HttpResponse extends HttpMessage where
  status : Str := ascii "200"
  /-- The names in the header `trailer`, split at the commas and trimmed. -/
  trailers : List Str := []

structure HttpRequest extends HttpMessage where
  method : Str := ascii "GET"
  uri : Str := ascii "/"

def HttpRequest.initForWrite (req : HttpRequest) (ssl : Bool) : HttpMessage :=
  let message := req.setHeader (ascii ":scheme") (ascii (if ssl then "https" else "http"))
  let message := if message.headers.any fun entry => sameKey entry.1 (ascii ":path") then message
    else message.setHeader (ascii ":path") req.uri
  message.setHeader (ascii ":method") req.method

def headersFrame (id : UInt32) (kvs : List (Str × Str)) (endStream : Bool) : Frame :=
  outFrame .headers (if endStream then flagEndHeaders ||| Http2Stream.flagEndStream
    else flagEndHeaders) id (some (.headers { kvs }))

namespace Http2SocketStream

/-- The trailers at the end of `sendResponse`; `rt` is what it would return without them. -/
def sendTrailers (conn : Http2SocketStream) (id : UInt32) (rsp : HttpResponse) (rt : Int)
    (endStream async : Bool) : Int × Http2SocketStream :=
  if endStream ∧ rsp.trailers ≠ [] then
    let kvs := rsp.trailers.map fun name => (name.map toLower, rsp.getHeader name)
    let (sent, conn) := conn.sendFrame (headersFrame id kvs true) async
    if sent > 0 then (rt, conn) else (0, conn)
  else (rt, conn)

def sendResponse (conn : Http2SocketStream) (ref : Nat) (rsp : HttpResponse)
    (endStream async : Bool) : Result (Int × Http2SocketStream) := do
  let id := (conn.heap ref).id
  let headers := (rsp.setHeader (ascii ":status") rsp.status).headers
  let kvs := (headers.filter fun entry => entry.1 ∉ rsp.trailers).map fun entry =>
    (entry.1.map toLower, entry.2)
  let ends : Bool := endStream && rsp.body.isEmpty && rsp.trailers.isEmpty
  let (ok, conn) := conn.sendFrame (headersFrame id kvs ends) async
  if ok < 0 then .ok (ok, conn)
  else
    let (ok, conn) ← if rsp.body = [] then .ok (ok, conn)
      else conn.sendData ref rsp.body async rsp.trailers.isEmpty
    .ok (conn.sendTrailers id rsp ok endStream async)

/-- The request of a client; `ssl` is `m_ssl`. -/
def sendRequest (conn : Http2SocketStream) (ref : Nat) (req : HttpRequest) (ssl endStream async : Bool) :
    Result (Int × Http2SocketStream) := do
  let id := (conn.heap ref).id
  let headers := (req.initForWrite ssl).headers
  let kvs := headers.map (fun entry => (entry.1.map toLower, entry.2)) ++
    [(ascii "stream_id", ascii (toString id.toNat))]
  let (ok, conn) := conn.sendFrame (headersFrame id kvs (endStream && req.body.isEmpty)) async
  if ok < 0 then .ok (ok, conn)
  else if req.body = [] then .ok (ok, conn)
  else conn.sendData ref req.body async true

/-- `Http2Session::handleRequest`, where the servlet answers with `rsp`. -/
def handleRequest (conn : Http2SocketStream) (ref : Nat) (rsp : HttpResponse) :
    Result Http2SocketStream :=
  let stream := conn.heap ref
  if stream.handleCount > 0 then .ok conn
  else
    match stream.request with
    | none => .error (.undefined .nullDeref)
    | some req => do
        let conn := conn.modify ref fun stream => { stream with handleCount := stream.handleCount + 1 }
        let conn := { conn with dispatched := conn.dispatched ++ [(stream.id, req)] }
        let (_, conn) ← conn.sendResponse ref rsp true true
        .ok (conn.delStream stream.id)

/-- `handleShakeServer`, given whether the preface was right and what `parseFrom` returned. -/
def handleShakeServer (conn : Http2SocketStream) (preface : Bool) (parsed : Option Frame) :
    Result (Bool × Http2SocketStream) :=
  if ¬preface then .ok (false, conn)
  else
    match parsed with
    | none => .ok (false, conn)
    | some frame =>
        if frameType frame.header.type ≠ some .settings then .ok (false, conn)
        else do
          let conn ← conn.handleRecvSetting frame
          .ok (true, conn.sendSettingsAck.sendSettings [])

def clientSettings : List SettingsItem := [⟨0x2, 0⟩, ⟨0x4, 4194304⟩, ⟨0x6, 10485760⟩]

def handleShakeClient (conn : Http2SocketStream) : Bool × Http2SocketStream :=
  if ¬conn.connected then (false, conn)
  else if conn.writes 0 ≤ 0 then
    (false, { conn with writes := fun call => conn.writes (call + 1) })
  else
    let conn := { conn with writes := fun call => conn.writes (call + 1) }
    let conn := conn.handleSendSetting clientSettings
    let (rt, conn) := conn.sendFrame (settingsFrame clientSettings) false
    if rt ≤ 0 then (false, conn) else (true, conn.sendWindowUpdate 0 (refill conn.recvWindow))

/-- `Http2Connection::reset`. `m_streamMgr.clear()` closes the streams and leaves the map as it
is. -/
def reset (conn : Http2SocketStream) : Http2SocketStream :=
  { conn.foreach ManagedStream.close with
    sendTable := DynamicTable.new
    recvTable := DynamicTable.new
    owner := {}
    peer := {}
    sendWindow := defaultInitialWindowSize.toNat
    recvWindow := defaultInitialWindowSize.toNat
    sn := if conn.isClient then 0xFFFFFFFF else 0 }

end Http2SocketStream
end ChatServer.Http2
