import ChatServer.Http2.HPack
import ChatServer.Stream

/-!
# HTTP/2 frames

`frame.cc`: the frame header, the nine payload types with their codecs, and `FrameCodec`.
Header and payload share one `ByteArray`, which is rewound between the two, so while the
payload is read the rest of the header may still stand behind it.

The bit-field unions are read the way the compiler lays them out on x86-64: the field
declared first takes the low bits.
-/

namespace ChatServer.Http2

set_option autoImplicit false

/-- A call inside `try { .. } catch (...) { .. }`: an exception becomes `none`. -/
def caught {Value : Type} : Result Value → Result (Option Value)
  | .ok value => .ok (some value)
  | .error (.thrown _) => .ok none
  | .error (.undefined cause) => .error (.undefined cause)
  | .error .aborted => .error .aborted

inductive FrameType where
  | data
  | headers
  | priority
  | rstStream
  | settings
  | pushPromise
  | ping
  | goaway
  | windowUpdate
  | continuation
  deriving DecidableEq, Repr

/-- The cast of the header's byte in the `switch` of `parseFrom`; `none` is its `default`. -/
def frameType (type : UInt8) : Option FrameType :=
  match type.toNat with
  | 0x0 => some .data
  | 0x1 => some .headers
  | 0x2 => some .priority
  | 0x3 => some .rstStream
  | 0x4 => some .settings
  | 0x5 => some .pushPromise
  | 0x6 => some .ping
  | 0x7 => some .goaway
  | 0x8 => some .windowUpdate
  | 0x9 => some .continuation
  | _ => none

def flagPadded : UInt8 := 0x8

def flagPriority : UInt8 := 0x20

/-- A union of `uint32_t low : 31; uint32_t high : 1;` with a `uint32_t`. -/
def word31 (high : BitVec 1) (low : BitVec 31) : UInt32 := ⟨high ++ low⟩

def low31 (word : UInt32) : BitVec 31 := word.toBitVec.extractLsb' 0 31

def high1 (word : UInt32) : BitVec 1 := word.toBitVec.extractLsb' 31 1

structure FrameHeader where
  length : BitVec 24 := 0
  type : UInt8 := 0
  flags : UInt8 := 0
  r : BitVec 1 := 0
  identifier : BitVec 31 := 0
  deriving DecidableEq

namespace FrameHeader

def size : Nat := 9

/-- The union member `len_type`: the type in the low byte, the length above it. -/
def lenType (header : FrameHeader) : UInt32 := ⟨header.length ++ header.type.toBitVec⟩

def rId (header : FrameHeader) : UInt32 := word31 header.r header.identifier

def writeTo (header : FrameHeader) (ba : ByteArray) : Result ByteArray := do
  let ba ← ba.writeFuint32 header.lenType
  let ba ← ba.writeFuint8 header.flags
  ba.writeFuint32 header.rId

/-- The fields as the unions split the words. -/
def ofWords (lenType : UInt32) (flags : UInt8) (rId : UInt32) : FrameHeader where
  length := lenType.toBitVec.extractLsb' 8 24
  type := ⟨lenType.toBitVec.extractLsb' 0 8⟩
  flags := flags
  r := high1 rId
  identifier := low31 rId

def readFrom (ba : ByteArray) : Result (FrameHeader × ByteArray) := do
  let (lenType, ba) ← ba.readFuint32
  let (flags, ba) ← ba.readFuint8
  let (rId, ba) ← ba.readFuint32
  .ok (ofWords lenType flags rId, ba)

def padded (header : FrameHeader) : Bool := header.flags &&& flagPadded ≠ 0

def hasPriority (header : FrameHeader) : Bool := header.flags &&& flagPriority ≠ 0

end FrameHeader

/-- `text.resize(len)` on an empty string, and `ba->read(&text[0], text.size())`. -/
def readSized (ba : ByteArray) (len : Int) : Result (Str × ByteArray) := do
  let text ← resize [] len
  ba.read text.length

structure DataFrame where
  pad : UInt8 := 0
  data : Str := []
  padding : Str := []
  deriving DecidableEq

namespace DataFrame

def writeTo (frame : DataFrame) (ba : ByteArray) (header : FrameHeader) : Result ByteArray :=
  if header.padded then do
    let ba ← ba.writeFuint8 frame.pad
    let ba ← ba.write frame.data
    ba.write frame.padding
  else ba.write frame.data

def readFrom (ba : ByteArray) (header : FrameHeader) : Result (DataFrame × ByteArray) :=
  if header.padded then do
    let (pad, ba) ← ba.readFuint8
    let (data, ba) ← readSized ba (header.length.toNat - pad.toNat - 1)
    let (padding, ba) ← readSized ba pad.toNat
    .ok ({ pad, data, padding }, ba)
  else do
    let (data, ba) ← readSized ba header.length.toNat
    .ok ({ data }, ba)

end DataFrame

structure PriorityFrame where
  streamDep : BitVec 31 := 0
  exclusive : BitVec 1 := 0
  weight : UInt8 := 0
  deriving DecidableEq

namespace PriorityFrame

def eStreamDep (frame : PriorityFrame) : UInt32 := word31 frame.exclusive frame.streamDep

def writeTo (frame : PriorityFrame) (ba : ByteArray) : Result ByteArray := do
  let ba ← ba.writeFuint32 frame.eStreamDep
  ba.writeFuint8 frame.weight

/-- The returned `bool`, with the frame and the buffer as they are then: `HeadersFrame`
goes on after a failure. -/
def readFrom (frame : PriorityFrame) (ba : ByteArray) :
    Result (Bool × PriorityFrame × ByteArray) := do
  match ← caught ba.readFuint32 with
  | none => .ok (false, frame, ba)
  | some (word, ba) => do
      let frame := { frame with streamDep := low31 word, exclusive := high1 word }
      match ← caught ba.readFuint8 with
      | none => .ok (false, frame, ba)
      | some (weight, ba) => .ok (true, { frame with weight }, ba)

end PriorityFrame

structure HeadersFrame where
  pad : UInt8 := 0
  priority : PriorityFrame := {}
  data : Str := []
  padding : Str := []
  hpack : Option HPack := none
  kvs : List (Str × Str) := []
  deriving DecidableEq

namespace HeadersFrame

/-- `hpack->pack(kvs, data)`, when there is something to pack. -/
def packKvs (frame : HeadersFrame) (fresh : Nat → Nat → UInt8) : Result HeadersFrame :=
  match frame.hpack with
  | none => .ok frame
  | some hp =>
      if frame.kvs = [] then .ok frame
      else do
        let (_, out, hp) ← packString fresh hp frame.kvs
        .ok { frame with data := out, hpack := some hp }

def writeTo (frame : HeadersFrame) (fresh : Nat → Nat → UInt8) (ba : ByteArray)
    (header : FrameHeader) : Result (HeadersFrame × ByteArray) := do
  let ba ← if header.padded then ba.writeFuint8 frame.pad else .ok ba
  let ba ← if header.hasPriority then frame.priority.writeTo ba else .ok ba
  let frame ← frame.packKvs fresh
  let ba ← ba.write frame.data
  let ba ← if header.padded then ba.write frame.padding else .ok ba
  .ok (frame, ba)

/-- The first `if` of `readFrom`: the length that is left, and the pad length. -/
def readPad (ba : ByteArray) (header : FrameHeader) : Result (Int × HeadersFrame × ByteArray) :=
  if header.padded then do
    let (pad, ba) ← ba.readFuint8
    .ok (header.length.toNat - (1 + pad.toNat), { pad }, ba)
  else .ok (header.length.toNat, {}, ba)

/-- The second `if`. What `priority.readFrom` returns is ignored. -/
def readPriority (len : Int) (frame : HeadersFrame) (ba : ByteArray) (header : FrameHeader) :
    Result (Int × HeadersFrame × ByteArray) :=
  if header.hasPriority then do
    let (_, priority, ba) ← frame.priority.readFrom ba
    .ok (len - 5, { frame with priority }, ba)
  else .ok (len, frame, ba)

def readFrom (ba : ByteArray) (header : FrameHeader) : Result (HeadersFrame × ByteArray) := do
  let (len, frame, ba) ← readPad ba header
  let (len, frame, ba) ← readPriority len frame ba header
  let (data, ba) ← readSized ba len
  if header.padded then
    let (padding, ba) ← readSized ba frame.pad.toNat
    .ok ({ frame with data, padding }, ba)
  else .ok ({ frame with data }, ba)

end HeadersFrame

structure RstStreamFrame where
  errorCode : UInt32 := 0
  deriving DecidableEq

namespace RstStreamFrame

def writeTo (frame : RstStreamFrame) (ba : ByteArray) : Result ByteArray :=
  ba.writeFuint32 frame.errorCode

def readFrom (ba : ByteArray) : Result (RstStreamFrame × ByteArray) := do
  let (errorCode, ba) ← ba.readFuint32
  .ok ({ errorCode }, ba)

end RstStreamFrame

structure SettingsItem where
  identifier : UInt16 := 0
  value : UInt32 := 0
  deriving DecidableEq

namespace SettingsItem

/-- `sizeof(SettingsItem)`, packed. -/
def size : Nat := 6

def writeTo (item : SettingsItem) (ba : ByteArray) : Result ByteArray := do
  let ba ← ba.writeFuint16 item.identifier
  ba.writeFuint32 item.value

def readFrom (ba : ByteArray) : Result (SettingsItem × ByteArray) := do
  let (identifier, ba) ← ba.readFuint16
  let (value, ba) ← ba.readFuint32
  .ok ({ identifier, value }, ba)

end SettingsItem

structure SettingsFrame where
  items : List SettingsItem := []
  deriving DecidableEq

namespace SettingsFrame

def writeItems : List SettingsItem → ByteArray → Result ByteArray
  | [], ba => .ok ba
  | item :: rest, ba => do
      let ba ← item.writeTo ba
      writeItems rest ba

def readItems : Nat → ByteArray → Result (List SettingsItem × ByteArray)
  | 0, ba => .ok ([], ba)
  | count + 1, ba => do
      let (item, ba) ← SettingsItem.readFrom ba
      let (rest, ba) ← readItems count ba
      .ok (item :: rest, ba)

def writeTo (frame : SettingsFrame) (ba : ByteArray) : Result ByteArray :=
  writeItems frame.items ba

def readFrom (ba : ByteArray) (header : FrameHeader) : Result (SettingsFrame × ByteArray) := do
  let (items, ba) ← readItems (header.length.toNat / SettingsItem.size) ba
  .ok ({ items }, ba)

end SettingsFrame

structure PushPromisedFrame where
  pad : UInt8 := 0
  streamId : BitVec 31 := 0
  r : BitVec 1 := 0
  data : Str := []
  padding : Str := []
  deriving DecidableEq

namespace PushPromisedFrame

def rStreamId (frame : PushPromisedFrame) : UInt32 := word31 frame.r frame.streamId

def writeTo (frame : PushPromisedFrame) (ba : ByteArray) (header : FrameHeader) :
    Result ByteArray :=
  if header.padded then do
    let ba ← ba.writeFuint8 frame.pad
    let ba ← ba.writeFuint32 frame.rStreamId
    let ba ← ba.write frame.data
    ba.write frame.padding
  else do
    let ba ← ba.writeFuint32 frame.rStreamId
    ba.write frame.data

def readFrom (ba : ByteArray) (header : FrameHeader) : Result (PushPromisedFrame × ByteArray) :=
  if header.padded then do
    let (pad, ba) ← ba.readFuint8
    let (word, ba) ← ba.readFuint32
    let (data, ba) ← readSized ba (header.length.toNat - 5 - pad.toNat)
    let (padding, ba) ← readSized ba pad.toNat
    .ok ({ pad, streamId := low31 word, r := high1 word, data, padding }, ba)
  else do
    let (word, ba) ← ba.readFuint32
    let (data, ba) ← readSized ba (header.length.toNat - 4)
    .ok ({ streamId := low31 word, r := high1 word, data }, ba)

end PushPromisedFrame

/-- The array `data[8]`. -/
structure PingFrame where
  data : Str := List.replicate 8 0
  dataSize : data.length = 8 := by rfl
  deriving DecidableEq

namespace PingFrame

def writeTo (frame : PingFrame) (ba : ByteArray) : Result ByteArray := ba.write frame.data

def readFrom (ba : ByteArray) : Result (PingFrame × ByteArray) := do
  let (data, ba) ← ba.read 8
  -- `read` fills the whole array, so the other branch is never taken
  if dataSize : data.length = 8 then .ok ({ data, dataSize }, ba)
  else .error (.undefined .outOfBounds)

end PingFrame

structure GoAwayFrame where
  lastStreamId : BitVec 31 := 0
  r : BitVec 1 := 0
  errorCode : UInt32 := 0
  data : Str := []
  deriving DecidableEq

namespace GoAwayFrame

def rLastStreamId (frame : GoAwayFrame) : UInt32 := word31 frame.r frame.lastStreamId

def writeTo (frame : GoAwayFrame) (ba : ByteArray) : Result ByteArray := do
  let ba ← ba.writeFuint32 frame.rLastStreamId
  let ba ← ba.writeFuint32 frame.errorCode
  if frame.data = [] then .ok ba else ba.write frame.data

def readFrom (ba : ByteArray) (header : FrameHeader) : Result (GoAwayFrame × ByteArray) := do
  let (word, ba) ← ba.readFuint32
  let (errorCode, ba) ← ba.readFuint32
  if header.length.toNat > 8 then
    let (data, ba) ← readSized ba (header.length.toNat - 8)
    .ok ({ lastStreamId := low31 word, r := high1 word, errorCode, data }, ba)
  else .ok ({ lastStreamId := low31 word, r := high1 word, errorCode }, ba)

end GoAwayFrame

structure WindowUpdateFrame where
  r : BitVec 1 := 0
  increment : BitVec 31 := 0
  deriving DecidableEq

namespace WindowUpdateFrame

def rIncrement (frame : WindowUpdateFrame) : UInt32 := word31 frame.r frame.increment

def writeTo (frame : WindowUpdateFrame) (ba : ByteArray) : Result ByteArray :=
  ba.writeFuint32 frame.rIncrement

def readFrom (ba : ByteArray) : Result (WindowUpdateFrame × ByteArray) := do
  let (word, ba) ← ba.readFuint32
  .ok ({ r := high1 word, increment := low31 word }, ba)

end WindowUpdateFrame

/-- The classes that implement `IFrame`. -/
inductive IFrame where
  | data (frame : DataFrame)
  | headers (frame : HeadersFrame)
  | priority (frame : PriorityFrame)
  | rstStream (frame : RstStreamFrame)
  | settings (frame : SettingsFrame)
  | pushPromised (frame : PushPromisedFrame)
  | ping (frame : PingFrame)
  | goAway (frame : GoAwayFrame)
  | windowUpdate (frame : WindowUpdateFrame)
  deriving DecidableEq

structure Frame where
  header : FrameHeader
  data : Option IFrame
  deriving DecidableEq

/-- `writeTo`, with `none` for the return value `false`. `PushPromisedFrame::writeTo` has no
`return true`. -/
def IFrame.writeTo (frame : IFrame) (fresh : Nat → Nat → UInt8) (ba : ByteArray)
    (header : FrameHeader) : Result (Option (IFrame × ByteArray)) :=
  let same (written : Result ByteArray) : Result (Option (IFrame × ByteArray)) := do
    let written ← caught written
    .ok (written.map fun ba => (frame, ba))
  match frame with
  | .data f => same (f.writeTo ba header)
  | .headers f => do
      let written ← caught (f.writeTo fresh ba header)
      .ok (written.map fun (f, ba) => (.headers f, ba))
  | .priority f => same (f.writeTo ba)
  | .rstStream f => same (f.writeTo ba)
  | .settings f => same (f.writeTo ba)
  | .pushPromised f => do
      let _ ← caught (f.writeTo ba header)
      .ok none
  | .ping f => same (f.writeTo ba)
  | .goAway f => same (f.writeTo ba)
  | .windowUpdate f => same (f.writeTo ba)

/-- The `switch` of `parseFrom`: the frame, or `none` for the null pointer. -/
def readFrame (header : FrameHeader) (ba : ByteArray) : Result (Option Frame) :=
  let made {Body : Type} (wrap : Body → IFrame) (read : Result (Body × ByteArray)) :
      Result (Option Frame) := do
    let read ← caught read
    .ok (read.map fun body => ⟨header, some (wrap body.1)⟩)
  match frameType header.type with
  | some .data => made .data (DataFrame.readFrom ba header)
  | some .headers => made .headers (HeadersFrame.readFrom ba header)
  | some .priority => do
      let (done, frame, _) ← ({} : PriorityFrame).readFrom ba
      .ok (if done then some ⟨header, some (.priority frame)⟩ else none)
  | some .rstStream => made .rstStream (RstStreamFrame.readFrom ba)
  | some .settings => made .settings (SettingsFrame.readFrom ba header)
  | some .pushPromise => made .pushPromised (PushPromisedFrame.readFrom ba header)
  | some .ping => made .ping (PingFrame.readFrom ba)
  | some .goaway => made .goAway (GoAwayFrame.readFrom ba header)
  | some .windowUpdate => made .windowUpdate (WindowUpdateFrame.readFrom ba)
  | some .continuation => .ok (some ⟨header, none⟩)
  | none => .ok none

namespace FrameCodec

/-- The payload is read over the header, from the start of the same buffer. -/
def readPayload (stream : Stream) (header : FrameHeader) (ba : ByteArray) :
    Result (Option Frame × Stream) :=
  if header.length.toNat > 0 then do
    let ba ← ba.setPosition 0
    let (rt, stream, ba) ← stream.readFixSize ba header.length.toNat
    if rt ≤ 0 then .ok (none, stream)
    else
      let ba ← ba.setPosition 0
      let frame ← readFrame header ba
      .ok (frame, stream)
  else do
    let frame ← readFrame header ba
    .ok (frame, stream)

/-- The body of the `try` in `parseFrom`. -/
def parse (fresh : Nat → Nat → UInt8) (stream : Stream) : Result (Option Frame × Stream) := do
  let (rt, stream, ba) ← stream.readFixSize (ByteArray.new 4096 fresh) FrameHeader.size
  if rt ≤ 0 then .ok (none, stream)
  else
    let ba ← ba.setPosition 0
    match ← caught (FrameHeader.readFrom ba) with
    | none => .ok (none, stream)
    | some (header, ba) => readPayload stream header ba

/-- `parseFrom`: the frame, or `none` for the null pointer, and the stream behind it. -/
def parseFrom (fresh : Nat → Nat → UInt8) (stream : Stream) : Result (Option Frame × Stream) := do
  match ← caught (parse fresh stream) with
  | some parsed => .ok parsed
  | none => .ok (none, stream)

/-- The buffer of `serializeTo`: the header is written again once the length is known. -/
def assemble (fresh : Nat → Nat → UInt8) (frame : Frame) : Result (Option (Frame × ByteArray)) := do
  let ba ← frame.header.writeTo (ByteArray.new 4096 fresh)
  match frame.data with
  | none => .ok (some (frame, ba))
  | some data => do
      match ← data.writeTo fresh ba frame.header with
      | none => .ok none
      | some (data, ba) => do
          let pos := ba.position
          let ba ← ba.setPosition 0
          let header := { frame.header with length := BitVec.ofInt 24 (pos - FrameHeader.size : Int) }
          let ba ← header.writeTo ba
          .ok (some (⟨header, some data⟩, ba))

/-- `serializeTo`: the return value, the frame and the stream afterwards. -/
def serializeTo (fresh : Nat → Nat → UInt8) (stream : Stream) (frame : Frame) :
    Result (Int × Frame × Stream) := do
  match ← assemble fresh frame with
  | none => .ok (-1, frame, stream)
  | some (frame, ba) => do
      let ba ← ba.setPosition 0
      let (rt, stream, ba) ← stream.writeFixSize ba ba.getReadSize
      if rt ≤ 0 then .ok (-2, frame, stream) else .ok (int32 ba.size, frame, stream)

end FrameCodec
end ChatServer.Http2
