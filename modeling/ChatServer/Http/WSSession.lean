import ChatServer.Http.WSFrame
import ChatServer.Stream

/-!
# Sending and receiving WebSocket messages

`WSSendMessage`, `WSPing`, `WSPong` and `WSRecvMessage` of `ws_session.cc`. Every read and write
that returns 0 or less leaves the function and closes the stream; the counters are `int`, while
the limit `websocket.message.max_size` is a `uint32_t`.
-/

namespace ChatServer.Http

set_option autoImplicit false

open WordBytes Splice

structure WSFrameMessage where
  opcode : Int
  data : Str
  deriving DecidableEq

/-- What a function returned that writes to the stream, and whether it closed it. -/
structure Sent where
  value : Int
  stream : Stream
  closed : Bool

/-- `if(stream->writeFixSize(..) <= 0) { break; }`: behind the loop the stream is closed. -/
def writeOr (stream : Stream) (bytes : Str) (next : Stream → Result Sent) : Result Sent := do
  let (rt, stream) ← stream.writeFixBuffer bytes
  if rt ≤ 0 then .ok ⟨-1, stream, true⟩ else next stream

/-- `rand` is the value that `rand()` gives for the mask. -/
def wsSendMessage (stream : Stream) (msg : WSFrameMessage) (client fin : Bool) (rand : UInt32) :
    Result Sent :=
  let size := msg.data.length
  let head : WSFrameHead :=
    { opcode := BitVec.ofInt 4 msg.opcode, rsv3 := false, rsv2 := false, rsv1 := false
      fin, payload := payloadField size, mask := client }
  writeOr stream head.bytes fun stream =>
    let writeData (data : Str) (stream : Stream) : Result Sent :=
      writeOr stream data fun stream => .ok ⟨int32 (size + 2), stream, false⟩
    let writeMasked (stream : Stream) : Result Sent :=
      if client then
        writeOr stream (keyBytes rand) (writeData (xorMask (keyBytes rand) msg.data))
      else writeData msg.data stream
    if head.payload = 126 ∨ head.payload = 127 then
      writeOr stream (lengthBytes head.payload size) writeMasked
    else writeMasked stream

def wsControl (stream : Stream) (opcode : BitVec 4) : Result Sent := do
  let head : WSFrameHead :=
    { opcode, rsv3 := false, rsv2 := false, rsv1 := false, fin := true, payload := 0,
      mask := false }
  let (v, stream) ← stream.writeFixBuffer head.bytes
  .ok ⟨v, stream, v ≤ 0⟩

def wsPing (stream : Stream) : Result Sent := wsControl stream WSFrameHead.ping

def wsPong (stream : Stream) : Result Sent := wsControl stream WSFrameHead.pong

structure Partial where
  opcode : Int
  data : Str
  curLen : Int
  deriving DecidableEq

/-- How one round of its loop ends: with the next one, with `return`, or with `break`. -/
inductive Round where
  | again (held : Partial) (stream : Stream)
  | finished (message : WSFrameMessage) (stream : Stream)
  | broken (stream : Stream)

def readOr (stream : Stream) (length : Nat) (next : Str → Stream → Result Round) :
    Result Round := do
  let (rt, bytes, stream) ← stream.readFixBuffer length
  if rt ≤ 0 then .ok (.broken stream) else next bytes stream

def readLength (payload : BitVec 7) (stream : Stream) (next : Nat → Stream → Result Round) :
    Result Round :=
  if payload = 126 then readOr stream 2 fun len stream => next (byteswap 2 (ofLE len)) stream
  else if payload = 127 then readOr stream 8 fun len stream => next (byteswap 8 (ofLE len)) stream
  else next payload.toNat stream

def readMask (mask : Bool) (stream : Stream) (next : Str → Stream → Result Round) : Result Round :=
  if mask then readOr stream 4 next else next [0, 0, 0, 0] stream

/-- `data[cur_len + i] ^= mask[i % 4]` for `i` below `(int)length`; the index is an `int`. -/
def unmask (mask : Str) (curLen : Int) (length : Nat) (data : Str) : Result Str :=
  let count := int32 length
  if count ≤ 0 then .ok data
  else do
    let _ ← checkedInt (curLen + (count - 1))
    .ok (splice data curLen.toNat (xorMask mask ((data.drop curLen.toNat).take count.toNat)))

/-- A CONTINUE, TEXT or BIN frame. `cur_len + length` is a `uint64_t`. -/
def dataRound (maxSize : UInt32) (client : Bool) (held : Partial) (head : WSFrameHead)
    (stream : Stream) : Result Round :=
  if !client && !head.mask then .ok (.broken stream)
  else
    readLength head.payload stream fun length stream =>
      let total := ((held.curLen + length) % 2 ^ 64).toNat
      if maxSize.toNat ≤ total then .ok (.broken stream)
      else
        readMask head.mask stream fun mask stream => do
          let data ← resize held.data total
          if held.curLen < 0 ∨ data.length < held.curLen then .error (.undefined .outOfBounds)
          else
            readOr stream length fun bytes stream => do
              let data := splice data held.curLen.toNat bytes
              let data ← if head.mask then unmask mask held.curLen length data else .ok data
              let opcode :=
                if held.opcode = 0 ∧ head.opcode ≠ WSFrameHead.continueFrame then
                  (head.opcode.toNat : Int)
                else held.opcode
              if head.fin then .ok (.finished ⟨opcode, data⟩ stream)
              else .ok (.again ⟨opcode, data, int32 (held.curLen + length)⟩ stream)

def recvRound (maxSize : UInt32) (client : Bool) (held : Partial) (stream : Stream) :
    Result Round :=
  readOr stream 2 fun bytes stream =>
    let head := WSFrameHead.ofBytes bytes
    if head.opcode = WSFrameHead.ping then do
      let sent ← wsPong stream
      if sent.value ≤ 0 then .ok (.broken sent.stream) else .ok (.again held sent.stream)
    else if head.opcode = WSFrameHead.pong then .ok (.again held stream)
    else if head.opcode = WSFrameHead.continueFrame ∨ head.opcode = WSFrameHead.textFrame ∨
        head.opcode = WSFrameHead.binFrame then
      dataRound maxSize client held head stream
    else .ok (.again held stream)

structure Received where
  message : Option WSFrameMessage
  stream : Stream
  closed : Bool

def recvLoop (maxSize : UInt32) (client : Bool) : Nat → Partial → Stream → Result Received
  | 0, _, _ => .error (.undefined .endlessLoop)
  | rounds + 1, held, stream => do
      match ← recvRound maxSize client held stream with
      | .again held stream => recvLoop maxSize client rounds held stream
      | .finished message stream => .ok ⟨some message, stream, false⟩
      | .broken stream => .ok ⟨none, stream, true⟩

/-- Every round but the last takes a head, so as many rounds as bytes are enough. -/
def wsRecvMessage (maxSize : UInt32) (client : Bool) (stream : Stream) : Result Received :=
  recvLoop maxSize client (stream.incoming.length + 1) ⟨0, [], 0⟩ stream

end ChatServer.Http
