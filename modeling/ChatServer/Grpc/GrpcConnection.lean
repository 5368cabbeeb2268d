import ChatServer.Grpc.GrpcStream
import ChatServer.Http.HttpResponseParser
import ChatServer.Http2.Http2SocketStream

/-!
# gRPC calls

`grpc_util.cc` and `GrpcConnection::request`. The body of a call is one frame: a flag, a length and
the message. `DecodeGrpcBody` and `EncodeGrpcBody` work in a buffer over the text they are given,
and every call starts with one of them.
-/

namespace ChatServer.Grpc

set_option autoImplicit false

open ChatServer.ByteArray
open ChatServer.Streams (Zlib ZlibStream)
open ChatServer.Http (isSpace digitsValue)
open ChatServer.Http2 (HttpMessage HttpRequest ascii)

/-- A `GrpcMessage` as it is decoded, with the flag and the length that came with it. -/
structure GrpcData where
  compressed : UInt8 := 0
  length : UInt32 := 0
  data : Str := []
  deriving DecidableEq

def catching (data : GrpcData) : Result (Bool × GrpcData) → Result (Bool × GrpcData)
  | .error (.thrown _) => .ok (false, data)
  | outcome => outcome

/-- The two halves of zlib, and how often the loops of a stream may go round. -/
structure Gzip where
  Inflating : Type
  Deflating : Type
  inflate : Zlib Inflating
  deflate : Zlib Deflating
  rounds : Nat

/-- `DecodeGrpcBody(body, GrpcMessage& data, encoding)`. -/
def decodeGrpcBody (zlib : Gzip) (body : Str) (data : GrpcData) : Result (Bool × GrpcData) :=
  overBorrowed <| catching data do
    let (compressed, ba) ← (ofData body).readFuint8
    let data := { data with compressed }
    catching data do
      let (length, ba) ← ba.readFuint32
      let data := { data with length }
      catching data do
        if data.compressed ≠ 0 then do
          let (_, buffers) ← ba.getReadBuffers ba.getReadSize
          let plain ← ZlibStream.convert zlib.inflate zlib.rounds
            (buffers.map fun ivc => gather ba.nodes [ivc])
          .ok (true, { data with data := plain })
        else do
          let rest ← ba.toString
          .ok (true, { data with data := rest })

def decodeGrpcString (zlib : Gzip) (body data : Str) : Result (Bool × Str) := do
  let (ok, tmp) ← decodeGrpcBody zlib body {}
  if ok then .ok (true, tmp.data) else .ok (false, data)

/-- `EncodeGrpcBody`; without compression the buffer is the memory of `body`, its first block. -/
def encodeGrpcBody (zlib : Gzip) (fresh : Nat → Nat → UInt8) (data : Str) (compress : Bool) :
    Result Str :=
  if compress then do
    let ba ← (ByteArray.new 4096 fresh).writeFuint8 1
    let cdata ← ZlibStream.convert zlib.deflate zlib.rounds [data]
    let ba ← ba.writeFuint32 (UInt32.ofNat cdata.length)
    let ba ← ba.write cdata
    let ba ← ba.setPosition 0
    ba.toString
  else overBorrowed do
    let ba ← (ofData (List.replicate (data.length + 5) 0)).writeFuint8 0
    let ba ← ba.writeFuint32 (UInt32.ofNat data.length)
    let ba ← ba.write data
    .ok (ba.flat.take (data.length + 5))

def strtoull (text : Str) : Nat :=
  let text := text.dropWhile isSpace
  let negative := text.head? = some 45
  let text := if text.head? = some 45 ∨ text.head? = some 43 then text.tail else text
  let value := digitsValue (text.takeWhile fun byte => 48 ≤ byte && byte ≤ 57)
  if 2 ^ 64 ≤ value then 2 ^ 64 - 1
  else if negative then (2 ^ 64 - value) % 2 ^ 64
  else value

def atoi (text : Str) : Int := if text = [] then 0 else int32 (strtoull text)

structure HttpResult where
  result : Int
  response : Option HttpMessage
  error : Str

structure GrpcRequest where
  request : HttpRequest
  data : Option GrpcData

structure GrpcResponse where
  result : Int := 0
  error : Str := []
  response : Option HttpMessage := none
  data : Option GrpcData := none

def HttpResult.invalidBody (result : HttpResult) : HttpResult :=
  { result with result := -501, error := ascii "invalid grpc body" }

/-- What `request` makes of the result of the exchange: the response, and the result as it is left
behind. -/
def handleResult (zlib : Gzip) (result : HttpResult) : Result (GrpcResponse × HttpResult) :=
  if result.result = 0 then
    match result.response with
    | none => .error (.undefined .nullDeref)
    | some response => do
        let rsp : GrpcResponse :=
          { result := atoi (response.getHeader (ascii "grpc-status"))
            error := response.getHeader (ascii "grpc-message") }
        let result ← if response.body ≠ [] then do
            let (ok, _) ← decodeGrpcBody zlib response.body {}
            .ok (if ok then result else result.invalidBody)
          else .ok result
        let rsp := { rsp with response := some response }
        if response.body ≠ [] then do
          let (ok, msg) ← decodeGrpcBody zlib response.body {}
          if ok then .ok ({ rsp with data := some msg }, result)
          else .ok (rsp, result.invalidBody)
        else .ok (rsp, result)
  else .ok ({ result := result.result, error := result.error }, result)

/-- The HTTP request of a call, with its content type and its body. -/
def outgoing (req : HttpRequest) (data : Str) : HttpRequest :=
  let headed := req.toHttpMessage.setHeader (ascii "content-type") (ascii "application/grpc+proto")
  { req with toHttpMessage := { headed with body := data } }

/-- `GrpcConnection::request(req, timeout_ms)`; `exchange` is `Http2Connection::request`. -/
def request (zlib : Gzip) (fresh : Nat → Nat → UInt8) (exchange : HttpRequest → Result HttpResult)
    (req : GrpcRequest) : Result GrpcResponse :=
  match req.data with
  | none => .error (.undefined .nullDeref)
  | some message => do
      let data ← encodeGrpcBody zlib fresh message.data false
      let result ← exchange (outgoing req.request data)
      let (rsp, _) ← handleResult zlib result
      .ok rsp

def frame (flag : UInt8) (length : UInt32) (payload : Str) : Str :=
  [flag] ++ (fixedBytes .big 4 length.toNat ++ payload)

/-- One whole frame. -/
def Complete (body : Str) : Prop :=
  ∃ flag length payload, body = frame flag length payload ∧ length.toNat = payload.length

/-- The call returns, and with success for a whole frame only. -/
def DecodesComplete (zlib : Gzip) (body : Str) : Prop :=
  ∃ ok data, decodeGrpcBody zlib body {} = .ok (ok, data) ∧ (ok = true → Complete body)

/-- What is encoded without compression is decoded again. -/
def RoundTrips (zlib : Gzip) (fresh : Nat → Nat → UInt8) (data : Str) : Prop :=
  ∃ encoded, encodeGrpcBody zlib fresh data false = .ok encoded ∧
    decodeGrpcString zlib encoded [] = .ok (true, data)

/-- The call returns a response that reports a failure. -/
def Reports (zlib : Gzip) (fresh : Nat → Nat → UInt8) (exchange : HttpRequest → Result HttpResult)
    (req : GrpcRequest) : Prop :=
  ∃ rsp, request zlib fresh exchange req = .ok rsp ∧ rsp.result ≠ 0

theorem decode_fatal (zlib : Gzip) (body : Str) (data : GrpcData) :
    Fatal (decodeGrpcBody zlib body data) := over_borrowed_fatal _

theorem encode_fatal (zlib : Gzip) (fresh : Nat → Nat → UInt8) (data : Str) :
    Fatal (encodeGrpcBody zlib fresh data false) := by
  rw [encodeGrpcBody, if_neg Bool.false_ne_true]
  exact over_borrowed_fatal _

theorem request_fatal (zlib : Gzip) (fresh : Nat → Nat → UInt8)
    (exchange : HttpRequest → Result HttpResult) (req : GrpcRequest) :
    Fatal (request zlib fresh exchange req) := by
  rw [request]
  cases req.data with
  | none => exact ⟨.undefined .nullDeref, rfl, by simp⟩
  | some message => exact fatal_bind (encode_fatal zlib fresh message.data)

/-- No body is decoded, no data comes back and no call returns, whatever the response is. -/
theorem grpc_body_never_checked (zlib : Gzip) (fresh : Nat → Nat → UInt8) (body data : Str)
    (exchange : HttpRequest → Result HttpResult) (req : GrpcRequest) :
    ¬DecodesComplete zlib body ∧ ¬RoundTrips zlib fresh data ∧ ¬Reports zlib fresh exchange req := by
  refine ⟨?_, ?_, ?_⟩
  · rintro ⟨ok, decoded, returned, _⟩
    exact fatal_not_ok (decode_fatal zlib body {}) _ returned
  · rintro ⟨encoded, returned, _⟩
    exact fatal_not_ok (encode_fatal zlib fresh data) _ returned
  · rintro ⟨rsp, returned, _⟩
    exact fatal_not_ok (request_fatal zlib fresh exchange req) _ returned

/-- A whole frame of one byte, the byte to be sent, and a call that is answered with a body of
one byte. -/
theorem grpc_body_not_checked :
    let zlib : Gzip := ⟨_, _, ZlibStream.inflateStored, ZlibStream.deflateStored, 2⟩
    (Complete (frame 0 1 [7]) ∧
      decodeGrpcBody zlib (frame 0 1 [7]) {} = .error (.undefined .invalidDelete)) ∧
    encodeGrpcBody zlib (fun _ _ => 0) [7] false = .error (.undefined .invalidDelete) ∧
    request zlib (fun _ _ => 0) (fun _ => .ok ⟨0, some { body := [1] }, []⟩)
      ⟨{}, some { data := [7] }⟩ = .error (.undefined .invalidDelete) ∧
    ¬DecodesComplete zlib (frame 0 1 [7]) ∧ ¬RoundTrips zlib (fun _ _ => 0) [7] ∧
    ¬Reports zlib (fun _ _ => 0) (fun _ => .ok ⟨0, some { body := [1] }, []⟩)
      ⟨{}, some { data := [7] }⟩ := by
  intro zlib
  refine ⟨⟨⟨0, 1, [7], rfl, rfl⟩, rfl⟩, rfl, rfl, ?_, ?_, ?_⟩
  · rintro ⟨ok, decoded, returned, _⟩
    exact fatal_not_ok (decode_fatal zlib _ {}) _ returned
  · rintro ⟨encoded, returned, _⟩
    exact fatal_not_ok (encode_fatal zlib _ [7]) _ returned
  · rintro ⟨rsp, returned, _⟩
    exact fatal_not_ok (request_fatal zlib _ _ _) _ returned

end ChatServer.Grpc
