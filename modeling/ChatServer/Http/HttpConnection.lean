import ChatServer.Http.HttpResponseParser
import ChatServer.Http.HttpSession
import ChatServer.Streams.Compression

/-!
# Receiving responses

`HttpConnection::recvResponse`. It looks at a copy of the parser that it took behind the head; the
copy never learns the size of a chunk or that the last one has come, so a chunked response is
never returned.
-/

namespace ChatServer.Http

set_option autoImplicit false

open ChatServer.Http2 (ascii sameKey)
open ChatServer.Streams (Zlib ZlibStream)
open ScanTable

structure Unzip where
  gzip : Str → Str
  deflate : Str → Str

def unzipBy {State : Type} (zlib : Zlib State) (rounds : Nat) (body : Str) : Str :=
  (ZlibStream.convert zlib rounds [body]).toOption.getD []

/-- The streams of `CreateGzip(false)` and `CreateDeflate(false)`. -/
def Unzip.ofZlib {Gzip Deflate : Type} (gzip : Zlib Gzip) (deflate : Zlib Deflate) (rounds : Nat) :
    Unzip where
  gzip := unzipBy gzip rounds
  deflate := unzipBy deflate rounds

/-- The loop up to the end of the head; `held` is the data in front of `offset`. -/
def recvResponseHead (machine : HttpClientMachine) (config : HttpConfig) :
    Nat → SocketStream → Str → HttpResponseParser →
      Result (Option (HttpResponseParser × Str) × SocketStream)
  | 0, _, _, _ => .error (.undefined .endlessLoop)
  | rounds + 1, stream, held, parser =>
      let (bytes, stream) := stream.read (config.buffSize - held.length)
      if bytes.length = 0 then .ok (none, stream.close)
      else do
        let data := held ++ bytes
        let (nparse, parser) ← parser.execute machine data false
        let held := data.drop nparse
        if parser.hasError machine then .ok (none, stream.close)
        else if held.length = config.buffSize then .ok (none, stream.close)
        else if parser.isFinished machine then .ok (some (parser, held), stream)
        else recvResponseHead machine config rounds stream held parser

/-- The inner loop of a chunk, up to the end of its size. Every `execute` starts the table
afresh. Only the first round may do without a read. -/
def recvChunkSize (machine : HttpClientMachine) (config : HttpConfig) :
    Nat → Bool → SocketStream → Str → HttpResponseParser →
      Result (Option (HttpResponseParser × Str) × SocketStream)
  | 0, _, _, _, _ => .error (.undefined .endlessLoop)
  | rounds + 1, begin_, stream, held, parser =>
      let asks := !begin_ || held.length = 0
      let (bytes, stream) :=
        if asks then stream.read (config.buffSize - held.length) else ([], stream)
      if asks ∧ bytes.length = 0 then .ok (none, stream.close)
      else do
        let data := held ++ bytes
        let (nparse, parser) ← parser.execute machine data true
        let held := data.drop nparse
        if parser.hasError machine then .ok (none, stream.close)
        else if held.length = config.buffSize then .ok (none, stream.close)
        else if parser.isFinished machine then .ok (some (parser, held), stream)
        else recvChunkSize machine config rounds false stream held parser

/-- `body.append(data, count)` with an `int` count, negative ones above any `size_t` there is. -/
def appendData (body data : Str) (count : Int) : Result Str :=
  if count < 0 then .error (.thrown .lengthError) else .ok (body ++ data.take count.toNat)

def dropCrlf (body : Str) : Result Str :=
  if body.length < 2 then .error (.thrown .lengthError) else .ok (body.take (body.length - 2))

def recvLeft (config : HttpConfig) :
    Nat → SocketStream → Str → Int → Result (Option Str × SocketStream)
  | 0, stream, body, left =>
      if 0 < left then .error (.undefined .endlessLoop) else .ok (some body, stream)
  | rounds + 1, stream, body, left =>
      if 0 < left then
        let (bytes, stream) := stream.read (min left.toNat config.buffSize)
        if bytes.length = 0 then .ok (none, stream.close)
        else recvLeft config rounds stream (body ++ bytes) (left - bytes.length)
      else .ok (some body, stream)

/-- One payload: the body with it and the data behind it. `contentLen` is that of the copy. -/
def recvPayload (config : HttpConfig) (contentLen : Int) (stream : SocketStream)
    (body held : Str) : Result (Option (Str × Str) × SocketStream) := do
  let whole ← checkedInt (contentLen + 2)
  if whole ≤ held.length then do
    let body ← appendData body held contentLen
    .ok (some (body, held.drop whole.toNat), stream)
  else do
    let left := contentLen - held.length + 2
    let (read, stream) ← recvLeft config left.toNat stream (body ++ held) left
    match read with
    | none => .ok (none, stream)
    | some body => do
        let body ← dropCrlf body
        .ok (some (body, []), stream)

def recvChunks (machine : HttpClientMachine) (config : HttpConfig)
    (clientParser : HttpClientParser) :
    Nat → SocketStream → Str → Str → HttpResponseParser →
      Result (Option (HttpResponseParser × Str) × SocketStream)
  | 0, _, _, _, _ => .error (.undefined .endlessLoop)
  | rounds + 1, stream, body, held, parser => do
      let (size, stream) ← recvChunkSize machine config (stream.incoming.length + 2) true stream
        held parser
      match size with
      | none => .ok (none, stream)
      | some (parser, held) => do
          let (payload, stream) ← recvPayload config clientParser.contentLen stream body held
          match payload with
          | none => .ok (none, stream)
          | some (body, held) =>
              if clientParser.chunksDone then .ok (some (parser, body), stream)
              else recvChunks machine config clientParser rounds stream body held parser

def recvPlainBody (config : HttpConfig) (parser : HttpResponseParser) (held : Str)
    (stream : SocketStream) : Result (Option Str × SocketStream) :=
  let length := int64 parser.getContentLength
  if 0 < length then
    let front := held.take length.toNat
    let left := length - held.length
    if 0 < left then do
      let (rt, bytes, stream) ← stream.readFixSize config left.toNat
      if rt ≤ 0 then .ok (none, stream.close) else .ok (some (front ++ bytes), stream)
    else .ok (some front, stream)
  else .ok (some [], stream)

def finishResponse (unzip : Unzip) (response : HttpResponse) (body : Str) : HttpResponse :=
  if body = [] then response.initConnection
  else
    let coding := response.getHeader (ascii "content-encoding")
    let body := if sameKey coding (ascii "gzip") then unzip.gzip body
      else if sameKey coding (ascii "deflate") then unzip.deflate body
      else body
    (response.setBody body).initConnection

def recvResponse (machine : HttpClientMachine) (config : HttpConfig) (unzip : Unzip)
    (stream : SocketStream) : Result (Option HttpResponse × SocketStream) := do
  let (head, stream) ← recvResponseHead machine config (stream.incoming.length + 1) stream []
    (HttpResponseParser.new machine)
  match head with
  | none => .ok (none, stream)
  | some (parser, held) =>
      -- `auto` copies what `getParser` refers to.
      let clientParser := parser.parser
      if clientParser.chunked then do
        let (received, stream) ← recvChunks machine config clientParser
          (held.length + stream.incoming.length + 1) stream [] held parser
        match received with
        | none => .ok (none, stream)
        | some (parser, body) => .ok (some (finishResponse unzip parser.data body), stream)
      else do
        let (received, stream) ← recvPlainBody config parser held stream
        match received with
        | none => .ok (none, stream)
        | some body => .ok (some (finishResponse unzip parser.data body), stream)

def encodeChunk (chunk : Str) : Str :=
  ascii (String.ofList (Nat.toDigits 16 chunk.length)) ++ ascii "\r\n" ++ chunk ++ ascii "\r\n"

def encodeChunks (chunks : List Str) : Str :=
  (chunks.map encodeChunk).flatten ++ ascii "0\r\n\r\n"

variable {machine : HttpClientMachine}

/-- The call returns a response with the payloads as its body and leaves what is behind it. -/
def ReceivesChunks (machine : HttpClientMachine) (config : HttpConfig) (unzip : Unzip)
    (chunks : List Str) (behind : Str) (stream : SocketStream) : Prop :=
  ∃ response after, recvResponse machine config unzip stream = .ok (some response, after) ∧
    response.body = chunks.flatten ∧ after.incoming = behind

theorem execute_chunked_head (head : ChunkedHead machine) {extra : Str} {nread : Nat}
    {parser : HttpResponseParser}
    (executed : (HttpResponseParser.new machine).execute machine (head.bytes ++ extra) false =
      .ok (nread, parser)) :
    nread = head.bytes.length ∧ parser.chunkView = (true, false) ∧
      parser.isFinished machine = true := by
  have start : machine.table.Live (HttpResponseParser.new machine).parser.cs := machine.sound.start
  rcases HttpResponseParser.execute_cases head.accepted with ⟨final, alone, parsed, ran⟩
  rcases HttpResponseParser.execute_cases executed with ⟨state, between, same, longRan⟩
  have finished := head.finished
  have ended : ¬ machine.table.Live final := by
    intro live
    rw [parsed] at finished
    simp [HttpResponseParser.isFinished, HttpResponseParser.parserHasError, live.1,
      Nat.ne_of_lt live.2] at finished
  rw [Table.run_append machine.sound start] at longRan
  rcases bind_eq_ok longRan with ⟨⟨last, middle, there⟩, headRan, rest⟩
  dsimp only at rest
  rcases Table.run_control ran headRan with ⟨sameLast, sameFinal⟩
  rw [sameFinal, if_neg ended] at rest
  cases rest
  have effect := fun place action data after =>
    @HttpResponseParser.perform_chunk_view head.bytes place action data after
  have effectThere := fun place action data after =>
    @HttpResponseParser.perform_chunk_view (head.bytes ++ extra) place action data after
  have seen := Table.run_views effect head.plain ran (Nat.zero_add _).symm
  have seenThere := Table.run_views effectThere head.plain headRan
    (sameLast.trans (Nat.zero_add _).symm)
  have chunked : alone.parser.chunked = true := by
    have chunked := head.chunked
    rwa [parsed] at chunked
  have pending : alone.chunkView.2 = false := by
    rw [seen, HttpResponseParser.chunk_effect_done]
    rfl
  have view : between.chunkView = (true, false) := by
    rw [seenThere, ← seen, ← pending, ← chunked]
    rfl
  rw [same]
  refine ⟨sameLast, view, ?_⟩
  rw [parsed] at finished
  exact finished

theorem recv_chunks_never (config : HttpConfig) {clientParser : HttpClientParser}
    (pending : clientParser.chunksDone = false) (rounds : Nat) :
    ∀ (stream : SocketStream) (body held : Str) (parser : HttpResponseParser)
      (result : HttpResponseParser × Str) (after : SocketStream),
      recvChunks machine config clientParser rounds stream body held parser ≠
        .ok (some result, after) := by
  induction rounds with
  | zero =>
      intro stream body held parser result after received
      cases received
  | succ rounds induction =>
      intro stream body held parser result after received
      rw [recvChunks] at received
      rcases bind_eq_ok received with ⟨⟨size, between⟩, _, sized⟩
      cases size with
      | none => cases sized
      | some size =>
          rcases bind_eq_ok sized with ⟨⟨payload, last⟩, _, taken⟩
          cases payload with
          | none => cases taken
          | some payload =>
              dsimp only at taken
              rw [pending, if_neg Bool.false_ne_true] at taken
              exact induction last payload.1 payload.2 size.1 result after taken

theorem recv_chunked_head (config : HttpConfig) (head : ChunkedHead machine) {behind : Str}
    {stream after : SocketStream} (connected : stream.connected = true)
    (arrives : stream.incoming = head.bytes ++ behind)
    (first : head.bytes.length ≤ min (stream.ready 0 + 1) config.buffSize) {rounds : Nat}
    {parser : HttpResponseParser} {held : Str}
    (received : recvResponseHead machine config (rounds + 1) stream []
      (HttpResponseParser.new machine) = .ok (some (parser, held), after)) :
    parser.chunkView = (true, false) := by
  have total := congrArg List.length arrives
  rw [List.length_append] at total
  have enough : head.bytes.length ≤ stream.arriving config.buffSize := by
    rw [SocketStream.arriving]
    omega
  have bytes : stream.incoming.take (stream.arriving config.buffSize) =
      head.bytes ++ behind.take (stream.arriving config.buffSize - head.bytes.length) := by
    rw [arrives, List.take_append, List.take_of_length_le enough]
  rw [recvResponseHead, List.length_nil, Nat.sub_zero, SocketStream.read_open connected, bytes]
    at received
  dsimp only at received
  split at received
  · cases received
  · rcases bind_eq_ok received with ⟨⟨nparse, there⟩, executed, checked⟩
    rw [List.nil_append] at executed
    rcases execute_chunked_head head executed with ⟨_, view, finished⟩
    dsimp only at checked
    rw [finished] at checked
    split at checked
    · cases checked
    · split at checked
      · cases checked
      · cases checked
        exact view

/-- Whatever the chunks are and however they come, no response is returned. -/
theorem chunked_never_received (config : HttpConfig) (unzip : Unzip) (head : ChunkedHead machine)
    (chunks : List Str) (behind : Str) {stream : SocketStream} (connected : stream.connected = true)
    (arrives : stream.incoming = head.bytes ++ (encodeChunks chunks ++ behind))
    (first : head.bytes.length ≤ min (stream.ready 0 + 1) config.buffSize) :
    ¬ ReceivesChunks machine config unzip chunks behind stream := by
  intro receives
  rcases receives with ⟨response, after, received, _, _⟩
  rcases bind_eq_ok received with ⟨⟨result, between⟩, headReceived, rest⟩
  cases result with
  | none => cases rest
  | some result =>
      have view := recv_chunked_head config head connected arrives first headReceived
      have chunked : result.1.parser.chunked = true := congrArg Prod.fst view
      have pending : result.1.parser.chunksDone = false := congrArg Prod.snd view
      dsimp only at rest
      rw [if_pos chunked] at rest
      rcases bind_eq_ok rest with ⟨⟨body, last⟩, loop, finished⟩
      cases body with
      | none => cases finished
      | some body => exact recv_chunks_never config pending _ _ _ _ _ _ _ loop

def twoBytes : ChunkedHead chunkedForm where
  bytes := ascii "HTTP/1.1 200 OK\r\nTransfer-Encoding: chunked\r\n\r\n"
  parsed := {
    parser := {
      cs := 120
      bodyStart := 47
      contentLen := -1
      chunked := true
      chunksDone := false
      mark := 36
      fieldStart := 17
      fieldLen := 17 }
    data := {
      reason := ascii "OK"
      headers := [(ascii "Transfer-Encoding", ascii "chunked")] }
    error := 0 }
  accepted := by decide +kernel
  correct := by decide
  finished := by decide
  plain := by decide +kernel
  chunked := rfl

/-- The head in one read, and the chunk `hi` with the last chunk in the next. -/
def headThenChunks : SocketStream where
  connected := true
  incoming := twoBytes.bytes ++ (encodeChunks [ascii "hi"] ++ [])
  ready := fun place => if place = 0 then twoBytes.bytes.length - 1 else 100
  outgoing := []

theorem chunked_never_received_hi :
    ¬ ReceivesChunks chunkedForm defaultConfig ⟨id, id⟩ [ascii "hi"] [] headThenChunks :=
  chunked_never_received defaultConfig ⟨id, id⟩ twoBytes [ascii "hi"] [] rfl rfl
    (by decide +kernel)

/-- The copy still has the length -1 from behind the head, and appending so much throws. -/
theorem chunked_response_throws :
    ¬ ∀ (machine : HttpClientMachine) (config : HttpConfig) (unzip : Unzip)
      (head : ChunkedHead machine) (chunks : List Str) (behind : Str) (stream : SocketStream),
      (∀ chunk ∈ chunks, chunk ≠ []) → stream.connected = true →
      stream.incoming = head.bytes ++ (encodeChunks chunks ++ behind) →
      head.bytes.length ≤ min (stream.ready 0 + 1) config.buffSize →
      ReceivesChunks machine config unzip chunks behind stream := by
  intro always
  have thrown : faultOf (recvResponse chunkedForm defaultConfig ⟨id, id⟩ headThenChunks) =
      some (.thrown .lengthError) := by
    decide +kernel
  rcases always chunkedForm defaultConfig ⟨id, id⟩ twoBytes [ascii "hi"] [] headThenChunks
    (by decide) rfl rfl (by decide +kernel) with ⟨response, after, received, _, _⟩
  rw [received] at thrown
  cases thrown

end ChatServer.Http
