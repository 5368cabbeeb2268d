import ChatServer.Http.FixedBody
import ChatServer.Lib.Recorded

/-!
# The sizes of a body

`recvRequest` and `recvResponse` once more, with a record of every size that `body` is given.
-/

namespace ChatServer.Http

set_option autoImplicit false

open ChatServer.Http2 (HttpMessage)
open ScanTable Recorded

/-- The sizes that `body` is given by `resize` and `append`. -/
abbrev Growing (Value : Type) := Recorded Nat Fault Value

/-- `body.resize(length)` comes first, when there is a body. -/
def recvBodyRecorded (config : HttpConfig) (parser : HttpRequestParser) (held : Str)
    (stream : SocketStream) : Growing (Option HttpRequest × SocketStream) :=
  let length := int64 parser.getContentLength
  (quiet (recvBody config parser held stream)).after (if 0 < length then [length.toNat] else [])

def recvRequestRecorded (machine : HttpMachine) (config : HttpConfig) (queryStart : Nat)
    (stream : SocketStream) : Growing (Option HttpRequest × SocketStream) := do
  let (head, stream) ← quiet (recvHead machine config (stream.incoming.length + 1) stream []
    (HttpRequestParser.new machine queryStart))
  match head with
  | none => pure (none, stream)
  | some (parser, held) => recvBodyRecorded config parser held stream

def recvPlainBodyRecorded (config : HttpConfig) (parser : HttpResponseParser) (held : Str)
    (stream : SocketStream) : Growing (Option Str × SocketStream) :=
  let length := int64 parser.getContentLength
  (quiet (recvPlainBody config parser held stream)).after
    (if 0 < length then [length.toNat] else [])

def recvLeftRecorded (config : HttpConfig) :
    Nat → SocketStream → Str → Int → Growing (Option Str × SocketStream)
  | 0, stream, body, left =>
      quiet (if 0 < left then .error (.undefined .endlessLoop) else .ok (some body, stream))
  | rounds + 1, stream, body, left =>
      if 0 < left then
        let (bytes, stream) := stream.read (min left.toNat config.buffSize)
        if bytes.length = 0 then pure (none, stream.close)
        else
          .after [(body ++ bytes).length]
            (recvLeftRecorded config rounds stream (body ++ bytes) (left - bytes.length))
      else pure (some body, stream)

def recvPayloadRecorded (config : HttpConfig) (contentLen : Int) (stream : SocketStream)
    (body held : Str) : Growing (Option (Str × Str) × SocketStream) := do
  let whole ← quiet (checkedInt (contentLen + 2))
  if whole ≤ held.length then do
    let body ← quiet (appendData body held contentLen)
    .after [body.length] (pure (some (body, held.drop whole.toNat), stream))
  else
    .after [(body ++ held).length] do
      let left := contentLen - held.length + 2
      let (read, stream) ← recvLeftRecorded config left.toNat stream (body ++ held) left
      match read with
      | none => pure (none, stream)
      | some body => do
          let body ← quiet (dropCrlf body)
          .after [body.length] (pure (some (body, []), stream))

def recvChunksRecorded (machine : HttpClientMachine) (config : HttpConfig)
    (clientParser : HttpClientParser) :
    Nat → SocketStream → Str → Str → HttpResponseParser →
      Growing (Option (HttpResponseParser × Str) × SocketStream)
  | 0, _, _, _, _ => quiet (.error (.undefined .endlessLoop))
  | rounds + 1, stream, body, held, parser => do
      let (size, stream) ← quiet (recvChunkSize machine config (stream.incoming.length + 2) true
        stream held parser)
      match size with
      | none => pure (none, stream)
      | some (parser, held) => do
          let (payload, stream) ← recvPayloadRecorded config clientParser.contentLen stream body
            held
          match payload with
          | none => pure (none, stream)
          | some (body, held) =>
              if clientParser.chunksDone then pure (some (parser, body), stream)
              else recvChunksRecorded machine config clientParser rounds stream body held parser

def recvResponseRecorded (machine : HttpClientMachine) (config : HttpConfig) (unzip : Unzip)
    (stream : SocketStream) : Growing (Option HttpResponse × SocketStream) := do
  let (head, stream) ← quiet (recvResponseHead machine config (stream.incoming.length + 1) stream
    [] (HttpResponseParser.new machine))
  match head with
  | none => pure (none, stream)
  | some (parser, held) =>
      let clientParser := parser.parser
      if clientParser.chunked then do
        let (received, stream) ← recvChunksRecorded machine config clientParser
          (held.length + stream.incoming.length + 1) stream [] held parser
        match received with
        | none => pure (none, stream)
        | some (parser, body) => pure (some (finishResponse unzip parser.data body), stream)
      else do
        let (received, stream) ← recvPlainBodyRecorded config parser held stream
        match received with
        | none => pure (none, stream)
        | some body => pure (some (finishResponse unzip parser.data body), stream)

theorem result_recv_request (machine : HttpMachine) (config : HttpConfig) (queryStart : Nat)
    (stream : SocketStream) : (recvRequestRecorded machine config queryStart stream).result =
      recvRequest machine config queryStart stream := by
  rw [recvRequestRecorded, recvRequest, result_bind, result_quiet]
  apply bind_congr
  intro received
  rcases received with ⟨head, after⟩
  cases head with
  | none => rfl
  | some head =>
      dsimp only
      rw [recvBodyRecorded, result_after, result_quiet]

theorem result_recv_left (config : HttpConfig) (rounds : Nat) :
    ∀ (stream : SocketStream) (body : Str) (left : Int),
      (recvLeftRecorded config rounds stream body left).result =
        recvLeft config rounds stream body left := by
  induction rounds with
  | zero =>
      intro stream body left
      rfl
  | succ rounds induction =>
      intro stream body left
      rw [recvLeftRecorded, recvLeft]
      split
      · dsimp only
        split
        · rfl
        · rw [result_after, induction]
      · rfl

theorem result_recv_payload (config : HttpConfig) (contentLen : Int) (stream : SocketStream)
    (body held : Str) : (recvPayloadRecorded config contentLen stream body held).result =
      recvPayload config contentLen stream body held := by
  rw [recvPayloadRecorded, recvPayload, result_bind, result_quiet]
  apply bind_congr
  intro whole
  split
  · rw [result_bind, result_quiet]
    rfl
  · rw [result_after, result_bind, result_recv_left]
    apply bind_congr
    intro received
    rcases received with ⟨read, after⟩
    cases read with
    | none => rfl
    | some body =>
        dsimp only
        rw [result_bind, result_quiet]
        rfl

theorem result_recv_chunks (machine : HttpClientMachine) (config : HttpConfig)
    (clientParser : HttpClientParser) (rounds : Nat) :
    ∀ (stream : SocketStream) (body held : Str) (parser : HttpResponseParser),
      (recvChunksRecorded machine config clientParser rounds stream body held parser).result =
        recvChunks machine config clientParser rounds stream body held parser := by
  induction rounds with
  | zero =>
      intro stream body held parser
      rfl
  | succ rounds induction =>
      intro stream body held parser
      rw [recvChunksRecorded, recvChunks, result_bind, result_quiet]
      apply bind_congr
      intro received
      rcases received with ⟨size, between⟩
      cases size with
      | none => rfl
      | some size =>
          dsimp only
          rw [result_bind, result_recv_payload]
          apply bind_congr
          intro taken
          rcases taken with ⟨payload, after⟩
          cases payload with
          | none => rfl
          | some payload =>
              dsimp only
              split
              · rfl
              · rw [induction]

theorem result_recv_response (machine : HttpClientMachine) (config : HttpConfig) (unzip : Unzip)
    (stream : SocketStream) : (recvResponseRecorded machine config unzip stream).result =
      recvResponse machine config unzip stream := by
  rw [recvResponseRecorded, recvResponse, result_bind, result_quiet]
  apply bind_congr
  intro received
  rcases received with ⟨head, between⟩
  cases head with
  | none => rfl
  | some head =>
      dsimp only
      split
      · rw [result_bind, result_recv_chunks]
        apply bind_congr
        intro taken
        rcases taken with ⟨body, after⟩
        cases body with
        | none => rfl
        | some body => rfl
      · rw [result_bind, recvPlainBodyRecorded, result_after, result_quiet]
        apply bind_congr
        intro taken
        rcases taken with ⟨body, after⟩
        cases body with
        | none => rfl
        | some body => rfl

theorem set_header_body (message : HttpMessage) (key val : Str) :
    (message.setHeader key val).body = message.body := by
  rw [HttpMessage.setHeader]
  split
  · rfl
  · rfl

theorem perform_request_body {buffer : Str} {fpc : Nat} {action : RequestAction}
    {self after : HttpRequestParser} (performed : self.perform buffer fpc action = .ok after) :
    after.data.body = self.data.body := by
  cases action with
  | mark | startField | writeField | startValue | requestUri | startQuery | xml | json =>
      cases performed
      rfl
  | fragment | queryString | requestPath =>
      rcases bind_eq_ok performed with ⟨text, _, stored⟩
      cases stored
      rfl
  | writeValue =>
      rw [HttpRequestParser.perform, HttpRequestParser.onRequestHttpField] at performed
      split at performed
      · cases performed
        rfl
      · rcases bind_eq_ok performed with ⟨name, _, more⟩
        rcases bind_eq_ok more with ⟨text, _, stored⟩
        cases stored
        exact set_header_body _ _ _
  | requestMethod =>
      cases performed
      rw [HttpRequestParser.onRequestMethod]
      split
      · rfl
      · rfl
  | httpVersion =>
      cases performed
      rw [HttpRequestParser.onRequestVersion]
      split
      · rfl
      · split
        · rfl
        · rfl
  | done =>
      rw [HttpRequestParser.perform] at performed
      split at performed
      · cases performed
        rfl
      · cases performed
        rfl

theorem perform_response_body {buffer : Str} {fpc : Nat} {action : ResponseAction}
    {self after : HttpResponseParser} (performed : self.perform buffer fpc action = .ok after) :
    after.data.body = self.data.body := by
  cases action with
  | mark | startField | writeField | startValue | writeContentLen | writeConnectionClose
  | statusCode | chunkSize | transChunked | done =>
      cases performed
      rfl
  | reasonPhrase =>
      rcases bind_eq_ok performed with ⟨text, _, stored⟩
      cases stored
      rfl
  | writeValue =>
      rw [HttpResponseParser.perform, HttpResponseParser.onResponseHttpField] at performed
      split at performed
      · cases performed
        rfl
      · rcases bind_eq_ok performed with ⟨name, _, more⟩
        rcases bind_eq_ok more with ⟨text, _, stored⟩
        cases stored
        exact set_header_body _ _ _
  | httpVersion =>
      cases performed
      rw [HttpResponseParser.onResponseVersion]
      split
      · rfl
      · split
        · rfl
        · rfl

theorem execute_request_body {machine : HttpMachine} {self after : HttpRequestParser}
    {buffer : Str} {nread : Nat} (executed : self.execute machine buffer = .ok (nread, after)) :
    after.data.body = self.data.body := by
  rw [HttpRequestParser.execute] at executed
  split at executed
  · cases executed
    rfl
  · rcases bind_eq_ok executed with ⟨⟨place, state, between⟩, ran, checked⟩
    have kept := Table.run_keeps (fun _ data => data.data.body = self.data.body) (fun _ _ => id)
      (fun _ _ _ _ same performed => (perform_request_body performed).trans same) rfl ran
    dsimp only at checked
    generalize same : (if self.parser.cs = machine.table.error then between
      else { between with parser.cs := state }) = final at checked
    split at checked
    · cases checked
      rw [← same]
      split
      · exact kept
      · exact kept
    · cases checked

theorem execute_response_body {machine : HttpClientMachine} {self after : HttpResponseParser}
    {buffer : Str} {chunck : Bool} {nread : Nat}
    (executed : self.execute machine buffer chunck = .ok (nread, after)) :
    after.data.body = self.data.body := by
  rcases bind_eq_ok executed with ⟨⟨place, state, between⟩, ran, checked⟩
  have began : (if chunck then { self with parser := HttpResponseParser.init machine }
      else self).cleared.data.body = self.data.body := by
    split
    · rfl
    · rfl
  have kept := Table.run_keeps (fun _ data => data.data.body = self.data.body) (fun _ _ => id)
    (fun _ _ _ _ same performed => (perform_response_body performed).trans same) began ran
  dsimp only at checked
  split at checked
  · split at checked
    · cases checked
      exact kept
    · cases checked
  · cases checked

theorem read_connected (stream : SocketStream) (length : Nat) :
    (stream.read length).2.connected = stream.connected := by
  rw [SocketStream.read]
  split
  · rfl
  · rfl

/-- A read that brought something was made on a connection, for at least one byte. -/
theorem read_some {stream : SocketStream} {length : Nat}
    (some : (stream.read length).1.length ≠ 0) : stream.connected = true ∧ 0 < length := by
  rw [SocketStream.read] at some
  split at some
  · rename_i connected
    rw [List.length_take] at some
    have most := stream.arriving_le length
    exact ⟨connected, by omega⟩
  · exact absurd rfl some

theorem recv_head_body {machine : HttpMachine} {config : HttpConfig} (rounds : Nat) :
    ∀ {stream after : SocketStream} {held behind : Str} {self parser : HttpRequestParser},
      recvHead machine config rounds stream held self = .ok (some (parser, behind), after) →
      parser.data.body = self.data.body := by
  induction rounds with
  | zero =>
      intro stream after held behind self parser received
      cases received
  | succ rounds induction =>
      intro stream after held behind self parser received
      rw [recvHead] at received
      dsimp only at received
      split at received
      · cases received
      · rcases bind_eq_ok received with ⟨⟨nparse, between⟩, executed, checked⟩
        have kept := execute_request_body executed
        dsimp only at checked
        split at checked
        · cases checked
        · split at checked
          · cases checked
          · split at checked
            · cases checked
              exact kept
            · exact (induction checked).trans kept

theorem recv_response_head_left {machine : HttpClientMachine} {config : HttpConfig} (rounds : Nat) :
    ∀ {stream after : SocketStream} {held behind : Str} {self parser : HttpResponseParser},
      recvResponseHead machine config rounds stream held self =
        .ok (some (parser, behind), after) →
      parser.data.body = self.data.body ∧ after.connected = true ∧ 0 < config.buffSize := by
  induction rounds with
  | zero =>
      intro stream after held behind self parser received
      cases received
  | succ rounds induction =>
      intro stream after held behind self parser received
      rw [recvResponseHead] at received
      dsimp only at received
      split at received
      · cases received
      · rename_i some
        have read := read_some some
        rcases bind_eq_ok received with ⟨⟨nparse, between⟩, executed, checked⟩
        have kept := execute_response_body executed
        dsimp only at checked
        split at checked
        · cases checked
        · split at checked
          · cases checked
          · split at checked
            · cases checked
              exact ⟨kept, (read_connected stream _).trans read.1, by omega⟩
            · have later := induction checked
              exact ⟨later.1.trans kept, later.2⟩

theorem recv_chunk_size_left {machine : HttpClientMachine} {config : HttpConfig} (rounds : Nat) :
    ∀ {begin_ : Bool} {stream after : SocketStream} {held behind : Str}
      {self parser : HttpResponseParser},
      recvChunkSize machine config rounds begin_ stream held self =
        .ok (some (parser, behind), after) →
      parser.data.body = self.data.body ∧ after.connected = stream.connected := by
  induction rounds with
  | zero =>
      intro begin_ stream after held behind self parser received
      cases received
  | succ rounds induction =>
      intro begin_ stream after held behind self parser received
      have still : (if (!begin_ || decide (held.length = 0)) = true then
          stream.read (config.buffSize - held.length) else ([], stream)).2.connected =
            stream.connected := by
        split
        · exact read_connected stream _
        · rfl
      rw [recvChunkSize] at received
      generalize (if (!begin_ || decide (held.length = 0)) = true then
        stream.read (config.buffSize - held.length) else ([], stream)) = taken at still received
      rcases taken with ⟨bytes, next⟩
      dsimp only at still received
      split at received
      · cases received
      · rcases bind_eq_ok received with ⟨⟨nparse, between⟩, executed, checked⟩
        have kept := execute_response_body executed
        dsimp only at checked
        split at checked
        · cases checked
        · split at checked
          · cases checked
          · split at checked
            · cases checked
              exact ⟨kept, still⟩
            · have later := induction checked
              exact ⟨later.1.trans kept, later.2.trans still⟩

end ChatServer.Http
