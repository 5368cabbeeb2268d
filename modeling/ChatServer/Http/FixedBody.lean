import ChatServer.Http.HttpConnection
import ChatServer.Http.KeepAlive

/-!
# Bodies of an announced length

A body comes in two parts, what the read of the head brought with it and what `readFixSize` takes
from the stream behind that.
-/

namespace ChatServer.Http

set_option autoImplicit false

open ChatServer.Http2 (HttpMessage ascii sameKey)
open ChatServer.Streams (Zlib ZlibStream)
open ScanTable

/-- The head of a response that is not chunked, as the parser takes it alone in one buffer. -/
structure PlainHead (machine : HttpClientMachine) where
  bytes : Str
  parsed : HttpResponseParser
  accepted : (HttpResponseParser.new machine).execute machine bytes false =
    .ok (bytes.length, parsed)
  correct : parsed.hasError machine = false
  finished : parsed.isFinished machine = true
  unchunked : parsed.parser.chunked = false

/-- Two parsers that stand at one place of a head, the second with more in its buffer. Numbers
that `strtol` reads may differ, it does not stop at the end of a token. -/
structure Beside (place : Nat) (alone there : HttpResponseParser) : Prop where
  mark : there.parser.mark = alone.parser.mark
  marked : alone.parser.mark ≤ place
  fieldStart : there.parser.fieldStart = alone.parser.fieldStart
  fieldLen : there.parser.fieldLen = alone.parser.fieldLen
  bodyStart : there.parser.bodyStart = alone.parser.bodyStart
  chunked : there.parser.chunked = alone.parser.chunked
  headers : there.data.headers = alone.data.headers
  error : there.error = alone.error

variable {front extra : Str} {place : Nat} {alone there : HttpResponseParser}

theorem beside_moved (beside : Beside place alone there) : Beside (place + 1) alone there :=
  { beside with marked := Nat.le_succ_of_le beside.marked }

theorem string_at_more (extra : Str) {start : Nat} {length : Int} {text : Str}
    (read : stringAt (front.drop start) length = .ok text) :
    stringAt ((front ++ extra).drop start) length = .ok text := by
  rw [stringAt] at read
  split at read
  · cases read
  · split at read
    · cases read
    · rename_i nonneg long
      cases read
      have more : ¬ ((front ++ extra).drop start).length < length.toNat := by
        rw [List.length_drop, List.length_append]
        rw [List.length_drop] at long
        omega
      rw [stringAt, if_neg nonneg, if_neg more]
      by_cases inside : start ≤ front.length
      · rw [List.drop_append_of_le_length inside,
          List.take_append_of_le_length (Nat.not_lt.mp long)]
      · have none : length.toNat = 0 := by
          rw [List.length_drop] at long
          omega
        rw [none, List.take_zero, List.take_zero]

theorem strncmp_more (extra literal : Str) {start : Nat} {length : Int} (nonneg : 0 ≤ length)
    (inside : start + length ≤ front.length) :
    strncmpEq ((front ++ extra).drop start) literal length =
      strncmpEq (front.drop start) literal length := by
  have agrees : Agrees front (front ++ extra) 0 front.length := by
    constructor
    · rw [List.drop_zero, List.take_length, List.take_left]
    · rw [Nat.zero_add]
    · rw [List.length_append]
      omega
  have same := agrees_strncmp agrees inside nonneg literal
  rw [Nat.zero_add] at same
  exact same.symm

theorem on_version_beside (inside : place < front.length) (beside : Beside place alone there) :
    Beside place
      (alone.onResponseVersion (front.drop alone.parser.mark) (place - alone.parser.mark))
      (there.onResponseVersion ((front ++ extra).drop there.parser.mark)
        (place - there.parser.mark)) := by
  have marked := beside.marked
  have same : ∀ literal, strncmpEq ((front ++ extra).drop there.parser.mark) literal
      (place - there.parser.mark : Int) =
        strncmpEq (front.drop alone.parser.mark) literal (place - alone.parser.mark : Int) := by
    intro literal
    rw [beside.mark]
    exact strncmp_more extra literal (by omega) (by omega)
  rw [HttpResponseParser.onResponseVersion, HttpResponseParser.onResponseVersion, same, same]
  split
  · exact { beside with }
  · split
    · exact { beside with }
    · exact { beside with error := rfl }

theorem on_field_beside (beside : Beside place alone there) {alone' : HttpResponseParser}
    (told : alone.onResponseHttpField (front.drop alone.parser.fieldStart) alone.parser.fieldLen
      (front.drop alone.parser.mark) (place - alone.parser.mark) = .ok alone') :
    ∃ there', there.onResponseHttpField ((front ++ extra).drop there.parser.fieldStart)
        there.parser.fieldLen ((front ++ extra).drop there.parser.mark)
        (place - there.parser.mark) = .ok there' ∧ Beside place alone' there' := by
  rw [HttpResponseParser.onResponseHttpField] at told
  rw [HttpResponseParser.onResponseHttpField, beside.fieldStart, beside.fieldLen, beside.mark]
  by_cases empty : alone.parser.fieldLen = 0
  · rw [if_pos empty] at told ⊢
    cases told
    exact ⟨there, rfl, beside⟩
  · rw [if_neg empty] at told ⊢
    rcases bind_eq_ok told with ⟨name, readName, more⟩
    rcases bind_eq_ok more with ⟨text, readText, stored⟩
    cases stored
    rw [string_at_more extra readName, bind_ok, string_at_more extra readText, bind_ok]
    refine ⟨_, rfl, { beside with headers := ?_ }⟩
    simp only [HttpMessage.setHeader, beside.headers]
    split
    · rfl
    · rfl

theorem perform_beside {action : ResponseAction} (inside : place < front.length)
    (beside : Beside place alone there) {alone' : HttpResponseParser}
    (performed : alone.perform front place action = .ok alone') :
    ∃ there', there.perform (front ++ extra) place action = .ok there' ∧
      Beside place alone' there' := by
  cases action with
  | mark | startValue =>
      cases performed
      exact ⟨_, rfl, { beside with mark := rfl, marked := Nat.le_refl _ }⟩
  | startField =>
      cases performed
      exact ⟨_, rfl, { beside with fieldStart := rfl }⟩
  | writeField =>
      cases performed
      refine ⟨_, rfl, { beside with fieldLen := ?_ }⟩
      simp only [beside.fieldStart]
  | writeContentLen | statusCode =>
      cases performed
      exact ⟨_, rfl, { beside with }⟩
  | writeConnectionClose =>
      cases performed
      exact ⟨_, rfl, beside⟩
  | writeValue => exact on_field_beside beside performed
  | reasonPhrase =>
      rcases bind_eq_ok performed with ⟨text, read, stored⟩
      cases stored
      rw [HttpResponseParser.perform, HttpResponseParser.onResponseReason, beside.mark,
        string_at_more extra read, bind_ok]
      exact ⟨_, rfl, { beside with }⟩
  | httpVersion =>
      cases performed
      exact ⟨_, rfl, on_version_beside inside beside⟩
  | chunkSize | transChunked =>
      cases performed
      exact ⟨_, rfl, { beside with chunked := rfl }⟩
  | done =>
      cases performed
      exact ⟨_, rfl, { beside with bodyStart := rfl }⟩

/-- The run over a head goes the same way with more in the buffer. -/
theorem run_beside {machine : HttpClientMachine} {bytes : Str} (extra : Str)
    {self alone : HttpResponseParser} {state last final : Nat} (together : Beside 0 self self)
    (ran : machine.table.run ResponseAction.breaks (HttpResponseParser.perform bytes) 0 state bytes
      self = .ok (last, final, alone)) :
    ∃ there, machine.table.run ResponseAction.breaks
        (HttpResponseParser.perform (bytes ++ extra)) 0 state bytes self =
          .ok (last, final, there) ∧ Beside last alone there := by
  have step : ∀ (row : Row ResponseAction) (place : Nat) (byte : UInt8) (action : ResponseAction)
      (known further : Unit) (whole whole' part : HttpResponseParser),
      row ∈ machine.table.rows → row.first ≤ byte → byte ≤ row.last →
      bytes[place]? = some byte → action ∈ row.actions →
      (fun _ _ => some ()) known action = some further → Beside place whole part →
      HttpResponseParser.perform bytes (0 + place) action whole = .ok whole' →
      ∃ part', HttpResponseParser.perform (bytes ++ extra) place action part = .ok part' ∧
        Beside place whole' part' := by
    intro row place byte action _ _ whole whole' part _ _ _ stands _ _ beside performed
    rw [Nat.zero_add] at performed
    exact perform_beside (List.getElem?_eq_some_iff.mp stands).1 beside performed
  have stands : ∀ (index : Nat) (byte : UInt8), bytes[index]? = some byte →
      bytes[0 + index]? = some byte := by
    intro index byte found
    rw [Nat.zero_add]
    exact found
  have moved : ∀ (place : Nat) (_ : Unit) (whole part : HttpResponseParser),
      Beside place whole part → Beside (place + 1) whole part := fun _ _ _ _ => beside_moved
  -- nothing has to be tracked, the buffers begin at one place
  have tracked : (machine.table.trace state bytes).flatten.foldlM (fun _ _ => some ()) () =
      some () := by
    generalize (machine.table.trace state bytes).flatten = actions
    induction actions with
    | nil => rfl
    | cons action actions induction => exact induction
  rcases Table.run_simulates moved step stands tracked together ran with
    ⟨there, between, _, longRan, same, beside⟩
  rw [Nat.zero_add] at same
  rw [← same] at longRan beside
  exact ⟨between, longRan, beside⟩

theorem execute_inside {machine : HttpClientMachine} {self after : HttpResponseParser}
    {buffer : Str} {nread : Nat}
    (executed : self.execute machine buffer false = .ok (nread, after)) :
    after.parser.bodyStart ≤ buffer.length ∧ after.parser.mark < buffer.length ∧
      (0 ≤ after.parser.fieldLen ∧ after.parser.fieldLen ≤ (buffer.length : Int)) ∧
      after.parser.fieldStart < buffer.length := by
  rcases bind_eq_ok executed with ⟨⟨place, state, between⟩, _, checked⟩
  dsimp only at checked
  split at checked
  · rename_i body
    split at checked
    · rename_i rest
      cases checked
      exact ⟨body, rest⟩
    · cases checked
  · cases checked

/-- The head in a buffer with more behind it: the parser stops behind the head and has read the
same headers. -/
theorem execute_plain_head {machine : HttpClientMachine} (head : PlainHead machine) (extra : Str) :
    ∃ parser, (HttpResponseParser.new machine).execute machine (head.bytes ++ extra) false =
        .ok (head.bytes.length, parser) ∧ parser.hasError machine = false ∧
      parser.isFinished machine = true ∧ parser.parser.chunked = false ∧
      parser.data.headers = head.parsed.data.headers := by
  have start : machine.table.Live (HttpResponseParser.new machine).parser.cs := machine.sound.start
  rcases HttpResponseParser.execute_cases head.accepted with ⟨final, alone, parsed, ran⟩
  have inside := execute_inside head.accepted
  have finished := head.finished
  have correct := head.correct
  have unchunked := head.unchunked
  rw [parsed] at inside finished correct unchunked
  have ended : ¬ machine.table.Live final := by
    intro live
    simp [HttpResponseParser.isFinished, HttpResponseParser.parserHasError, live.1,
      Nat.ne_of_lt live.2] at finished
  rcases run_beside extra ⟨rfl, Nat.le_refl _, rfl, rfl, rfl, rfl, rfl, rfl⟩ ran with
    ⟨between, longRan, beside⟩
  have whole : machine.table.run ResponseAction.breaks
      (HttpResponseParser.perform (head.bytes ++ extra)) 0
      (HttpResponseParser.new machine).parser.cs (head.bytes ++ extra)
      (HttpResponseParser.new machine).cleared = .ok (head.bytes.length, final, between) := by
    rw [Table.run_append machine.sound start, longRan, bind_ok]
    exact if_neg ended
  refine ⟨{ between with parser.cs := final }, ?_, ?_, finished, ?_, ?_⟩
  · have length : head.bytes.length ≤ (head.bytes ++ extra).length := by
      rw [List.length_append]
      omega
    have kept : between.parser.bodyStart ≤ (head.bytes ++ extra).length ∧
        between.parser.mark < (head.bytes ++ extra).length ∧
        (0 ≤ between.parser.fieldLen ∧
          between.parser.fieldLen ≤ ((head.bytes ++ extra).length : Int)) ∧
        between.parser.fieldStart < (head.bytes ++ extra).length := by
      rw [beside.bodyStart, beside.mark, beside.fieldLen, beside.fieldStart]
      dsimp only at inside
      omega
    rw [HttpResponseParser.execute]
    simp only [Bool.false_eq_true, if_false]
    rw [whole, bind_ok]
    dsimp only
    rw [if_pos kept.1, if_pos kept.2]
  · rw [HttpResponseParser.hasError] at correct ⊢
    rw [beside.error]
    exact correct
  · rw [beside.chunked]
    exact unchunked
  · rw [parsed, beside.headers]

theorem body_cut {held rest body behind : Str} (whole : held ++ rest = body ++ behind) :
    (body.length ≤ held.length ∧ held.take body.length = body) ∨
      ∃ left, 0 < left ∧ body.length = held.length + left ∧ left ≤ rest.length ∧
        held ++ rest.take left = body := by
  have total := congrArg List.length whole
  rw [List.length_append, List.length_append] at total
  by_cases inside : body.length ≤ held.length
  · have front := congrArg (List.take body.length) whole
    rw [List.take_append_of_le_length inside, List.take_left] at front
    exact Or.inl ⟨inside, front⟩
  · refine Or.inr ⟨body.length - held.length, by omega, by omega, by omega, ?_⟩
    have front := congrArg (List.take body.length) whole
    rw [List.take_left, List.take_append, List.take_of_length_le (by omega)] at front
    exact front

/-- The bytes of a message whose head lies within the first read. -/
structure HeadFirst (config : HttpConfig) (stream : SocketStream) (head behind : Str) : Prop where
  connected : stream.connected = true
  arrives : stream.incoming = head ++ behind
  whole : head.length ≤ min (stream.ready 0 + 1) config.buffSize

theorem HeadFirst.reads {config : HttpConfig} {stream : SocketStream} {head behind : Str}
    (first : HeadFirst config stream head behind) :
    head.length ≤ stream.arriving config.buffSize ∧
      stream.arriving config.buffSize ≤ config.buffSize ∧
      stream.incoming.take (stream.arriving config.buffSize) =
        head ++ behind.take (stream.arriving config.buffSize - head.length) ∧
      stream.incoming.drop (stream.arriving config.buffSize) =
        behind.drop (stream.arriving config.buffSize - head.length) := by
  have total := congrArg List.length first.arrives
  have whole := first.whole
  rw [List.length_append] at total
  have enough : head.length ≤ stream.arriving config.buffSize := by
    rw [SocketStream.arriving]
    omega
  refine ⟨enough, (stream.arriving_le config.buffSize).1, ?_, ?_⟩
  · rw [first.arrives, List.take_append, List.take_of_length_le enough]
  · rw [first.arrives, List.drop_append, List.drop_eq_nil_of_le enough, List.nil_append]

theorem recv_response_first {machine : HttpClientMachine} (config : HttpConfig)
    (head : PlainHead machine) {stream : SocketStream} {behind : Str}
    (first : HeadFirst config stream head.bytes behind) (rounds : Nat) :
    ∃ parser, recvResponseHead machine config (rounds + 1) stream []
        (HttpResponseParser.new machine) =
          .ok (some (parser, behind.take (stream.arriving config.buffSize - head.bytes.length)),
            stream.advance (stream.arriving config.buffSize)) ∧
      parser.parser.chunked = false ∧ parser.data.headers = head.parsed.data.headers := by
  rcases first.reads with ⟨enough, most, bytes, _⟩
  have some := (execute_inside head.accepted).2.1
  rcases execute_plain_head head
      (behind.take (stream.arriving config.buffSize - head.bytes.length)) with
    ⟨parser, executed, correct, finished, unchunked, headers⟩
  refine ⟨parser, ?_, unchunked, headers⟩
  have there : (head.bytes ++ behind.take
      (stream.arriving config.buffSize - head.bytes.length)).length ≠ 0 := by
    rw [List.length_append]
    omega
  have room : (behind.take (stream.arriving config.buffSize - head.bytes.length)).length ≠
      config.buffSize := by
    have short := List.length_take_le (stream.arriving config.buffSize - head.bytes.length) behind
    omega
  rw [recvResponseHead, List.length_nil, Nat.sub_zero, SocketStream.read_open first.connected,
    bytes]
  dsimp only
  rw [if_neg there, List.nil_append, executed, bind_ok]
  dsimp only
  rw [List.drop_left, correct, finished, if_neg Bool.false_ne_true, if_neg room, if_pos rfl]

theorem body_init (request : HttpRequest) : request.init.body = request.body := by
  rw [HttpRequest.init]
  split
  · rfl
  · rfl

theorem recv_body_whole (config : HttpConfig) {parser : HttpRequestParser} {held body behind : Str}
    {stream : SocketStream} (connected : stream.connected = true)
    (announced : parser.getContentLength = body.length) (some : 0 < body.length)
    (small : body.length < 2 ^ 31) (whole : held ++ stream.incoming = body ++ behind) :
    ∃ request after, recvBody config parser held stream = .ok (Option.some request, after) ∧
      request.body = body := by
  have length : int64 parser.getContentLength = body.length := by
    rw [announced, int64_small (by omega)]
  rcases body_cut whole with ⟨inside, front⟩ | ⟨left, more, sum, there, together⟩
  · rcases recv_body_held config parser held stream (by omega) with ⟨outgoing, received⟩
    refine ⟨_, _, received, ?_⟩
    rw [if_pos (by omega), length, Int.toNat_natCast, front, body_init]
    rfl
  · rcases recv_body_left config parser held stream left connected more (by omega) there with
      ⟨outgoing, received⟩
    rw [int32_of_small (by omega), if_neg (by omega), together] at received
    exact ⟨_, _, received, body_init _⟩

theorem recv_plain_body_whole (config : HttpConfig) {parser : HttpResponseParser}
    {held body behind : Str} {stream : SocketStream} (connected : stream.connected = true)
    (announced : parser.getContentLength = body.length) (some : 0 < body.length)
    (small : body.length < 2 ^ 31) (whole : held ++ stream.incoming = body ++ behind) :
    ∃ after, recvPlainBody config parser held stream = .ok (Option.some body, after) := by
  have length : int64 parser.getContentLength = body.length := by
    rw [announced, int64_small (by omega)]
  rw [recvPlainBody]
  dsimp only
  rw [length, if_pos (by omega), Int.toNat_natCast]
  rcases body_cut whole with ⟨inside, front⟩ | ⟨left, more, sum, there, together⟩
  · rw [if_neg (by omega), front]
    exact ⟨stream, rfl⟩
  · have rest : ((body.length : Int) - held.length).toNat = left := by omega
    have positive : ¬ int32 (left : Int) ≤ 0 := by
      rw [int32_of_small (by omega)]
      omega
    rw [if_pos (by omega), rest, SocketStream.read_fix_size_takes config connected there, bind_ok]
    dsimp only
    rw [if_neg positive, List.take_of_length_le (by omega), together]
    exact ⟨_, rfl⟩

def decoded (unzip : Unzip) (coding body : Str) : Str :=
  if sameKey coding (ascii "gzip") then unzip.gzip body
  else if sameKey coding (ascii "deflate") then unzip.deflate body
  else body

theorem finish_response_body (unzip : Unzip) (response : HttpResponse) {body : Str}
    (some : body ≠ []) : (finishResponse unzip response body).body =
      decoded unzip (response.getHeader (ascii "content-encoding")) body := by
  have kept : ∀ response : HttpResponse, response.initConnection.body = response.body := by
    intro response
    rw [HttpResponse.initConnection]
    split
    · rfl
    · rfl
  rw [finishResponse, if_neg some]
  exact kept _

theorem unzip_by_packed {State : Type} {zlib : Zlib State} {packs : Str → Str → Prop}
    (inflates : ZlibStream.Inflates zlib packs) {data packed : Str} (packing : packs data packed)
    (short : packed.length < 2 ^ 32) :
    ∃ enough, ∀ rounds, enough ≤ rounds → unzipBy zlib rounds packed = data := by
  obtain ⟨enough, converts⟩ := ZlibStream.convert_inflates inflates packing short
  refine ⟨enough, ?_⟩
  intro rounds many
  rw [unzipBy, converts rounds many]
  rfl

/-- With what the manual promises of zlib, a body that came compressed is decoded to its data. -/
theorem packed_body_decoded {Gzip Deflate : Type} {gzip : Zlib Gzip} {deflate : Zlib Deflate}
    {gzipped deflated : Str → Str → Prop} (gzips : ZlibStream.Inflates gzip gzipped)
    (deflates : ZlibStream.Inflates deflate deflated) {data packed : Str}
    (short : packed.length < 2 ^ 32) :
    (gzipped data packed → ∃ enough, ∀ rounds, enough ≤ rounds → ∀ coding,
      sameKey coding (ascii "gzip") = true →
        decoded (.ofZlib gzip deflate rounds) coding packed = data) ∧
    (deflated data packed → ∃ enough, ∀ rounds, enough ≤ rounds → ∀ coding,
      sameKey coding (ascii "gzip") = false → sameKey coding (ascii "deflate") = true →
        decoded (.ofZlib gzip deflate rounds) coding packed = data) := by
  constructor
  · intro packing
    obtain ⟨enough, unzips⟩ := unzip_by_packed gzips packing short
    refine ⟨enough, ?_⟩
    intro rounds many coding named
    rw [decoded, if_pos named]
    exact unzips rounds many
  · intro packing
    obtain ⟨enough, unzips⟩ := unzip_by_packed deflates packing short
    refine ⟨enough, ?_⟩
    intro rounds many coding other named
    rw [decoded, other, if_neg Bool.false_ne_true, if_pos named]
    exact unzips rounds many

/-- A request and a response whose head came with the first read have the announced bytes as their
body, wherever the reads cut them. -/
theorem fixed_body_received (config : HttpConfig) (body behind : Str) (some : 0 < body.length)
    (small : body.length < 2 ^ 31) :
    (∀ (machine : HttpMachine) (head : RequestHead machine) (queryStart : Nat)
      (stream : SocketStream), HeadFirst config stream head.bytes (body ++ behind) →
      head.parsed.getContentLength = body.length →
      ∃ request after, recvRequest machine config queryStart stream =
        .ok (Option.some request, after) ∧ request.body = body) ∧
    ∀ (machine : HttpClientMachine) (head : PlainHead machine) (unzip : Unzip)
      (stream : SocketStream), HeadFirst config stream head.bytes (body ++ behind) →
      head.parsed.getContentLength = body.length →
      ∃ response after, recvResponse machine config unzip stream =
        .ok (Option.some response, after) ∧ response.body =
          decoded unzip (head.parsed.data.getHeader (ascii "content-encoding")) body := by
  constructor
  · intro machine head queryStart stream first announced
    have connected : (stream.advance (stream.arriving config.buffSize)).connected = true :=
      first.connected
    have cut : (body ++ behind).take (stream.arriving config.buffSize - head.bytes.length) ++
        (stream.advance (stream.arriving config.buffSize)).incoming = body ++ behind := by
      rw [SocketStream.advance_incoming, first.reads.2.2.2, List.take_append_drop]
    rw [recv_request_first config head queryStart first.connected first.arrives first.whole]
    exact recv_body_whole config connected announced some small cut
  · intro machine head unzip stream first announced
    rcases recv_response_first config head first stream.incoming.length with
      ⟨parser, received, unchunked, headers⟩
    have find : ∀ key, parser.data.toHttpMessage.find key =
        head.parsed.data.toHttpMessage.find key := by
      intro key
      rw [HttpMessage.find, headers]
      rfl
    have length : parser.getContentLength = body.length := by
      rw [HttpResponseParser.getContentLength, find]
      exact announced
    have cut : (body ++ behind).take (stream.arriving config.buffSize - head.bytes.length) ++
        (stream.advance (stream.arriving config.buffSize)).incoming = body ++ behind := by
      rw [SocketStream.advance_incoming, first.reads.2.2.2, List.take_append_drop]
    have connected : (stream.advance (stream.arriving config.buffSize)).connected = true :=
      first.connected
    rcases recv_plain_body_whole config connected length some small cut with
      ⟨after, plain⟩
    refine ⟨finishResponse unzip parser.data body, after, ?_, ?_⟩
    · rw [recvResponse, received, bind_ok]
      dsimp only
      rw [unchunked, if_neg Bool.false_ne_true, plain, bind_ok]
    · rw [finish_response_body unzip parser.data (List.length_pos_iff.mp some),
        HttpResponse.getHeader, find]
      rfl

def lengthForm : HttpClientMachine where
  table := {
    rows := chunkedRows ++ [
        responseRow 20 'C' 'C' [.startField] 25,
        responseRow 27 't' 't' [] 101,
        responseRow 111 ':' ':' [.writeField] 112,
        responseRow 112 ' ' ' ' [.startValue] 112,
        responseRow 112 '0' '9' [.startValue] 119,
        responseRow 119 '0' '9' [] 119,
        responseRow 119 '\r' '\r' [.writeContentLen, .writeValue] 24] ++
      spelled 25 "on" ++ spelled 101 "ent-Length"
    start := 1
    error := 0
    firstFinal := 120 }
  sound := ⟨by decide, by decide +kernel, by decide +kernel⟩

def threeBytes : PlainHead lengthForm where
  bytes := ascii "HTTP/1.1 200 OK\r\nContent-Length: 3\r\n\r\n"
  parsed := {
    parser := {
      cs := 120
      bodyStart := 38
      contentLen := 3
      chunked := false
      chunksDone := false
      mark := 33
      fieldStart := 17
      fieldLen := 14 }
    data := {
      reason := ascii "OK"
      headers := [(ascii "Content-Length", ascii "3")] }
    error := 0 }
  accepted := by decide +kernel
  correct := by decide
  finished := by decide
  unchunked := rfl

/-- The first read ends behind one byte of the body, the reads after it bring a byte each. -/
def byteByByte (head : Str) : SocketStream where
  connected := true
  incoming := head ++ ascii "abc"
  ready := fun place => if place = 0 then head.length else 0
  outgoing := []

theorem fixed_body_received_abc :
    (∃ request after, recvRequest originForm defaultConfig 0 (byteByByte putHead.bytes) =
      .ok (some request, after) ∧ request.body = ascii "abc") ∧
    ∃ response after, recvResponse lengthForm defaultConfig ⟨id, id⟩
      (byteByByte threeBytes.bytes) = .ok (some response, after) ∧
        response.body = ascii "abc" := by
  have received := fixed_body_received defaultConfig (ascii "abc") [] (by decide) (by decide)
  constructor
  · exact received.1 originForm putHead 0 (byteByByte putHead.bytes)
      ⟨rfl, rfl, by decide +kernel⟩ (by decide +kernel)
  · exact received.2 lengthForm threeBytes ⟨id, id⟩ (byteByByte threeBytes.bytes)
      ⟨rfl, rfl, by decide +kernel⟩ (by decide +kernel)

end ChatServer.Http
