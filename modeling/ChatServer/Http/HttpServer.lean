import ChatServer.Http.KeepAlive
import ChatServer.Http.PlainMessages
import ChatServer.Http.Servlet

/-!
# A connection to the HTTP server

`HttpServer::handleClient` reads a request, lets the servlet of its path fill in a response and
writes that, until a request closes the connection or none comes. What the client gets is one text;
it finds the responses in it by their blank lines and lengths.
-/

namespace ChatServer.Http

set_option autoImplicit false

open ChatServer.Http2 (ascii sameKey)

variable {machine : HttpMachine}

/-- What `handle` of a servlet makes of the request and the response it is given. -/
abbrev Servlet := HttpRequest → WrittenResponse → HttpRequest × WrittenResponse

namespace WrittenResponse

def setHeader (response : WrittenResponse) (key val : Str) : WrittenResponse :=
  { response with toHttpMessage := response.toHttpMessage.setHeader key val }

def setBody (response : WrittenResponse) (body : Str) : WrittenResponse :=
  { response with toHttpMessage := { response.toHttpMessage with body } }

end WrittenResponse

def notFoundServlet (name : Str) : Servlet := fun request response =>
  (request, ((({ response with status := 404 } : WrittenResponse).setHeader (ascii "Server")
    (ascii "chat/1.0.0")).setHeader (ascii "Content-Type") (ascii "text/html")).setBody
      (ascii "<html><head><title>404 Not Found" ++
        ascii "</title></head><body><center><h1>404 Not Found</h1></center>" ++
          ascii "<hr><center>" ++ name ++ ascii "</center></body></html>"))

structure HttpServer where
  name : Str
  isKeepalive : Bool
  dispatch : ServletDispatch Servlet

namespace HttpServer

/-- Behind `setName`, when nothing is registered yet. -/
def new (isKeepalive : Bool) (name : Str) : HttpServer :=
  ⟨name, isKeepalive, ServletDispatch.new (notFoundServlet name)⟩

def newResponse (server : HttpServer) (request : HttpRequest) : WrittenResponse :=
  let response : WrittenResponse :=
    { version := request.version, close := request.close || !server.isKeepalive }
  ((response.setBody (ascii "hello")).setHeader (ascii "Server") server.name).setHeader
    (ascii "Content-Type") (ascii "application/json;charset=utf8")

def respond (server : HttpServer) (fnmatch : Str → Str → Bool) (request : HttpRequest) :
    HttpRequest × WrittenResponse :=
  server.dispatch.getMatchedServlet fnmatch request.path request (server.newResponse request)

/-- Whether the connection ends behind a request that a servlet has handled. -/
def stops (server : HttpServer) (request : HttpRequest) : Bool :=
  !server.isKeepalive || request.close

/-- The loop of `handleClient`; every parser finds a memory of its own. -/
def handleLoop (machine : HttpMachine) (config : HttpConfig) (fnmatch : Str → Str → Bool)
    (queryStart : Nat → Nat) (server : HttpServer) : Nat → SocketStream → Result SocketStream
  | 0, _ => .error (.undefined .endlessLoop)
  | rounds + 1, stream => do
      let (received, stream) ← recvRequest machine config (queryStart rounds) stream
      match received with
      | none => .ok stream.close
      | some request =>
          let (request, response) := server.respond fnmatch request
          let stream := stream.writeFixSize response.dump
          if server.stops request then .ok stream.close
          else handleLoop machine config fnmatch queryStart server rounds stream

/-- Every round receives at least one byte or ends the loop. -/
def handleClient (machine : HttpMachine) (config : HttpConfig) (fnmatch : Str → Str → Bool)
    (queryStart : Nat → Nat) (server : HttpServer) (stream : SocketStream) :
    Result SocketStream :=
  handleLoop machine config fnmatch queryStart server (stream.incoming.length + 1) stream

end HttpServer

/-- A client takes the lines up to the blank one, and as much behind it as they tell. -/
def readMessage (text : Str) : Option ((List Str × Str) × Str) :=
  (crlf.block [] text).map fun read =>
    let length := (((lengths read.1).head?).join).getD 0
    ((read.1, read.2.take length), read.2.drop length)

/-- The text is these messages, one behind the other. -/
def Reads : List (List Str × Str) → Str → Prop
  | [], text => text = []
  | message :: later, text =>
      ∃ behind, readMessage text = some (message, behind) ∧ Reads later behind

theorem read_self_delimiting {text body : Str} (delimited : SelfDelimiting text body) (more : Str) :
    ∃ head, crlf.block [] text = some (head, body) ∧
      readMessage (text ++ more) = some ((head, body), more) := by
  obtain ⟨head, read, filled, empty⟩ := delimited
  have told : (((lengths head).head?).join).getD 0 = body.length := by
    by_cases some : body = []
    · rw [some, List.length_nil]
      cases said : lengths head with
      | nil => rfl
      | cons length others =>
          have none := empty some length (said ▸ List.mem_cons_self)
          rw [none]
          rfl
    · rw [filled some]
      rfl
  refine ⟨head, read, ?_⟩
  rw [readMessage, LineEnd.block_append read, Option.map_some]
  dsimp only
  rw [told, List.take_left, List.drop_left]

theorem reads_cons {text body : Str} {later : List (List Str × Str)} {more : Str}
    (delimited : SelfDelimiting text body) (reads : Reads later more) :
    ∃ head, crlf.block [] text = some (head, body) ∧
      Reads ((head, body) :: later) (text ++ more) := by
  obtain ⟨head, block, read⟩ := read_self_delimiting delimited more
  exact ⟨head, block, more, read, reads⟩

def continueText : Str := ascii "HTTP/1.1 100 Continue\r\n\r\n"

def Request.prompt (request : Request machine) : Str :=
  if sameKey (request.head.parsed.data.getHeader (ascii "Expect")) (ascii "100-continue") then
    continueText
  else []

theorem answer_expect_writes (request : Request machine) (stream : SocketStream) :
    (answerExpect request.head.parsed.data stream).2.outgoing =
      stream.outgoing ++ request.prompt := by
  rw [answerExpect, Request.prompt]
  split
  · rfl
  · rw [List.append_nil]

theorem read_outgoing (stream : SocketStream) (length : Nat) :
    (stream.read length).2.outgoing = stream.outgoing := by
  rw [SocketStream.read]
  split <;> rfl

theorem read_fix_loop_outgoing {config : HttpConfig} {length : Nat} (rounds : Nat) :
    ∀ {stream after : SocketStream} {buffer bytes : Str} {left : Nat} {rt : Int},
      SocketStream.readFixLoop config length rounds stream buffer left = .ok (rt, bytes, after) →
        after.outgoing = stream.outgoing := by
  induction rounds with
  | zero =>
      intro stream after buffer bytes left rt read
      rw [SocketStream.readFixLoop] at read
      split at read
      · cases read
      · simp only [Except.ok.injEq, Prod.mk.injEq] at read
        rw [read.2.2]
  | succ rounds induction =>
      intro stream after buffer bytes left rt read
      rw [SocketStream.readFixLoop] at read
      dsimp only at read
      split at read
      · split at read
        · simp only [Except.ok.injEq, Prod.mk.injEq] at read
          rw [← read.2.2]
          exact read_outgoing stream _
        · rw [induction read]
          exact read_outgoing stream _
      · simp only [Except.ok.injEq, Prod.mk.injEq] at read
        rw [read.2.2]

theorem recv_body_outgoing {config : HttpConfig} (request : Request machine) {held : Str}
    {stream after : SocketStream} {received : Option HttpRequest}
    (done : recvBody config request.head.parsed held stream = .ok (received, after)) :
    after.outgoing = stream.outgoing ++ request.prompt := by
  have wrote := answer_expect_writes request stream
  rw [recvBody] at done
  dsimp only at done
  split at done
  · split at done
    · obtain ⟨⟨rt, bytes, next⟩, read, goes⟩ := bind_eq_ok done
      have same := read_fix_loop_outgoing _ read
      dsimp only at goes
      split at goes
      · cases goes
        exact same.trans wrote
      · cases goes
        exact same.trans wrote
    · cases done
      exact wrote
  · cases done
    exact wrote

theorem recv_request_exact (config : HttpConfig) (queryStart : Nat) (request : Request machine)
    (later : List (Request machine)) {stream : SocketStream} (connected : stream.connected = true)
    (arrives : stream.incoming = Request.wire (request :: later))
    (whole : request.head.bytes.length ≤ min (stream.ready 0 + 1) config.buffSize)
    (apart_ : Request.Apart config stream.ready request later) :
    recvRequest machine config queryStart stream = .ok (some request.message,
      { stream.advance request.bytes.length with
        outgoing := stream.outgoing ++ request.prompt }) := by
  obtain ⟨outgoing, received⟩ :=
    Request.recv_first_served config queryStart request later connected arrives whole apart_
  have body := received
  rw [Request.recv_first config queryStart request later connected arrives whole] at body
  have wrote := recv_body_outgoing request body
  dsimp only at wrote
  rw [received, wrote]
  rfl

theorem recv_request_end (config : HttpConfig) (queryStart : Nat) {stream : SocketStream}
    (ended : stream.incoming = []) :
    recvRequest machine config queryStart stream = .ok (none, stream.close) := by
  have none : stream.read config.buffSize = ([], stream) := by
    rw [SocketStream.read, SocketStream.arriving, ended, List.length_nil, Nat.min_zero,
      Nat.min_zero, List.take_zero, SocketStream.advance_zero]
    split <;> rfl
  rw [recvRequest, recvHead, List.length_nil, Nat.sub_zero, none]
  rfl

namespace WrittenResponse

def headLines (response : WrittenResponse) : List Str :=
  crlf.lines [] (response.ownText ++ connectionLine response.websocket response.close ++
    addedLength (!response.hasContentLength) response.body)

/-- What a client needs to find the end of a response. -/
structure Decent (response : WrittenResponse) : Prop where
  plain : response.Plain
  honest : ∀ entry ∈ response.headers, isContentLength entry.1 = true →
    number entry.2 = some response.body.length

theorem decent_delimited {response : WrittenResponse} (decent : response.Decent) :
    SelfDelimiting response.dump response.body :=
  (plain_delimited_iff decent.plain).mpr decent.honest

theorem block_head_lines {response : WrittenResponse} {head : List Str}
    (read : crlf.block [] response.dump = some (head, response.body)) :
    head = response.headLines := by
  have ended : crlf.Ended (response.ownText ++
      connectionLine response.websocket response.close ++
        addedLength (!response.hasContentLength) response.body) :=
    LineEnd.ended_append (LineEnd.ended_append response.ended_own_text
      (ended_connection_line _ _)) (added_length_lines _ _).1
  rw [dump_eq, List.append_nil] at read
  exact ((LineEnd.block_closed_iff ended).mp read).2

end WrittenResponse

namespace HttpServer

/-- What a client is sent for its requests: for each one the response of its servlet, behind the
invitation that the client waits for before it sends a body, up to the one that ends the
connection. -/
def answers (server : HttpServer) (fnmatch : Str → Str → Bool) :
    List (Request machine) → List (List Str × Str)
  | [] => []
  | request :: later =>
      let (handled, response) := server.respond fnmatch request.message
      (if request.prompt = [] then [] else [([ascii "HTTP/1.1 100 Continue"], [])]) ++
        (response.headLines, response.body) ::
          if server.stops handled then [] else answers server fnmatch later

theorem reads_prompt (request : Request machine) {later : List (List Str × Str)} {text : Str}
    (reads : Reads later text) :
    Reads ((if request.prompt = [] then [] else [([ascii "HTTP/1.1 100 Continue"], [])]) ++ later)
      (request.prompt ++ text) := by
  by_cases none : request.prompt = []
  · rw [if_pos none, none]
    exact reads
  · have asked : request.prompt = continueText := by
      rw [Request.prompt] at none ⊢
      split at none
      · rename_i expects
        rw [if_pos expects]
      · exact absurd rfl none
    have delimited : SelfDelimiting continueText [] := by
      refine ⟨[ascii "HTTP/1.1 100 Continue"], by decide +kernel, ?_, ?_⟩
      · intro some
        exact absurd rfl some
      · intro _ length member
        have silent : lengths [ascii "HTTP/1.1 100 Continue"] = [] := by decide +kernel
        rw [silent] at member
        cases member
    obtain ⟨head, block, read⟩ := reads_cons delimited reads
    have first : crlf.block [] continueText = some ([ascii "HTTP/1.1 100 Continue"], []) := by
      decide +kernel
    rw [first] at block
    cases block
    rw [if_neg none, asked]
    exact read

theorem handle_loop_answers {server : HttpServer} {fnmatch : Str → Str → Bool}
    (config : HttpConfig) (queryStart : Nat → Nat) (requests : List (Request machine)) :
    ∀ {stream : SocketStream} {rounds : Nat}, stream.connected = true →
      stream.incoming = Request.wire requests → requests.length < rounds →
      Request.HeadsWhole config stream.ready requests →
      Request.AllApart config stream.ready requests →
      (∀ request ∈ requests, (server.respond fnmatch request.message).2.Decent) →
      ∃ after written, handleLoop machine config fnmatch queryStart server rounds stream = .ok after ∧
        after.connected = false ∧ after.outgoing = stream.outgoing ++ written ∧
          Reads (server.answers fnmatch requests) written := by
  induction requests with
  | nil =>
      intro stream rounds connected arrives enough whole apart_ decent
      cases rounds with
      | zero => cases enough
      | succ rounds =>
          refine ⟨stream.close.close, [], ?_, rfl, (List.append_nil _).symm, rfl⟩
          rw [handleLoop, recv_request_end config _ arrives, bind_ok]
  | cons request later induction =>
      intro stream rounds connected arrives enough whole apart_ decent
      cases rounds with
      | zero => cases enough
      | succ rounds =>
          obtain ⟨first, rest⟩ := whole
          obtain ⟨mine, others⟩ := apart_
          rw [handleLoop, recv_request_exact config _ request later connected arrives first mine,
            bind_ok]
          dsimp only
          have good := decent request List.mem_cons_self
          have delimited := WrittenResponse.decent_delimited good
          rw [answers]
          generalize server.respond fnmatch request.message = responded at good delimited ⊢
          obtain ⟨handled, response⟩ := responded
          dsimp only at good delimited ⊢
          cases ends : server.stops handled with
          | true =>
              obtain ⟨head, block, read⟩ := reads_cons delimited (show Reads [] [] from rfl)
              rw [WrittenResponse.block_head_lines block] at read
              refine ⟨_, request.prompt ++ (response.dump ++ []), rfl, rfl, ?_,
                reads_prompt request read⟩
              rw [List.append_nil]
              exact List.append_assoc _ _ _
          | false =>
              have behind : (stream.advance request.bytes.length).incoming = Request.wire later := by
                rw [SocketStream.advance_incoming, arrives, Request.wire, List.map_cons,
                  List.flatten_cons, List.drop_left]
                rfl
              obtain ⟨after, written, done, closed, wrote, reads⟩ := @induction
                ({ stream.advance request.bytes.length with
                  outgoing := stream.outgoing ++ request.prompt }.writeFixSize response.dump)
                rounds connected behind (Nat.lt_of_succ_lt_succ enough) rest others
                (fun other member => decent other (List.mem_cons_of_mem _ member))
              obtain ⟨head, block, read⟩ := reads_cons delimited reads
              rw [WrittenResponse.block_head_lines block] at read
              refine ⟨after, request.prompt ++ (response.dump ++ written), done, closed, ?_,
                reads_prompt request read⟩
              rw [wrote]
              simp only [SocketStream.writeFixSize, List.append_assoc]

end HttpServer

namespace WrittenResponse

def closeLine : Str := ascii "connection: close"

/-- A line of a text that several print is a line of one of them. -/
theorem line_of_flat_map {Item : Type} {print : Item → Str} (ended : ∀ item, crlf.Ended (print item))
    {items : List Item} {line : Str} (member : line ∈ crlf.lines [] (items.flatMap print)) :
    ∃ item ∈ items, line ∈ crlf.lines [] (print item) := by
  induction items with
  | nil => cases member
  | cons item items induction =>
      rw [List.flatMap_cons, LineEnd.lines_append (ended item)] at member
      rcases List.mem_append.mp member with here | later
      · exact ⟨item, List.mem_cons_self, here⟩
      · obtain ⟨other, inside, found⟩ := induction later
        exact ⟨other, List.mem_cons_of_mem _ inside, found⟩

theorem not_close_line {front : Str} (text : Str) (other : front.take 4 ≠ closeLine.take 4)
    (long : 4 ≤ front.length) : closeLine ≠ front ++ text := by
  intro same
  rw [same, List.take_append_of_le_length long] at other
  exact other rfl

variable {response : WrittenResponse}

theorem close_line_not_own (plain : response.Plain) (bare : response.websocket = false) :
    closeLine ∉ response.ownLines := by
  have front : crlf.Ended (response.statusLine ++ response.headers.flatMap response.shownHeader) :=
    LineEnd.ended_append response.ended_status_line response.ended_headers
  rw [ownLines, ownText, LineEnd.lines_append front,
    LineEnd.lines_append response.ended_status_line, List.mem_append, List.mem_append]
  rintro ((status | header) | cookie)
  · have unended : 10 ∉ versionText response.version ++ ascii " " ++
        decimal (response.status % 2 ^ 32).toNat ++ ascii " " ++
          (if response.reason = [] then httpStatusToString response.status
          else response.reason) := by
      simp only [List.mem_append, not_or]
      refine ⟨⟨⟨⟨version_no_feed _, by decide⟩, decimal_no_feed _⟩, by decide⟩, ?_⟩
      split
      · exact status_to_string_no_feed _
      · exact plain.reason
    rw [statusLine, LineEnd.lines_single unended, List.mem_singleton, versionText] at status
    simp only [List.append_assoc] at status
    exact not_close_line _ (by decide) (by decide) status
  · obtain ⟨entry, member, line⟩ := line_of_flat_map response.ended_header header
    rw [shownHeader] at line
    split at line
    · cases line
    · rename_i shown
      have uncolon := (plain.headers entry member).uncolon
      rw [header_line_lines (plain.headers entry member), List.mem_singleton, List.append_assoc]
        at line
      have key : entry.1 = ascii "connection" := by
        have before : (entry.1 ++ (ascii ": " ++ entry.2)).takeWhile (· ≠ 58) = entry.1 := by
          rw [List.takeWhile_append_of_pos]
          · exact List.append_nil _
          · intro byte inside
            exact decide_eq_true fun same => uncolon (same ▸ inside)
        rw [← before, ← line]
        decide
      rw [key, bare] at shown
      exact shown (by decide)
  · obtain ⟨cookie, member, line⟩ := line_of_flat_map ended_cookie cookie
    have unended : 10 ∉ ascii "Set-Cookie: " ++ cookie := by
      rw [List.mem_append, not_or]
      exact ⟨by decide, plain.cookies cookie member⟩
    rw [cookieLine, LineEnd.lines_single unended, List.mem_singleton] at line
    exact not_close_line _ (by decide) (by decide) line

/-- A response says that the connection ends exactly when it is told to. -/
theorem announces_close_iff (plain : response.Plain) (bare : response.websocket = false) :
    closeLine ∈ response.headLines ↔ response.close = true := by
  have front : crlf.Ended (response.ownText ++
      connectionLine response.websocket response.close) :=
    LineEnd.ended_append response.ended_own_text (ended_connection_line _ _)
  have added : closeLine ∉
      crlf.lines [] (addedLength (!response.hasContentLength) response.body) := by
    rw [addedLength]
    split
    · rw [length_line_lines, List.mem_singleton]
      exact not_close_line _ (by decide) (by decide)
    · exact List.not_mem_nil
  have told : closeLine ∈ crlf.lines [] (connectionLine false response.close) ↔
      response.close = true := by
    cases response.close <;> decide +kernel
  rw [headLines, LineEnd.lines_append front, LineEnd.lines_append response.ended_own_text,
    List.mem_append, List.mem_append, bare, told]
  constructor
  · rintro ((own | told) | length)
    · exact absurd own (close_line_not_own plain bare)
    · exact told
    · exact absurd length added
  · intro closes
    exact Or.inl (Or.inr closes)

end WrittenResponse

namespace HttpServer

/-- The servlet leaves the fields alone that say whether the connection ends. -/
def Heeds (server : HttpServer) (fnmatch : Str → Str → Bool) (request : HttpRequest) : Prop :=
  let (handled, response) := server.respond fnmatch request
  handled.close = request.close ∧ response.close = (server.newResponse request).close ∧
    response.websocket = false

/-- Requests that are read apart from each other are answered in order up to the one that ends the
connection, which is closed behind it. A client that goes by blank lines and lengths reads exactly
these answers, and the response that announces the end is the one behind which the server closes. -/
theorem requests_answered {server : HttpServer} {fnmatch : Str → Str → Bool} (config : HttpConfig)
    (queryStart : Nat → Nat) (requests : List (Request machine)) {stream : SocketStream}
    (connected : stream.connected = true) (arrives : stream.incoming = Request.wire requests)
    (whole : Request.HeadsWhole config stream.ready requests)
    (apart_ : Request.AllApart config stream.ready requests)
    (decent : ∀ request ∈ requests, (server.respond fnmatch request.message).2.Decent) :
    (∃ after written, server.handleClient machine config fnmatch queryStart stream = .ok after ∧
      after.connected = false ∧ after.outgoing = stream.outgoing ++ written ∧
        Reads (server.answers fnmatch requests) written) ∧
    ∀ request ∈ requests, server.Heeds fnmatch request.message →
      (WrittenResponse.closeLine ∈ (server.respond fnmatch request.message).2.headLines ↔
        server.stops (server.respond fnmatch request.message).1 = true) := by
  constructor
  · have enough : requests.length < stream.incoming.length + 1 := by
      rw [arrives]
      apply Nat.lt_succ_of_le
      clear connected arrives whole apart_ decent
      induction requests with
      | nil => exact Nat.le_refl 0
      | cons request later induction =>
          have some := head_nonempty request.head
          rw [Request.wire_cons, List.length_append, List.length_append, List.length_cons]
          omega
    exact handle_loop_answers config queryStart requests connected arrives enough whole apart_ decent
  · intro request member heeds
    have good := decent request member
    obtain ⟨handled, same, bare⟩ :
        (server.respond fnmatch request.message).1.close = request.message.close ∧
          (server.respond fnmatch request.message).2.close =
            (request.message.close || !server.isKeepalive) ∧
              (server.respond fnmatch request.message).2.websocket = false := heeds
    rw [WrittenResponse.announces_close_iff good.plain bare, same, stops, handled, Bool.or_comm]

def keepHead : RequestHead originForm where
  bytes := ascii "PUT / HTTP/1.1\r\nConnection: keep-alive\r\nContent-Length: 3\r\n\r\n"
  parsed := {
    parser := {
      cs := 348
      bodyStart := 61
      mark := 56
      fieldStart := 59
      fieldLen := 14
      queryStart := 0
      xmlSent := false
      jsonSent := false }
    data := {
      method := .put
      headers := [(ascii "Connection", ascii "keep-alive"), (ascii "Content-Length", ascii "3")] }
    error := 0 }
  accepted := by decide +kernel
  correct := by decide
  finished := by decide
  closed := by decide +kernel

def keepRequest : Request originForm := ⟨keepHead, ascii "abc", by decide +kernel⟩

def echo : Servlet := fun request response => (request, response.setBody request.body)

def echoServer : HttpServer :=
  { new true (ascii "chat") with
    dispatch := (ServletDispatch.new (notFoundServlet (ascii "chat"))).run
      [.addServlet (ascii "/") echo] }

def keepThenPlain : SocketStream where
  connected := true
  incoming := Request.wire [keepRequest, plainRequest]
  ready := fun place => if place < 64 then 63 - place else 100
  outgoing := []

/-- The first request keeps the connection and gets its body back; nothing is registered for the
path of the second one, which ends the connection. -/
theorem requests_answered_two :
    (echoServer.answers (fun _ _ => false) [keepRequest, plainRequest]).map Prod.snd =
      [ascii "abc", ascii "<html><head><title>404 Not Found" ++
        ascii "</title></head><body><center><h1>404 Not Found</h1></center>" ++
          ascii "<hr><center>chat</center></body></html>"] ∧
    (∃ after written,
      echoServer.handleClient originForm defaultConfig (fun _ _ => false) (fun _ => 0)
          keepThenPlain = .ok after ∧ after.connected = false ∧
        after.outgoing = keepThenPlain.outgoing ++ written ∧
          Reads (echoServer.answers (fun _ _ => false) [keepRequest, plainRequest]) written) := by
  refine ⟨by decide +kernel, (requests_answered defaultConfig (fun _ => 0)
    [keepRequest, plainRequest] rfl rfl ?_ ?_ ?_).1⟩
  · refine ⟨?_, ?_, trivial⟩ <;> decide +kernel
  · refine ⟨⟨?_, ?_, ?_⟩, ⟨?_, ?_, ?_⟩, trivial⟩ <;> decide +kernel
  · have named : ∀ request ∈ [keepRequest, plainRequest],
        ∀ entry ∈ (echoServer.respond (fun _ _ => false) request.message).2.headers,
          (0 ∉ entry.1 ∧ 58 ∉ entry.1 ∧ 10 ∉ entry.1 ∧ 10 ∉ entry.2) ∧
            isContentLength entry.1 = false := by
      decide +kernel
    have rest : ∀ request ∈ [keepRequest, plainRequest],
        (10 ∉ (echoServer.respond (fun _ _ => false) request.message).2.reason ∧
          (echoServer.respond (fun _ _ => false) request.message).2.cookies = []) ∧
            (echoServer.respond (fun _ _ => false) request.message).2.headers.Pairwise
              fun entry other => sameKey entry.1 other.1 = false := by
      decide +kernel
    intro request member
    refine ⟨⟨(rest request member).1.1, ?_, (rest request member).2, ?_⟩, ?_⟩
    · intro entry inside
      obtain ⟨⟨unended, uncolon, key, value⟩, _⟩ := named request member entry inside
      exact ⟨unended, uncolon, key, value⟩
    · intro cookie inside
      rw [(rest request member).1.2] at inside
      cases inside
    · intro entry inside found
      rw [(named request member entry inside).2] at found
      cases found

end HttpServer
end ChatServer.Http
