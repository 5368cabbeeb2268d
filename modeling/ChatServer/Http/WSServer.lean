import ChatServer.Http.HttpServer
import ChatServer.Http.WSRoundTrip
import ChatServer.Util.Base64

/-!
# A connection to the WebSocket server

`WSSession::handleShake` and `WSServer::handleClient`. Behind the handshake the servlet of the path
is connected once, is given one message after the other, and is closed once. Both sides put bare
PING and PONG frames between their messages, and each PING is answered while a message is read, so
the answers of a servlet stand in the text of the server with PONG frames anywhere between them.
-/

namespace ChatServer.Http

set_option autoImplicit false

open ChatServer.Http2 (ascii sameKey)
open ChatServer.Util (base64encode)

def lexicalInt (text : Str) : Option Int :=
  if text.head? = some 45 then
    (unsignedOf text.tail).bind fun value => if value ≤ 2 ^ 31 then some (-value) else none
  else
    (unsignedOf (if text.head? = some 43 then text.tail else text)).bind fun value =>
      if value < 2 ^ 31 then some (value : Int) else none

namespace HttpRequest

def upgrades (req : HttpRequest) : Bool :=
  sameKey (req.getHeader (ascii "Upgrade")) (ascii "websocket") &&
    sameKey (req.getHeader (ascii "Connection")) (ascii "Upgrade") &&
    ((req.toHttpMessage.find (ascii "Sec-webSocket-Version")).bind lexicalInt).getD 0 = 13 &&
    req.getHeader (ascii "Sec-WebSocket-Key") ≠ []

def switching (sha1sum : Str → Str) (req : HttpRequest) : WrittenResponse :=
  let v := base64encode false
    (sha1sum (req.getHeader (ascii "Sec-WebSocket-Key") ++
      ascii "258EAFA5-E914-47DA-95CA-C5AB0DC85B11"))
  let rsp : WrittenResponse :=
    { version := req.version, close := req.close, status := 101, websocket := true
      reason := ascii "Web Socket Protocol Handshake" }
  ((rsp.setHeader (ascii "Upgrade") (ascii "websocket")).setHeader (ascii "Connection")
    (ascii "Upgrade")).setHeader (ascii "Sec-WebSocket-Accept") v

end HttpRequest

structure WSSession where
  stream : Stream
  closed : Bool

namespace WSSession

def close (session : WSSession) : WSSession := { session with closed := true }

/-- `handleShake`, given what `recvRequest` returned. What `sendResponse` returns is not looked
at. -/
def handleShake (sha1sum : Str → Str) (session : WSSession) (received : Option HttpRequest) :
    Result (Option HttpRequest × WSSession) :=
  match received with
  | none => .ok (none, session)
  | some req =>
      if req.upgrades then do
        let (_, stream) ← session.stream.writeFixBuffer (req.switching sha1sum).dump
        .ok (some req, { session with stream })
      else .ok (none, session)

def recvMessage (maxSize : UInt32) (session : WSSession) :
    Result (Option WSFrameMessage × WSSession) :=
  if session.closed then .ok (none, session)
  else do
    let received ← wsRecvMessage maxSize false session.stream
    .ok (received.message, ⟨received.stream, received.closed⟩)

/-- Calls of `sendMessage` and `ping` one after the other; without a connection the first write of
each of them fails. -/
def send (session : WSSession) : List SentMessage → Result WSSession
  | [] => .ok session
  | message :: later =>
      if session.closed then .ok session
      else do
        let sent ← message.send false session.stream
        send ⟨sent.stream, sent.closed⟩ later

end WSSession

/-- A servlet works on what the servlets keep and on the session. -/
structure WSServlet (State : Type) where
  onConnect : HttpRequest → State → WSSession → Result (Int × State × WSSession)
  handle : HttpRequest → WSFrameMessage → State → WSSession → Result (Int × State × WSSession)
  onClose : HttpRequest → State → WSSession → Result (Int × State × WSSession)

namespace WSServer

variable {State : Type}

def handleMessages (maxSize : UInt32) (servlet : WSServlet State) (header : HttpRequest) :
    Nat → State → WSSession → Result (State × WSSession)
  | 0, _, _ => .error (.undefined .endlessLoop)
  | rounds + 1, state, session => do
      let (msg, session) ← session.recvMessage maxSize
      match msg with
      | none => .ok (state, session)
      | some msg =>
          let (rt, state, session) ← servlet.handle header msg state session
          if rt ≠ 0 then .ok (state, session)
          else handleMessages maxSize servlet header rounds state session

/-- What stands between the handshake and `session->close()`. -/
def serve (maxSize : UInt32) (servlet : WSServlet State) (header : HttpRequest) (state : State)
    (session : WSSession) : Result (State × WSSession) := do
  let (rt, state, session) ← servlet.onConnect header state session
  if rt ≠ 0 then .ok (state, session)
  else
    let (state, session) ←
      handleMessages maxSize servlet header (session.stream.incoming.length + 1) state session
    let (_, state, session) ← servlet.onClose header state session
    .ok (state, session)

/-- `handleClient`, given what `recvRequest` returned. A servlet that is no `WSServlet` is `none`:
the cast of `getWSServlet` gives null for it. -/
def handleClient (sha1sum : Str → Str) (fnmatch : Str → Str → Bool) (maxSize : UInt32)
    (dispatch : ServletDispatch (Option (WSServlet State))) (received : Option HttpRequest)
    (state : State) (session : WSSession) : Result (State × WSSession) := do
  let (header, session) ← session.handleShake sha1sum received
  match header with
  | none => .ok (state, session.close)
  | some header =>
      match dispatch.getMatchedServlet fnmatch header.path with
      | none => .ok (state, session.close)
      | some servlet =>
          let (state, session) ← serve maxSize servlet header state session
          .ok (state, session.close)

end WSServer

def Round.stream : Round → Stream
  | .again _ stream | .finished _ stream | .broken stream => stream

def controlBytes (kind : ControlKind) : Str := frameBytes kind.opcode true none []

def Pongs (text : Str) : Prop := ∃ count, text = (List.replicate count (controlBytes .pong)).flatten

theorem pongs_nil : Pongs [] := ⟨0, rfl⟩

theorem pongs_one : Pongs (controlBytes .pong) := ⟨1, (List.append_nil _).symm⟩

theorem pongs_append {first second : Str} (here : Pongs first) (there : Pongs second) :
    Pongs (first ++ second) := by
  obtain ⟨count, rfl⟩ := here
  obtain ⟨more, rfl⟩ := there
  refine ⟨count + more, ?_⟩
  rw [List.replicate_add, List.flatten_append]

def Writes (outgoing : Str) (result : Result Round) : Prop :=
  ∀ round, result = .ok round → round.stream.outgoing = outgoing

theorem writes_ok {round : Round} {outgoing : Str} (same : round.stream.outgoing = outgoing) :
    Writes outgoing (.ok round) := by
  intro other done
  cases done
  exact same

theorem read_fix_buffer_loop_outgoing (length : Nat) (rounds : Nat) :
    ∀ {stream after : Stream} {buffer bytes : Str} {left : Nat} {rt : Int},
      Stream.readFixBufferLoop length rounds stream buffer left = .ok (rt, bytes, after) →
        after.outgoing = stream.outgoing := by
  induction rounds with
  | zero =>
      intro stream after buffer bytes left rt read
      rw [Stream.readFixBufferLoop] at read
      split at read
      · cases read
      · simp only [Except.ok.injEq, Prod.mk.injEq] at read
        rw [read.2.2]
  | succ rounds induction =>
      intro stream after buffer bytes left rt read
      rw [Stream.readFixBufferLoop] at read
      split at read
      · dsimp only at read
        split at read
        · simp only [Except.ok.injEq, Prod.mk.injEq] at read
          rw [← read.2.2]
          rfl
        · exact (induction read).trans rfl
      · simp only [Except.ok.injEq, Prod.mk.injEq] at read
        rw [read.2.2]

theorem writes_read_or {stream : Stream} {length : Nat} {next : Str → Stream → Result Round}
    (later : ∀ bytes after, after.outgoing = stream.outgoing →
      Writes stream.outgoing (next bytes after)) :
    Writes stream.outgoing (readOr stream length next) := by
  intro round done
  obtain ⟨⟨rt, bytes, after⟩, read, goes⟩ := bind_eq_ok done
  have same := read_fix_buffer_loop_outgoing _ _ read
  dsimp only at goes
  split at goes
  · cases goes
    exact same
  · exact later bytes after same round goes

theorem writes_read_length {stream : Stream} {payload : BitVec 7}
    {next : Nat → Stream → Result Round}
    (later : ∀ length after, after.outgoing = stream.outgoing →
      Writes stream.outgoing (next length after)) :
    Writes stream.outgoing (readLength payload stream next) := by
  rw [readLength]
  split
  · exact writes_read_or fun bytes after same => later _ after same
  · split
    · exact writes_read_or fun bytes after same => later _ after same
    · exact later _ stream rfl

theorem writes_read_mask {stream : Stream} {mask : Bool} {next : Str → Stream → Result Round}
    (later : ∀ bytes after, after.outgoing = stream.outgoing →
      Writes stream.outgoing (next bytes after)) :
    Writes stream.outgoing (readMask mask stream next) := by
  rw [readMask]
  split
  · exact writes_read_or later
  · exact later _ stream rfl

/-- A data frame is taken without a word. -/
theorem data_round_writes (maxSize : UInt32) (client : Bool) (held : Partial) (head : WSFrameHead)
    (stream : Stream) : Writes stream.outgoing (dataRound maxSize client held head stream) := by
  rw [dataRound]
  split
  · exact writes_ok rfl
  · apply writes_read_length
    intro length first unsent
    dsimp only
    split
    · exact writes_ok unsent
    · rw [← unsent]
      apply writes_read_mask
      intro mask second unsent round done
      obtain ⟨data, _, done⟩ := bind_eq_ok done
      split at done
      · cases done
      · rw [← unsent]
        apply writes_read_or _ round done
        intro bytes third unsent round done
        split at done
        · obtain ⟨data, _, done⟩ := bind_eq_ok done
          split at done
          · cases done
            exact unsent
          · cases done
            exact unsent
        · rw [bind_ok] at done
          split at done
          · cases done
            exact unsent
          · cases done
            exact unsent

theorem recv_round_writes {maxSize : UInt32} {client : Bool} {held : Partial} {stream : Stream}
    {round : Round} (done : recvRound maxSize client held stream = .ok round) :
    ∃ text, Pongs text ∧ round.stream.outgoing = stream.outgoing ++ text := by
  rw [recvRound] at done
  obtain ⟨⟨rt, bytes, first⟩, read, done⟩ := bind_eq_ok done
  have unsent := read_fix_buffer_loop_outgoing _ _ read
  dsimp only at done
  split at done
  · cases done
    exact ⟨[], pongs_nil, unsent.trans (List.append_nil _).symm⟩
  · split at done
    · obtain ⟨after, sent, outgoing, _⟩ := ws_control_sends first WSFrameHead.pong
      rw [wsPong, sent, bind_ok] at done
      cases done
      exact ⟨controlBytes .pong, pongs_one, outgoing.trans (by rw [unsent]; rfl)⟩
    · have silent : Writes first.outgoing (.ok round) := by
        rw [← done]
        split
        · exact writes_ok rfl
        · split
          · exact data_round_writes maxSize client held _ first
          · exact writes_ok rfl
      exact ⟨[], pongs_nil, ((silent round rfl).trans unsent).trans (List.append_nil _).symm⟩

/-- While a message is read, nothing but PONG frames is written. -/
theorem recv_loop_writes {maxSize : UInt32} {client : Bool} (rounds : Nat) :
    ∀ {held : Partial} {stream : Stream} {received : Received},
      recvLoop maxSize client rounds held stream = .ok received →
        ∃ text, Pongs text ∧ received.stream.outgoing = stream.outgoing ++ text := by
  induction rounds with
  | zero =>
      intro held stream received done
      cases done
  | succ rounds induction =>
      intro held stream received done
      rw [recvLoop] at done
      obtain ⟨round, first, done⟩ := bind_eq_ok done
      obtain ⟨text, pongs, wrote⟩ := recv_round_writes first
      cases round with
      | again held middle =>
          obtain ⟨more, others, later⟩ := induction done
          refine ⟨text ++ more, pongs_append pongs others, ?_⟩
          rw [later, ← List.append_assoc]
          exact congrArg (· ++ more) wrote
      | finished message after =>
          cases done
          exact ⟨text, pongs, wrote⟩
      | broken after =>
          cases done
          exact ⟨text, pongs, wrote⟩

def StillReceives (incoming : Str) (result : Result Sent) : Prop :=
  ∀ sent, result = .ok sent → sent.stream.incoming = incoming

theorem still_receives_write_or {stream : Stream} {bytes : Str} {next : Stream → Result Sent}
    (later : ∀ after, after.incoming = stream.incoming → StillReceives stream.incoming (next after)) :
    StillReceives stream.incoming (writeOr stream bytes next) := by
  intro sent done
  obtain ⟨after, wrote, _, same⟩ := stream.write_fix_buffer_sends bytes
  rw [writeOr, wrote, bind_ok] at done
  dsimp only at done
  split at done
  · cases done
    exact same
  · exact later after same sent done

theorem ws_send_message_still_receives (stream : Stream) (msg : WSFrameMessage) (client fin : Bool)
    (rand : UInt32) : StillReceives stream.incoming (wsSendMessage stream msg client fin rand) := by
  have data (first : Stream) (bytes : Str) (same : first.incoming = stream.incoming) :
      StillReceives stream.incoming (writeOr first bytes fun after =>
        .ok ⟨int32 (msg.data.length + 2), after, false⟩) := by
    rw [← same]
    apply still_receives_write_or
    intro after kept sent done
    rw [Except.ok.injEq] at done
    rw [← done]
    exact kept
  have masked (first : Stream) (same : first.incoming = stream.incoming) :
      StillReceives stream.incoming (if client then
          writeOr first (keyBytes rand) fun after =>
            writeOr after (xorMask (keyBytes rand) msg.data) fun after =>
              .ok ⟨int32 (msg.data.length + 2), after, false⟩
        else writeOr first msg.data fun after =>
          .ok ⟨int32 (msg.data.length + 2), after, false⟩) := by
    split
    · rw [← same]
      apply still_receives_write_or
      intro after kept
      rw [same]
      exact data after _ (kept.trans same)
    · exact data first _ same
  rw [wsSendMessage]
  apply still_receives_write_or
  intro first same
  dsimp only
  split
  · rw [← same]
    apply still_receives_write_or
    intro after kept
    rw [same]
    exact masked after (kept.trans same)
  · exact masked first same

theorem send_all_still_receives {client : Bool} {kind : MessageKind} {last : Fragment}
    (sends : List Send) : ∀ {started : Bool} {stream : Stream},
      StillReceives stream.incoming (sendAll client kind last started sends stream) := by
  have control (stream : Stream) (opcode : BitVec 4) :
      StillReceives stream.incoming (wsControl stream opcode) := by
    intro sent done
    obtain ⟨after, returned, _, same⟩ := ws_control_sends stream opcode
    rw [returned] at done
    cases done
    exact same
  have one (started : Bool) (stream : Stream) (send : Send) :
      StillReceives stream.incoming (sendOne client kind started stream send) := by
    cases send with
    | ping => exact control stream _
    | pong => exact control stream _
    | fragment part => exact ws_send_message_still_receives stream _ _ _ _
  induction sends with
  | nil =>
      intro started stream
      exact ws_send_message_still_receives stream _ _ _ _
  | cons send rest induction =>
      intro started stream sent done
      rw [sendAll] at done
      obtain ⟨first, wrote, done⟩ := bind_eq_ok done
      have same := one started stream send first wrote
      split at done
      · cases done
        exact same
      · exact (induction sent done).trans same

def SentMessage.received (message : SentMessage) : WSFrameMessage :=
  ⟨message.kind.opcode.toNat, message.payload⟩

/-- The text is these messages of one side, with bare control frames between them. -/
inductive Carries (client : Bool) : List SentMessage → Str → Prop where
  | ended : Carries client [] []
  | control {messages : List SentMessage} {text : Str} (kind : ControlKind)
      (carries : Carries client messages text) :
      Carries client messages (controlBytes kind ++ text)
  | message {later : List SentMessage} {text : Str} (message : SentMessage)
      (carries : Carries client later text) :
      Carries client (message :: later) ((message.framed client).bytes ++ text)

section Carried

variable {client : Bool} {messages later : List SentMessage} {text more : Str}

theorem carries_append (here : Carries client messages text)
    (there : Carries client later more) : Carries client (messages ++ later) (text ++ more) := by
  induction here with
  | ended => exact there
  | control kind carries induction =>
      rw [List.append_assoc]
      exact induction.control kind
  | message message carries induction =>
      rw [List.append_assoc]
      exact induction.message message

theorem carries_pongs (pongs : Pongs text) : Carries client [] text := by
  obtain ⟨count, rfl⟩ := pongs
  induction count with
  | zero => exact .ended
  | succ count induction =>
      rw [List.replicate_succ, List.flatten_cons]
      exact induction.control .pong

theorem carries_behind (pongs : Pongs text) (carries : Carries client messages more) :
    Carries client messages (text ++ more) := carries_append (carries_pongs pongs) carries

theorem carries_messages (messages : List SentMessage) :
    Carries client messages (messages.flatMap fun message => (message.framed client).bytes) := by
  induction messages with
  | nil => exact .ended
  | cons message later induction => exact induction.message message

/-- The message is below the limit of its reader, and the counters of both sides can hold it. -/
structure SentMessage.Suits (maxSize : UInt32) (client : Bool) (message : SentMessage) : Prop where
  below : message.payload.length < maxSize.toNat
  counted : message.Counted client

/-- The reader takes the first message and leaves the others, or finds the end. -/
theorem recv_loop_carried {maxSize : UInt32} (carries : Carries client messages text) :
    ∀ {stream : Stream} {rounds : Nat}, stream.incoming = text → text.length < rounds →
      (∀ message ∈ messages, message.Suits maxSize client) →
      ∃ after, recvLoop maxSize (!client) rounds ⟨0, [], 0⟩ stream =
          .ok ⟨messages.head?.map SentMessage.received, after, messages.isEmpty⟩ ∧
        Carries client messages.tail after.incoming := by
  induction carries with
  | ended =>
      intro stream rounds arrives enough suits
      cases rounds with
      | zero => cases enough
      | succ rounds =>
          obtain ⟨rt, bytes, after, read, took⟩ :=
            stream.read_fix_buffer_took (show 2 < 2 ^ 63 by decide)
          have front := took.front
          rw [arrives] at front
          obtain ⟨none, left⟩ := List.append_eq_nil_iff.mp front.symm
          have failed : rt ≤ 0 := by
            by_contra positive
            have full := took.full (by omega)
            rw [none] at full
            cases full
          refine ⟨after, ?_, left ▸ .ended⟩
          rw [recvLoop, recvRound, readOr, read, bind_ok]
          dsimp only
          rw [if_pos failed, bind_ok]
          rfl
  | control kind carries induction =>
      intro stream rounds arrives enough suits
      cases rounds with
      | zero => cases enough
      | succ rounds =>
          have head : controlBytes kind = (frameHead kind.opcode true none 0).bytes := by
            simp [controlBytes, frameBytes, lengthBytes, payloadField, maskBytes, maskedData]
          rw [List.length_append, head, WSFrameHead.bytes_length] at enough
          rw [head] at arrives
          obtain ⟨middle, round, left⟩ := @recv_round_control _ _ maxSize (!client) _
            (control_opcode kind) arrives ⟨0, [], 0⟩
          obtain ⟨after, returned, behind⟩ := @induction middle rounds left (by omega) suits
          refine ⟨after, ?_, behind⟩
          rw [recv_loop_again rounds round, returned]
  | message message carries induction =>
      intro stream rounds arrives enough suits
      have mine := suits message List.mem_cons_self
      have receivable := (SentMessage.receivable_iff mine.below).mpr mine.counted
      have short := @wire_length _ (message.last.frame client) message.kind
        (message.framed client).frames false
      obtain ⟨_, delivers⟩ := @fits_consumes _ _ _ message.kind _ (message.framed client).frames
        false stream [] receivable.bare receivable.fits arrives
      have longer : (message.framed client).frames.length < rounds := by
        rw [List.length_append] at enough
        exact Nat.lt_trans short (Nat.lt_of_le_of_lt (Nat.le_add_right _ _) enough)
      obtain ⟨after, left, returned⟩ := delivers rounds longer
      refine ⟨after, ?_, ?_⟩
      · have payload := message.framed_payload client
        rw [FramedMessage.payload] at payload
        rw [List.nil_append, payload] at returned
        exact returned
      · rw [left]
        exact carries

/-- How a program reads what the other side sends: until there is no message. -/
def receiveMessages (maxSize : UInt32) (client : Bool) :
    Nat → Stream → Result (List WSFrameMessage × Stream)
  | 0, _ => .error (.undefined .endlessLoop)
  | rounds + 1, stream => do
      let received ← wsRecvMessage maxSize client stream
      match received.message with
      | none => .ok ([], received.stream)
      | some message =>
          let (later, stream) ← receiveMessages maxSize client rounds received.stream
          .ok (message :: later, stream)

theorem receive_messages_carried {maxSize : UInt32} (messages : List SentMessage) :
    ∀ {stream : Stream} {rounds : Nat}, Carries client messages stream.incoming →
      messages.length < rounds → (∀ message ∈ messages, message.Suits maxSize client) →
      ∃ last, receiveMessages maxSize (!client) rounds stream =
        .ok (messages.map SentMessage.received, last) := by
  induction messages with
  | nil =>
      intro stream rounds carries enough suits
      cases rounds with
      | zero => cases enough
      | succ rounds =>
          obtain ⟨after, returned, _⟩ := recv_loop_carried carries rfl (Nat.lt_succ_self _) suits
          refine ⟨after, ?_⟩
          rw [receiveMessages, wsRecvMessage, returned]
          rfl
  | cons message later induction =>
      intro stream rounds carries enough suits
      cases rounds with
      | zero => cases enough
      | succ rounds =>
          obtain ⟨after, returned, behind⟩ :=
            recv_loop_carried carries rfl (Nat.lt_succ_self _) suits
          obtain ⟨last, others⟩ := @induction after rounds behind (by simpa using enough)
            fun other member => suits other (List.mem_cons_of_mem _ member)
          refine ⟨last, ?_⟩
          rw [receiveMessages, wsRecvMessage, returned, bind_ok]
          dsimp only [List.head?_cons, Option.map_some]
          rw [others, bind_ok]
          rfl

theorem carried_length (carries : Carries client messages text) :
    messages.length ≤ text.length := by
  induction carries with
  | ended => exact Nat.le_refl _
  | control kind carries induction =>
      rw [List.length_append]
      omega
  | message message carries induction =>
      have short := @wire_length _ (message.last.frame client) message.kind
        (message.framed client).frames false
      have positive : 0 < (message.framed client).bytes.length := Nat.zero_lt_of_lt short
      rw [List.length_append, List.length_cons]
      omega

end Carried

namespace WSSession

theorem recv_message_carried {maxSize : UInt32} {messages : List SentMessage} {stream : Stream}
    (carries : Carries true messages stream.incoming)
    (suits : ∀ message ∈ messages, message.Suits maxSize true) :
    ∃ after text, recvMessage maxSize ⟨stream, false⟩ =
        .ok (messages.head?.map SentMessage.received, ⟨after, messages.isEmpty⟩) ∧
      Carries true messages.tail after.incoming ∧ Pongs text ∧
        after.outgoing = stream.outgoing ++ text := by
  obtain ⟨after, returned, behind⟩ := recv_loop_carried carries rfl (Nat.lt_succ_self _) suits
  obtain ⟨text, pongs, wrote⟩ := recv_loop_writes _ returned
  refine ⟨after, text, ?_, behind, pongs, wrote⟩
  rw [recvMessage, if_neg Bool.false_ne_true, wsRecvMessage]
  dsimp only
  rw [show false = !true from rfl, returned]
  rfl

theorem send_replies (replies : List SentMessage) :
    ∀ {stream : Stream}, (∀ reply ∈ replies, Narrow reply.sends reply.last) →
      ∃ after, send ⟨stream, false⟩ replies = .ok ⟨after, false⟩ ∧
        after.outgoing =
          stream.outgoing ++ replies.flatMap (fun reply => (reply.framed false).bytes) ∧
        after.incoming = stream.incoming := by
  induction replies with
  | nil =>
      intro stream _
      exact ⟨stream, rfl, (List.append_nil _).symm, rfl⟩
  | cons reply later induction =>
      intro stream narrow
      obtain ⟨value, middle, sent, outgoing⟩ := @send_all_narrow false reply.kind reply.last
        reply.sends false stream (narrow reply List.mem_cons_self)
      have unread := send_all_still_receives reply.sends _ sent
      obtain ⟨after, others, wrote, left⟩ := @induction middle
        fun other member => narrow other (List.mem_cons_of_mem _ member)
      refine ⟨after, ?_, ?_, left.trans unread⟩
      · rw [send, if_neg Bool.false_ne_true, SentMessage.send, sent, bind_ok, others]
      · rw [wrote, outgoing, List.flatMap_cons, List.append_assoc]
        rfl

theorem send_closed (stream : Stream) (replies : List SentMessage) :
    send ⟨stream, true⟩ replies = .ok ⟨stream, true⟩ := by
  cases replies with
  | nil => rfl
  | cons reply later => rfl

end WSSession

structure Answerer (State : Type) where
  onConnect : HttpRequest → State → Int × State × List SentMessage
  handle : HttpRequest → WSFrameMessage → State → Int × State × List SentMessage
  onClose : HttpRequest → State → Int × State × List SentMessage

namespace Answerer

variable {State : Type}

def servlet (self : Answerer State) : WSServlet State where
  onConnect := fun header state session => do
    let (rt, state, replies) := self.onConnect header state
    let session ← session.send replies
    .ok (rt, state, session)
  handle := fun header msg state session => do
    let (rt, state, replies) := self.handle header msg state
    let session ← session.send replies
    .ok (rt, state, session)
  onClose := fun header state session => do
    let (rt, state, replies) := self.onClose header state
    let session ← session.send replies
    .ok (rt, state, session)

theorem servlet_on_connect (self : Answerer State) (header : HttpRequest) (state : State)
    (session : WSSession) : self.servlet.onConnect header state session = (do
      let session ← session.send (self.onConnect header state).2.2
      .ok ((self.onConnect header state).1, (self.onConnect header state).2.1, session)) := rfl

theorem servlet_handle (self : Answerer State) (header : HttpRequest) (msg : WSFrameMessage)
    (state : State) (session : WSSession) : self.servlet.handle header msg state session = (do
      let session ← session.send (self.handle header msg state).2.2
      .ok ((self.handle header msg state).1, (self.handle header msg state).2.1, session)) := rfl

theorem servlet_on_close (self : Answerer State) (header : HttpRequest) (state : State)
    (session : WSSession) : self.servlet.onClose header state session = (do
      let session ← session.send (self.onClose header state).2.2
      .ok ((self.onClose header state).1, (self.onClose header state).2.1, session)) := rfl

/-- What the messages of a client leave in the state, what is sent for them, and whether a call of
`handle` ended the loop. -/
def heard (self : Answerer State) (header : HttpRequest) :
    List SentMessage → State → State × List SentMessage × Bool
  | [], state => (state, [], false)
  | message :: later, state =>
      let (rt, state, replies) := self.handle header message.received state
      if rt ≠ 0 then (state, replies, true)
      else
        let (state, more, ended) := heard self header later state
        (state, replies ++ more, ended)

/-- The servlet is connected once, given the messages in order until one ends the loop, and closed
once. When the client has ended, the stream is closed already, and what `onClose` sends is lost. -/
def dialogue (self : Answerer State) (header : HttpRequest) (messages : List SentMessage)
    (state : State) : State × List SentMessage :=
  let (rt, state, greeting) := self.onConnect header state
  if rt ≠ 0 then (state, greeting)
  else
    let (state, replies, ended) := self.heard header messages state
    let (_, state, farewell) := self.onClose header state
    (state, greeting ++ (replies ++ (if ended then farewell else [])))

theorem replies_narrow {maxSize : UInt32} {replies : List SentMessage}
    (suits : ∀ reply ∈ replies, reply.Suits maxSize false) :
    ∀ reply ∈ replies, Narrow reply.sends reply.last :=
  fun reply member => (suits reply member).counted.counted_narrow

theorem handle_messages_heard (self : Answerer State) (header : HttpRequest)
    {maxSize readerMax : UInt32} (messages : List SentMessage) :
    ∀ {state : State} {stream : Stream} {rounds : Nat},
      Carries true messages stream.incoming → messages.length < rounds →
      (∀ message ∈ messages, message.Suits maxSize true) →
      (∀ reply ∈ (self.heard header messages state).2.1, reply.Suits readerMax false) →
      ∃ after text, WSServer.handleMessages maxSize self.servlet header rounds state
          ⟨stream, false⟩ = .ok ((self.heard header messages state).1,
            ⟨after, !(self.heard header messages state).2.2⟩) ∧
        after.outgoing = stream.outgoing ++ text ∧
        Carries false (self.heard header messages state).2.1 text := by
  induction messages with
  | nil =>
      intro state stream rounds carries enough suits replied
      cases rounds with
      | zero => cases enough
      | succ rounds =>
          obtain ⟨after, text, returned, _, pongs, wrote⟩ :=
            WSSession.recv_message_carried carries suits
          refine ⟨after, text, ?_, wrote, carries_pongs pongs⟩
          rw [WSServer.handleMessages, returned]
          rfl
  | cons message later induction =>
      intro state stream rounds carries enough suits replied
      cases rounds with
      | zero => cases enough
      | succ rounds =>
          obtain ⟨middle, text, returned, behind, pongs, wrote⟩ :=
            WSSession.recv_message_carried carries suits
          have handled := self.servlet_handle header message.received state
          rw [heard] at replied ⊢
          generalize answer : self.handle header message.received state = answered
            at handled replied ⊢
          obtain ⟨rt, next, replies⟩ := answered
          dsimp only at handled replied ⊢
          by_cases stops : rt ≠ 0
          · rw [if_pos stops] at replied ⊢
            obtain ⟨after, sent, spoke, _⟩ :=
              @WSSession.send_replies replies middle (replies_narrow replied)
            refine ⟨after, text ++ replies.flatMap fun reply => (reply.framed false).bytes, ?_, ?_,
              carries_behind pongs (carries_messages replies)⟩
            · rw [WSServer.handleMessages, returned, bind_ok]
              dsimp only [List.head?_cons, Option.map_some, List.isEmpty_cons]
              rw [handled, sent, bind_ok, bind_ok]
              exact if_pos stops
            · rw [spoke, wrote, List.append_assoc]
          · rw [if_neg stops] at replied ⊢
            dsimp only at replied ⊢
            obtain ⟨second, sent, spoke, unread⟩ := @WSSession.send_replies replies middle
              (replies_narrow fun reply member => replied reply (List.mem_append_left _ member))
            rw [List.tail_cons, ← unread] at behind
            obtain ⟨after, more, looped, final, others⟩ := @induction next second rounds behind
              (by simpa using enough)
              (fun other member => suits other (List.mem_cons_of_mem _ member))
              (fun reply member => replied reply (List.mem_append_right _ member))
            refine ⟨after, text ++ (replies.flatMap (fun reply => (reply.framed false).bytes) ++
              more), ?_, ?_, carries_behind pongs
                (carries_append (carries_messages replies) others)⟩
            · rw [WSServer.handleMessages, returned, bind_ok]
              dsimp only [List.head?_cons, Option.map_some, List.isEmpty_cons]
              rw [handled, sent, bind_ok, bind_ok]
              exact (if_neg stops).trans looped
            · rw [final, spoke, wrote, List.append_assoc, List.append_assoc]

/-- From `onConnect` to `onClose`. -/
theorem serve_dialogue (self : Answerer State) (header : HttpRequest) (state : State)
    {maxSize readerMax : UInt32} {messages : List SentMessage} {stream : Stream}
    (carries : Carries true messages stream.incoming)
    (suits : ∀ message ∈ messages, message.Suits maxSize true)
    (replied : ∀ reply ∈ (self.dialogue header messages state).2, reply.Suits readerMax false) :
    ∃ after closed text, WSServer.serve maxSize self.servlet header state ⟨stream, false⟩ =
        .ok ((self.dialogue header messages state).1, ⟨after, closed⟩) ∧
      after.outgoing = stream.outgoing ++ text ∧
      Carries false (self.dialogue header messages state).2 text := by
  obtain ⟨rt, next, greeting, connected⟩ :
      ∃ rt next greeting, self.onConnect header state = (rt, next, greeting) := ⟨_, _, _, rfl⟩
  have connecting : ∀ session, self.servlet.onConnect header state session =
      (do
        let session ← session.send greeting
        .ok (rt, next, session)) := by
    intro session
    rw [servlet_on_connect, connected]
  by_cases refused : rt ≠ 0
  · have short : self.dialogue header messages state = (next, greeting) := by
      rw [dialogue, connected]
      exact if_pos refused
    rw [short] at replied ⊢
    obtain ⟨after, sent, spoke, _⟩ :=
      @WSSession.send_replies greeting stream (replies_narrow replied)
    refine ⟨after, false, _, ?_, spoke, carries_messages greeting⟩
    rw [WSServer.serve, connecting, sent, bind_ok, bind_ok]
    exact if_pos refused
  obtain ⟨last, replies, ended, spoken⟩ :
      ∃ last replies ended, self.heard header messages next = (last, replies, ended) :=
    ⟨_, _, _, rfl⟩
  obtain ⟨value, final, farewell, parted⟩ :
      ∃ value final farewell, self.onClose header last = (value, final, farewell) :=
    ⟨_, _, _, rfl⟩
  have closing : ∀ session, self.servlet.onClose header last session =
      (do
        let session ← session.send farewell
        .ok (value, final, session)) := by
    intro session
    rw [servlet_on_close, parted]
  have whole : self.dialogue header messages state =
      (final, greeting ++ (replies ++ if ended then farewell else [])) := by
    rw [dialogue, connected]
    dsimp only
    rw [if_neg refused, spoken]
    exact congrArg (fun closed : Int × State × List SentMessage =>
      (closed.2.1, greeting ++ (replies ++ if ended then closed.2.2 else []))) parted
  rw [whole] at replied ⊢
  obtain ⟨first, sent, spoke, unread⟩ := @WSSession.send_replies greeting stream
    (replies_narrow fun reply member => replied reply (List.mem_append_left _ member))
  rw [← unread] at carries
  have enough : messages.length < first.incoming.length + 1 :=
    Nat.lt_succ_of_le (carried_length carries)
  have suited : ∀ reply ∈ (self.heard header messages next).2.1, reply.Suits readerMax false := by
    rw [spoken]
    exact fun reply member => replied reply
      (List.mem_append_right _ (List.mem_append_left _ member))
  obtain ⟨second, text, looped, wrote, others⟩ :=
    self.handle_messages_heard header messages carries enough suits suited
  rw [spoken] at looped others
  cases ended with
  | false =>
      refine ⟨second, true, _ ++ (text ++ []), ?_, ?_,
        carries_append (carries_messages greeting) (carries_append others .ended)⟩
      · rw [WSServer.serve, connecting, sent, bind_ok, bind_ok]
        dsimp only
        rw [if_neg refused, looped, bind_ok]
        dsimp only
        rw [closing, Bool.not_false, WSSession.send_closed]
        rfl
      · rw [wrote, spoke, List.append_nil, List.append_assoc]
  | true =>
      obtain ⟨after, sentLast, said, _⟩ := @WSSession.send_replies farewell second
        (replies_narrow fun reply member => replied reply
          (List.mem_append_right _ (List.mem_append_right _ member)))
      refine ⟨after, false, _ ++ (text ++ _), ?_, ?_,
        carries_append (carries_messages greeting)
          (carries_append others (carries_messages farewell))⟩
      · rw [WSServer.serve, connecting, sent, bind_ok, bind_ok]
        dsimp only
        rw [if_neg refused, looped, bind_ok]
        dsimp only
        rw [closing, Bool.not_true, sentLast]
        rfl
      · rw [said, wrote, spoke, List.append_assoc, List.append_assoc]

end Answerer

namespace WSServer

variable {State : Type}

/-- A client that asks for a servlet and sends messages is given the response of the handshake,
and behind it exactly the replies of that servlet, in order. -/
theorem dialogue_held (sha1sum : Str → Str) (fnmatch : Str → Str → Bool)
    (maxSize readerMax : UInt32) (dispatch : ServletDispatch (Option (WSServlet State)))
    (self : Answerer State) (header : HttpRequest) (state : State)
    (messages : List SentMessage) (stream : Stream) (upgrades : header.upgrades = true)
    (matched : dispatch.getMatchedServlet fnmatch header.path = some self.servlet)
    (carries : Carries true messages stream.incoming)
    (suits : ∀ message ∈ messages, message.Suits maxSize true)
    (replied : ∀ reply ∈ (self.dialogue header messages state).2, reply.Suits readerMax false) :
    ∃ after text, handleClient sha1sum fnmatch maxSize dispatch (some header) state
        ⟨stream, false⟩ = .ok ((self.dialogue header messages state).1, ⟨after, true⟩) ∧
      after.outgoing = stream.outgoing ++ ((header.switching sha1sum).dump ++ text) ∧
      ∀ reader : Stream, reader.incoming = text →
        ∃ last, receiveMessages readerMax true (text.length + 1) reader =
          .ok ((self.dialogue header messages state).2.map SentMessage.received, last) := by
  obtain ⟨shaken, wrote, outgoing, unread⟩ :=
    stream.write_fix_buffer_sends (header.switching sha1sum).dump
  rw [← unread] at carries
  obtain ⟨after, closed, text, served, spoke, replies⟩ :=
    self.serve_dialogue header state carries suits replied
  refine ⟨after, text, ?_, ?_, ?_⟩
  · rw [handleClient, WSSession.handleShake]
    dsimp only
    rw [if_pos upgrades, wrote, bind_ok, bind_ok]
    dsimp only
    rw [matched]
    dsimp only
    rw [served, bind_ok]
    rfl
  · rw [spoke, outgoing, List.append_assoc]
  · intro reader arrives
    rw [← arrives] at replies ⊢
    exact receive_messages_carried _ replies (Nat.lt_succ_of_le (carried_length replies)) replied

def textMessage (byte : UInt8) : SentMessage :=
  ⟨.text, [], ⟨[byte], 0x01020304, List.cons_ne_nil _ _, show 1 < 2 ^ 63 by decide⟩⟩

def twice : Answerer Nat where
  onConnect := fun _ state => (0, state, [textMessage 0x48])
  handle := fun _ _ state => (if state = 0 then 0 else 1, state + 1, [textMessage 0x41])
  onClose := fun _ state => (0, state, [textMessage 0x42])

def upgradeHeader : HttpRequest where
  path := ascii "/chat"
  headers := [(ascii "Upgrade", ascii "websocket"), (ascii "connection", ascii "upgrade"),
    (ascii "Sec-WebSocket-Version", ascii "13"), (ascii "Sec-WebSocket-Key", ascii "a2V5")]

/-- Three messages behind a PING, the first of them in two fragments; the last one is not read. -/
theorem dialogue_held_twice :
    let split : SentMessage := ⟨.bin, [.fragment ⟨[1, 2], 7, by decide, by decide⟩, .ping],
      ⟨[3], 8, by decide, by decide⟩⟩
    let messages := [split, textMessage 0x78, textMessage 0x79]
    let dispatch := (ServletDispatch.new none).apply
      (.addServlet (ascii "/chat") (some twice.servlet))
    let incoming := controlBytes .ping ++
      messages.flatMap (fun message => (message.framed true).bytes)
    let sha1sum : Str → Str := fun text => text.take 20
    ∃ after text, handleClient sha1sum (fun _ _ => false) 33554432 dispatch
        (some upgradeHeader) 0 ⟨⟨incoming, [], fun call => call % 3, 4096, by decide⟩, false⟩ =
          .ok (2, ⟨after, true⟩) ∧
      after.outgoing = [] ++ ((upgradeHeader.switching sha1sum).dump ++ text) ∧
      ∀ reader : Stream, reader.incoming = text →
        ∃ last, receiveMessages 33554432 true (text.length + 1) reader =
          .ok (([0x48, 0x41, 0x41, 0x42].map textMessage).map SentMessage.received, last) := by
  intro split messages dispatch incoming sha1sum
  have fits : ∀ message ∈ messages, message.Suits 33554432 true := by
    intro message member
    rcases List.mem_cons.mp member with first | member
    · rw [first]
      exact ⟨by decide, by decide, by decide, fun _ => by decide⟩
    · rcases List.mem_cons.mp member with second | member
      · rw [second]
        exact ⟨by decide, by decide, by decide, fun _ => by decide⟩
      · rw [List.mem_singleton.mp member]
        exact ⟨by decide, by decide, by decide, fun _ => by decide⟩
  have replied : ∀ reply ∈ (twice.dialogue upgradeHeader messages 0).2,
      reply.Suits 33554432 false := by
    intro reply member
    obtain ⟨byte, _, rfl⟩ := List.mem_map.mp
      (show reply ∈ [0x48, 0x41, 0x41, 0x42].map textMessage from member)
    exact ⟨show 1 < (33554432 : UInt32).toNat by decide, show 0 < 2 ^ 31 by decide,
      show 1 < 2 ^ 31 by decide, nofun⟩
  exact dialogue_held sha1sum (fun _ _ => false) 33554432 33554432 dispatch twice upgradeHeader 0
    messages ⟨incoming, [], fun call => call % 3, 4096, by decide⟩ (by decide +kernel) rfl
    ((carries_messages messages).control .ping) fits replied

end WSServer

end ChatServer.Http
