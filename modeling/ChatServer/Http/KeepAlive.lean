import ChatServer.Http.HeadCuts

/-!
# Requests back to back

Every call of `recvRequest` reads into a buffer of its own. What the read of a head brings beyond
the request goes with that buffer, so the calls return the requests of a connection exactly when
each request is read apart from the next one.
-/

namespace ChatServer.Http

set_option autoImplicit false

open ChatServer.Http2 (ascii sameKey)

variable {machine : HttpMachine}

/-- A request as it is written: the head announces the length of the body. -/
structure Request (machine : HttpMachine) where
  head : RequestHead machine
  body : Str
  announced : head.parsed.getContentLength = body.length

namespace Request

def bytes (request : Request machine) : Str := request.head.bytes ++ request.body

def message (request : Request machine) : HttpRequest :=
  let data := request.head.parsed.data
  let asked := if sameKey (data.getHeader (ascii "Expect")) (ascii "100-continue") then
    data.delHeader (ascii "Expect") else data
  (if request.body = [] then asked else asked.setBody request.body).init

def wire (requests : List (Request machine)) : Str := (requests.map bytes).flatten

def firstRead (config : HttpConfig) (ready : Nat → Nat) (requests : List (Request machine)) : Nat :=
  min (ready 0 + 1) (min config.buffSize (wire requests).length)

/-- Every head lies within one read, when the requests before it are taken to their ends. -/
def HeadsWhole (config : HttpConfig) : (Nat → Nat) → List (Request machine) → Prop
  | _, [] => True
  | ready, request :: later =>
      request.head.bytes.length ≤ min (ready 0 + 1) config.buffSize ∧
        HeadsWhole config (fun place => ready (request.bytes.length + place)) later

/-- The read of a head brings nothing beyond the request, and what is left of the body can be
returned as an `int`. -/
def Apart (config : HttpConfig) (ready : Nat → Nat) (request : Request machine)
    (later : List (Request machine)) : Prop :=
  let read := firstRead config ready (request :: later)
  read ≤ request.bytes.length ∧ request.body.length < 2 ^ 63 ∧
    (read < request.bytes.length → 0 < int32 (request.bytes.length - read : Nat))

def AllApart (config : HttpConfig) : (Nat → Nat) → List (Request machine) → Prop
  | _, [] => True
  | ready, request :: later =>
      Apart config ready request later ∧
        AllApart config (fun place => ready (request.bytes.length + place)) later

/-- Calls one after another return the requests in order, and none takes a byte of a later
request. -/
def Served (config : HttpConfig) (queryStart : Nat) :
    List (Request machine) → SocketStream → Prop
  | [], _ => True
  | request :: later, stream => ∃ after,
      recvRequest machine config queryStart stream = .ok (some request.message, after) ∧
        after.incoming = wire later ∧ Served config queryStart later after

end Request

theorem int64_small {value : Nat} (small : value < 2 ^ 63) : int64 value = value := by
  unfold int64
  rw [Int.bmod_eq_of_le]
  · omega
  · omega

theorem int64_lt (value : Nat) : int64 value < 2 ^ 63 := by
  have upper := Int.bmod_lt (x := value) (m := 2 ^ 64) (Nat.two_pow_pos 64)
  unfold int64
  omega

theorem int64_le (value : Nat) : int64 value ≤ value := by
  unfold int64
  rw [Int.bmod_def]
  omega

theorem answer_expect_stream (data : HttpRequest) (stream : SocketStream) :
    ∃ outgoing, (answerExpect data stream).2 = { stream with outgoing } := by
  rw [answerExpect]
  split
  · exact ⟨_, rfl⟩
  · exact ⟨_, rfl⟩

theorem recv_body_held (config : HttpConfig) (parser : HttpRequestParser) (held : Str)
    (stream : SocketStream)
    (whole : 0 < int64 parser.getContentLength → int64 parser.getContentLength ≤ held.length) :
    ∃ outgoing, recvBody config parser held stream =
      .ok (some (if 0 < int64 parser.getContentLength then
          (answerExpect parser.data stream).1.setBody
            (held.take (int64 parser.getContentLength).toNat)
        else (answerExpect parser.data stream).1).init, { stream with outgoing }) := by
  rcases answer_expect_stream parser.data stream with ⟨outgoing, same⟩
  refine ⟨outgoing, ?_⟩
  rw [recvBody, ← same]
  dsimp only
  by_cases some : 0 < int64 parser.getContentLength
  · have within := whole some
    rw [if_pos some, if_pos some, if_neg (by omega)]
  · rw [if_neg some, if_neg some]

theorem recv_body_left (config : HttpConfig) (parser : HttpRequestParser) (held : Str)
    (stream : SocketStream) (left : Nat) (connected : stream.connected = true) (some : 0 < left)
    (length : int64 parser.getContentLength = held.length + left)
    (there : left ≤ stream.incoming.length) :
    ∃ outgoing, recvBody config parser held stream =
      if int32 left ≤ 0 then .ok (none, { stream.advance left with outgoing, connected := false })
      else .ok (Option.some ((answerExpect parser.data stream).1.setBody
        (held ++ stream.incoming.take left)).init, { stream.advance left with outgoing }) := by
  rcases answer_expect_stream parser.data stream with ⟨outgoing, same⟩
  refine ⟨outgoing, ?_⟩
  have rest : (int64 parser.getContentLength - held.length).toNat = left := by omega
  have read : SocketStream.readFixSize config { stream with outgoing } left =
      .ok (int32 left, stream.incoming.take left, { stream.advance left with outgoing }) :=
    @SocketStream.read_fix_size_takes config { stream with outgoing } connected left there
  rw [recvBody]
  dsimp only
  rw [same, if_pos (by omega), if_pos (by omega), rest, read, bind_ok,
    List.take_of_length_le (show held.length ≤ (int64 parser.getContentLength).toNat by omega)]
  dsimp only
  by_cases late : int32 left ≤ 0
  · rw [if_pos late, if_pos late]
    rfl
  · rw [if_neg late, if_neg late]

namespace Request

theorem message_eq (request : Request machine) (stream : SocketStream) :
    request.message = (if request.body = [] then
      (answerExpect request.head.parsed.data stream).1
    else (answerExpect request.head.parsed.data stream).1.setBody request.body).init := by
  rw [message, answerExpect]
  by_cases expects : sameKey (request.head.parsed.data.getHeader (ascii "Expect"))
      (ascii "100-continue") = true
  · rw [if_pos expects, if_pos expects]
  · rw [if_neg expects, if_neg expects]

theorem wire_cons (request : Request machine) (later : List (Request machine)) :
    wire (request :: later) = request.head.bytes ++ (request.body ++ wire later) := by
  simp [wire, bytes]

theorem recv_first (config : HttpConfig) (queryStart : Nat) (request : Request machine)
    (later : List (Request machine)) {stream : SocketStream} (connected : stream.connected = true)
    (arrives : stream.incoming = wire (request :: later))
    (whole : request.head.bytes.length ≤ min (stream.ready 0 + 1) config.buffSize) :
    recvRequest machine config queryStart stream =
      recvBody config request.head.parsed
        ((request.body ++ wire later).take
          (firstRead config stream.ready (request :: later) - request.head.bytes.length))
        (stream.advance (firstRead config stream.ready (request :: later))) := by
  have reads : firstRead config stream.ready (request :: later) =
      stream.arriving config.buffSize := by
    rw [firstRead, ← arrives, SocketStream.arriving]
  rw [reads]
  exact recv_request_first config request.head queryStart connected
    (arrives.trans (wire_cons _ _)) whole

theorem first_read_bounds (config : HttpConfig) (ready : Nat → Nat) (request : Request machine)
    (later : List (Request machine))
    (whole : request.head.bytes.length ≤ min (ready 0 + 1) config.buffSize) :
    request.head.bytes.length ≤ firstRead config ready (request :: later) ∧
      firstRead config ready (request :: later) ≤ config.buffSize ∧
      firstRead config ready (request :: later) ≤
        request.head.bytes.length + (request.body.length + (wire later).length) := by
  have total := congrArg List.length (wire_cons request later)
  rw [List.length_append, List.length_append] at total
  unfold firstRead
  omega

theorem recv_first_served (config : HttpConfig) (queryStart : Nat) (request : Request machine)
    (later : List (Request machine)) {stream : SocketStream} (connected : stream.connected = true)
    (arrives : stream.incoming = wire (request :: later))
    (whole : request.head.bytes.length ≤ min (stream.ready 0 + 1) config.buffSize)
    (apart_ : Apart config stream.ready request later) :
    ∃ outgoing, recvRequest machine config queryStart stream =
      .ok (some request.message, { stream.advance request.bytes.length with outgoing }) := by
  rcases apart_ with ⟨within, small, returned⟩
  have bounds := first_read_bounds config stream.ready request later whole
  rw [recv_first config queryStart request later connected arrives whole, bytes,
    List.length_append] at *
  generalize firstRead config stream.ready (request :: later) = read at *
  have announced : int64 request.head.parsed.getContentLength = request.body.length := by
    rw [request.announced, int64_small small]
  have held : (request.body ++ wire later).take (read - request.head.bytes.length) =
      request.body.take (read - request.head.bytes.length) :=
    List.take_append_of_le_length (by omega)
  rw [held]
  by_cases all : read = request.head.bytes.length + request.body.length
  · have exactly : request.body.take (read - request.head.bytes.length) = request.body :=
      List.take_of_length_le (by omega)
    rw [exactly, ← all]
    rcases recv_body_held config request.head.parsed request.body (stream.advance read)
      (by rw [announced]; omega) with ⟨outgoing, received⟩
    refine ⟨outgoing, received.trans ?_⟩
    rw [message_eq request (stream.advance read), announced, Int.toNat_natCast, List.take_length]
    by_cases none : request.body = []
    · rw [if_pos none, none, if_neg (by simp)]
    · rw [if_neg none, if_pos (Int.natCast_pos.mpr (List.length_pos_iff.mpr none))]
  · have short : read < request.head.bytes.length + request.body.length := by omega
    have some : request.body ≠ [] := by
      intro none
      rw [none, List.length_nil] at short
      omega
    have heldLength : (request.body.take (read - request.head.bytes.length)).length =
        read - request.head.bytes.length := by
      rw [List.length_take]
      omega
    have total := congrArg List.length (arrives.trans (wire_cons request later))
    rw [List.length_append, List.length_append] at total
    have behind : stream.incoming.drop read =
        request.body.drop (read - request.head.bytes.length) ++ wire later := by
      rw [arrives, wire_cons, List.drop_append, List.drop_eq_nil_of_le bounds.1, List.nil_append,
        List.drop_append_of_le_length (by omega)]
    rcases recv_body_left config request.head.parsed
      (request.body.take (read - request.head.bytes.length)) (stream.advance read)
      (request.head.bytes.length + request.body.length - read) connected (by omega)
      (by rw [announced, heldLength]; omega)
      (by rw [SocketStream.advance_incoming, List.length_drop]; omega) with ⟨outgoing, received⟩
    have body : request.body.take (read - request.head.bytes.length) ++
        (stream.incoming.drop read).take
          (request.head.bytes.length + request.body.length - read) = request.body := by
      have length : (request.body.drop (read - request.head.bytes.length)).length =
          request.head.bytes.length + request.body.length - read := by
        rw [List.length_drop]
        omega
      rw [behind, ← length, List.take_left, List.take_append_drop]
    refine ⟨outgoing, ?_⟩
    rw [received, if_neg (Int.not_le.mpr (returned short)), SocketStream.advance_incoming, body,
      SocketStream.advance_advance, Nat.add_sub_cancel' (Nat.le_of_lt short),
      message_eq request (stream.advance read), if_neg some]

/-- A call that returns the request and leaves the later ones has read it apart from them. -/
theorem recv_first_apart (config : HttpConfig) (queryStart : Nat) (request : Request machine)
    (later : List (Request machine)) {stream after : SocketStream}
    (connected : stream.connected = true) (arrives : stream.incoming = wire (request :: later))
    (whole : request.head.bytes.length ≤ min (stream.ready 0 + 1) config.buffSize)
    (received : recvRequest machine config queryStart stream = .ok (some request.message, after))
    (left : after.incoming = wire later) : Apart config stream.ready request later := by
  have bounds := first_read_bounds config stream.ready request later whole
  have total := congrArg List.length (arrives.trans (wire_cons request later))
  rw [List.length_append, List.length_append] at total
  have buffSize := config.buffSizeInt
  have most := int64_lt request.body.length
  have atMost := int64_le request.body.length
  rw [recv_first config queryStart request later connected arrives whole] at received
  rw [Apart, bytes, List.length_append]
  generalize firstRead config stream.ready (request :: later) = read at *
  have held : ((request.body ++ wire later).take (read - request.head.bytes.length)).length =
      read - request.head.bytes.length := by
    rw [List.length_take, List.length_append]
    omega
  by_cases inside : 0 < int64 request.body.length →
      int64 request.body.length ≤ read - request.head.bytes.length
  · rcases recv_body_held config request.head.parsed
      ((request.body ++ wire later).take (read - request.head.bytes.length))
      (stream.advance read) (by rw [request.announced, held]; omega) with ⟨outgoing, same⟩
    have stopped : _ = after := congrArg Prod.snd (Except.ok.inj (same.symm.trans received))
    rw [← stopped] at left
    have lengths := congrArg List.length left
    simp only [SocketStream.advance_incoming, List.length_drop] at lengths
    refine ⟨?_, ?_, ?_⟩
    · omega
    · omega
    · intro short
      omega
  · have more : 0 < int64 request.body.length ∧
        (read - request.head.bytes.length : Nat) < int64 request.body.length := by omega
    rcases Int.eq_ofNat_of_zero_le (Int.le_of_lt more.1) with ⟨length, same⟩
    rw [same] at more most atMost
    rcases recv_body_left config request.head.parsed
      ((request.body ++ wire later).take (read - request.head.bytes.length))
      (stream.advance read) (length - (read - request.head.bytes.length)) connected (by omega)
      (by rw [request.announced, held, same]; omega)
      (by rw [SocketStream.advance_incoming, List.length_drop]; omega) with ⟨outgoing, ran⟩
    rw [ran] at received
    by_cases late : int32 (length - (read - request.head.bytes.length) : Nat) ≤ 0
    · rw [if_pos late] at received
      cases received
    · rw [if_neg late] at received
      have stopped : _ = after := congrArg Prod.snd (Except.ok.inj received)
      rw [← stopped] at left
      have lengths := congrArg List.length left
      simp only [SocketStream.advance_incoming, List.length_drop] at lengths
      have rest : length - (read - request.head.bytes.length) =
          request.head.bytes.length + request.body.length - read := by omega
      refine ⟨?_, ?_, ?_⟩
      · omega
      · omega
      · intro _
        rw [← rest]
        exact Int.not_le.mp late

/-- Requests written back to back are returned in order, each with its body and without a byte of
the next, exactly when every read of a head stays within its request and the rest of the body has
a size that is positive as an `int`. -/
theorem served_iff_all_apart (config : HttpConfig) (queryStart : Nat)
    (requests : List (Request machine)) {stream : SocketStream}
    (connected : stream.connected = true) (arrives : stream.incoming = wire requests)
    (whole : HeadsWhole config stream.ready requests) :
    Served config queryStart requests stream ↔ AllApart config stream.ready requests := by
  induction requests generalizing stream with
  | nil => exact Iff.rfl
  | cons request later induction =>
      rcases whole with ⟨first, rest⟩
      have behind : (stream.advance request.bytes.length).incoming = wire later := by
        rw [SocketStream.advance_incoming, arrives, wire, List.map_cons, List.flatten_cons,
          List.drop_left]
        rfl
      constructor
      · intro served
        rcases served with ⟨after, received, left, servedRest⟩
        have apart_ := recv_first_apart config queryStart request later connected arrives first
          received left
        rcases recv_first_served config queryStart request later connected arrives first apart_ with
          ⟨outgoing, same⟩
        have stopped : _ = after := congrArg Prod.snd (Except.ok.inj (same.symm.trans received))
        rw [← stopped] at servedRest
        refine ⟨apart_, (induction ?_ ?_ ?_).mp servedRest⟩
        · exact connected
        · exact behind
        · exact rest
      · intro apart_
        rcases recv_first_served config queryStart request later connected arrives first
          apart_.1 with ⟨outgoing, same⟩
        refine ⟨_, same, behind, (induction ?_ ?_ ?_).mpr apart_.2⟩
        · exact connected
        · exact behind
        · exact rest

end Request
def plainRequest : Request originForm := ⟨plainHead, [], by decide +kernel⟩

def putHead : RequestHead originForm where
  bytes := ascii "PUT / HTTP/1.1\r\nContent-Length: 3\r\n\r\n"
  parsed := {
    parser := {
      cs := 348
      bodyStart := 37
      mark := 32
      fieldStart := 35
      fieldLen := 14
      queryStart := 0
      xmlSent := false
      jsonSent := false }
    data := { method := .put, headers := [(ascii "Content-Length", ascii "3")] }
    error := 0 }
  accepted := by decide +kernel
  correct := by decide
  finished := by decide
  closed := by decide +kernel

def putRequest : Request originForm := ⟨putHead, ascii "abc", by decide +kernel⟩

/-- Both requests are there from the start; the first read ends in the body or brings them all. -/
def putThenPlain (first : Nat) : SocketStream where
  connected := true
  incoming := Request.wire [putRequest, plainRequest]
  ready := fun place => if place = 0 then first - 1 else 100
  outgoing := []

namespace Request

theorem served_iff_all_apart_two :
    Served defaultConfig 0 [putRequest, plainRequest] (putThenPlain 38) := by
  apply (served_iff_all_apart defaultConfig 0 [putRequest, plainRequest] rfl rfl _).mpr
  · refine ⟨⟨?_, ?_, ?_⟩, ⟨?_, ?_, ?_⟩, trivial⟩ <;> decide +kernel
  · refine ⟨?_, ?_, trivial⟩ <;> decide +kernel

/-- The read that brings the first request brings the second one, which is lost. -/
theorem requests_in_one_read :
    ¬ ∀ (machine : HttpMachine) (config : HttpConfig) (queryStart : Nat)
      (requests : List (Request machine)) (stream : SocketStream), stream.connected = true →
      stream.incoming = wire requests → HeadsWhole config stream.ready requests →
      Served config queryStart requests stream := by
  intro always
  rcases always originForm defaultConfig 0 [putRequest, plainRequest] (putThenPlain 100) rfl rfl
    ⟨by decide +kernel, by decide +kernel, trivial⟩ with ⟨after, received, left, _⟩
  have apart_ := recv_first_apart defaultConfig 0 putRequest [plainRequest] rfl rfl
    (by decide +kernel) received left
  exact absurd apart_.1 (by decide +kernel)

end Request
end ChatServer.Http
