import ChatServer.Http.HttpParser

/-!
# Receiving requests

`HttpSession::recvRequest` over a connected `SocketStream`. How the bytes come is a matter of the
reader's place: at every place some number of bytes is there to be read at once. That describes
every way of cutting the bytes into reads, whoever asks for how many of them.
-/

namespace ChatServer.Http

set_option autoImplicit false

open ChatServer.Http2 (HttpMessage ascii sameKey)

/-- The configured sizes: `http.request.buffer_size` or `http.response.buffer_size`, an `int` where
the code compares with it, and `socket.buff_size`. -/
structure HttpConfig where
  buffSize : Nat
  buffSizeInt : buffSize < 2 ^ 31
  maxLen : Nat
  maxLenPos : 0 < maxLen

theorem default_max_len_pos : 0 < 4096 := by decide

def defaultConfig : HttpConfig where
  buffSize := 4096
  buffSizeInt := by decide
  maxLen := 4096
  maxLenPos := default_max_len_pos

structure SocketStream where
  connected : Bool
  /-- Bytes of the peer that were not received yet. -/
  incoming : Str
  /-- How many bytes, less one, are there at once when the reader has come so much further. -/
  ready : Nat → Nat
  outgoing : Str

namespace SocketStream

def advance (stream : SocketStream) (count : Nat) : SocketStream :=
  { stream with
    incoming := stream.incoming.drop count
    ready := fun place => stream.ready (count + place) }

def arriving (stream : SocketStream) (length : Nat) : Nat :=
  min (stream.ready 0 + 1) (min length stream.incoming.length)

/-- `read(void* buffer, size_t length)`; without a connection it brings nothing. -/
def read (stream : SocketStream) (length : Nat) : Str × SocketStream :=
  if stream.connected then
    (stream.incoming.take (stream.arriving length), stream.advance (stream.arriving length))
  else ([], stream)

def readFixLoop (config : HttpConfig) (length : Nat) :
    Nat → SocketStream → Str → Nat → Result (Int × Str × SocketStream)
  | 0, stream, buffer, left =>
      if 0 < left then .error (.undefined .endlessLoop) else .ok (int32 length, buffer, stream)
  | rounds + 1, stream, buffer, left =>
      if 0 < left then
        let (bytes, stream) := stream.read (min left config.maxLen)
        if bytes.length = 0 then .ok (0, buffer, stream)
        else readFixLoop config length rounds stream (buffer ++ bytes) (left - bytes.length)
      else .ok (int32 length, buffer, stream)

def readFixSize (config : HttpConfig) (stream : SocketStream) (length : Nat) :
    Result (Int × Str × SocketStream) := readFixLoop config length length stream [] length

/-- The peer takes what it is sent; `recvRequest` does not look whether it does. -/
def writeFixSize (stream : SocketStream) (bytes : Str) : SocketStream :=
  { stream with outgoing := stream.outgoing ++ bytes }

def close (stream : SocketStream) : SocketStream := { stream with connected := false }

end SocketStream

def int64 (value : Nat) : Int := (value : Int).bmod (2 ^ 64)

/-- The loop up to the end of the head; `held` is the data in front of `offset`. Every round
receives at least one byte or ends it. -/
def recvHead (machine : HttpMachine) (config : HttpConfig) :
    Nat → SocketStream → Str → HttpRequestParser →
      Result (Option (HttpRequestParser × Str) × SocketStream)
  | 0, _, _, _ => .error (.undefined .endlessLoop)
  | rounds + 1, stream, held, parser =>
      let (bytes, stream) := stream.read (config.buffSize - held.length)
      if bytes.length = 0 then .ok (none, stream.close)
      else do
        let data := held ++ bytes
        let (nparse, parser) ← parser.execute machine data
        let held := data.drop nparse
        if parser.hasError machine then .ok (none, stream.close)
        else if held.length = config.buffSize then .ok (none, stream.close)
        else if parser.isFinished machine then .ok (some (parser, held), stream)
        else recvHead machine config rounds stream held parser

def answerExpect (request : HttpRequest) (stream : SocketStream) : HttpRequest × SocketStream :=
  if sameKey (request.getHeader (ascii "Expect")) (ascii "100-continue") then
    (request.delHeader (ascii "Expect"),
      stream.writeFixSize (ascii "HTTP/1.1 100 Continue\r\n\r\n"))
  else (request, stream)

/-- What follows the head: a body is taken from the data held and then from the stream. Data
beyond the body goes with the buffer. -/
def recvBody (config : HttpConfig) (parser : HttpRequestParser) (held : Str)
    (stream : SocketStream) : Result (Option HttpRequest × SocketStream) :=
  let length := int64 parser.getContentLength
  let (request, stream) := answerExpect parser.data stream
  if 0 < length then
    let front := held.take length.toNat
    let left := length - held.length
    if 0 < left then do
      let (rt, bytes, stream) ← stream.readFixSize config left.toNat
      if rt ≤ 0 then .ok (none, stream.close)
      else .ok (some (request.setBody (front ++ bytes)).init, stream)
    else .ok (some (request.setBody front).init, stream)
  else .ok (some request.init, stream)

/-- `queryStart` is what the memory of the new parser holds in `query_start`. -/
def recvRequest (machine : HttpMachine) (config : HttpConfig) (queryStart : Nat)
    (stream : SocketStream) : Result (Option HttpRequest × SocketStream) := do
  let (head, stream) ← recvHead machine config (stream.incoming.length + 1) stream []
    (HttpRequestParser.new machine queryStart)
  match head with
  | none => .ok (none, stream)
  | some (parser, held) => recvBody config parser held stream

/-- One round of the loop whose data the parser takes without an error. -/
theorem recv_head_round {machine : HttpMachine} {config : HttpConfig} {stream next : SocketStream}
    {bytes : Str} {parser after : HttpRequestParser} {nparse : Nat} (held : Str) (rounds : Nat)
    (read : stream.read (config.buffSize - held.length) = (bytes, next)) (some : bytes.length ≠ 0)
    (executed : parser.execute machine (held ++ bytes) = .ok (nparse, after))
    (correct : after.hasError machine = false)
    (room : ((held ++ bytes).drop nparse).length ≠ config.buffSize) :
    recvHead machine config (rounds + 1) stream held parser =
      if after.isFinished machine then .ok (Option.some (after, (held ++ bytes).drop nparse), next)
      else recvHead machine config rounds next ((held ++ bytes).drop nparse) after := by
  rw [recvHead, read]
  dsimp only
  rw [if_neg some, executed, bind_ok]
  dsimp only
  rw [correct, if_neg Bool.false_ne_true, if_neg room]

namespace SocketStream

@[simp] theorem advance_connected (stream : SocketStream) (count : Nat) :
    (stream.advance count).connected = stream.connected := rfl

@[simp] theorem advance_incoming (stream : SocketStream) (count : Nat) :
    (stream.advance count).incoming = stream.incoming.drop count := rfl

@[simp] theorem advance_zero (stream : SocketStream) : stream.advance 0 = stream := by
  simp [advance]

@[simp] theorem advance_advance (stream : SocketStream) (first second : Nat) :
    (stream.advance first).advance second = stream.advance (first + second) := by
  simp [advance, Nat.add_assoc]

theorem read_open {stream : SocketStream} (connected : stream.connected = true) (length : Nat) :
    stream.read length = (stream.incoming.take (stream.arriving length),
      stream.advance (stream.arriving length)) := if_pos connected

/-- A read when `place` bytes were received. -/
theorem read_advanced {stream : SocketStream} (connected : stream.connected = true)
    (place length : Nat) :
    (stream.advance place).read length =
      ((stream.incoming.drop place).take ((stream.advance place).arriving length),
        stream.advance (place + (stream.advance place).arriving length)) := by
  rw [read_open ((advance_connected stream place).trans connected), advance_advance,
    advance_incoming]

theorem arriving_advanced (stream : SocketStream) (place length : Nat) :
    (stream.advance place).arriving length =
      min (stream.ready place + 1) (min length (stream.incoming.length - place)) := by
  rw [arriving, advance_incoming, List.length_drop]
  rfl

theorem arriving_le (stream : SocketStream) (length : Nat) :
    stream.arriving length ≤ length ∧ stream.arriving length ≤ stream.incoming.length := by
  unfold arriving
  omega

theorem arriving_pos {stream : SocketStream} {length : Nat} (asked : 0 < length)
    (there : 0 < stream.incoming.length) : 0 < stream.arriving length := by
  unfold arriving
  omega

theorem read_fix_loop_takes (config : HttpConfig) (length : Nat) (rounds : Nat) :
    ∀ (stream : SocketStream) (buffer : Str) (left : Nat), stream.connected = true →
      left ≤ rounds → left ≤ stream.incoming.length →
      readFixLoop config length rounds stream buffer left =
        .ok (int32 length, buffer ++ stream.incoming.take left, stream.advance left) := by
  induction rounds with
  | zero =>
      intro stream buffer left _ enough _
      have none : left = 0 := Nat.le_zero.mp enough
      subst none
      rw [readFixLoop, if_neg (Nat.lt_irrefl 0), List.take_zero, List.append_nil, advance_zero]
  | succ rounds induction =>
      intro stream buffer left connected enough there
      rw [readFixLoop]
      by_cases none : left = 0
      · subst none
        rw [if_neg (Nat.lt_irrefl 0), List.take_zero, List.append_nil, advance_zero]
      have some := Nat.pos_of_ne_zero none
      have positive : 0 < stream.arriving (min left config.maxLen) :=
        arriving_pos (Nat.lt_min.mpr ⟨some, config.maxLenPos⟩) (Nat.lt_of_lt_of_le some there)
      have within := arriving_le stream (min left config.maxLen)
      rw [if_pos some, read_open connected]
      generalize stream.arriving (min left config.maxLen) = rt at positive within
      have taken : (stream.incoming.take rt).length = rt := by
        rw [List.length_take]
        omega
      have short : rt ≤ left := Nat.le_trans within.1 (Nat.min_le_left _ _)
      dsimp only
      rw [taken, if_neg (by omega), induction (stream.advance rt) _ _ connected (by omega)
        (by rw [advance_incoming, List.length_drop]; omega), advance_advance, advance_incoming,
        List.append_assoc, ← List.take_add, Nat.add_sub_cancel' short]

/-- `readFixSize` takes exactly the next bytes when they come at all. -/
theorem read_fix_size_takes (config : HttpConfig) {stream : SocketStream}
    (connected : stream.connected = true) {length : Nat} (there : length ≤ stream.incoming.length) :
    stream.readFixSize config length =
      .ok (int32 length, stream.incoming.take length, stream.advance length) := by
  rw [readFixSize, read_fix_loop_takes config length length stream [] length connected
    (Nat.le_refl _) there, List.nil_append]

end SocketStream
end ChatServer.Http
