import ChatServer.Http.HttpParser

/-!
# The response parser

`httpclient_parser_execute` and the callbacks of `HttpResponseParser`. The same table reads the
head of a response and the size in front of each chunk; what it learns about chunks stands in the
parser beside the places it notes.
-/

namespace ChatServer.Http

set_option autoImplicit false

open ChatServer.Http2 (HttpMessage ascii sameKey)
open ScanTable

/-- The actions of `httpclient_parser.rl`. -/
inductive ResponseAction where
  | mark
  | startField
  | writeField
  | startValue
  | writeContentLen
  | writeConnectionClose
  | writeValue
  | reasonPhrase
  | statusCode
  | httpVersion
  | chunkSize
  | transChunked
  | done
  deriving DecidableEq, Repr

def ResponseAction.breaks (action : ResponseAction) : Bool := action = .done

/-- A table that `httpclient_parser.rl` generates. -/
structure HttpClientMachine where
  table : Table ResponseAction
  sound : table.Sound ResponseAction.breaks

structure HttpClientParser where
  cs : Nat
  bodyStart : Nat
  contentLen : Int
  chunked : Bool
  chunksDone : Bool
  mark : Nat
  fieldStart : Nat
  fieldLen : Int
  deriving DecidableEq

/-- A status is an `int` that need not be one of the enumeration. -/
structure HttpResponse extends HttpMessage where
  status : Int := 200
  version : UInt8 := 0x11
  close : Bool := true
  reason : Str := []
  deriving DecidableEq

namespace HttpResponse

def getHeader (response : HttpResponse) (key : Str) : Str :=
  (response.toHttpMessage.find key).getD []

def setBody (response : HttpResponse) (body : Str) : HttpResponse :=
  { response with toHttpMessage := { response.toHttpMessage with body } }

def initConnection (response : HttpResponse) : HttpResponse :=
  let conn := response.getHeader (ascii "connection")
  if conn ≠ [] then
    { response with
      close := if sameKey conn (ascii "keep-alive") then false else response.version = 0x10 }
  else response

end HttpResponse

structure HttpResponseParser where
  parser : HttpClientParser
  data : HttpResponse
  error : Nat
  deriving DecidableEq

def isSpace (byte : UInt8) : Bool := byte = 32 || (9 ≤ byte && byte ≤ 13)

def digitOf (byte : UInt8) : Nat :=
  if 48 ≤ byte ∧ byte ≤ 57 then byte.toNat - 48
  else if 97 ≤ byte ∧ byte ≤ 102 then byte.toNat - 87
  else if 65 ≤ byte ∧ byte ≤ 70 then byte.toNat - 55
  else 16

/-- `strtol(text, NULL, base)` for the bases 10 and 16; a value out of range is clamped. -/
def strtol (base : Nat) (text : Str) : Int :=
  let text := text.dropWhile isSpace
  let negative := text.head? = some 45
  let text := if text.head? = some 45 ∨ text.head? = some 43 then text.tail else text
  let hex := base = 16 ∧ text.head? = some 48 ∧ (text[1]? = some 120 ∨ text[1]? = some 88)
  let digits := (if hex then text.drop 2 else text).takeWhile fun byte => digitOf byte < base
  let value : Int := digits.foldl (fun value byte => base * value + digitOf byte) 0
  if negative then max (-2 ^ 63) (-value) else min (2 ^ 63 - 1) value

namespace HttpResponseParser

def onResponseReason (self : HttpResponseParser) (at_ : Str) (length : Int) :
    Result HttpResponseParser := do
  let text ← stringAt at_ length
  .ok { self with data.reason := text }

/-- `atoi` reads on behind the length it is given. -/
def onResponseStatus (self : HttpResponseParser) (at_ : Str) : HttpResponseParser :=
  { self with data.status := int32 (strtol 10 at_) }

def onResponseVersion (self : HttpResponseParser) (at_ : Str) (length : Int) :
    HttpResponseParser :=
  if strncmpEq at_ (ascii "HTTP/1.1") length then { self with data.version := 0x11 }
  else if strncmpEq at_ (ascii "HTTP/1.0") length then { self with data.version := 0x10 }
  else { self with error := 1001 }

def onResponseHttpField (self : HttpResponseParser) (field : Str) (flen : Int) (value : Str)
    (vlen : Int) : Result HttpResponseParser :=
  if flen = 0 then .ok self
  else do
    let name ← stringAt field flen
    let text ← stringAt value vlen
    let message := self.data.toHttpMessage.setHeader name text
    .ok { self with data := { self.data with toHttpMessage := message } }

/-- One action at `fpc`. The callbacks for chunks and for the end of the head do nothing, and
`close` is read nowhere. -/
def perform (buffer : Str) (fpc : Nat) (action : ResponseAction) (self : HttpResponseParser) :
    Result HttpResponseParser :=
  let parser := self.parser
  match action with
  | .mark | .startValue => .ok { self with parser.mark := fpc }
  | .startField => .ok { self with parser.fieldStart := fpc }
  | .writeField => .ok { self with parser.fieldLen := fpc - parser.fieldStart }
  | .writeContentLen =>
      .ok { self with parser.contentLen := int32 (strtol 10 (buffer.drop parser.mark)) }
  | .writeConnectionClose => .ok self
  | .writeValue =>
      self.onResponseHttpField (buffer.drop parser.fieldStart) parser.fieldLen
        (buffer.drop parser.mark) (fpc - parser.mark)
  | .reasonPhrase => self.onResponseReason (buffer.drop parser.mark) (fpc - parser.mark)
  | .statusCode => .ok (self.onResponseStatus (buffer.drop parser.mark))
  | .httpVersion => .ok (self.onResponseVersion (buffer.drop parser.mark) (fpc - parser.mark))
  | .chunkSize =>
      let contentLen := int32 (strtol 16 (buffer.drop parser.mark))
      .ok { self with
        parser := { parser with chunked := true, contentLen, chunksDone := contentLen ≤ 0 } }
  | .transChunked => .ok { self with parser.chunked := true }
  | .done => .ok { self with parser.bodyStart := fpc + 1 }

/-- `httpclient_parser_init`. -/
def init (machine : HttpClientMachine) : HttpClientParser where
  cs := machine.table.start
  bodyStart := 0
  contentLen := -1
  chunked := false
  chunksDone := false
  mark := 0
  fieldStart := 0
  fieldLen := 0

def new (machine : HttpClientMachine) : HttpResponseParser :=
  { parser := init machine, data := {}, error := 0 }

/-- What `httpclient_parser_execute` clears before it runs. -/
def cleared (self : HttpResponseParser) : HttpResponseParser :=
  { self with parser := { self.parser with mark := 0, fieldLen := 0, fieldStart := 0 } }

/-- `HttpResponseParser::execute`, with `httpclient_parser_execute` in it. When a check behind the
run fails that gives -1, and the data would be moved from in front of the buffer. -/
def execute (machine : HttpClientMachine) (self : HttpResponseParser) (buffer : Str)
    (chunck : Bool) : Result (Nat × HttpResponseParser) := do
  let self := if chunck then { self with parser := init machine } else self
  let (nread, cs, after) ← machine.table.run ResponseAction.breaks (perform buffer) 0
    self.parser.cs buffer self.cleared
  let after := { after with parser.cs := cs }
  if after.parser.bodyStart ≤ buffer.length then
    if after.parser.mark < buffer.length ∧
        (0 ≤ after.parser.fieldLen ∧ after.parser.fieldLen ≤ (buffer.length : Int)) ∧
        after.parser.fieldStart < buffer.length then .ok (nread, after)
    else .error (.undefined .outOfBounds)
  else .error .aborted

def parserHasError (machine : HttpClientMachine) (self : HttpResponseParser) : Bool :=
  self.parser.cs = machine.table.error

def isFinished (machine : HttpClientMachine) (self : HttpResponseParser) : Bool :=
  self.parserHasError machine || self.parser.cs = machine.table.firstFinal

def hasError (machine : HttpClientMachine) (self : HttpResponseParser) : Bool :=
  self.error ≠ 0 || self.parserHasError machine

def getContentLength (self : HttpResponseParser) : Nat :=
  ((self.data.toHttpMessage.find (ascii "content-length")).bind lexicalCast).getD 0

variable {machine : HttpClientMachine}

theorem execute_cases {self after : HttpResponseParser} {buffer : Str} {nread : Nat}
    (executed : self.execute machine buffer false = .ok (nread, after)) :
    ∃ state between, after = { between with parser.cs := state } ∧
      machine.table.run ResponseAction.breaks (perform buffer) 0 self.parser.cs buffer
        self.cleared = .ok (nread, state, between) := by
  rcases bind_eq_ok executed with ⟨⟨place, state, between⟩, ran, checked⟩
  dsimp only at checked
  split at checked
  · split at checked
    · cases checked
      exact ⟨state, between, rfl, ran⟩
    · cases checked
  · cases checked

/-- Whether the response is chunked and whether the last chunk has come. -/
def chunkView (self : HttpResponseParser) : Bool × Bool :=
  (self.parser.chunked, self.parser.chunksDone)

def chunkEffect (view : Bool × Bool) (action : ResponseAction) : Bool × Bool :=
  if action = .transChunked then (true, view.2) else view

/-- Nothing but the size of a chunk says that the last chunk has come. -/
theorem perform_chunk_view {buffer : Str} (fpc : Nat) (action : ResponseAction)
    (self after : HttpResponseParser) (plain : action ≠ .chunkSize)
    (performed : self.perform buffer fpc action = .ok after) :
    after.chunkView = chunkEffect self.chunkView action := by
  cases action with
  | chunkSize => exact absurd rfl plain
  | transChunked =>
      cases performed
      rfl
  | mark | startField | writeField | startValue | writeContentLen | writeConnectionClose
  | statusCode | done =>
      cases performed
      rfl
  | reasonPhrase =>
      rcases bind_eq_ok performed with ⟨text, _, stored⟩
      cases stored
      rfl
  | httpVersion =>
      cases performed
      rw [onResponseVersion]
      split
      · rfl
      · split
        · rfl
        · rfl
  | writeValue =>
      rw [perform, onResponseHttpField] at performed
      split at performed
      · cases performed
        rfl
      · rcases bind_eq_ok performed with ⟨name, _, more⟩
        rcases bind_eq_ok more with ⟨text, _, stored⟩
        cases stored
        rfl

theorem chunk_effect_done (actions : List ResponseAction) (view : Bool × Bool) :
    (actions.foldl chunkEffect view).2 = view.2 := by
  induction actions generalizing view with
  | nil => rfl
  | cons action actions induction =>
      rw [List.foldl_cons, induction, chunkEffect]
      split
      · rfl
      · rfl

end HttpResponseParser

/-- The head of a chunked response, as the parser takes it alone in one buffer: a status line and
fields, no size of a chunk. -/
structure ChunkedHead (machine : HttpClientMachine) where
  bytes : Str
  parsed : HttpResponseParser
  accepted : (HttpResponseParser.new machine).execute machine bytes false =
    .ok (bytes.length, parsed)
  correct : parsed.hasError machine = false
  finished : parsed.isFinished machine = true
  plain : ∀ action ∈ (machine.table.trace machine.table.start bytes).flatten,
    action ≠ .chunkSize
  chunked : parsed.parser.chunked = true

def responseRow (source : Nat) (first last : Char) (actions : List ResponseAction)
    (target : Nat) : Row ResponseAction :=
  ⟨source, UInt8.ofNat first.toNat, UInt8.ofNat last.toNat, actions, target⟩

def spelled (source : Nat) (word : String) : List (Row ResponseAction) :=
  word.toList.zipIdx.map fun (letter, index) =>
    responseRow (source + index) letter letter [] (source + index + 1)

/-- The rows of `httpclient_parser.cc` for a status line, `Transfer-Encoding: chunked` and the
size of a chunk. -/
def chunkedRows : List (Row ResponseAction) := [
    responseRow 1 'H' 'H' [.mark] 8,
    responseRow 1 '0' '9' [.mark] 2,
    responseRow 1 'a' 'f' [.mark] 2,
    responseRow 2 '0' '9' [] 2,
    responseRow 2 'a' 'f' [] 2,
    responseRow 2 '\r' '\r' [.chunkSize] 3,
    responseRow 3 '\n' '\n' [.done] 120,
    responseRow 15 ' ' ' ' [.httpVersion] 16,
    responseRow 16 '0' '9' [.mark] 17,
    responseRow 17 '0' '9' [] 17,
    responseRow 17 ' ' ' ' [.statusCode] 18,
    responseRow 18 'A' 'Z' [.mark] 19,
    responseRow 19 'A' 'Z' [] 19,
    responseRow 19 '\r' '\r' [.reasonPhrase] 24,
    responseRow 24 '\n' '\n' [] 20,
    responseRow 20 'T' 'T' [.startField] 44,
    responseRow 20 '\r' '\r' [] 3,
    responseRow 60 ':' ':' [.writeField] 61,
    responseRow 61 ' ' ' ' [.startValue] 61,
    responseRow 61 'c' 'c' [.startValue] 81,
    responseRow 87 '\r' '\r' [.writeValue] 71,
    responseRow 71 '\n' '\n' [.transChunked] 20] ++
  spelled 8 "TTP/1.1" ++ spelled 44 "ransfer-Encoding" ++ spelled 81 "hunked"

def chunkedForm : HttpClientMachine where
  table := { rows := chunkedRows, start := 1, error := 0, firstFinal := 120 }
  sound := ⟨by decide, by decide +kernel, by decide +kernel⟩

end ChatServer.Http
