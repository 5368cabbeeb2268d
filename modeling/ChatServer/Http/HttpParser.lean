import ChatServer.Http.HttpRequest
import ChatServer.Lib.ScanTable

/-!
# The request parser

`http_parser_execute` runs the generated table over one buffer. Its actions note places of the
buffer and hand the text between two places to the callbacks of `HttpRequestParser`. The notes
are places of the buffer at hand: every call begins with them cleared, except for the start of
the query.
-/

namespace ChatServer.Http

set_option autoImplicit false

open ChatServer.Http2 (ascii cString)
open ScanTable

inductive RequestAction where
  | mark
  | startField
  | writeField
  | startValue
  | writeValue
  | requestMethod
  | requestUri
  | fragment
  | startQuery
  | queryString
  | httpVersion
  | requestPath
  | done
  | xml
  | json
  deriving DecidableEq, Repr

def RequestAction.breaks (action : RequestAction) : Bool := action = .done

/-- A table that `http11_parser.rl` generates: `done` runs where a final state is entered, and a
method ends at a space. -/
structure HttpMachine where
  table : Table RequestAction
  sound : table.Sound RequestAction.breaks
  methodEnds : ∀ row ∈ table.rows, .requestMethod ∈ row.actions → row.first = 0x20 ∧ row.last = 0x20

/-- `http_parser`, without what nothing reads. The length of a field may come out negative, which
as a `size_t` is above every length there is. -/
structure HttpParser where
  cs : Nat
  bodyStart : Nat
  mark : Nat
  fieldStart : Nat
  fieldLen : Int
  queryStart : Nat
  xmlSent : Bool
  jsonSent : Bool
  deriving DecidableEq

structure HttpRequestParser where
  parser : HttpParser
  data : HttpRequest
  error : Nat
  deriving DecidableEq

/-- `std::string(at, length)`: a `size_t` above `max_size()` is refused. -/
def stringAt (at_ : Str) (length : Int) : Result Str :=
  if length < 0 then .error (.thrown .lengthError)
  else if at_.length < length.toNat then .error (.undefined .outOfBounds)
  else .ok (at_.take length.toNat)

def strncmpEq (at_ literal : Str) (length : Int) : Bool :=
  let count := if length < 0 then at_.length else length.toNat
  cString (at_.take count) = literal.take count

namespace HttpRequestParser

/-- A new parser; `http_parser_init` leaves `query_start` as the memory is. -/
def new (machine : HttpMachine) (queryStart : Nat) : HttpRequestParser :=
  { parser := {
      cs := machine.table.start
      bodyStart := 0
      mark := 0
      fieldStart := 0
      fieldLen := 0
      queryStart
      xmlSent := false
      jsonSent := false }
    data := {}
    error := 0 }

def onRequestMethod (self : HttpRequestParser) (at_ : Str) : HttpRequestParser :=
  let m := charsToHttpMethod at_
  if m = .invalidMethod then { self with error := 1000 }
  else { self with data.method := m }

def onText (store : Str → HttpRequest → HttpRequest) (self : HttpRequestParser) (at_ : Str)
    (length : Int) : Result HttpRequestParser := do
  let text ← stringAt at_ length
  .ok { self with data := store text self.data }

def onRequestFragment : HttpRequestParser → Str → Int → Result HttpRequestParser :=
  onText fun text data => { data with fragment := text }

def onRequestPath : HttpRequestParser → Str → Int → Result HttpRequestParser :=
  onText fun text data => { data with path := text }

def onRequestQuery : HttpRequestParser → Str → Int → Result HttpRequestParser :=
  onText fun text data => { data with query := text }

def onRequestVersion (self : HttpRequestParser) (at_ : Str) (length : Int) : HttpRequestParser :=
  if strncmpEq at_ (ascii "HTTP/1.1") length then { self with data.version := 0x11 }
  else if strncmpEq at_ (ascii "HTTP/1.0") length then { self with data.version := 0x10 }
  else { self with error := 1001 }

def onRequestHttpField (self : HttpRequestParser) (field : Str) (flen : Int) (value : Str)
    (vlen : Int) : Result HttpRequestParser :=
  if flen = 0 then .ok self
  else do
    let name ← stringAt field flen
    let text ← stringAt value vlen
    .ok { self with data := self.data.setHeader name text }

/-- One action at `fpc`: `LEN(AT)` is `fpc - AT` and `PTR_TO(F)` the buffer from `F` on. The
callbacks for the URI and for the end of the head do nothing. -/
def perform (buffer : Str) (fpc : Nat) (action : RequestAction) (self : HttpRequestParser) :
    Result HttpRequestParser :=
  let parser := self.parser
  match action with
  | .mark | .startValue => .ok { self with parser.mark := fpc }
  | .startField => .ok { self with parser.fieldStart := fpc }
  | .writeField => .ok { self with parser.fieldLen := fpc - parser.fieldStart }
  | .writeValue =>
      self.onRequestHttpField (buffer.drop parser.fieldStart) parser.fieldLen
        (buffer.drop parser.mark) (fpc - parser.mark)
  | .requestMethod => .ok (self.onRequestMethod (buffer.drop parser.mark))
  | .requestUri => .ok self
  | .fragment => self.onRequestFragment (buffer.drop parser.mark) (fpc - parser.mark)
  | .startQuery => .ok { self with parser.queryStart := fpc }
  | .queryString => self.onRequestQuery (buffer.drop parser.queryStart) (fpc - parser.queryStart)
  | .httpVersion => .ok (self.onRequestVersion (buffer.drop parser.mark) (fpc - parser.mark))
  | .requestPath => self.onRequestPath (buffer.drop parser.mark) (fpc - parser.mark)
  | .done =>
      if parser.xmlSent || parser.jsonSent then .ok { self with parser.bodyStart := parser.mark }
      else .ok { self with parser.bodyStart := fpc + 1 }
  | .xml => .ok { self with parser.xmlSent := true }
  | .json => .ok { self with parser.jsonSent := true }

/-- What `http_parser_execute` clears before it runs. -/
def cleared (self : HttpRequestParser) : HttpRequestParser :=
  { self with parser := { self.parser with mark := 0, fieldLen := 0, fieldStart := 0 } }

def InBuffer (self : HttpRequestParser) (len : Nat) : Prop :=
  self.parser.bodyStart ≤ len ∧ self.parser.mark < len ∧
    (0 ≤ self.parser.fieldLen ∧ self.parser.fieldLen ≤ len) ∧ self.parser.fieldStart < len

instance (self : HttpRequestParser) (len : Nat) : Decidable (self.InBuffer len) :=
  inferInstanceAs (Decidable (_ ∧ _ ∧ (_ ∧ _) ∧ _))

/-- `HttpRequestParser::execute`, with `http_parser_execute` in it. The caller drops what was
processed from the front of its data. -/
def execute (machine : HttpMachine) (self : HttpRequestParser) (buffer : Str) :
    Result (Nat × HttpRequestParser) :=
  if buffer.length = 0 then .ok (0, self)
  else do
    let (nread, cs, after) ← machine.table.run RequestAction.breaks (perform buffer) 0
      self.parser.cs buffer self.cleared
    let after := if self.parser.cs = machine.table.error then after
      else { after with parser.cs := cs }
    if after.InBuffer buffer.length then .ok (nread, after) else .error .aborted

def parserHasError (machine : HttpMachine) (self : HttpRequestParser) : Bool :=
  self.parser.cs = machine.table.error

/-- `http_parser_finish` gives -1, 1 or 0, and an `if` takes the first two alike. -/
def isFinished (machine : HttpMachine) (self : HttpRequestParser) : Bool :=
  self.parserHasError machine || machine.table.firstFinal ≤ self.parser.cs

def hasError (machine : HttpMachine) (self : HttpRequestParser) : Bool :=
  self.error ≠ 0 || self.parserHasError machine

def getContentLength (self : HttpRequestParser) : Nat :=
  self.data.getHeaderAs (ascii "content-length")

variable {machine : HttpMachine}

def noted (fpc : Nat) (parser : HttpParser) : RequestAction → HttpParser
  | .mark | .startValue => { parser with mark := fpc }
  | .startField => { parser with fieldStart := fpc }
  | .writeField => { parser with fieldLen := fpc - parser.fieldStart }
  | .startQuery => { parser with queryStart := fpc }
  | .done =>
      if parser.xmlSent || parser.jsonSent then { parser with bodyStart := parser.mark }
      else { parser with bodyStart := fpc + 1 }
  | .xml => { parser with xmlSent := true }
  | .json => { parser with jsonSent := true }
  | _ => parser

theorem on_text_keeps (store : Str → HttpRequest → HttpRequest) {self after : HttpRequestParser}
    {at_ : Str} {length : Int} (told : onText store self at_ length = .ok after) :
    after.parser = self.parser ∧ after.error = self.error := by
  rcases bind_eq_ok told with ⟨text, _, stored⟩
  cases stored
  exact ⟨rfl, rfl⟩

theorem on_field_keeps {self after : HttpRequestParser} {field value : Str} {flen vlen : Int}
    (told : self.onRequestHttpField field flen value vlen = .ok after) :
    after.parser = self.parser ∧ after.error = self.error := by
  rw [onRequestHttpField] at told
  split at told
  · cases told
    exact ⟨rfl, rfl⟩
  · rcases bind_eq_ok told with ⟨name, _, more⟩
    rcases bind_eq_ok more with ⟨text, _, stored⟩
    cases stored
    exact ⟨rfl, rfl⟩

/-- An action takes its note, and an error stays. -/
theorem perform_effect {buffer : Str} {fpc : Nat} {action : RequestAction}
    {self after : HttpRequestParser} (performed : self.perform buffer fpc action = .ok after) :
    after.parser = noted fpc self.parser action ∧ (self.error ≠ 0 → after.error ≠ 0) := by
  cases action with
  | mark | startField | writeField | startValue | requestUri | startQuery | xml | json =>
      cases performed
      exact ⟨rfl, id⟩
  | writeValue =>
      have kept := on_field_keeps performed
      exact ⟨kept.1, by rw [kept.2]; exact id⟩
  | fragment =>
      have kept := on_text_keeps (fun text data => { data with fragment := text }) performed
      exact ⟨kept.1, by rw [kept.2]; exact id⟩
  | queryString =>
      have kept := on_text_keeps (fun text data => { data with query := text }) performed
      exact ⟨kept.1, by rw [kept.2]; exact id⟩
  | requestPath =>
      have kept := on_text_keeps (fun text data => { data with path := text }) performed
      exact ⟨kept.1, by rw [kept.2]; exact id⟩
  | requestMethod =>
      cases performed
      rw [onRequestMethod]
      split
      · exact ⟨rfl, fun _ => (by decide : 1000 ≠ 0)⟩
      · exact ⟨rfl, id⟩
  | httpVersion =>
      cases performed
      rw [onRequestVersion]
      split
      · exact ⟨rfl, id⟩
      · split
        · exact ⟨rfl, id⟩
        · exact ⟨rfl, fun _ => (by decide : 1001 ≠ 0)⟩
  | done =>
      rw [perform] at performed
      rw [noted]
      split at performed
      · rename_i sent
        cases performed
        rw [if_pos sent]
        exact ⟨rfl, id⟩
      · rename_i sent
        cases performed
        rw [if_neg sent]
        exact ⟨rfl, id⟩

/-- Every note is a place in front of `place`. -/
structure Within (place : Nat) (state : HttpRequestParser) : Prop where
  bodyStart : state.parser.bodyStart ≤ place
  mark : state.parser.mark ≤ place - 1
  fieldStart : state.parser.fieldStart ≤ place - 1
  fieldLen : 0 ≤ state.parser.fieldLen ∧ state.parser.fieldLen ≤ place

theorem within_moved {place : Nat} {self : HttpRequestParser} (within : Within place self) :
    Within (place + 1) self where
  bodyStart := Nat.le_succ_of_le within.bodyStart
  mark := Nat.le_trans within.mark (by omega)
  fieldStart := Nat.le_trans within.fieldStart (by omega)
  fieldLen := ⟨within.fieldLen.1, by have upper := within.fieldLen.2; omega⟩

theorem perform_within {buffer : Str} {place : Nat} {action : RequestAction}
    {self after : HttpRequestParser} (within : Within (place + 1) self)
    (performed : self.perform buffer place action = .ok after) : Within (place + 1) after := by
  have effect := (perform_effect performed).1
  rcases within with ⟨bodyStart, mark, fieldStart, fieldLen⟩
  cases action with
  | done =>
      rw [noted] at effect
      split at effect
      · exact ⟨by rw [effect]; dsimp only; omega, effect ▸ mark, effect ▸ fieldStart,
          effect ▸ fieldLen⟩
      · exact ⟨by rw [effect], effect ▸ mark, effect ▸ fieldStart, effect ▸ fieldLen⟩
  | mark | startValue | startField | startQuery | xml | json | writeValue | requestMethod
  | requestUri | fragment | queryString | httpVersion | requestPath =>
      constructor <;> rw [effect] <;> simp_all [noted]
  | writeField =>
      constructor <;> rw [effect] <;> simp only [noted] <;> omega

theorem run_error {buffer : Str} {place state : Nat} {text : Str} {self after : HttpRequestParser}
    {last final : Nat}
    (ran : machine.table.run RequestAction.breaks (perform buffer) place state text self =
      .ok (last, final, after)) (correct : after.error = 0) : self.error = 0 := by
  by_contra wrong
  have kept := Table.run_keeps (fun _ self => self.error ≠ 0) (fun _ _ => id)
    (fun _ _ _ _ wrong performed => (perform_effect performed).2 wrong) wrong ran
  exact kept correct

theorem run_early {buffer : Str} {place state : Nat} {text : Str} {self after : HttpRequestParser}
    {last final : Nat} (live : machine.table.Live final)
    (ran : machine.table.run RequestAction.breaks (perform buffer) place state text self =
      .ok (last, final, after)) : after.parser.bodyStart = self.parser.bodyStart := by
  apply Table.run_live_keeps machine.sound
    (fun after => after.parser.bodyStart = self.parser.bodyStart) _ rfl live ran
  intro place action before after goes same performed
  rw [(perform_effect performed).1, ← same]
  cases action with
  | done => cases goes
  | mark | startValue | startField | writeField | startQuery | xml | json | writeValue
  | requestMethod | requestUri | fragment | queryString | httpVersion | requestPath => rfl

/-- `execute` is the run over the buffer: no assertion fails. -/
theorem execute_run {self after : HttpRequestParser} {buffer : Str} {last final : Nat}
    (some : buffer ≠ []) (early : self.parser.bodyStart = 0)
    (live : machine.table.Live self.parser.cs)
    (ran : machine.table.run RequestAction.breaks (perform buffer) 0 self.parser.cs buffer
      self.cleared = .ok (last, final, after)) :
    self.execute machine buffer = .ok (last, { after with parser.cs := final }) := by
  have positive := List.length_pos_iff.mpr some
  have within : Within last after := by
    apply Table.run_keeps Within (fun _ _ => within_moved)
      (fun _ _ _ _ within performed => perform_within within performed) _ ran
    exact ⟨Nat.le_of_eq early, Nat.le_refl 0, Nat.le_refl 0, Int.le_refl 0, Int.le_refl 0⟩
  have places := Table.run_place ran
  rw [execute, if_neg (Nat.pos_iff_ne_zero.mp positive), ran, bind_ok]
  dsimp only
  rw [if_neg live.1, if_pos]
  rcases within with ⟨bodyStart, mark, fieldStart, fieldLen⟩
  refine ⟨?_, ?_, ⟨fieldLen.1, ?_⟩, ?_⟩
  · dsimp only
    omega
  · dsimp only
    omega
  · dsimp only
    omega
  · dsimp only
    omega

theorem execute_cases {self after : HttpRequestParser} {buffer : Str} {nread : Nat}
    (live : machine.table.Live self.parser.cs)
    (executed : self.execute machine buffer = .ok (nread, after)) :
    after = self ∨ ∃ state between, buffer ≠ [] ∧ after = { between with parser.cs := state } ∧
      machine.table.run RequestAction.breaks (perform buffer) 0 self.parser.cs buffer self.cleared =
        .ok (nread, state, between) := by
  rw [execute] at executed
  split at executed
  · cases executed
    exact Or.inl rfl
  · rename_i some
    rcases bind_eq_ok executed with ⟨⟨place, state, between⟩, ran, checked⟩
    dsimp only at checked
    rw [if_neg live.1] at checked
    split at checked
    · cases checked
      exact Or.inr ⟨state, between, fun none => some (congrArg List.length none), rfl, ran⟩
    · cases checked

theorem not_finished {self : HttpRequestParser} (live : machine.table.Live self.parser.cs) :
    self.isFinished machine = false := by
  simp [isFinished, parserHasError, live.1, live.2.not_ge]

theorem has_error_eq_false {self : HttpRequestParser} :
    self.hasError machine = false ↔ self.error = 0 ∧ self.parser.cs ≠ machine.table.error := by
  simp [hasError, parserHasError]

end HttpRequestParser

def rowOf (source : Nat) (first last : Char) (actions : List RequestAction) (target : Nat) :
    Row RequestAction :=
  ⟨source, UInt8.ofNat first.toNat, UInt8.ofNat last.toNat, actions, target⟩

/-- A method has up to twenty capitals and digits; the states count them. -/
def methodRows : List (Row RequestAction) :=
  (2 :: List.range' 175 18).zip (List.range' 175 19) |>.flatMap fun (state, further) => [
    rowOf state 'A' 'Z' [] further,
    rowOf state '0' '9' [] further,
    rowOf state ' ' ' ' [.requestMethod] 3]

/-- The rows of `http11_parser.cc` for a path of letters, digits and slashes, a query after it,
the version and plain headers. -/
def originFormRows : List (Row RequestAction) := methodRows ++ [
    rowOf 1 'A' 'Z' [.mark] 2,
    rowOf 1 '0' '9' [.mark] 2,
    rowOf 193 ' ' ' ' [.requestMethod] 3,
    rowOf 3 '/' '/' [.mark] 33,
    rowOf 33 'a' 'z' [] 26,
    rowOf 33 '0' '9' [] 26,
    rowOf 33 ' ' ' ' [.requestPath, .requestUri] 4,
    rowOf 26 'a' 'z' [] 26,
    rowOf 26 '/' '9' [] 26,
    rowOf 26 ' ' ' ' [.requestPath, .requestUri] 4,
    rowOf 26 '?' '?' [.requestPath] 29,
    rowOf 29 'a' 'z' [.startQuery] 30,
    rowOf 30 'a' 'z' [] 30,
    rowOf 30 '/' '9' [] 30,
    rowOf 30 '=' '=' [] 30,
    rowOf 30 ' ' ' ' [.queryString, .requestUri] 4,
    rowOf 4 'H' 'H' [.mark] 5,
    rowOf 5 'T' 'T' [] 6,
    rowOf 6 'T' 'T' [] 7,
    rowOf 7 'P' 'P' [] 8,
    rowOf 8 '/' '/' [] 9,
    rowOf 9 '1' '1' [] 10,
    rowOf 10 '.' '.' [] 11,
    rowOf 11 '0' '1' [] 12,
    rowOf 12 '\r' '\r' [.httpVersion] 17,
    rowOf 17 '\n' '\n' [] 13,
    rowOf 13 'A' 'Z' [.startField] 14,
    rowOf 13 '\r' '\r' [.startField] 18,
    rowOf 14 '-' '-' [] 14,
    rowOf 14 'A' 'Z' [] 14,
    rowOf 14 'a' 'z' [] 14,
    rowOf 14 ':' ':' [.writeField] 15,
    rowOf 15 ' ' ' ' [.startValue] 15,
    rowOf 15 '!' '~' [.startValue] 16,
    rowOf 16 ' ' '~' [] 16,
    rowOf 16 '\r' '\r' [.writeValue] 17,
    rowOf 18 '\n' '\n' [.done] 348]

def originForm : HttpMachine where
  table := { rows := originFormRows, start := 1, error := 0, firstFinal := 348 }
  sound := ⟨by decide, by decide +kernel, by decide +kernel⟩
  methodEnds := by decide +kernel

end ChatServer.Http
