import ChatServer.Http.HttpSession

/-!
# Heads that arrive in parts

Every read hands the parser a buffer of its own, and the notes that its actions take are places of
that buffer. A head survives a cut when no callback behind the cut needs a note from before it;
where a token is open at the cut, the callback is handed another text.
-/

namespace ChatServer.Http

set_option autoImplicit false

open ChatServer.Http2 (ascii cString)
open ScanTable

structure Notes where
  mark : Bool := false
  fieldStart : Bool := false
  fieldLen : Bool := false
  queryStart : Bool := false

def Notes.track (notes : Notes) : RequestAction → Option Notes
  | .mark | .startValue => some { notes with mark := true }
  | .startField => some { notes with fieldStart := true, fieldLen := false }
  | .writeField => if notes.fieldStart then some { notes with fieldLen := true } else none
  | .writeValue =>
      if notes.fieldStart && notes.fieldLen && notes.mark then some notes else none
  | .requestMethod | .fragment | .httpVersion | .requestPath =>
      if notes.mark then some notes else none
  | .startQuery => some { notes with queryStart := true }
  | .queryString => if notes.queryStart then some notes else none
  | .requestUri | .done | .xml | .json => some notes

/-- No token is open at a place of a text: from there on, no action needs an older note. -/
def closedAt (machine : HttpMachine) (text : Str) (place : Nat) : Bool :=
  (((machine.table.trace machine.table.start text).drop place).flatten.foldlM
    Notes.track {}).isSome

/-- A head that the parser takes when it is alone in one buffer. -/
structure RequestHead (machine : HttpMachine) where
  bytes : Str
  parsed : HttpRequestParser
  accepted : (HttpRequestParser.new machine 0).execute machine bytes = .ok (bytes.length, parsed)
  correct : parsed.hasError machine = false
  finished : parsed.isFinished machine = true
  closed : closedAt machine bytes 0 = true

/-- The first bytes of `part` are those of `whole` from `offset` on. -/
structure Agrees (whole part : Str) (offset count : Nat) : Prop where
  same : (whole.drop offset).take count = part.take count
  inWhole : offset + count ≤ whole.length
  inPart : count ≤ part.length

theorem agrees_span {whole part : Str} {offset count start length : Nat}
    (agrees : Agrees whole part offset count) (inside : start + length ≤ count) :
    (whole.drop (offset + start)).take length = (part.drop start).take length := by
  have cut : ∀ text : Str, (text.drop start).take length =
      ((text.take count).drop start).take length := by
    intro text
    rw [List.drop_take, List.take_take, Nat.min_eq_left (by omega)]
  rw [← List.drop_drop, cut (whole.drop offset), agrees.same, ← cut part]

theorem agrees_string_at {whole part : Str} {offset count start : Nat} {length : Int}
    (agrees : Agrees whole part offset count) (inside : start + length ≤ count)
    (nonneg : 0 ≤ length) :
    stringAt (whole.drop (offset + start)) length = stringAt (part.drop start) length := by
  have inWhole := agrees.inWhole
  have inPart := agrees.inPart
  have wholeLong : ¬ (whole.drop (offset + start)).length < length.toNat := by
    rw [List.length_drop]
    omega
  have partLong : ¬ (part.drop start).length < length.toNat := by
    rw [List.length_drop]
    omega
  rw [stringAt, stringAt, agrees_span agrees (by omega), if_neg wholeLong, if_neg partLong]

theorem agrees_strncmp {whole part : Str} {offset count start : Nat} {length : Int}
    (agrees : Agrees whole part offset count) (inside : start + length ≤ count)
    (nonneg : 0 ≤ length) (literal : Str) :
    strncmpEq (whole.drop (offset + start)) literal length =
      strncmpEq (part.drop start) literal length := by
  simp only [strncmpEq, if_neg (Int.not_lt.mpr nonneg)]
  rw [agrees_span agrees (by omega)]

theorem agrees_byte {whole part : Str} {offset count place : Nat}
    (agrees : Agrees whole part offset count) (inside : place < count) :
    whole[offset + place]? = part[place]? := by
  have same := congrArg (·[place]?) agrees.same
  simpa [List.getElem?_take, inside] using same

theorem agrees_method {whole part : Str} {offset count start place : Nat}
    (agrees : Agrees whole part offset count) (before : start ≤ place) (inside : place < count)
    (space : part[place]? = some 0x20) :
    charsToHttpMethod (whole.drop (offset + start)) = charsToHttpMethod (part.drop start) := by
  have upTo : ∀ text : Str, (text.drop start)[place - start]? = some 0x20 →
      charsToHttpMethod (text.drop start) =
        charsToHttpMethod ((text.drop start).take (place - start)) := by
    intro text there
    rcases List.getElem?_eq_some_iff.mp there with ⟨bound, value⟩
    have split := List.take_append_drop (place - start) (text.drop start)
    rw [List.drop_eq_getElem_cons bound, value] at split
    exact (congrArg charsToHttpMethod split.symm).trans (chars_to_http_method_text _ _)
  have here : start + (place - start) = place := Nat.add_sub_cancel' before
  have inPart : (part.drop start)[place - start]? = some 0x20 := by
    rw [List.getElem?_drop, here, space]
  have inWhole : (whole.drop (offset + start))[place - start]? = some 0x20 := by
    rw [List.getElem?_drop, Nat.add_assoc, here, agrees_byte agrees inside, space]
  have wholeUpTo := upTo (whole.drop offset)
  rw [List.drop_drop] at wholeUpTo
  rw [wholeUpTo inWhole, upTo part inPart, agrees_span agrees (by omega)]

/-- A note of the part for the same place as that of the whole, no further than `place`. -/
def Noted (offset place whole part : Nat) : Prop := whole = offset + part ∧ part ≤ place

/-- The parsers of the whole and of a part that starts at `offset` agree but for old notes. -/
structure Alike (offset place : Nat) (notes : Notes) (whole part : HttpRequestParser) : Prop where
  data : part.data = whole.data
  error : part.error = whole.error
  mark : notes.mark = true → Noted offset place whole.parser.mark part.parser.mark
  fieldStart : notes.fieldStart = true →
    Noted offset place whole.parser.fieldStart part.parser.fieldStart
  fieldLen : notes.fieldLen = true → part.parser.fieldLen = whole.parser.fieldLen ∧
    0 ≤ part.parser.fieldLen ∧ part.parser.fieldStart + part.parser.fieldLen ≤ place
  queryStart : notes.queryStart = true →
    Noted offset place whole.parser.queryStart part.parser.queryStart

variable {offset place : Nat} {notes further : Notes} {whole part : HttpRequestParser}

theorem noted_moved {first second : Nat} (noted : Noted offset place first second) :
    Noted offset (place + 1) first second := ⟨noted.1, Nat.le_succ_of_le noted.2⟩

theorem noted_here : Noted offset place (offset + place) place := ⟨rfl, Nat.le_refl _⟩

theorem alike_moved (alike : Alike offset place notes whole part) :
    Alike offset (place + 1) notes whole part where
  data := alike.data
  error := alike.error
  mark taken := noted_moved (alike.mark taken)
  fieldStart taken := noted_moved (alike.fieldStart taken)
  fieldLen taken := by
    have field := alike.fieldLen taken
    exact ⟨field.1, field.2.1, by omega⟩
  queryStart taken := noted_moved (alike.queryStart taken)

theorem noted_length {first second : Nat} (noted : Noted offset place first second) :
    ((offset + place : Nat) - first : Int) = place - second := by
  have same := noted.1
  omega

section Actions

variable {buffer piece : Str} {count : Nat}

theorem noted_string (agrees : Agrees buffer piece offset count) (inside : place < count)
    {first second : Nat} (noted : Noted offset place first second) :
    stringAt (buffer.drop first) ((offset + place : Nat) - first : Int) =
      stringAt (piece.drop second) (place - second : Int) := by
  have before := noted.2
  rw [noted_length noted, noted.1]
  exact agrees_string_at agrees (by omega) (by omega)

theorem on_text_alike (agrees : Agrees buffer piece offset count) (inside : place < count)
    (store : Str → HttpRequest → HttpRequest) (alike : Alike offset place notes whole part)
    {first second : Nat} (noted : Noted offset place first second) {whole' : HttpRequestParser}
    (told : HttpRequestParser.onText store whole (buffer.drop first)
      ((offset + place : Nat) - first : Int) = .ok whole') :
    ∃ part', HttpRequestParser.onText store part (piece.drop second) (place - second : Int) =
      .ok part' ∧ Alike offset place notes whole' part' := by
  rcases bind_eq_ok told with ⟨text, read, stored⟩
  cases stored
  rw [noted_string agrees inside noted] at read
  refine ⟨{ part with data := store text part.data }, ?_, ?_⟩
  · rw [HttpRequestParser.onText, read]
    rfl
  · rw [alike.data]
    exact { alike with data := rfl }

theorem on_version_alike (agrees : Agrees buffer piece offset count) (inside : place < count)
    (alike : Alike offset place notes whole part) {first second : Nat}
    (noted : Noted offset place first second) :
    Alike offset place notes
      (whole.onRequestVersion (buffer.drop first) ((offset + place : Nat) - first : Int))
      (part.onRequestVersion (piece.drop second) (place - second : Int)) := by
  have before := noted.2
  have same : ∀ literal,
      strncmpEq (buffer.drop first) literal ((offset + place : Nat) - first : Int) =
        strncmpEq (piece.drop second) literal (place - second : Int) := by
    intro literal
    rw [noted_length noted, noted.1]
    exact agrees_strncmp agrees (by omega) (by omega) literal
  rw [HttpRequestParser.onRequestVersion, HttpRequestParser.onRequestVersion, same, same,
    alike.data]
  split
  · exact { alike with data := rfl }
  · split
    · exact { alike with data := rfl }
    · exact { alike with data := rfl, error := rfl }

theorem on_method_alike (agrees : Agrees buffer piece offset count) (inside : place < count)
    (space : piece[place]? = some 0x20) (alike : Alike offset place notes whole part)
    {first second : Nat} (noted : Noted offset place first second) :
    Alike offset place notes (whole.onRequestMethod (buffer.drop first))
      (part.onRequestMethod (piece.drop second)) := by
  rw [HttpRequestParser.onRequestMethod, HttpRequestParser.onRequestMethod, noted.1,
    agrees_method agrees noted.2 inside space, alike.data]
  split
  · exact { alike with data := rfl, error := rfl }
  · exact { alike with data := rfl }

theorem on_field_alike (agrees : Agrees buffer piece offset count) (inside : place < count)
    (alike : Alike offset place notes whole part) (name : notes.fieldStart = true)
    (length : notes.fieldLen = true) (value : notes.mark = true) {whole' : HttpRequestParser}
    (told : whole.onRequestHttpField (buffer.drop whole.parser.fieldStart) whole.parser.fieldLen
      (buffer.drop whole.parser.mark) ((offset + place : Nat) - whole.parser.mark : Int) =
        .ok whole') :
    ∃ part', part.onRequestHttpField (piece.drop part.parser.fieldStart) part.parser.fieldLen
        (piece.drop part.parser.mark) (place - part.parser.mark : Int) = .ok part' ∧
      Alike offset place notes whole' part' := by
  rcases alike.fieldLen length with ⟨sameLen, nonneg, ends⟩
  rw [HttpRequestParser.onRequestHttpField, ← sameLen,
    noted_string agrees inside (alike.mark value), (alike.fieldStart name).1,
    agrees_string_at agrees (by omega) nonneg] at told
  rw [HttpRequestParser.onRequestHttpField]
  by_cases empty : part.parser.fieldLen = 0
  · rw [if_pos empty] at told ⊢
    cases told
    exact ⟨part, rfl, alike⟩
  · rw [if_neg empty] at told ⊢
    rcases bind_eq_ok told with ⟨field, readName, more⟩
    rcases bind_eq_ok more with ⟨text, readValue, stored⟩
    cases stored
    rw [readName, readValue]
    refine ⟨_, rfl, ?_⟩
    rw [alike.data]
    exact { alike with data := rfl }

end Actions

/-- Every action does in the part what it does in the whole. -/
theorem perform_alike {buffer piece : Str} {count : Nat}
    (agrees : Agrees buffer piece offset count) (inside : place < count)
    {action : RequestAction}
    (space : action = .requestMethod → piece[place]? = some 0x20)
    (followed : notes.track action = some further) (alike : Alike offset place notes whole part)
    {whole' : HttpRequestParser}
    (performed : whole.perform buffer (offset + place) action = .ok whole') :
    ∃ part', part.perform piece place action = .ok part' ∧
      Alike offset place further whole' part' := by
  cases action with
  | mark | startValue =>
      cases followed
      cases performed
      exact ⟨_, rfl, { alike with mark := fun _ => noted_here }⟩
  | startField =>
      cases followed
      cases performed
      exact ⟨_, rfl, { alike with fieldStart := fun _ => noted_here, fieldLen := by simp }⟩
  | writeField =>
      rw [Notes.track] at followed
      rcases Option.ite_none_right_eq_some.mp followed with ⟨taken, same⟩
      cases same
      cases performed
      have start := alike.fieldStart taken
      have before := start.2
      refine ⟨_, rfl, { alike with fieldLen := fun _ => ⟨?_, ?_, ?_⟩ }⟩
      · exact (noted_length start).symm
      · dsimp only
        omega
      · dsimp only
        omega
  | writeValue =>
      rw [Notes.track] at followed
      rcases Option.ite_none_right_eq_some.mp followed with ⟨taken, same⟩
      cases same
      rw [Bool.and_eq_true, Bool.and_eq_true] at taken
      exact on_field_alike agrees inside alike taken.1.1 taken.1.2 taken.2 performed
  | requestMethod =>
      rw [Notes.track] at followed
      rcases Option.ite_none_right_eq_some.mp followed with ⟨taken, same⟩
      cases same
      cases performed
      exact ⟨_, rfl, on_method_alike agrees inside (space rfl) alike (alike.mark taken)⟩
  | fragment =>
      rw [Notes.track] at followed
      rcases Option.ite_none_right_eq_some.mp followed with ⟨taken, same⟩
      cases same
      exact on_text_alike agrees inside (fun text data => { data with fragment := text }) alike
        (alike.mark taken) performed
  | requestPath =>
      rw [Notes.track] at followed
      rcases Option.ite_none_right_eq_some.mp followed with ⟨taken, same⟩
      cases same
      exact on_text_alike agrees inside (fun text data => { data with path := text }) alike
        (alike.mark taken) performed
  | httpVersion =>
      rw [Notes.track] at followed
      rcases Option.ite_none_right_eq_some.mp followed with ⟨taken, same⟩
      cases same
      cases performed
      exact ⟨_, rfl, on_version_alike agrees inside alike (alike.mark taken)⟩
  | startQuery =>
      cases followed
      cases performed
      exact ⟨_, rfl, { alike with queryStart := fun _ => noted_here }⟩
  | queryString =>
      rw [Notes.track] at followed
      rcases Option.ite_none_right_eq_some.mp followed with ⟨taken, same⟩
      cases same
      exact on_text_alike agrees inside (fun text data => { data with query := text }) alike
        (alike.queryStart taken) performed
  | requestUri | xml | json =>
      cases followed
      cases performed
      exact ⟨_, rfl, { alike with }⟩
  | done =>
      cases followed
      have told : ∀ self : HttpRequestParser, ∀ fpc : Nat, ∀ text : Str, ∃ bodyStart,
          self.perform text fpc .done = .ok { self with parser.bodyStart := bodyStart } := by
        intro self fpc text
        rw [HttpRequestParser.perform]
        split
        · exact ⟨_, rfl⟩
        · exact ⟨_, rfl⟩
      rcases told whole (offset + place) buffer with ⟨first, inWhole⟩
      rcases told part place piece with ⟨second, inPart⟩
      rw [inWhole] at performed
      cases performed
      exact ⟨_, inPart, { alike with }⟩

section Reads

variable {machine : HttpMachine}

def WholeRun (head : RequestHead machine) (place state : Nat) (self : HttpRequestParser) : Prop :=
  machine.table.run RequestAction.breaks (HttpRequestParser.perform head.bytes) 0
    machine.table.start (head.bytes.take place) (HttpRequestParser.new machine 0) =
      .ok (place, state, self)

structure AtCut (head : RequestHead machine) (place : Nat) (parser : HttpRequestParser) : Prop where
  live : machine.table.Live parser.parser.cs
  whole : ∃ self, WholeRun head place parser.parser.cs self ∧ parser.data = self.data ∧
    parser.error = self.error
  early : parser.parser.bodyStart = 0

theorem at_cut_start (head : RequestHead machine) (queryStart : Nat) :
    AtCut head 0 (HttpRequestParser.new machine queryStart) where
  live := machine.sound.start
  whole := ⟨HttpRequestParser.new machine 0, rfl, rfl, rfl⟩
  early := rfl

theorem head_run (head : RequestHead machine) :
    ∃ state self, WholeRun head head.bytes.length state self ∧ ¬ machine.table.Live state ∧
      head.parsed = { self with parser.cs := state } ∧ self.error = 0 ∧ head.bytes ≠ [] := by
  rcases HttpRequestParser.execute_cases machine.sound.start head.accepted with
    same | ⟨state, self, some, same, ran⟩
  · have finished := head.finished
    rw [same, HttpRequestParser.not_finished machine.sound.start] at finished
    cases finished
  · rcases HttpRequestParser.has_error_eq_false.mp head.correct with ⟨noError, notFailed⟩
    have finished := head.finished
    rw [same] at noError
    refine ⟨state, self, ?_, ?_, same, noError, some⟩
    · rw [WholeRun, List.take_length]
      exact ran
    · intro live
      rw [HttpRequestParser.not_finished (by rw [same]; exact live)] at finished
      cases finished

theorem part_step {whole part extra : Str} {offset : Nat}
    (agrees : Agrees whole (part ++ extra) offset part.length) (row : Row RequestAction)
    (index : Nat) (byte : UInt8) (action : RequestAction) (known further : Notes)
    (self self' parser : HttpRequestParser) (listed : row ∈ machine.table.rows)
    (lower : row.first ≤ byte) (upper : byte ≤ row.last) (here : part[index]? = some byte)
    (member : action ∈ row.actions) (followed : known.track action = some further)
    (alike : Alike offset index known self parser)
    (performed : self.perform whole (offset + index) action = .ok self') :
    ∃ parser', parser.perform (part ++ extra) index action = .ok parser' ∧
      Alike offset index further self' parser' := by
  have inside : index < part.length := (List.getElem?_eq_some_iff.mp here).1
  refine perform_alike agrees inside ?_ followed alike performed
  intro method
  rcases machine.methodEnds row listed (method ▸ member) with ⟨first, last⟩
  rw [first] at lower
  rw [last] at upper
  rw [List.getElem?_append_left inside, here, UInt8.le_antisymm upper lower]

theorem head_nonempty (head : RequestHead machine) : 0 < head.bytes.length := by
  rcases head_run head with ⟨_, _, _, _, _, _, some⟩
  exact List.length_pos_iff.mpr some

theorem part_run (head : RequestHead machine) {place : Nat} {self parser : HttpRequestParser}
    {part rest extra : Str} (whole : WholeRun head place parser.parser.cs self)
    (live : machine.table.Live parser.parser.cs) (data : parser.data = self.data)
    (error : parser.error = self.error) (closed : closedAt machine head.bytes place = true)
    (split : head.bytes.drop place = part ++ rest) (within : place ≤ head.bytes.length)
    {last state : Nat} {self' : HttpRequestParser}
    (ran : machine.table.run RequestAction.breaks (HttpRequestParser.perform head.bytes) place
      parser.parser.cs part self = .ok (last, state, self')) :
    ∃ last' parser', machine.table.run RequestAction.breaks
        (HttpRequestParser.perform (part ++ extra)) 0 parser.parser.cs part parser.cleared =
          .ok (last', state, parser') ∧ last = place + last' ∧ parser'.data = self'.data ∧
      parser'.error = self'.error := by
  have agrees : Agrees head.bytes (part ++ extra) place part.length := by
    constructor
    · rw [split, List.take_left, List.take_left]
    · have length := congrArg List.length split
      rw [List.length_drop, List.length_append] at length
      omega
    · rw [List.length_append]
      omega
  have behind : (machine.table.trace machine.table.start head.bytes).drop place =
      machine.table.trace parser.parser.cs (part ++ rest) := by
    have traced := Table.trace_append machine.sound live whole (part ++ rest)
    rw [← split, List.take_append_drop] at traced
    rw [traced.1, ← split]
    apply List.drop_left'
    rw [traced.2, List.length_take, Nat.min_eq_left within]
  rcases machine.table.trace_prefix parser.parser.cs part rest with ⟨more, prefixed⟩
  rw [closedAt, behind, prefixed, List.flatten_append, List.foldlM_append] at closed
  cases tracked : (machine.table.trace parser.parser.cs part).flatten.foldlM Notes.track {} with
  | none =>
      rw [tracked] at closed
      cases closed
  | some notes =>
      have alike : Alike place 0 {} self parser.cleared :=
        ⟨data, error, by simp, by simp, by simp, by simp⟩
      have simulated := Table.run_simulates (fun _ _ _ _ => alike_moved) (part_step agrees)
        (by simp) tracked alike ran
      rcases simulated with ⟨last', parser', notes', partRan, places, related⟩
      exact ⟨last', parser', partRan, places, related.data, related.error⟩

theorem whole_rest (head : RequestHead machine) {place state : Nat} {self : HttpRequestParser}
    (live : machine.table.Live state) (whole : WholeRun head place state self) :
    ∃ final last, machine.table.run RequestAction.breaks (HttpRequestParser.perform head.bytes)
        place state (head.bytes.drop place) self = .ok (head.bytes.length, final, last) ∧
      ¬ machine.table.Live final ∧ head.parsed = { last with parser.cs := final } ∧
      last.error = 0 := by
  rcases head_run head with ⟨final, last, ran, ended, parsed, noError, _⟩
  refine ⟨final, last, ?_, ended, parsed, noError⟩
  rw [WholeRun] at whole ran
  rw [List.take_length, ← List.take_append_drop place head.bytes,
    Table.run_append machine.sound machine.sound.start, List.take_append_drop, whole, bind_ok]
    at ran
  dsimp only at ran
  rwa [if_pos live] at ran

theorem read_inside (head : RequestHead machine) {place next : Nat} {parser : HttpRequestParser}
    (atCut : AtCut head place parser) (closed : closedAt machine head.bytes place = true)
    (onward : place < next) (inside : next < head.bytes.length) :
    ∃ after, parser.execute machine ((head.bytes.drop place).take (next - place)) =
        .ok (next - place, after) ∧ AtCut head next after ∧ after.hasError machine = false := by
  rcases atCut with ⟨live, ⟨self, whole, data, error⟩, early⟩
  rcases whole_rest head live whole with ⟨final, last, rest, _, _, noError⟩
  have split := (List.take_append_drop (next - place) (head.bytes.drop place)).symm
  have length : ((head.bytes.drop place).take (next - place)).length = next - place := by
    rw [List.length_take, List.length_drop]
    omega
  have upTo : head.bytes.take next =
      head.bytes.take place ++ (head.bytes.drop place).take (next - place) := by
    rw [← List.take_add, Nat.add_sub_cancel' (Nat.le_of_lt onward)]
  generalize (head.bytes.drop place).take (next - place) = part at split length upTo
  rw [split, Table.run_append machine.sound live] at rest
  rcases bind_eq_ok rest with ⟨⟨middle, state, self'⟩, ran, behind⟩
  dsimp only at behind
  have places := Table.run_place ran
  split at behind
  · rename_i liveThere
    have reached := Table.run_live machine.sound liveThere ran
    have there : middle = next := by omega
    subst there
    rcases part_run head whole live data error closed split (by omega) ran with
      ⟨last', parser', partRan, came, sameData, sameError⟩
    have wholeThere : WholeRun head middle state self' := by
      rw [WholeRun, upTo, Table.run_append machine.sound machine.sound.start, whole, bind_ok]
      exact (if_pos live).trans ran
    rw [List.append_nil] at partRan
    have some : part ≠ [] := by
      intro none
      rw [none] at length
      simp at length
      omega
    refine ⟨{ parser' with parser.cs := state }, ?_, ?_, ?_⟩
    · rw [HttpRequestParser.execute_run some early live partRan]
      congr 2
      omega
    · exact ⟨liveThere, ⟨self', wholeThere, sameData, sameError⟩,
        (HttpRequestParser.run_early liveThere partRan).trans early⟩
    · rw [HttpRequestParser.has_error_eq_false]
      exact ⟨sameError.trans (HttpRequestParser.run_error behind noError), liveThere.1⟩
  · cases behind
    omega

theorem read_to_end (head : RequestHead machine) {place : Nat} {parser : HttpRequestParser}
    (atCut : AtCut head place parser) (closed : closedAt machine head.bytes place = true)
    (inside : place < head.bytes.length) (extra : Str) :
    ∃ after, parser.execute machine (head.bytes.drop place ++ extra) =
        .ok (head.bytes.length - place, after) ∧ after.data = head.parsed.data ∧
      after.hasError machine = false ∧ after.isFinished machine = true := by
  rcases atCut with ⟨live, ⟨self, whole, data, error⟩, early⟩
  rcases whole_rest head live whole with ⟨final, last, rest, ended, parsed, noError⟩
  rcases part_run head whole live data error closed (List.append_nil _).symm (by omega) rest with
    ⟨last', parser', partRan, came, sameData, sameError⟩
  have ran : machine.table.run RequestAction.breaks
      (HttpRequestParser.perform (head.bytes.drop place ++ extra)) 0 parser.parser.cs
      (head.bytes.drop place ++ extra) parser.cleared = .ok (last', final, parser') := by
    rw [Table.run_append machine.sound live, partRan, bind_ok]
    exact if_neg ended
  have some : head.bytes.drop place ++ extra ≠ [] := by
    intro none
    have length := congrArg List.length none
    rw [List.length_append, List.length_drop, List.length_nil] at length
    omega
  have correct := head.correct
  have finished := head.finished
  rw [parsed] at correct finished ⊢
  refine ⟨{ parser' with parser.cs := final }, ?_, sameData, ?_, finished⟩
  · rw [HttpRequestParser.execute_run some early live ran]
    congr 2
    omega
  · rw [HttpRequestParser.has_error_eq_false]
    exact ⟨sameError.trans noError, (HttpRequestParser.has_error_eq_false.mp correct).2⟩

end Reads

/-- Where the reads of a head end, each asked for the whole buffer. -/
def cutPlace (config : HttpConfig) (ready : Nat → Nat) : Nat → Nat
  | 0 => 0
  | read + 1 =>
      cutPlace config ready read + min (ready (cutPlace config ready read) + 1) config.buffSize

def reached (config : HttpConfig) (stream : SocketStream) (reads : Nat) : Nat :=
  min (cutPlace config stream.ready reads) stream.incoming.length

def SocketStream.inOneRead (stream : SocketStream) (count : Nat) : SocketStream :=
  { stream with ready := fun place => if place = 0 then count - 1 else stream.ready place }

theorem cut_place_zero {config : HttpConfig} (none : config.buffSize = 0) (ready : Nat → Nat)
    (read : Nat) : cutPlace config ready read = 0 := by
  induction read with
  | zero => rfl
  | succ read induction => rw [cutPlace, induction, none, Nat.min_zero]

theorem recv_head_part {machine : HttpMachine} (config : HttpConfig) (head : RequestHead machine)
    {stream : SocketStream} {behind : Str} (connected : stream.connected = true)
    (arrives : stream.incoming = head.bytes ++ behind) {place : Nat} {parser : HttpRequestParser}
    (atCut : AtCut head place parser) (closed : closedAt machine head.bytes place = true)
    (some : 0 < (stream.advance place).arriving config.buffSize)
    (inside : place + (stream.advance place).arriving config.buffSize < head.bytes.length)
    (rounds : Nat) :
    ∃ after, AtCut head (place + (stream.advance place).arriving config.buffSize) after ∧
      recvHead machine config (rounds + 1) (stream.advance place) [] parser =
        recvHead machine config rounds
          (stream.advance (place + (stream.advance place).arriving config.buffSize)) [] after := by
  have brings := SocketStream.arriving_advanced stream place config.buffSize
  have read := SocketStream.read_advanced connected place config.buffSize
  generalize (stream.advance place).arriving config.buffSize = rt at some inside brings read ⊢
  have bytes : (stream.incoming.drop place).take rt =
      (head.bytes.drop place).take (place + rt - place) := by
    rw [arrives, List.drop_append_of_le_length (by omega),
      List.take_append_of_le_length (by rw [List.length_drop]; omega),
      Nat.add_sub_cancel_left]
  have unread : ((head.bytes.drop place).take (place + rt - place)).drop
      (place + rt - place) = [] :=
    List.drop_eq_nil_of_le (by rw [List.length_take]; omega)
  rcases read_inside head atCut closed (show place < place + rt by omega) inside with
    ⟨after, executed, atNext, correct⟩
  rw [bytes] at read
  have round := recv_head_round [] rounds read
    (by rw [List.length_take, List.length_drop]; omega) executed correct
    (by rw [List.nil_append, unread, List.length_nil]; omega)
  refine ⟨after, atNext, ?_⟩
  rw [round, HttpRequestParser.not_finished atNext.live, if_neg Bool.false_ne_true,
    List.nil_append, unread]

/-- The read that brings the end of the head leaves what came behind it in the buffer. -/
theorem recv_head_last {machine : HttpMachine} (config : HttpConfig) (head : RequestHead machine)
    {stream : SocketStream} {behind : Str} (connected : stream.connected = true)
    (arrives : stream.incoming = head.bytes ++ behind) {place : Nat} {parser : HttpRequestParser}
    (atCut : AtCut head place parser) (closed : closedAt machine head.bytes place = true)
    (inside : place < head.bytes.length)
    (whole : head.bytes.length ≤ place + (stream.advance place).arriving config.buffSize)
    (rounds : Nat) :
    ∃ after, recvHead machine config (rounds + 1) (stream.advance place) [] parser =
        .ok (some (after, behind.take
            (place + (stream.advance place).arriving config.buffSize - head.bytes.length)),
          stream.advance (place + (stream.advance place).arriving config.buffSize)) ∧
      after.data = head.parsed.data := by
  have brings := SocketStream.arriving_advanced stream place config.buffSize
  have read := SocketStream.read_advanced connected place config.buffSize
  generalize (stream.advance place).arriving config.buffSize = rt at whole brings read ⊢
  have bytes : (stream.incoming.drop place).take rt =
      head.bytes.drop place ++ behind.take (place + rt - head.bytes.length) := by
    rw [arrives, List.drop_append_of_le_length (Nat.le_of_lt inside), List.take_append,
      List.take_of_length_le (by rw [List.length_drop]; omega), List.length_drop]
    congr 2
    omega
  have unread : (head.bytes.drop place ++
      behind.take (place + rt - head.bytes.length)).drop (head.bytes.length - place) =
        behind.take (place + rt - head.bytes.length) :=
    List.drop_left' (by rw [List.length_drop])
  rcases read_to_end head atCut closed inside (behind.take (place + rt - head.bytes.length)) with
    ⟨after, executed, data, correct, finished⟩
  rw [bytes] at read
  have round := recv_head_round [] rounds read
    (by rw [List.length_append, List.length_drop]; omega) executed correct
    (by rw [List.nil_append, unread, List.length_take]; omega)
  refine ⟨after, ?_, data⟩
  rw [round, if_pos finished, List.nil_append, unread]

/-- The reads of a head leave what came behind it in the buffer and the rest in the stream. -/
theorem recv_head_cut {machine : HttpMachine} (config : HttpConfig) (head : RequestHead machine)
    {stream : SocketStream} {behind : Str} (connected : stream.connected = true)
    (arrives : stream.incoming = head.bytes ++ behind) {reads : Nat}
    (short : ∀ read < reads, cutPlace config stream.ready read < head.bytes.length)
    (whole : head.bytes.length ≤ cutPlace config stream.ready reads)
    (between : ∀ read < reads,
      closedAt machine head.bytes (cutPlace config stream.ready read) = true)
    (left : Nat) :
    ∀ (done rounds : Nat) (parser : HttpRequestParser), done + left + 1 = reads →
      stream.incoming.length - cutPlace config stream.ready done < rounds →
      AtCut head (cutPlace config stream.ready done) parser →
      ∃ after, recvHead machine config rounds
          (stream.advance (cutPlace config stream.ready done)) [] parser =
            .ok (some (after, behind.take (reached config stream reads - head.bytes.length)),
              stream.advance (reached config stream reads)) ∧
        after.data = head.parsed.data := by
  have length := congrArg List.length arrives
  rw [List.length_append] at length
  induction left with
  | zero =>
      intro done rounds parser count enough atCut
      have inside := short done (by omega)
      have brings := SocketStream.arriving_advanced stream
        (cutPlace config stream.ready done) config.buffSize
      have next : cutPlace config stream.ready reads =
          cutPlace config stream.ready done +
            min (stream.ready (cutPlace config stream.ready done) + 1) config.buffSize := by
        rw [← count]
        rfl
      have came : reached config stream reads = cutPlace config stream.ready done +
          (stream.advance (cutPlace config stream.ready done)).arriving config.buffSize := by
        rw [reached, next]
        omega
      cases rounds with
      | zero => omega
      | succ rounds =>
          rw [came]
          exact recv_head_last config head connected arrives atCut (between done (by omega)) inside
            (by omega) rounds
  | succ left induction =>
      intro done rounds parser count enough atCut
      have inside := short (done + 1) (by omega)
      have here := short done (by omega)
      have brings := SocketStream.arriving_advanced stream
        (cutPlace config stream.ready done) config.buffSize
      have positive : 0 < config.buffSize := by
        apply Nat.pos_of_ne_zero
        intro none
        rw [cut_place_zero none] at whole here
        omega
      have next : cutPlace config stream.ready (done + 1) = cutPlace config stream.ready done +
          (stream.advance (cutPlace config stream.ready done)).arriving config.buffSize := by
        rw [cutPlace] at inside ⊢
        omega
      cases rounds with
      | zero => omega
      | succ rounds =>
          have goesOn := induction (done + 1) rounds
          rw [next] at inside goesOn
          rcases recv_head_part config head connected arrives atCut (between done (by omega))
            (by omega) inside rounds with ⟨parser', atNext, round⟩
          rw [round]
          exact goesOn parser' (by omega) (by omega) atNext

theorem recv_body_data (config : HttpConfig) {first second : HttpRequestParser}
    (same : first.data = second.data) (held : Str) (stream : SocketStream) :
    recvBody config first held stream = recvBody config second held stream := by
  rcases first with ⟨_, data, _⟩
  cases same
  rfl

theorem recv_request_cut {machine : HttpMachine} (config : HttpConfig)
    (head : RequestHead machine) (queryStart : Nat) {stream : SocketStream} {behind : Str}
    (connected : stream.connected = true) (arrives : stream.incoming = head.bytes ++ behind)
    {reads : Nat} (short : ∀ read < reads, cutPlace config stream.ready read < head.bytes.length)
    (whole : head.bytes.length ≤ cutPlace config stream.ready reads)
    (between : ∀ read < reads,
      closedAt machine head.bytes (cutPlace config stream.ready read) = true) :
    recvRequest machine config queryStart stream =
      recvBody config head.parsed (behind.take (reached config stream reads - head.bytes.length))
        (stream.advance (reached config stream reads)) := by
  have some := head_nonempty head
  cases reads with
  | zero =>
      rw [cutPlace] at whole
      omega
  | succ left =>
      rcases recv_head_cut config head connected arrives short whole between left 0
        (stream.incoming.length + 1) (HttpRequestParser.new machine queryStart) (by omega)
        (by rw [cutPlace]; omega) (at_cut_start head queryStart) with ⟨after, received, data⟩
      rw [cutPlace, SocketStream.advance_zero] at received
      rw [recvRequest, received, bind_ok]
      exact recv_body_data config data _ _

theorem recv_request_first {machine : HttpMachine} (config : HttpConfig)
    (head : RequestHead machine) (queryStart : Nat) {stream : SocketStream} {behind : Str}
    (connected : stream.connected = true) (arrives : stream.incoming = head.bytes ++ behind)
    (whole : head.bytes.length ≤ min (stream.ready 0 + 1) config.buffSize) :
    recvRequest machine config queryStart stream =
      recvBody config head.parsed
        (behind.take (stream.arriving config.buffSize - head.bytes.length))
        (stream.advance (stream.arriving config.buffSize)) := by
  have place : cutPlace config stream.ready 1 = min (stream.ready 0 + 1) config.buffSize := by
    rw [cutPlace, cutPlace, Nat.zero_add]
  have reads : reached config stream 1 = stream.arriving config.buffSize := by
    rw [reached, place, SocketStream.arriving, Nat.min_assoc]
  rw [← reads]
  apply recv_request_cut config head queryStart connected arrives
  · intro read first
    rw [Nat.lt_one_iff.mp first]
    exact head_nonempty head
  · rw [place]
    exact whole
  · intro read first
    rw [Nat.lt_one_iff.mp first]
    exact head.closed

theorem closed_at_start {machine : HttpMachine} (head : RequestHead machine) {config : HttpConfig}
    {ready : Nat → Nat} {reads : Nat}
    (between : ∀ read < reads, 0 < read →
      closedAt machine head.bytes (cutPlace config ready read) = true) :
    ∀ read < reads, closedAt machine head.bytes (cutPlace config ready read) = true := by
  intro read before
  cases read with
  | zero => exact head.closed
  | succ read => exact between (read + 1) before (Nat.succ_pos read)

/-- A head that arrives in any number of reads is received as in one read, when no cut falls into
a token. -/
theorem head_survives_cuts {machine : HttpMachine} (config : HttpConfig)
    (head : RequestHead machine) (queryStart : Nat) {stream : SocketStream} {behind : Str}
    (connected : stream.connected = true) (arrives : stream.incoming = head.bytes ++ behind)
    {reads : Nat} (short : ∀ read < reads, cutPlace config stream.ready read < head.bytes.length)
    (whole : head.bytes.length ≤ cutPlace config stream.ready reads)
    (fits : reached config stream reads ≤ config.buffSize)
    (between : ∀ read < reads, 0 < read →
      closedAt machine head.bytes (cutPlace config stream.ready read) = true) :
    recvRequest machine config queryStart stream =
      recvRequest machine config queryStart
        (stream.inOneRead (reached config stream reads)) := by
  have some := head_nonempty head
  have length := congrArg List.length arrives
  rw [List.length_append] at length
  have extent : head.bytes.length ≤ reached config stream reads := by
    rw [reached]
    omega
  let once := stream.inOneRead (reached config stream reads)
  have place : cutPlace config once.ready 1 = reached config stream reads := by
    simp only [once, cutPlace, SocketStream.inOneRead, if_pos]
    omega
  have shortOnce : ∀ read < 1, cutPlace config once.ready read < head.bytes.length := by
    intro read first
    rw [Nat.lt_one_iff.mp first]
    exact some
  have wholeOnce : head.bytes.length ≤ cutPlace config once.ready 1 := by
    rw [place]
    exact extent
  have reachedOnce : reached config once 1 = reached config stream reads := by
    rw [reached, place]
    exact Nat.min_eq_left (Nat.min_le_right _ _)
  have sameBehind : once.advance (reached config stream reads) =
      stream.advance (reached config stream reads) := by
    have onward : reached config stream reads ≠ 0 := by omega
    simp [once, SocketStream.advance, SocketStream.inOneRead, onward]
  rw [recv_request_cut config head queryStart connected arrives short whole
    (closed_at_start head between), recv_request_cut config head queryStart
    (show once.connected = true from connected) arrives shortOnce wholeOnce
    (closed_at_start head (by omega)), reachedOnce, sameBehind]

def plainHead : RequestHead originForm where
  bytes := ascii "GET /ab HTTP/1.1\r\nHost: c\r\n\r\n"
  parsed := {
    parser := {
      cs := 348
      bodyStart := 29
      mark := 24
      fieldStart := 27
      fieldLen := 4
      queryStart := 0
      xmlSent := false
      jsonSent := false }
    data := { path := ascii "/ab", headers := [(ascii "Host", ascii "c")] }
    error := 0 }
  accepted := by decide +kernel
  correct := by decide
  finished := by decide
  closed := by decide +kernel

def inTwoReads (first : Nat) : SocketStream where
  connected := true
  incoming := plainHead.bytes
  ready := fun place => if place = 0 then first - 1 else plainHead.bytes.length
  outgoing := []

def received (result : Result (Option HttpRequest × SocketStream)) : Option HttpRequest :=
  match result with
  | .ok (request, _) => request
  | .error _ => none

/-- A cut behind the version's line feed. -/
theorem head_survives_cuts_two :
    recvRequest originForm defaultConfig 0 (inTwoReads 18) =
      recvRequest originForm defaultConfig 0
        ((inTwoReads 18).inOneRead (reached defaultConfig (inTwoReads 18) 2)) :=
  head_survives_cuts defaultConfig plainHead 0 rfl (List.append_nil _).symm
    (by decide +kernel) (by decide +kernel) (by decide +kernel) (by decide +kernel)

/-- `GET /a` in one read and `b HTTP/1.1` in the next: the path is `b`. -/
theorem head_cut_in_path :
    ¬ ∀ (machine : HttpMachine) (config : HttpConfig) (head : RequestHead machine)
      (queryStart : Nat) (stream : SocketStream) (behind : Str) (reads : Nat),
      stream.connected = true → stream.incoming = head.bytes ++ behind →
      (∀ read < reads, cutPlace config stream.ready read < head.bytes.length) →
      head.bytes.length ≤ cutPlace config stream.ready reads →
      reached config stream reads ≤ config.buffSize →
      recvRequest machine config queryStart stream =
        recvRequest machine config queryStart
          (stream.inOneRead (reached config stream reads)) := by
  intro always
  have same := congrArg received (always originForm defaultConfig plainHead 0 (inTwoReads 6) [] 2
    rfl (List.append_nil _).symm (by decide +kernel) (by decide +kernel) (by decide +kernel))
  have cut : (received (recvRequest originForm defaultConfig 0 (inTwoReads 6))).map (·.path) =
      some (ascii "b") := by
    decide +kernel
  have whole : (received (recvRequest originForm defaultConfig 0
      ((inTwoReads 6).inOneRead (reached defaultConfig (inTwoReads 6) 2)))).map (·.path) =
        some (ascii "/ab") := by
    decide +kernel
  rw [same, whole] at cut
  exact absurd cut (by decide)

end ChatServer.Http
