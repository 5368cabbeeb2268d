import ChatServer.Http2.DynamicTable

/-!
# Definitions of loggers

The two `LexicalCast`s between a `LogDefine` and a text in YAML (`log.cc`). The library builds
and reads the text; what the casts put into its nodes and take from them is here. The level of
an appender is written and never read.
-/

namespace ChatServer.Log

set_option autoImplicit false

open ChatServer.Http2 (ascii)

inductive LogLevel where
  | unknown | debug | info | warn | error | fatal
  deriving DecidableEq

def LogLevel.toString : LogLevel → Str
  | .debug => ascii "DEBUG"
  | .info => ascii "INFO"
  | .warn => ascii "WARN"
  | .error => ascii "ERROR"
  | .fatal => ascii "FATAL"
  | .unknown => ascii "UNKNOWN"

/-- The comparisons of `FromString`, in their order. -/
def levelNames : List (Str × LogLevel) := [
    (ascii "debug", .debug), (ascii "info", .info), (ascii "warn", .warn),
    (ascii "error", .error), (ascii "fatal", .fatal),
    (ascii "DEBUG", .debug), (ascii "INFO", .info), (ascii "WARN", .warn),
    (ascii "ERROR", .error), (ascii "FATAL", .fatal)]

def LogLevel.fromString (str : Str) : LogLevel := (levelNames.lookup str).getD .unknown

structure LogAppenderDefine where
  type : Int := 0
  level : LogLevel := .unknown
  formatter : Str := []
  file : Str := []
  deriving DecidableEq

structure LogDefine where
  name : Str
  level : LogLevel := .unknown
  formatter : Str := []
  appenders : List LogAppenderDefine := []
  deriving DecidableEq

inductive Node where
  | null
  | scalar (text : Str)
  | map (entries : List (Str × Node))
  | sequence (nodes : List Node)

/-- `YAML::Load`, which throws for a text that is none, and the emitter. -/
structure Yaml where
  load : Str → Option Node
  emit : Node → Str

/-- The exceptions of the reader: of the library, and for a missing name. -/
inductive LogFault where
  | parser
  | badConversion
  | nameNull
  deriving DecidableEq

/-- `n[key]`, if it is defined. -/
def Node.get (n : Node) (key : Str) : Option Node :=
  match n with
  | .map entries => entries.lookup key
  | _ => none

def Node.asString : Node → Except LogFault Str
  | .scalar text => .ok text
  | _ => .error .badConversion

/-- The elements of a sequence; nothing else has any that are read. -/
def Node.elements : Node → List Node
  | .sequence nodes => nodes
  | _ => []

def Node.textOr (n : Node) (key : Str) : Except LogFault Str :=
  match n.get key with
  | some value => value.asString
  | none => .ok []

def nameKey : Str := ascii "name"
def levelKey : Str := ascii "level"
def formatterKey : Str := ascii "formatter"
def appendersKey : Str := ascii "appenders"
def typeKey : Str := ascii "type"
def fileKey : Str := ascii "file"
def fileAppender : Str := ascii "FileLogAppender"
def stdoutAppender : Str := ascii "StdoutLogAppender"

/-- A round of the reader's loop; a definition that lacks something is left out. -/
def readAppender (a : Node) : Except LogFault (Option LogAppenderDefine) :=
  match a.get typeKey with
  | none => .ok none
  | some type => do
      let type ← type.asString
      if type = fileAppender then
        match a.get fileKey with
        | none => .ok none
        | some file => do
            let file ← file.asString
            let formatter ← a.textOr formatterKey
            .ok (some { type := 1, file := file, formatter := formatter })
      else if type = stdoutAppender then do
        let formatter ← a.textOr formatterKey
        .ok (some { type := 2, formatter := formatter })
      else .ok none

def readAppenders : List Node → Except LogFault (List LogAppenderDefine)
  | [] => .ok []
  | a :: rest => do
      let appender ← readAppender a
      let appenders ← readAppenders rest
      .ok (appender.toList ++ appenders)

/-- What `LexicalCast<std::string, LogDefine>` does with the node. -/
def fromNode (n : Node) : Except LogFault LogDefine :=
  match n.get nameKey with
  | none => .error .nameNull
  | some name => do
      let name ← name.asString
      let level ← n.textOr levelKey
      let formatter ← n.textOr formatterKey
      let appenders ← readAppenders ((n.get appendersKey).elim [] Node.elements)
      .ok ⟨name, .fromString level, formatter, appenders⟩

/-- `LexicalCast<std::string, LogDefine>` -/
def fromString (yaml : Yaml) (v : Str) : Except LogFault LogDefine :=
  match yaml.load v with
  | none => .error .parser
  | some n => fromNode n

/-- The entries that both kinds of definitions have, when they are set. -/
def levelEntry (level : LogLevel) : List (Str × Node) :=
  if level = .unknown then [] else [(levelKey, .scalar level.toString)]

def formatterEntry (formatter : Str) : List (Str × Node) :=
  if formatter = [] then [] else [(formatterKey, .scalar formatter)]

def typeEntries (a : LogAppenderDefine) : List (Str × Node) :=
  if a.type = 1 then [(typeKey, .scalar fileAppender), (fileKey, .scalar a.file)]
  else if a.type = 2 then [(typeKey, .scalar stdoutAppender)]
  else []

def assigned (entries : List (Str × Node)) : Node := if entries = [] then .null else .map entries

def appenderNode (a : LogAppenderDefine) : Node :=
  assigned (typeEntries a ++ levelEntry a.level ++ formatterEntry a.formatter)

def appendersEntry (appenders : List LogAppenderDefine) : List (Str × Node) :=
  if appenders = [] then [] else [(appendersKey, .sequence (appenders.map appenderNode))]

def LogDefine.toNode (i : LogDefine) : Node :=
  assigned ([(nameKey, .scalar i.name)] ++ levelEntry i.level ++ formatterEntry i.formatter ++
    appendersEntry i.appenders)

/-- `LexicalCast<LogDefine, std::string>` -/
def toString (yaml : Yaml) (i : LogDefine) : Str := yaml.emit i.toNode

/-- Saved and loaded, the definition is the same. -/
def RoundTrips (yaml : Yaml) (d : LogDefine) : Prop := fromString yaml (toString yaml d) = .ok d

variable {entries front back : List (Str × Node)} {key : Str}

theorem get_assigned (entries : List (Str × Node)) (key : Str) :
    (assigned entries).get key = entries.lookup key := by
  rw [assigned]
  split
  · rename_i empty
    rw [empty]
    rfl
  · rfl

theorem text_or_none (absent : entries.lookup key = none) :
    (assigned entries).textOr key = .ok [] := by
  rw [Node.textOr, get_assigned, absent]

theorem text_or_some {text : Str} (found : entries.lookup key = some (.scalar text)) :
    (assigned entries).textOr key = .ok text := by
  rw [Node.textOr, get_assigned, found]
  rfl

theorem lookup_other {value : Node} {other : Str} (different : key ≠ other) :
    List.lookup key [(other, value)] = none := by
  rw [List.lookup_cons, beq_false_of_ne different]
  rfl

theorem lookup_same (key : Str) (value : Node) : List.lookup key [(key, value)] = some value := by
  rw [List.lookup_cons, beq_self_eq_true]

theorem level_other (level : LogLevel) (different : key ≠ levelKey) :
    (levelEntry level).lookup key = none := by
  rw [levelEntry]
  split
  · rfl
  · exact lookup_other different

theorem formatter_other (formatter : Str) (different : key ≠ formatterKey) :
    (formatterEntry formatter).lookup key = none := by
  rw [formatterEntry]
  split
  · rfl
  · exact lookup_other different

theorem appenders_other (appenders : List LogAppenderDefine) (different : key ≠ appendersKey) :
    (appendersEntry appenders).lookup key = none := by
  rw [appendersEntry]
  split
  · rfl
  · exact lookup_other different

/-- A level that was written is read, and one that was not is unknown. -/
theorem level_read (level : LogLevel) (before : front.lookup levelKey = none)
    (behind : back.lookup levelKey = none) :
    ∃ text, (assigned (front ++ levelEntry level ++ back)).textOr levelKey = .ok text ∧
      LogLevel.fromString text = level := by
  by_cases unset : level = .unknown
  · refine ⟨[], ?_, by rw [unset]; decide⟩
    apply text_or_none
    rw [List.lookup_append, List.lookup_append, before, behind, levelEntry, if_pos unset]
    rfl
  · refine ⟨level.toString, ?_, by cases level <;> decide⟩
    apply text_or_some
    rw [List.lookup_append, List.lookup_append, before, behind, levelEntry, if_neg unset,
      lookup_same]
    rfl

theorem formatter_read (formatter : Str) (before : front.lookup formatterKey = none)
    (behind : back.lookup formatterKey = none) :
    (assigned (front ++ formatterEntry formatter ++ back)).textOr formatterKey =
      .ok formatter := by
  by_cases unset : formatter = []
  · rw [unset]
    apply text_or_none
    rw [List.lookup_append, List.lookup_append, before, behind, formatterEntry, if_pos rfl]
    rfl
  · apply text_or_some
    rw [List.lookup_append, List.lookup_append, before, behind, formatterEntry, if_neg unset,
      lookup_same]
    rfl

/-- What is left of the definition of an appender. -/
def kept (a : LogAppenderDefine) : Option LogAppenderDefine :=
  if a.type = 1 then some { type := 1, file := a.file, formatter := a.formatter }
  else if a.type = 2 then some { type := 2, formatter := a.formatter }
  else none

theorem type_entries_formatter (a : LogAppenderDefine) :
    (typeEntries a).lookup formatterKey = none := by
  rw [typeEntries]
  split
  · exact (List.lookup_cons ..).trans rfl
  · split
    · exact lookup_other (by decide)
    · rfl

theorem appender_formatter (a : LogAppenderDefine) :
    (appenderNode a).textOr formatterKey = .ok a.formatter := by
  have before : (typeEntries a ++ levelEntry a.level).lookup formatterKey = none := by
    rw [List.lookup_append, type_entries_formatter, level_other a.level (by decide)]
    rfl
  have behind : List.lookup formatterKey ([] : List (Str × Node)) = none := rfl
  have read := formatter_read a.formatter before behind
  rwa [List.append_nil] at read

theorem appender_get (a : LogAppenderDefine) (key : Str) (notLevel : key ≠ levelKey)
    (notFormatter : key ≠ formatterKey) :
    (appenderNode a).get key = (typeEntries a).lookup key := by
  rw [appenderNode, get_assigned, List.lookup_append, List.lookup_append,
    level_other a.level notLevel, formatter_other a.formatter notFormatter, Option.or_none,
    Option.or_none]

theorem read_appender_node (a : LogAppenderDefine) :
    readAppender (appenderNode a) = .ok (kept a) := by
  have type := appender_get a typeKey (by decide) (by decide)
  have file := appender_get a fileKey (by decide) (by decide)
  rw [readAppender, type, file, appender_formatter, kept, typeEntries]
  by_cases isFile : a.type = 1
  · rw [if_pos isFile, if_pos isFile]
    rfl
  · rw [if_neg isFile, if_neg isFile]
    by_cases isStdout : a.type = 2
    · rw [if_pos isStdout, if_pos isStdout]
      rfl
    · rw [if_neg isStdout, if_neg isStdout]
      rfl

theorem read_appender_nodes (appenders : List LogAppenderDefine) :
    readAppenders (appenders.map appenderNode) = .ok (appenders.filterMap kept) := by
  induction appenders with
  | nil => rfl
  | cons a appenders induction =>
      rw [List.map_cons, readAppenders, read_appender_node, induction, List.filterMap_cons]
      cases kept a <;> rfl

/-- Everything is read back but the levels of the appenders, and what belongs to no kind. -/
theorem from_node_to_node (d : LogDefine) :
    fromNode d.toNode = .ok { d with appenders := d.appenders.filterMap kept } := by
  have name : d.toNode.get nameKey = some (.scalar d.name) := by
    rw [LogDefine.toNode, get_assigned]
    rfl
  have levels : ∃ text, d.toNode.textOr levelKey = .ok text ∧
      LogLevel.fromString text = d.level := by
    have behind : (formatterEntry d.formatter ++ appendersEntry d.appenders).lookup levelKey =
        none := by
      rw [List.lookup_append, formatter_other _ (by decide), appenders_other _ (by decide)]
      rfl
    have before : List.lookup levelKey [(nameKey, Node.scalar d.name)] = none :=
      lookup_other (by decide)
    have read := level_read d.level before behind
    rwa [← List.append_assoc] at read
  have formatter : d.toNode.textOr formatterKey = .ok d.formatter := by
    apply formatter_read
    · rw [List.lookup_append, lookup_other (by decide), level_other _ (by decide)]
      rfl
    · exact appenders_other _ (by decide)
  have appenders : readAppenders ((d.toNode.get appendersKey).elim [] Node.elements) =
      .ok (d.appenders.filterMap kept) := by
    rw [LogDefine.toNode, get_assigned, List.lookup_append, List.lookup_append, List.lookup_append,
      lookup_other (by decide), level_other _ (by decide), formatter_other _ (by decide),
      appendersEntry]
    by_cases empty : d.appenders = []
    · rw [if_pos empty, empty]
      rfl
    · rw [if_neg empty, lookup_same]
      exact read_appender_nodes d.appenders
  rcases levels with ⟨text, level, same⟩
  rw [fromNode, name]
  dsimp only
  rw [level, formatter, appenders, ← same]
  rfl

theorem filter_map_self_iff {Value : Type} (change : Value → Option Value) (values : List Value) :
    values.filterMap change = values ↔ ∀ value ∈ values, change value = some value := by
  constructor
  · induction values with
    | nil => exact fun same value member => absurd member List.not_mem_nil
    | cons value values induction =>
        intro same
        rw [List.filterMap_cons] at same
        cases changed : change value with
        | none =>
            rw [changed] at same
            have lengths := congrArg List.length same
            have fewer := List.length_filterMap_le change values
            rw [List.length_cons] at lengths
            dsimp only at lengths
            omega
        | some other =>
            rw [changed] at same
            have parts := List.cons.inj same
            intro one member
            rcases List.mem_cons.mp member with first | later
            · rw [first, changed, parts.1]
            · exact induction parts.2 one later
  · intro each
    rw [List.filterMap_congr each, List.filterMap_some]

theorem kept_self_iff (a : LogAppenderDefine) :
    kept a = some a ↔ a.level = .unknown ∧ (a.type = 1 ∨ a.type = 2 ∧ a.file = []) := by
  rcases a with ⟨type, level, formatter, file⟩
  rw [kept]
  by_cases isFile : type = 1
  · rw [if_pos isFile, isFile]
    simp [eq_comm]
  · rw [if_neg isFile]
    by_cases isStdout : type = 2
    · rw [if_pos isStdout, isStdout]
      simp [eq_comm]
    · rw [if_neg isStdout]
      simp [isFile, isStdout]

/-- With a library that reads back what it wrote, a definition is the same when it is loaded
again just when no appender has a level (and every appender is of one of the kinds). -/
theorem log_define_iff (yaml : Yaml) (d : LogDefine)
    (faithful : yaml.load (yaml.emit d.toNode) = some d.toNode) :
    RoundTrips yaml d ↔ ∀ a ∈ d.appenders,
      a.level = .unknown ∧ (a.type = 1 ∨ a.type = 2 ∧ a.file = []) := by
  have each : (∀ a ∈ d.appenders, a.level = .unknown ∧ (a.type = 1 ∨ a.type = 2 ∧ a.file = [])) ↔
      d.appenders.filterMap kept = d.appenders := by
    rw [filter_map_self_iff]
    exact forall₂_congr fun a member => (kept_self_iff a).symm
  rw [each, RoundTrips, fromString, toString, faithful]
  dsimp only
  rw [from_node_to_node]
  constructor
  · intro same
    exact congrArg LogDefine.appenders (Except.ok.inj same)
  · intro same
    rw [same]

/-- A logger with one appender, which writes to the terminal. -/
def stdoutDefine (level : LogLevel) : LogDefine :=
  { name := ascii "root", appenders := [{ type := 2, level := level }] }

def stdoutText (level : LogLevel) : Str :=
  ascii "name: root\nappenders:\n  - type: StdoutLogAppender" ++
    if level = .unknown then [] else ascii "\n    level: " ++ level.toString

/-- The library, as far as it has to do with this definition. -/
def stdoutYaml (level : LogLevel) : Yaml where
  load v := if v = stdoutText level then some (stdoutDefine level).toNode else none
  emit _ := stdoutText level

theorem stdout_faithful (level : LogLevel) :
    (stdoutYaml level).load ((stdoutYaml level).emit (stdoutDefine level).toNode) =
      some (stdoutDefine level).toNode := by
  simp [stdoutYaml]

theorem log_define_iff_stdout : RoundTrips (stdoutYaml .unknown) (stdoutDefine .unknown) ↔
    ∀ a ∈ (stdoutDefine .unknown).appenders,
      a.level = .unknown ∧ (a.type = 1 ∨ a.type = 2 ∧ a.file = []) :=
  log_define_iff (stdoutYaml .unknown) (stdoutDefine .unknown) (stdout_faithful .unknown)

/-- An appender for errors comes back as one for everything. -/
theorem appender_level_lost :
    (stdoutYaml .error).load ((stdoutYaml .error).emit (stdoutDefine .error).toNode) =
      some (stdoutDefine .error).toNode ∧
    fromString (stdoutYaml .error) (toString (stdoutYaml .error) (stdoutDefine .error)) =
      .ok (stdoutDefine .unknown) ∧
    ¬RoundTrips (stdoutYaml .error) (stdoutDefine .error) := by
  have loaded : fromString (stdoutYaml .error)
      (toString (stdoutYaml .error) (stdoutDefine .error)) = .ok (stdoutDefine .unknown) := by
    rw [fromString, toString, stdout_faithful]
    dsimp only
    rw [from_node_to_node]
    rfl
  refine ⟨stdout_faithful .error, loaded, ?_⟩
  intro same
  rw [RoundTrips, loaded] at same
  exact absurd (Except.ok.inj same) (by decide)

end ChatServer.Log
