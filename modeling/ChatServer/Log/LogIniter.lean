import ChatServer.Log.LogDefine
import ChatServer.Log.LogFormatter
import Mathlib.Data.List.Nodup

/-!
# Loggers made from their definitions

The listener of `g_log_defines` in `log.cc`, which is told the old and the new set of definitions,
and what it calls of `Logger` and `LogAppender`. A formatter is its pattern. An empty pattern in
a new definition does not touch the formatter that an older one has set.
-/

namespace ChatServer.Log

set_option autoImplicit false

open ChatServer.Http2 (ascii)

def isError (pattern : Str) : Bool :=
  match init pattern with
  | .ok (_, error) => error
  | .error _ => true

inductive AppenderKind where
  | file (filename : Str)
  | stdout
  deriving DecidableEq

structure LogAppender where
  kind : AppenderKind
  level : LogLevel := .debug
  hasFormatter : Bool := false
  formatter : Option Str := none
  deriving DecidableEq

def LogAppender.setLevel (ap : LogAppender) (val : LogLevel) : LogAppender :=
  { ap with level := val }

def LogAppender.setFormatter (ap : LogAppender) (val : Str) : LogAppender :=
  { ap with formatter := some val, hasFormatter := true }

def LogLevel.number : LogLevel → Nat
  | .unknown => 0
  | .debug => 1
  | .info => 2
  | .warn => 3
  | .error => 4
  | .fatal => 5

/-- `m_level` is a number, as a level of 100 is set too. -/
structure Logger where
  level : Nat
  formatter : Str
  appenders : List LogAppender
  deriving DecidableEq

def defaultPattern : Str :=
  ascii "%d\x7b%Y-%m-%d %H:%M:%S\x7d%T%t%T%N%T%F%T[%p]%T[%c]%T%f:%l%T%m%n"

namespace Logger

def new : Logger := ⟨LogLevel.number .debug, defaultPattern, []⟩

def setLevel (logger : Logger) (val : Nat) : Logger := { logger with level := val }

/-- `setFormatter` for a formatter: appenders without one of their own get it. -/
def setFormatter (logger : Logger) (val : Str) : Logger :=
  { logger with
    formatter := val
    appenders := logger.appenders.map fun i =>
      if i.hasFormatter then i else { i with formatter := some val } }

/-- `setFormatter` for a pattern, which is refused when it has an error. -/
def setPattern (logger : Logger) (val : Str) : Logger :=
  if isError val then logger else logger.setFormatter val

def clearAppenders (logger : Logger) : Logger := { logger with appenders := [] }

def addAppender (logger : Logger) (appender : LogAppender) : Logger :=
  let appender :=
    if appender.formatter = none then { appender with formatter := some logger.formatter }
    else appender
  { logger with appenders := logger.appenders ++ [appender] }

end Logger

/-- A set of definitions; they are compared by their names. -/
structure LogDefines where
  defines : List LogDefine
  distinct : (defines.map LogDefine.name).Nodup

/-- The appender for a definition. With the argument `d` of the program none is made for the
terminal; a definition of neither kind leaves a null pointer, which `setLevel` follows. -/
def makeAppender (d : Bool) (a : LogAppenderDefine) : Result (Option LogAppender) :=
  if a.type = 1 then .ok (some { kind := .file a.file })
  else if a.type = 2 then .ok (if d then none else some { kind := .stdout })
  else .error (.undefined .nullDeref)

def dressAppender (a : LogAppenderDefine) (ap : LogAppender) : LogAppender :=
  let ap := ap.setLevel a.level
  if a.formatter ≠ [] ∧ isError a.formatter = false then ap.setFormatter a.formatter else ap

def addAppenders (d : Bool) : List LogAppenderDefine → Logger → Result Logger
  | [], logger => .ok logger
  | a :: rest, logger => do
      let ap ← makeAppender d a
      match ap with
      | none => addAppenders d rest logger
      | some ap => addAppenders d rest (logger.addAppender (dressAppender a ap))

/-- What the listener does with the logger of a new or a changed definition. -/
def configure (d : Bool) (i : LogDefine) (logger : Logger) : Result Logger :=
  let logger := logger.setLevel i.level.number
  let logger := if i.formatter ≠ [] then logger.setPattern i.formatter else logger
  addAppenders d i.appenders logger.clearAppenders

/-- The loggers by their names. One that nobody asked for yet is as new. -/
abbrev Loggers := Str → Logger

def Loggers.set (loggers : Loggers) (name : Str) (logger : Logger) : Loggers :=
  fun other => if other = name then logger else loggers other

/-- The root logger starts with an appender for the terminal. -/
def freshLoggers : Loggers := fun name =>
  if name = ascii "root" then Logger.new.addAppender { kind := .stdout } else Logger.new

def findDefine (defines : List LogDefine) (i : LogDefine) : Option LogDefine :=
  defines.find? fun it => decide (it.name = i.name)

def applyDefine (d : Bool) (old : List LogDefine) (loggers : Loggers) (i : LogDefine) :
    Result Loggers :=
  if findDefine old i = some i then .ok loggers
  else do
    let logger ← configure d i (loggers i.name)
    .ok (loggers.set i.name logger)

def removeDefine (new : List LogDefine) (loggers : Loggers) (i : LogDefine) : Loggers :=
  if findDefine new i = none then
    loggers.set i.name ((loggers i.name).setLevel 100).clearAppenders
  else loggers

def applyDefines (d : Bool) (old : List LogDefine) : List LogDefine → Loggers → Result Loggers
  | [], loggers => .ok loggers
  | i :: rest, loggers => do
      let loggers ← applyDefine d old loggers i
      applyDefines d old rest loggers

def onLogDefines (d : Bool) (old new : LogDefines) (loggers : Loggers) : Result Loggers := do
  let loggers ← applyDefines d old.defines new.defines loggers
  .ok (old.defines.foldl (removeDefine new.defines) loggers)

def noDefines : LogDefines := ⟨[], List.nodup_nil⟩

/-- The second set leaves its loggers as if the first one had not been there. -/
def HistoryFree (d : Bool) (c1 c2 : LogDefines) : Prop :=
  ∃ first second alone, onLogDefines d noDefines c1 freshLoggers = .ok first ∧
    onLogDefines d c1 c2 first = .ok second ∧
    onLogDefines d noDefines c2 freshLoggers = .ok alone ∧
    ∀ i ∈ c2.defines, second i.name = alone i.name

def Usable (pattern : Str) : Prop := pattern ≠ [] ∧ isError pattern = false

instance (pattern : Str) : Decidable (Usable pattern) := inferInstanceAs (Decidable (_ ∧ _))

/-- Every appender is one of a kind that there is. -/
def Kinded (i : LogDefine) : Prop := ∀ a ∈ i.appenders, a.type = 1 ∨ a.type = 2

/-- The definition of the logger is the same as before, or sets a formatter, or the one before
had set none but the default. -/
def Unburdened (i before : LogDefine) : Prop :=
  i = before ∨ Usable i.formatter ∨ ¬Usable before.formatter ∨ before.formatter = defaultPattern

variable {d : Bool} {i j : LogDefine} {logger other : Logger} {loggers after : Loggers}

def formatterAfter (i : LogDefine) (formatter : Str) : Str :=
  if Usable i.formatter then i.formatter else formatter

theorem formatter_after_set (usable : Usable i.formatter) (formatter : Str) :
    formatterAfter i formatter = i.formatter := if_pos usable

theorem formatter_after_kept (unusable : ¬Usable i.formatter) (formatter : Str) :
    formatterAfter i formatter = formatter := if_neg unusable

theorem configure_eq (d : Bool) (i : LogDefine) (logger : Logger) :
    configure d i logger = addAppenders d i.appenders
      ⟨i.level.number, formatterAfter i logger.formatter, []⟩ := by
  rw [configure, formatterAfter]
  by_cases empty : i.formatter = []
  · rw [if_neg (not_not.mpr empty), if_neg fun usable => usable.1 empty]
    rfl
  · rw [if_pos empty, Logger.setPattern]
    cases error : isError i.formatter with
    | true =>
        have unusable : ¬Usable i.formatter := by
          intro usable
          rw [usable.2] at error
          cases error
        rw [if_pos rfl, if_neg unusable]
        rfl
    | false =>
        rw [if_neg (by decide), if_pos ⟨empty, error⟩]
        rfl

theorem add_appenders_formatter (appenders : List LogAppenderDefine) : ∀ logger after : Logger,
    addAppenders d appenders logger = .ok after → after.formatter = logger.formatter := by
  induction appenders with
  | nil =>
      intro logger after done
      rw [← Except.ok.inj done]
  | cons a appenders induction =>
      intro logger after done
      rcases bind_eq_ok done with ⟨ap, _, rest⟩
      cases ap with
      | none => exact induction _ _ rest
      | some ap => exact induction (logger.addAppender (dressAppender a ap)) after rest

theorem configure_formatter (done : configure d i logger = .ok other) :
    other.formatter = formatterAfter i logger.formatter := by
  rw [configure_eq] at done
  exact add_appenders_formatter _ _ _ done

/-- What comes out depends on the formatter that there was and on nothing else. -/
theorem configure_congr (same : formatterAfter i logger.formatter =
    formatterAfter i other.formatter) : configure d i logger = configure d i other := by
  rw [configure_eq, configure_eq, same]

theorem add_appenders_ok_iff (appenders : List LogAppenderDefine) : ∀ logger : Logger,
    (∃ after, addAppenders d appenders logger = .ok after) ↔
      ∀ a ∈ appenders, a.type = 1 ∨ a.type = 2 := by
  induction appenders with
  | nil => exact fun logger => ⟨fun _ a member => absurd member List.not_mem_nil, fun _ => ⟨_, rfl⟩⟩
  | cons a appenders induction =>
      intro logger
      rw [List.forall_mem_cons, addAppenders, makeAppender]
      by_cases isFile : a.type = 1
      · rw [if_pos isFile, bind_ok]
        exact (induction _).trans ⟨fun rest => ⟨Or.inl isFile, rest⟩, And.right⟩
      · rw [if_neg isFile]
        by_cases isStdout : a.type = 2
        · have kind : a.type = 1 ∨ a.type = 2 := Or.inr isStdout
          rw [if_pos isStdout, bind_ok]
          cases d with
          | true => exact (induction _).trans ⟨fun rest => ⟨kind, rest⟩, And.right⟩
          | false => exact (induction _).trans ⟨fun rest => ⟨kind, rest⟩, And.right⟩
        · rw [if_neg isStdout, bind_error]
          constructor
          · rintro ⟨after, done⟩
            cases done
          · rintro ⟨kind, _⟩
            exact absurd kind (not_or.mpr ⟨isFile, isStdout⟩)

theorem configure_ok_iff (d : Bool) (i : LogDefine) (logger : Logger) :
    (∃ after, configure d i logger = .ok after) ↔ Kinded i := by
  rw [configure_eq]
  exact add_appenders_ok_iff i.appenders _

theorem set_same (loggers : Loggers) (name : Str) (logger : Logger) :
    loggers.set name logger name = logger := if_pos rfl

theorem set_other (loggers : Loggers) (logger : Logger) {name another : Str}
    (different : another ≠ name) : loggers.set name logger another = loggers another :=
  if_neg different

theorem apply_define_other {old : List LogDefine} {name : Str}
    (done : applyDefine d old loggers i = .ok after) (different : name ≠ i.name) :
    after name = loggers name := by
  rw [applyDefine] at done
  by_cases same : findDefine old i = some i
  · rw [if_pos same] at done
    rw [← Except.ok.inj done]
  · rw [if_neg same] at done
    rcases bind_eq_ok done with ⟨logger, _, placed⟩
    rw [← Except.ok.inj placed, set_other _ _ different]

/-- What a definition makes of its logger: nothing if it is the one from before. -/
def Configured (d : Bool) (old : List LogDefine) (i : LogDefine) (logger after : Logger) : Prop :=
  if findDefine old i = some i then after = logger else configure d i logger = .ok after

theorem apply_define_own {old : List LogDefine} (done : applyDefine d old loggers i = .ok after) :
    Configured d old i (loggers i.name) (after i.name) := by
  rw [applyDefine] at done
  rw [Configured]
  by_cases same : findDefine old i = some i
  · rw [if_pos same] at done ⊢
    rw [← Except.ok.inj done]
  · rw [if_neg same] at done ⊢
    rcases bind_eq_ok done with ⟨logger, configured, placed⟩
    rw [← Except.ok.inj placed, set_same]
    exact configured

theorem apply_defines_other {old : List LogDefine} {name : Str} (new : List LogDefine) :
    ∀ loggers : Loggers, applyDefines d old new loggers = .ok after →
      name ∉ new.map LogDefine.name → after name = loggers name := by
  induction new with
  | nil =>
      intro loggers done absent
      rw [← Except.ok.inj done]
  | cons i new induction =>
      intro loggers done absent
      rw [List.map_cons, List.mem_cons, not_or] at absent
      rcases bind_eq_ok done with ⟨middle, first, rest⟩
      rw [induction middle rest absent.2, apply_define_other first absent.1]

theorem apply_defines_own {old : List LogDefine} (new : List LogDefine) : ∀ loggers : Loggers,
    (new.map LogDefine.name).Nodup → applyDefines d old new loggers = .ok after →
      ∀ i ∈ new, Configured d old i (loggers i.name) (after i.name) := by
  induction new with
  | nil => exact fun loggers distinct done i member => absurd member List.not_mem_nil
  | cons j new induction =>
      intro loggers distinct done i member
      rw [List.map_cons, List.nodup_cons] at distinct
      rcases bind_eq_ok done with ⟨middle, first, rest⟩
      rcases List.mem_cons.mp member with same | later
      · rw [same, apply_defines_other new middle rest distinct.1]
        exact apply_define_own first
      · have different : i.name ≠ j.name := by
          intro same
          rw [← same] at distinct
          exact distinct.1 (List.mem_map_of_mem later)
        rw [← apply_define_other first different]
        exact induction middle distinct.2 rest i later

theorem apply_defines_ok_iff (old : List LogDefine) (new : List LogDefine) :
    ∀ loggers : Loggers, (∃ after, applyDefines d old new loggers = .ok after) ↔
      ∀ i ∈ new, findDefine old i = some i ∨ Kinded i := by
  induction new with
  | nil =>
      intro loggers
      exact ⟨fun _ i member => absurd member List.not_mem_nil, fun _ => ⟨_, rfl⟩⟩
  | cons i new induction =>
      intro loggers
      rw [List.forall_mem_cons, applyDefines, applyDefine]
      by_cases same : findDefine old i = some i
      · rw [if_pos same, bind_ok]
        exact (induction loggers).trans ⟨fun rest => ⟨Or.inl same, rest⟩, And.right⟩
      · rw [if_neg same]
        constructor
        · rintro ⟨after, done⟩
          rcases bind_eq_ok done with ⟨middle, first, rest⟩
          rcases bind_eq_ok first with ⟨logger, configured, _⟩
          exact ⟨Or.inr ((configure_ok_iff d i _).mp ⟨logger, configured⟩),
            (induction middle).mp ⟨after, rest⟩⟩
        · rintro ⟨kinded, rest⟩
          have kind : Kinded i := kinded.resolve_left same
          rcases (configure_ok_iff d i (loggers i.name)).mpr kind with ⟨logger, configured⟩
          rw [configured, bind_ok, bind_ok]
          exact (induction _).mpr rest

theorem remove_defines_own {new : List LogDefine} {i : LogDefine} (member : i ∈ new)
    (old : List LogDefine) : ∀ loggers : Loggers,
      old.foldl (removeDefine new) loggers i.name = loggers i.name := by
  induction old with
  | nil => exact fun loggers => rfl
  | cons j old induction =>
      intro loggers
      rw [List.foldl_cons, induction, removeDefine]
      split
      · rename_i absent
        apply set_other
        intro same
        rw [findDefine, List.find?_eq_none] at absent
        exact absent i member (decide_eq_true same)
      · rfl

theorem on_log_defines_own {c1 c2 : LogDefines} (done : onLogDefines d c1 c2 loggers = .ok after)
    (member : i ∈ c2.defines) :
    Configured d c1.defines i (loggers i.name) (after i.name) := by
  rcases bind_eq_ok done with ⟨middle, applied, removed⟩
  rw [← Except.ok.inj removed, remove_defines_own member]
  exact apply_defines_own c2.defines loggers c2.distinct applied i member

theorem on_log_defines_other {c2 : LogDefines} {name : Str}
    (done : onLogDefines d noDefines c2 loggers = .ok after)
    (absent : name ∉ c2.defines.map LogDefine.name) : after name = loggers name := by
  rcases bind_eq_ok done with ⟨middle, applied, removed⟩
  rw [← Except.ok.inj removed]
  exact apply_defines_other c2.defines loggers applied absent

theorem on_log_defines_ok_iff (d : Bool) (c1 c2 : LogDefines) (loggers : Loggers) :
    (∃ after, onLogDefines d c1 c2 loggers = .ok after) ↔
      ∀ i ∈ c2.defines, findDefine c1.defines i = some i ∨ Kinded i := by
  rw [← apply_defines_ok_iff c1.defines c2.defines loggers]
  constructor
  · rintro ⟨after, done⟩
    rcases bind_eq_ok done with ⟨middle, applied, _⟩
    exact ⟨middle, applied⟩
  · rintro ⟨middle, applied⟩
    rw [onLogDefines, applied]
    exact ⟨_, rfl⟩

theorem find_define_some {c : LogDefines} (found : findDefine c.defines i = some j) :
    j ∈ c.defines ∧ j.name = i.name :=
  ⟨List.mem_of_find?_eq_some found, by simpa using List.find?_some found⟩

theorem same_define {c : LogDefines} (first : i ∈ c.defines) (second : j ∈ c.defines)
    (same : i.name = j.name) : i = j := List.inj_on_of_nodup_map c.distinct first second same

theorem find_define_member {c : LogDefines} (member : j ∈ c.defines) (same : j.name = i.name) :
    findDefine c.defines i = some j := by
  cases found : findDefine c.defines i with
  | none =>
      rw [findDefine, List.find?_eq_none] at found
      exact absurd (decide_eq_true same) (found j member)
  | some other =>
      rcases find_define_some found with ⟨inside, name⟩
      rw [same_define inside member (name.trans same.symm)]

theorem fresh_formatter (name : Str) : (freshLoggers name).formatter = defaultPattern := by
  rw [freshLoggers]
  split <;> rfl

/-- A logger made anew and one that an older definition has had are the same just when the
formatter of the older one does not show. -/
theorem reconfigured_iff {first second alone : Logger} (changed : i ≠ j)
    (before : configure d j logger = .ok first) (again : configure d i first = .ok second)
    (directly : configure d i logger = .ok alone) (start : logger.formatter = defaultPattern) :
    second = alone ↔ Unburdened i j := by
  have formatter := configure_formatter before
  rw [start] at formatter
  constructor
  · intro same
    have second_formatter := configure_formatter again
    rw [same, configure_formatter directly, start, formatter] at second_formatter
    by_cases usable : Usable i.formatter
    · exact Or.inr (Or.inl usable)
    · rw [formatter_after_kept usable, formatter_after_kept usable] at second_formatter
      by_cases set : Usable j.formatter
      · rw [formatter_after_set set] at second_formatter
        exact Or.inr (Or.inr (Or.inr second_formatter.symm))
      · exact Or.inr (Or.inr (Or.inl set))
  · intro unburdened
    have same : formatterAfter i first.formatter = formatterAfter i logger.formatter := by
      rw [start, formatter]
      by_cases usable : Usable i.formatter
      · rw [formatter_after_set usable, formatter_after_set usable]
      · rw [formatter_after_kept usable, formatter_after_kept usable]
        rcases unburdened with equal | set | unset | default
        · exact absurd equal changed
        · exact absurd set usable
        · exact formatter_after_kept unset defaultPattern
        · rw [formatterAfter, default, ite_self]
    rw [configure_congr same, directly] at again
    exact (Except.ok.inj again).symm

/-- What the three runs have done with the logger of a definition of the second set. -/
theorem second_same_iff {c1 c2 : LogDefines} {first second alone : Loggers}
    (before : onLogDefines d noDefines c1 freshLoggers = .ok first)
    (again : onLogDefines d c1 c2 first = .ok second)
    (directly : onLogDefines d noDefines c2 freshLoggers = .ok alone) (member : i ∈ c2.defines) :
    second i.name = alone i.name ↔ ∀ j ∈ c1.defines, j.name = i.name → Unburdened i j := by
  have own : Configured d c1.defines i (first i.name) (second i.name) :=
    on_log_defines_own again member
  have made : configure d i (freshLoggers i.name) = .ok (alone i.name) :=
    on_log_defines_own directly member
  rw [Configured] at own
  cases found : findDefine c1.defines i with
  | none =>
      have absent : ∀ j ∈ c1.defines, j.name ≠ i.name := by
        intro j inside same
        rw [find_define_member inside same] at found
        cases found
      have untouched : first i.name = freshLoggers i.name := by
        apply on_log_defines_other before
        intro inside
        rcases List.mem_map.mp inside with ⟨j, present, same⟩
        exact absent j present same
      rw [found, if_neg (by simp), untouched, made] at own
      exact ⟨fun _ j inside same => absurd same (absent j inside),
        fun _ => (Except.ok.inj own).symm⟩
  | some j =>
      rcases find_define_some found with ⟨inside, name⟩
      have earlier : configure d j (freshLoggers j.name) = .ok (first j.name) :=
        on_log_defines_own before inside
      have only : (∀ j ∈ c1.defines, j.name = i.name → Unburdened i j) ↔ Unburdened i j := by
        constructor
        · exact fun all => all j inside name
        · intro one other present same
          rwa [same_define present inside (same.trans name.symm)]
      rw [only]
      by_cases same : i = j
      · rw [found, if_pos (by rw [same]), same] at own
        rw [same, earlier] at made
        rw [same, own, Except.ok.inj made]
        exact ⟨fun _ => Or.inl rfl, fun _ => rfl⟩
      · rw [found, if_neg fun equal => same (Option.some.inj equal).symm] at own
        rw [name] at earlier
        exact reconfigured_iff same earlier own made (fresh_formatter _)

/-- A logger with the pattern `%m`, and the same one without a pattern. -/
def patternDefines : LogDefines := ⟨[{ name := ascii "a", formatter := ascii "%m" }], by simp⟩
def bareDefines : LogDefines := ⟨[{ name := ascii "a" }], by simp⟩

end ChatServer.Log
