import Mathlib.Logic.Basic

/-!
# Computations that record what they do

A recorded computation ends with a value or a fault and leaves a list of events behind; what a
part did before a fault stays in the list. `Yields safe post run` says that every event of the
run is safe and that it returns a value with `post`. Its rules follow the way a computation is
put together.
-/

set_option autoImplicit false

universe u v w

structure Recorded (Event : Type u) (Fault : Type v) (Value : Type w) where
  events : List Event
  result : Except Fault Value

namespace Recorded

variable {Event : Type u} {Fault : Type v} {Value Next : Type w}

/-- A computation that leaves no events. -/
def quiet (result : Except Fault Value) : Recorded Event Fault Value := ⟨[], result⟩

def andThen (first : Recorded Event Fault Value) (next : Value → Recorded Event Fault Next) :
    Recorded Event Fault Next :=
  match first.result with
  | .error fault => ⟨first.events, .error fault⟩
  | .ok value => ⟨first.events ++ (next value).events, (next value).result⟩

instance : Monad (Recorded Event Fault) where
  pure value := quiet (.ok value)
  bind := andThen

/-- The events come before those of what follows. -/
def after (events : List Event) (run : Recorded Event Fault Value) :
    Recorded Event Fault Value := ⟨events ++ run.events, run.result⟩

def Yields (safe : Event → Prop) (post : Value → Prop) (run : Recorded Event Fault Value) : Prop :=
  (∀ event ∈ run.events, safe event) ∧ ∃ value, run.result = .ok value ∧ post value

variable {safe : Event → Prop} {post : Value → Prop} {behind : Next → Prop}

theorem yields_pure {value : Value} (holds : post value) :
    Yields safe post (pure value : Recorded Event Fault Value) := by
  constructor
  · intro event member
    cases member
  · exact ⟨value, rfl, holds⟩

theorem yields_quiet_bind {result : Except Fault Value} {value : Value}
    {next : Value → Recorded Event Fault Next} (returned : result = .ok value)
    (rest : Yields safe behind (next value)) : Yields safe behind (quiet result >>= next) := by
  rw [returned]
  exact rest

theorem yields_bind {first : Recorded Event Fault Value}
    {next : Value → Recorded Event Fault Next} (done : Yields safe post first)
    (rest : ∀ value, post value → Yields safe behind (next value)) :
    Yields safe behind (first >>= next) := by
  rcases first with ⟨events, result⟩
  rcases done with ⟨safeEvents, value, returned, holds⟩
  cases returned
  rcases rest value holds with ⟨safeRest, final, finished, reached⟩
  constructor
  · intro event member
    rcases List.mem_append.mp member with early | late
    · exact safeEvents event early
    · exact safeRest event late
  · exact ⟨final, finished, reached⟩

theorem yields_after {events : List Event} {run : Recorded Event Fault Value}
    (safeEvents : ∀ event ∈ events, safe event) (rest : Yields safe post run) :
    Yields safe post (run.after events) := by
  constructor
  · intro event member
    rcases List.mem_append.mp member with early | late
    · exact safeEvents event early
    · exact rest.1 event late
  · exact rest.2

/-- Every event is safe, however the run ends. -/
def Keeps (safe : Event → Prop) (run : Recorded Event Fault Value) : Prop :=
  ∀ event ∈ run.events, safe event

@[simp] theorem result_bind (first : Recorded Event Fault Value)
    (next : Value → Recorded Event Fault Next) :
    (first >>= next).result = first.result >>= fun value => (next value).result := by
  rcases first with ⟨events, result⟩
  cases result with
  | error fault => rfl
  | ok value => rfl

@[simp] theorem result_quiet (result : Except Fault Value) :
    (quiet result : Recorded Event Fault Value).result = result := rfl

@[simp] theorem result_pure (value : Value) :
    (pure value : Recorded Event Fault Value).result = .ok value := rfl

@[simp] theorem result_after (events : List Event) (run : Recorded Event Fault Value) :
    (run.after events).result = run.result := rfl

theorem keeps_quiet (safe : Event → Prop) (result : Except Fault Value) :
    Keeps safe (quiet result : Recorded Event Fault Value) := by
  intro event member
  cases member

theorem keeps_pure (safe : Event → Prop) (value : Value) :
    Keeps safe (pure value : Recorded Event Fault Value) := keeps_quiet safe _

theorem keeps_bind {first : Recorded Event Fault Value}
    {next : Value → Recorded Event Fault Next} : Keeps safe (first >>= next) ↔
      Keeps safe first ∧ ∀ value, first.result = .ok value → Keeps safe (next value) := by
  rcases first with ⟨events, result⟩
  cases result with
  | error fault =>
      constructor
      · intro kept
        refine ⟨kept, ?_⟩
        intro value returned
        cases returned
      · exact fun kept => kept.1
  | ok value =>
      constructor
      · intro kept
        refine ⟨fun event member => kept event (List.mem_append_left _ member), ?_⟩
        intro other returned
        cases returned
        exact fun event member => kept event (List.mem_append_right _ member)
      · intro kept event member
        rcases List.mem_append.mp member with early | late
        · exact kept.1 event early
        · exact kept.2 value rfl event late

theorem keeps_quiet_bind {result : Except Fault Value}
    {next : Value → Recorded Event Fault Next} : Keeps safe (quiet result >>= next) ↔
      ∀ value, result = .ok value → Keeps safe (next value) := by
  rw [keeps_bind]
  exact ⟨fun kept => kept.2, fun kept => ⟨keeps_quiet safe result, kept⟩⟩

theorem keeps_after {events : List Event} {run : Recorded Event Fault Value} :
    Keeps safe (run.after events) ↔ (∀ event ∈ events, safe event) ∧ Keeps safe run := by
  constructor
  · intro kept
    exact ⟨fun event member => kept event (List.mem_append_left _ member),
      fun event member => kept event (List.mem_append_right _ member)⟩
  · intro kept event member
    rcases List.mem_append.mp member with early | late
    · exact kept.1 event early
    · exact kept.2 event late

end Recorded
