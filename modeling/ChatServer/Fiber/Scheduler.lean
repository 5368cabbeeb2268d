import Mathlib.Logic.Function.Basic
import Mathlib.Data.List.Basic

/-!
# Fibers and their scheduler

`Scheduler::run` on any number of worker threads and the yields of `fiber.cc`, as steps of one
machine. A step is as much as happens between two accesses to memory that other threads
see: what `run()` does under `m_mutex`, one write of `m_state`, one switch of contexts.

A fiber that is about to hold first registers with whoever will wake it (a semaphore, the
`IOManager`, a timer). From then on the waker may schedule it at any moment.
-/

namespace ChatServer.Scheduler

set_option autoImplicit false

inductive FiberState where
  | init
  | hold
  | exec
  | term
  | ready
  | except
  deriving DecidableEq, Repr

/-- What is queued: a fiber, or a callback that a worker gives a fiber. -/
inductive Task (Fiber : Type) where
  | fiber (fiber : Fiber)
  | cb
  deriving DecidableEq

/-- `FiberAndThread`, with `none` for the thread -1. -/
structure Entry (Worker Fiber : Type) where
  task : Task Fiber
  thread : Option Worker
  deriving DecidableEq

/-- The fiber that `run()` works on: `ft.fiber`, or `cb_fiber`. -/
structure Job (Fiber : Type) where
  fiber : Fiber
  isCb : Bool
  deriving DecidableEq

inductive Stage where
  /-- Chosen in `run()`, `swapIn` is to come. -/
  | picked
  /-- `m_state` is `EXEC`, the context is not loaded yet. -/
  | entering
  | running
  /-- Running, and registered with a waker. -/
  | registered
  /-- A yield or the end of the fiber has set `m_state`, `swapOut` has not saved the context. -/
  | leaving
  /-- Back in `run()`, behind `swapIn`. -/
  | returned
  /-- `run()` has found `READY` and is about to schedule the fiber. -/
  | requeueing
  /-- `run()` has found another state and is about to set `HOLD`. -/
  | holding
  deriving DecidableEq, Repr

/-- Where a worker stands in the loop of `run()`. -/
inductive Pc (Fiber : Type) where
  | free
  | pickedCb
  | busy (stage : Stage) (job : Job Fiber)
  deriving DecidableEq

structure State (Worker Fiber : Type) where
  /-- `m_state` of the fibers that were created. -/
  status : Fiber → Option FiberState
  /-- `m_fibers`. -/
  queue : List (Entry Worker Fiber)
  pc : Worker → Pc Fiber
  /-- The variable `cb_fiber` of `run()`. -/
  cbFiber : Worker → Option Fiber
  /-- The fibers that are registered with a waker which has not scheduled them yet. -/
  wakeups : List Fiber

inductive Action (Worker Fiber : Type) where
  /-- `schedule(fiber, thread)` of a new fiber. -/
  | spawn (fiber : Fiber) (thread : Option Worker)
  /-- `schedule(cb, thread)`. -/
  | post (thread : Option Worker)
  /-- A waker schedules a fiber that registered. -/
  | wake (fiber : Fiber) (thread : Option Worker)
  | pick (worker : Worker)
  /-- `cb_fiber` for a callback: the one that is kept, or a new one. -/
  | prepare (worker : Worker) (new : Fiber)
  | enter (worker : Worker)
  | load (worker : Worker)
  | register (worker : Worker)
  | yieldToHold (worker : Worker)
  | yieldToReady (worker : Worker)
  | finish (worker : Worker) (failed : Bool)
  | save (worker : Worker)
  | inspect (worker : Worker)
  | settle (worker : Worker)

/-- The worker that takes the step; a call of `schedule` is not a worker's step. -/
def Action.worker {Worker Fiber : Type} : Action Worker Fiber → Option Worker
  | .spawn _ _ => none
  | .post _ => none
  | .wake _ _ => none
  | .pick worker => some worker
  | .prepare worker _ => some worker
  | .enter worker => some worker
  | .load worker => some worker
  | .register worker => some worker
  | .yieldToHold worker => some worker
  | .yieldToReady worker => some worker
  | .finish worker _ => some worker
  | .save worker => some worker
  | .inspect worker => some worker
  | .settle worker => some worker

def takeFirst {Value : Type} (eligible : Value → Bool) : List Value → Option (Value × List Value)
  | [] => none
  | value :: rest =>
      if eligible value then some (value, rest)
      else (takeFirst eligible rest).map fun found => (found.1, value :: found.2)

theorem take_first_split {Value : Type} {eligible : Value → Bool} {value : Value}
    {list rest : List Value} (taken : takeFirst eligible list = some (value, rest)) :
    ∃ before after, list = before ++ value :: after ∧ rest = before ++ after := by
  induction list generalizing rest with
  | nil => cases taken
  | cons first tail induction =>
      unfold takeFirst at taken
      split_ifs at taken
      · cases taken
        exact ⟨[], tail, rfl, rfl⟩
      · cases found : takeFirst eligible tail with
        | none =>
            rw [found] at taken
            cases taken
        | some pair =>
            rw [found] at taken
            obtain ⟨other, left⟩ := pair
            cases taken
            obtain ⟨before, after, split, restSplit⟩ := induction found
            refine ⟨first :: before, after, ?_, ?_⟩
            · rw [split, List.cons_append]
            · rw [restSplit, List.cons_append]

theorem take_first_sublist {Value : Type} {eligible : Value → Bool} {value : Value}
    {list rest : List Value} (taken : takeFirst eligible list = some (value, rest)) :
    rest.Sublist list := by
  obtain ⟨before, after, split, restSplit⟩ := take_first_split taken
  rw [split, restSplit]
  exact List.Sublist.append_left (List.sublist_cons_self _ _) before

variable {Worker Fiber : Type}

namespace State

def initial : State Worker Fiber where
  status := fun _ => none
  queue := []
  pc := fun _ => .free
  cbFiber := fun _ => none
  wakeups := []

def setStatus [DecidableEq Fiber] (s : State Worker Fiber) (fiber : Fiber)
    (status : FiberState) : State Worker Fiber :=
  { s with status := Function.update s.status fiber (some status) }

def goto [DecidableEq Worker] (s : State Worker Fiber) (worker : Worker) (pc : Pc Fiber) :
    State Worker Fiber :=
  { s with pc := Function.update s.pc worker pc }

/-- `schedule`: the entry goes to the end of `m_fibers`. -/
def schedule (s : State Worker Fiber) (task : Task Fiber) (thread : Option Worker) :
    State Worker Fiber :=
  { s with queue := s.queue ++ [⟨task, thread⟩] }

def scheduleCbs (s : State Worker Fiber) (cbs : Nat) : State Worker Fiber :=
  { s with queue := s.queue ++ List.replicate cbs ⟨.cb, none⟩ }

def keep [DecidableEq Worker] (s : State Worker Fiber) (worker : Worker) (fiber : Fiber) :
    State Worker Fiber :=
  { s with cbFiber := Function.update s.cbFiber worker (some fiber) }

def release [DecidableEq Worker] (s : State Worker Fiber) (worker : Worker) (job : Job Fiber) :
    State Worker Fiber :=
  { s with cbFiber := if job.isCb then Function.update s.cbFiber worker none else s.cbFiber }

@[simp] theorem set_status_self [DecidableEq Fiber] (s : State Worker Fiber) (fiber : Fiber)
    (status : FiberState) : (s.setStatus fiber status).status fiber = some status := Function.update_self _ _ _

theorem set_status_of_ne [DecidableEq Fiber] (s : State Worker Fiber) {fiber other : Fiber}
    (status : FiberState) (distinct : other ≠ fiber) :
    (s.setStatus fiber status).status other = s.status other :=
  Function.update_of_ne distinct _ _

@[simp] theorem goto_self [DecidableEq Worker] (s : State Worker Fiber) (worker : Worker)
    (pc : Pc Fiber) : (s.goto worker pc).pc worker = pc := Function.update_self _ _ _

theorem goto_of_ne [DecidableEq Worker] (s : State Worker Fiber) {worker other : Worker}
    (pc : Pc Fiber) (distinct : other ≠ worker) : (s.goto worker pc).pc other = s.pc other :=
  Function.update_of_ne distinct _ _

@[simp] theorem keep_self [DecidableEq Worker] (s : State Worker Fiber) (worker : Worker)
    (fiber : Fiber) : (s.keep worker fiber).cbFiber worker = some fiber :=
  Function.update_self _ _ _

theorem keep_of_ne [DecidableEq Worker] (s : State Worker Fiber) {worker other : Worker}
    (fiber : Fiber) (distinct : other ≠ worker) :
    (s.keep worker fiber).cbFiber other = s.cbFiber other := Function.update_of_ne distinct _ _

theorem release_cb_fiber [DecidableEq Worker] {s : State Worker Fiber} {worker other : Worker}
    {job : Job Fiber} {fiber : Fiber} (kept : (s.release worker job).cbFiber other = some fiber) :
    s.cbFiber other = some fiber ∧ (other = worker → job.isCb ≠ true) := by
  unfold release at kept
  dsimp only at kept
  split_ifs at kept with isCb
  · by_cases same : other = worker
    · subst same
      rw [Function.update_self] at kept
      cases kept
    · rw [Function.update_of_ne same] at kept
      exact ⟨kept, fun impossible => absurd impossible same⟩
  · exact ⟨kept, fun _ => isCb⟩

/-- The entries that `run()` does not pass over. -/
def eligible [DecidableEq Worker] (s : State Worker Fiber) (worker : Worker)
    (entry : Entry Worker Fiber) : Bool :=
  (entry.thread == none || entry.thread == some worker) &&
    match entry.task with
    | .fiber fiber => s.status fiber != some .exec
    | .cb => true

def atStage (s : State Worker Fiber) (worker : Worker) (stage : Stage)
    (next : Job Fiber → Option (State Worker Fiber)) : Option (State Worker Fiber) :=
  match s.pc worker with
  | .busy current job => if current = stage then next job else none
  | _ => none

theorem at_stage_some {s after : State Worker Fiber} {worker : Worker} {stage : Stage}
    {next : Job Fiber → Option (State Worker Fiber)}
    (taken : s.atStage worker stage next = some after) :
    ∃ job, s.pc worker = .busy stage job ∧ next job = some after := by
  unfold atStage at taken
  split at taken
  next current job busy =>
    split_ifs at taken with same
    rw [same] at busy
    exact ⟨job, busy, taken⟩
  next => cases taken

end State

/-- One step. A failed `CHAT_ASSERT` ends the process, so there is no next state then. -/
def step [DecidableEq Worker] [DecidableEq Fiber] (s : State Worker Fiber) :
    Action Worker Fiber → Option (State Worker Fiber)
  | .spawn fiber thread =>
      if s.status fiber = none then some ((s.setStatus fiber .init).schedule (.fiber fiber) thread)
      else none
  | .post thread => some (s.schedule .cb thread)
  | .wake fiber thread =>
      if fiber ∈ s.wakeups then
        some ({ s with wakeups := s.wakeups.erase fiber }.schedule (.fiber fiber) thread)
      else none
  | .pick worker =>
      match s.pc worker, takeFirst (s.eligible worker) s.queue with
      | .free, some (⟨.fiber fiber, _⟩, rest) =>
          some ({ s with queue := rest }.goto worker (.busy .picked ⟨fiber, false⟩))
      | .free, some (⟨.cb, _⟩, rest) => some ({ s with queue := rest }.goto worker .pickedCb)
      | _, _ => none
  | .prepare worker new =>
      match s.pc worker, s.cbFiber worker with
      | .pickedCb, some fiber =>
          -- `reset(cb)` asserts that the last callback has ended
          if s.status fiber = some .term ∨ s.status fiber = some .init ∨
              s.status fiber = some .except then
            some ((s.setStatus fiber .init).goto worker (.busy .picked ⟨fiber, true⟩))
          else none
      | .pickedCb, none =>
          if s.status new = none then
            some (((s.setStatus new .init).keep worker new).goto worker (.busy .picked ⟨new, true⟩))
          else none
      | _, _ => none
  | .enter worker => s.atStage worker .picked fun job =>
      if job.isCb = false ∧ (s.status job.fiber = some .term ∨ s.status job.fiber = some .except) then
        some (s.goto worker .free)
      else some ((s.setStatus job.fiber .exec).goto worker (.busy .entering job))
  | .load worker => s.atStage worker .entering fun job => some (s.goto worker (.busy .running job))
  | .register worker => s.atStage worker .running fun job =>
      some ({ s with wakeups := job.fiber :: s.wakeups }.goto worker (.busy .registered job))
  | .yieldToHold worker => s.atStage worker .registered fun job =>
      if s.status job.fiber = some .exec then
        some ((s.setStatus job.fiber .hold).goto worker (.busy .leaving job))
      else none
  | .yieldToReady worker => s.atStage worker .running fun job =>
      if s.status job.fiber = some .exec then
        some ((s.setStatus job.fiber .ready).goto worker (.busy .leaving job))
      else none
  | .finish worker failed => s.atStage worker .running fun job =>
      some ((s.setStatus job.fiber (if failed then .except else .term)).goto worker
        (.busy .leaving job))
  | .save worker => s.atStage worker .leaving fun job => some (s.goto worker (.busy .returned job))
  | .inspect worker => s.atStage worker .returned fun job =>
      if s.status job.fiber = some .ready then some (s.goto worker (.busy .requeueing job))
      else if s.status job.fiber = some .term ∨ s.status job.fiber = some .except then
        -- the fiber of a callback is kept, with `reset(nullptr)`
        some ((if job.isCb then s.setStatus job.fiber .init else s).goto worker .free)
      else some (s.goto worker (.busy .holding job))
  | .settle worker =>
      match s.pc worker with
      | .busy .requeueing job =>
          some (((s.release worker job).goto worker .free).schedule (.fiber job.fiber) none)
      | .busy .holding job =>
          some (((s.setStatus job.fiber .hold).release worker job).goto worker .free)
      | _ => none

end ChatServer.Scheduler
