import ChatServer.Fiber.FdContext
import ChatServer.Fiber.Scheduler

/-!
# The scheduler with its idle fibers

What `Scheduler::run` does when it finds nothing to take, the counter `m_activeThreadCount`, and
what `IOManager` adds: timers, events and its `stopping()`. A plain `Scheduler` is the case that
never has a timer or an event. What `epoll_wait` reports is the kernel's: an idle fiber may come
upon any report, also on one that is out of date.
-/

namespace ChatServer.IOManager

set_option autoImplicit false

open ChatServer.Fiber (Event)

/-- Where a worker is when it has no task: in `run()` or in its idle fiber. -/
inductive Idle where
  /-- At the top of the loop of `run()`, or with a task. -/
  | looping
  /-- `run()` has found nothing to take in `m_fibers`. -/
  | scanned
  /-- The idle fiber is about to call `getNextTimer()` in `stopping(timeout)`. -/
  | readsTimers
  /-- `timeout == ~0ull`; about to read `m_pendingEventCount`. -/
  | readsEvents
  /-- No pending event; about to call `Scheduler::stopping()`. -/
  | readsQueue
  /-- `stopping()` did not hold. -/
  | polling
  /-- `listExpiredCb` has taken so many callbacks out of the timers. -/
  | expired (cbs : Nat)
  | delivering
  /-- In the turn of one report: `triggerEvent` is to come for these events. -/
  | triggering (fd : Nat) (events : List Event)
  /-- Behind a `triggerEvent`, before its `--m_pendingEventCount`. -/
  | uncounting (fd : Nat) (events : List Event)
  /-- Behind the loop of `run()`. -/
  | left
  deriving DecidableEq

structure Timer where
  id : Nat
  recurring : Bool
  deriving DecidableEq, Repr

structure State (Worker Fiber : Type) where
  tasks : Scheduler.State Worker Fiber
  activeThreadCount : Nat
  /-- The worker has incremented `m_activeThreadCount` and not decremented it again. -/
  counted : Worker → Bool
  stopping : Bool
  autoStop : Bool
  timers : List Timer
  /-- The bits of `m_events` that are set, with their descriptors. -/
  events : List (Nat × Event)
  pendingEventCount : UInt64
  /-- `fd_ctx->mutex`: an idle fiber holds it, or (`none`) a call of `cancelEvent`. -/
  locked : List (Nat × Option Worker)
  idle : Worker → Idle
  /-- `idle_fiber->getState() == TERM`. -/
  terminated : Worker → Bool

/-- Who calls: the code of a task on a worker, or a thread that is none of the workers. -/
inductive Source (Worker : Type) where
  | task (worker : Worker)
  | outside

inductive Action (Worker Fiber : Type) where
  /-- The two writes of `stop()`. -/
  | autoStop
  | stop
  /-- `schedule`, by a `spawn`, `post` or `wake`. -/
  | schedule (source : Source Worker) (action : Scheduler.Action Worker Fiber)
  /-- A step of a worker with its task. -/
  | work (worker : Worker) (action : Scheduler.Action Worker Fiber)
  /-- `--m_activeThreadCount`. -/
  | uncount (worker : Worker)
  | scan (worker : Worker)
  /-- `run()` leaves its loop if the idle fiber is `TERM`, else it swaps it in. -/
  | swapInIdle (worker : Worker)
  | readTimers (worker : Worker)
  | readEvents (worker : Worker)
  | readQueue (worker : Worker)
  | listExpiredCb (worker : Worker) (due : List Nat)
  | scheduleExpired (worker : Worker)
  /-- The next report, with its `real_events`. -/
  | dispatch (worker : Worker) (fd : Nat) (read write : Bool)
  /-- `triggerEvent` in the idle fiber. -/
  | deliver (worker : Worker) (action : Scheduler.Action Worker Fiber)
  | uncountReport (worker : Worker)
  | swapOutIdle (worker : Worker)
  | addTimer (source : Source Worker) (timer : Timer)
  | cancelTimer (source : Source Worker) (id : Nat)
  | addEvent (source : Source Worker) (fd : Nat) (event : Event)
  | delEvent (source : Source Worker) (fd : Nat) (event : Event)
  /-- `triggerEvent` in `cancelEvent` and `cancelAll`. -/
  | cancelEvent (source : Source Worker) (fd : Nat) (event : Event)
      (action : Scheduler.Action Worker Fiber)
  /-- `--m_pendingEventCount` behind it. -/
  | uncountEvent (fd : Nat)

variable {Worker Fiber : Type}

namespace State

def initial : State Worker Fiber where
  tasks := .initial
  activeThreadCount := 0
  counted := fun _ => false
  stopping := false
  autoStop := false
  timers := []
  events := []
  pendingEventCount := 0
  locked := []
  idle := fun _ => .looping
  terminated := fun _ => false

def queueStopping (s : State Worker Fiber) : Bool :=
  s.stopping && s.autoStop && s.tasks.queue.isEmpty && s.activeThreadCount == 0

def goto [DecidableEq Worker] (s : State Worker Fiber) (worker : Worker) (idle : Idle) :
    State Worker Fiber :=
  { s with idle := Function.update s.idle worker idle }

@[simp] theorem goto_idle_self [DecidableEq Worker] (s : State Worker Fiber) (worker : Worker)
    (idle : Idle) : (s.goto worker idle).idle worker = idle := Function.update_self _ _ _

theorem goto_idle_of_ne [DecidableEq Worker] (s : State Worker Fiber) {worker other : Worker}
    (idle : Idle) (distinct : other ≠ worker) : (s.goto worker idle).idle other = s.idle other :=
  Function.update_of_ne distinct _ _

def withTasks (s : State Worker Fiber) (tasks : Option (Scheduler.State Worker Fiber)) :
    Option (State Worker Fiber) :=
  tasks.map fun tasks => { s with tasks }

def acts (s : State Worker Fiber) : Source Worker → Bool
  | .task worker =>
      match s.tasks.pc worker with
      | .busy stage _ => stage = .running ∨ stage = .registered
      | _ => false
  | .outside => true

def registered (s : State Worker Fiber) (fd : Nat) (event : Event) : Bool :=
  s.events.contains (fd, event)

def unlocked (s : State Worker Fiber) (fd : Nat) : Bool :=
  s.locked.all fun holder => holder.1 != fd

end State

/-- The events of a report, in the order in which `idle` triggers them. -/
def realEvents (read write : Bool) : List Event :=
  (if read then [.read] else []) ++ if write then [.write] else []

def dueTimers (due : List Nat) (timers : List Timer) : List Timer :=
  timers.filter fun timer => due.contains timer.id

def keptTimers (due : List Nat) (timers : List Timer) : List Timer :=
  timers.filter fun timer => !due.contains timer.id || timer.recurring

def isBack : Scheduler.Pc Fiber → Bool
  | .free => true
  | .busy .returned _ => true
  | _ => false

variable [DecidableEq Worker] [DecidableEq Fiber]

/-- `schedule` of one task, not a step of a worker. -/
def schedule (s : State Worker Fiber) (action : Scheduler.Action Worker Fiber) :
    Option (State Worker Fiber) :=
  if action.worker = none then s.withTasks (Scheduler.step s.tasks action) else none

/-- `triggerEvent`. It does nothing about an event that is not registered. -/
def triggerEvent (s : State Worker Fiber) (fd : Nat) (event : Event)
    (action : Scheduler.Action Worker Fiber) : Option (State Worker Fiber) :=
  if s.registered fd event then schedule { s with events := s.events.erase (fd, event) } action
  else some s

/-- A worker counts itself with the task that it takes, and no more when it looks at its state. -/
def work (s : State Worker Fiber) (worker : Worker) (action : Scheduler.Action Worker Fiber) :
    Option (State Worker Fiber) :=
  if action.worker = some worker then
    match action with
    | .pick _ =>
        if s.idle worker = .looping ∧ s.counted worker = false then
          { s with
            activeThreadCount := s.activeThreadCount + 1
            counted := Function.update s.counted worker true }.withTasks
              (Scheduler.step s.tasks action)
        else none
    | .inspect _ =>
        if s.counted worker = false then s.withTasks (Scheduler.step s.tasks action) else none
    | _ => s.withTasks (Scheduler.step s.tasks action)
  else none

/-- `--m_activeThreadCount`, behind `swapIn`, or for a fiber that had ended already. -/
def uncount (s : State Worker Fiber) (worker : Worker) : Option (State Worker Fiber) :=
  if s.counted worker = true ∧ isBack (s.tasks.pc worker) = true then
    some { s with
      activeThreadCount := s.activeThreadCount - 1
      counted := Function.update s.counted worker false }
  else none

/-- One step of the workers, of their idle fibers or of other threads. -/
def step (s : State Worker Fiber) : Action Worker Fiber → Option (State Worker Fiber)
  | .autoStop => some { s with autoStop := true }
  | .stop => if s.autoStop then some { s with stopping := true } else none
  | .schedule source action => if s.acts source then schedule s action else none
  | .work worker action => work s worker action
  | .uncount worker => uncount s worker
  | .scan worker =>
      if s.idle worker = .looping ∧ s.counted worker = false ∧ s.tasks.pc worker = .free ∧
          Scheduler.takeFirst (s.tasks.eligible worker) s.tasks.queue = none then
        some (s.goto worker .scanned)
      else none
  | .swapInIdle worker =>
      if s.idle worker = .scanned then
        some (s.goto worker (if s.terminated worker then .left else .readsTimers))
      else none
  | .readTimers worker =>
      if s.idle worker = .readsTimers then
        some (s.goto worker (if s.timers.isEmpty then .readsEvents else .polling))
      else none
  | .readEvents worker =>
      if s.idle worker = .readsEvents then
        some (s.goto worker (if s.pendingEventCount = 0 then .readsQueue else .polling))
      else none
  | .readQueue worker =>
      if s.idle worker = .readsQueue then
        if s.queueStopping then
          some ({ s with terminated := Function.update s.terminated worker true }.goto worker
            .looping)
        else some (s.goto worker .polling)
      else none
  | .listExpiredCb worker due =>
      if s.idle worker = .polling then
        some ({ s with timers := keptTimers due s.timers }.goto worker
          (.expired (dueTimers due s.timers).length))
      else none
  | .scheduleExpired worker =>
      match s.idle worker with
      | .expired cbs =>
          some ({ s with tasks := s.tasks.scheduleCbs cbs }.goto worker .delivering)
      | _ => none
  | .dispatch worker fd read write =>
      if s.idle worker = .delivering ∧ s.unlocked fd = true ∧
          (realEvents read write).any (s.registered fd) = true then
        some ({ s with locked := s.locked ++ [(fd, some worker)] }.goto worker
          (.triggering fd (realEvents read write)))
      else none
  | .deliver worker action =>
      match s.idle worker with
      | .triggering fd (event :: events) =>
          (triggerEvent s fd event action).map fun s => s.goto worker (.uncounting fd events)
      | _ => none
  | .uncountReport worker =>
      match s.idle worker with
      | .uncounting fd [] =>
          some ({ s with
            pendingEventCount := s.pendingEventCount - 1
            locked := s.locked.erase (fd, some worker) }.goto worker .delivering)
      | .uncounting fd events =>
          some ({ s with pendingEventCount := s.pendingEventCount - 1 }.goto worker
            (.triggering fd events))
      | _ => none
  | .swapOutIdle worker =>
      if s.idle worker = .delivering then some (s.goto worker .looping) else none
  | .addTimer source timer =>
      if s.acts source then some { s with timers := s.timers ++ [timer] } else none
  | .cancelTimer source id =>
      if s.acts source then
        some { s with timers := s.timers.filter fun timer => timer.id != id }
      else none
  | .addEvent source fd event =>
      -- an event that is registered already fails the assertion
      if s.acts source = true ∧ s.unlocked fd = true ∧ s.registered fd event = false then
        some { s with
          events := s.events ++ [(fd, event)]
          pendingEventCount := s.pendingEventCount + 1 }
      else none
  | .delEvent source fd event =>
      if s.acts source = true ∧ s.unlocked fd = true ∧ s.registered fd event = true then
        some { s with
          events := s.events.erase (fd, event)
          pendingEventCount := s.pendingEventCount - 1 }
      else none
  | .cancelEvent source fd event action =>
      if s.acts source = true ∧ s.unlocked fd = true ∧ s.registered fd event = true then
        triggerEvent { s with locked := s.locked ++ [(fd, none)] } fd event action
      else none
  | .uncountEvent fd =>
      if s.locked.contains (fd, none) then
        some { s with
          pendingEventCount := s.pendingEventCount - 1
          locked := s.locked.erase (fd, none) }
      else none

end ChatServer.IOManager
