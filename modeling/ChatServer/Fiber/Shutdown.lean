import ChatServer.Fiber.IOManager
import ChatServer.Fiber.Quiet
import ChatServer.Lib.Transition
import Mathlib.Data.Finset.Card

/-!
# Workers that leave at shutdown

A worker leaves `run()` once `stopping()` has held in its idle fiber. If nothing is in flight
between the places that `stopping()` reads, and no other thread schedules any more, then nothing
is queued or executed from there on. The code does not see to the first: `m_activeThreadCount` is
decremented before a `READY` fiber is scheduled again, callbacks are taken out of the timers
before they are scheduled, and a report that is out of date lets `m_pendingEventCount` fall to 0
while an event is registered.
-/

namespace ChatServer.IOManager

set_option autoImplicit false

open Transition
open ChatServer.Fiber (Event)

variable {Worker Fiber : Type}

structure Accounted (s : State Worker Fiber) : Prop where
  counts : ∃ workers : Finset Worker, workers.card = s.activeThreadCount ∧
    ∀ worker, worker ∈ workers ↔ s.counted worker = true
  executing : ∀ worker, (s.tasks.pc worker).executes = true → s.counted worker = true

theorem Accounted.same {s after : State Worker Fiber} (accounted : Accounted s)
    (active : after.activeThreadCount = s.activeThreadCount) (counted : after.counted = s.counted)
    (pcs : ∀ worker, (after.tasks.pc worker).executes = true →
      (s.tasks.pc worker).executes = true) : Accounted after := by
  constructor
  · rw [active, counted]
    exact accounted.counts
  · intro worker executes
    rw [counted]
    exact accounted.executing worker (pcs worker executes)

theorem Accounted.uncounted {s : State Worker Fiber} (accounted : Accounted s)
    (none : s.activeThreadCount = 0) (worker : Worker) : s.counted worker = false := by
  rcases accounted.counts with ⟨workers, card, members⟩
  rw [none, Finset.card_eq_zero] at card
  by_contra counted
  rw [Bool.not_eq_false, ← members worker, card] at counted
  exact absurd counted (Finset.notMem_empty worker)

theorem Accounted.idle {s : State Worker Fiber} (accounted : Accounted s)
    (none : s.activeThreadCount = 0) (worker : Worker) : (s.tasks.pc worker).executes = false := by
  by_contra busy
  have counted := accounted.executing worker (eq_true_of_ne_false busy)
  rw [accounted.uncounted none worker] at counted
  cases counted

theorem initial_accounted : Accounted (State.initial : State Worker Fiber) := by
  constructor
  · exact ⟨∅, rfl, fun worker => by simp [State.initial]⟩
  · exact nofun

variable [DecidableEq Worker] [DecidableEq Fiber] {s after : State Worker Fiber}

omit [DecidableEq Worker] [DecidableEq Fiber] in
theorem with_tasks_some {tasks : Option (Scheduler.State Worker Fiber)}
    (taken : s.withTasks tasks = some after) :
    ∃ next, tasks = some next ∧ after = { s with tasks := next } := by
  rcases Option.map_eq_some_iff.mp taken with ⟨next, some, same⟩
  exact ⟨next, some, same.symm⟩

theorem schedule_some {action : Scheduler.Action Worker Fiber}
    (taken : schedule s action = some after) :
    action.worker = none ∧ ∃ next, Scheduler.step s.tasks action = some next ∧
      after = { s with tasks := next } := by
  unfold schedule at taken
  split_ifs at taken with foreign
  exact ⟨foreign, with_tasks_some taken⟩

theorem schedule_executes {action : Scheduler.Action Worker Fiber}
    {tasks next : Scheduler.State Worker Fiber} (foreign : action.worker = none)
    (taken : Scheduler.step tasks action = some next) (worker : Worker)
    (executes : (next.pc worker).executes = true) : (tasks.pc worker).executes = true := by
  rcases Scheduler.step_moves taken worker executes with before | picked
  · exact before
  · rw [picked] at foreign
    cases foreign

/-- `triggerEvent` schedules a task if the event is registered, and does nothing else. -/
theorem trigger_event_some {fd : Nat} {event : Event} {action : Scheduler.Action Worker Fiber}
    (taken : triggerEvent s fd event action = some after) :
    after = s ∨ s.registered fd event = true ∧ action.worker = none ∧
      ∃ next, Scheduler.step s.tasks action = some next ∧
        after = { s with events := s.events.erase (fd, event), tasks := next } := by
  unfold triggerEvent at taken
  split_ifs at taken with registered
  · exact .inr ⟨registered, schedule_some taken⟩
  · cases taken
    exact .inl rfl

inductive Calls (tasks next : Scheduler.State Worker Fiber) : Prop where
  | none (same : next = tasks)
  | one (action : Scheduler.Action Worker Fiber) (foreign : action.worker = none)
      (moved : Scheduler.step tasks action = some next)
  | many (cbs : Nat) (same : next = tasks.scheduleCbs cbs)

structure Posts (s after : State Worker Fiber) : Prop where
  calls : Calls s.tasks after.tasks
  active : after.activeThreadCount = s.activeThreadCount
  counted : after.counted = s.counted

theorem schedule_posts {action : Scheduler.Action Worker Fiber}
    (taken : schedule s action = some after) : Posts s after := by
  rcases schedule_some taken with ⟨foreign, next, moved, same⟩
  rw [same]
  exact ⟨.one action foreign moved, rfl, rfl⟩

theorem trigger_event_posts {fd : Nat} {event : Event} {action : Scheduler.Action Worker Fiber}
    (taken : triggerEvent s fd event action = some after) : Posts s after := by
  rcases trigger_event_some taken with same | ⟨_, foreign, next, moved, same⟩
  · rw [same]
    exact ⟨.none rfl, rfl, rfl⟩
  · rw [same]
    exact ⟨.one action foreign moved, rfl, rfl⟩

/-- Apart from the steps of the workers with their tasks, a step calls `schedule` at most. -/
theorem step_cases {action : Action Worker Fiber} (taken : step s action = some after) :
    Posts s after ∨ (∃ worker action, work s worker action = some after) ∨
      ∃ worker, uncount s worker = some after := by
  cases action with
  | work worker action => exact .inr (.inl ⟨worker, action, taken⟩)
  | uncount worker => exact .inr (.inr ⟨worker, taken⟩)
  | autoStop =>
      cases taken
      exact .inl ⟨.none rfl, rfl, rfl⟩
  | schedule source action =>
      simp only [step] at taken
      split_ifs at taken
      exact .inl (schedule_posts taken)
  | scheduleExpired worker =>
      simp only [step] at taken
      split at taken
      next cbs expired =>
        cases taken
        exact .inl ⟨.many cbs rfl, rfl, rfl⟩
      next => cases taken
  | deliver worker action =>
      simp only [step] at taken
      split at taken
      next fd event events triggering =>
        rcases Option.map_eq_some_iff.mp taken with ⟨next, triggered, same⟩
        have posts := trigger_event_posts triggered
        rw [← same]
        exact .inl ⟨posts.calls, posts.active, posts.counted⟩
      next => cases taken
  | uncountReport worker =>
      simp only [step] at taken
      split at taken
      · cases taken
        exact .inl ⟨.none rfl, rfl, rfl⟩
      · cases taken
        exact .inl ⟨.none rfl, rfl, rfl⟩
      · cases taken
  | cancelEvent source fd event action =>
      simp only [step] at taken
      split_ifs at taken
      have posts := trigger_event_posts taken
      exact .inl ⟨posts.calls, posts.active, posts.counted⟩
  | _ =>
      simp only [step] at taken
      split_ifs at taken <;> cases taken <;> exact .inl ⟨.none rfl, rfl, rfl⟩

/-- A worker's step with its task: it counts itself when it takes one. -/
theorem work_some {worker : Worker} {action : Scheduler.Action Worker Fiber}
    (taken : work s worker action = some after) :
    action.worker = some worker ∧ ∃ next, Scheduler.step s.tasks action = some next ∧
      (action ≠ .pick worker ∧ after = { s with tasks := next } ∨
        action = .pick worker ∧ s.idle worker = .looping ∧ s.counted worker = false ∧
          after = { s with
            tasks := next
            activeThreadCount := s.activeThreadCount + 1
            counted := Function.update s.counted worker true }) := by
  unfold work at taken
  have own : action.worker = some worker := by
    by_contra foreign
    rw [if_neg foreign] at taken
    cases taken
  refine ⟨own, ?_⟩
  rw [if_pos own] at taken
  cases action with
  | pick other =>
      cases own
      simp only at taken
      split_ifs at taken with free
      rcases with_tasks_some taken with ⟨next, step, same⟩
      exact ⟨next, step, .inr ⟨rfl, free.1, free.2, same⟩⟩
  | inspect other =>
      simp only at taken
      split_ifs at taken
      rcases with_tasks_some taken with ⟨next, step, same⟩
      exact ⟨next, step, .inl ⟨nofun, same⟩⟩
  | _ =>
      rcases with_tasks_some taken with ⟨next, step, same⟩
      exact ⟨next, step, .inl ⟨nofun, same⟩⟩

omit [DecidableEq Fiber] in
theorem uncount_some {worker : Worker} (taken : uncount s worker = some after) :
    s.counted worker = true ∧ (s.tasks.pc worker).executes = false ∧
      after = { s with
        activeThreadCount := s.activeThreadCount - 1
        counted := Function.update s.counted worker false } := by
  unfold uncount at taken
  split_ifs at taken with behind
  cases taken
  refine ⟨behind.1, ?_, rfl⟩
  have place := behind.2
  unfold isBack at place
  split at place
  next free =>
    rw [free]
    rfl
  next job returned =>
    rw [returned]
    rfl
  next => cases place

theorem work_accounted {worker : Worker} {action : Scheduler.Action Worker Fiber}
    (accounted : Accounted s) (taken : work s worker action = some after) : Accounted after := by
  rcases work_some taken with ⟨own, next, moved, other | picked⟩
  · rcases other with ⟨other, same⟩
    have executes : ∀ there, (next.pc there).executes = true →
        (s.tasks.pc there).executes = true := by
      intro there executes
      rcases Scheduler.step_moves moved there executes with before | picked
      · exact before
      · rw [picked] at own other
        cases own
        exact absurd rfl other
    rw [same]
    exact accounted.same rfl rfl executes
  · rcases picked with ⟨pick, _, free, same⟩
    rw [same]
    rcases accounted.counts with ⟨workers, card, members⟩
    constructor
    · refine ⟨insert worker workers, ?_, ?_⟩
      · rw [Finset.card_insert_of_notMem, card]
        rw [members, free]
        decide
      · intro there
        by_cases here : there = worker
        · simp [here]
        · simp [here, members]
    · intro there executes
      by_cases here : there = worker
      · simp [here]
      · simp only [Function.update_of_ne here]
        rcases Scheduler.step_moves moved there executes with before | picked
        · exact accounted.executing there before
        · rw [pick] at picked
          cases picked
          exact absurd rfl here

omit [DecidableEq Fiber] in
theorem uncount_accounted {worker : Worker} (accounted : Accounted s)
    (taken : uncount s worker = some after) : Accounted after := by
  rcases uncount_some taken with ⟨counted, rests, same⟩
  rw [same]
  rcases accounted.counts with ⟨workers, card, members⟩
  constructor
  · refine ⟨workers.erase worker, ?_, ?_⟩
    · rw [Finset.card_erase_of_mem ((members worker).mpr counted), card]
    · intro there
      by_cases here : there = worker
      · simp [here]
      · simp [here, members]
  · intro there executes
    have here : there ≠ worker := by
      intro here
      rw [here, rests] at executes
      cases executes
    simp only [Function.update_of_ne here]
    exact accounted.executing there executes

theorem posts_accounted (accounted : Accounted s) (posts : Posts s after) : Accounted after := by
  apply accounted.same posts.active posts.counted
  intro worker executes
  cases posts.calls with
  | none same => rwa [same] at executes
  | one action foreign moved => exact schedule_executes foreign moved worker executes
  | many cbs same => rwa [same] at executes

theorem step_accounted {action : Action Worker Fiber} (accounted : Accounted s)
    (taken : step s action = some after) : Accounted after := by
  rcases step_cases taken with posts | ⟨worker, action, worked⟩ | ⟨worker, uncounted⟩
  · exact posts_accounted accounted posts
  · exact work_accounted accounted worked
  · exact uncount_accounted accounted uncounted

/-- The worker stands between `--m_activeThreadCount` and `schedule(ft.fiber)`. -/
def BehindCount (s : State Worker Fiber) (worker : Worker) : Prop :=
  ∃ job, s.tasks.pc worker = .busy .returned job ∧ s.counted worker = false ∨
    s.tasks.pc worker = .busy .requeueing job

/-- There are no timers and no registered events, and no callbacks on their way from the timers to
the queue. -/
structure Still (timers : List Timer) (events : List (Nat × Event)) (idle : Worker → Idle) :
    Prop where
  timers : timers = []
  events : events = []
  expired : ∀ worker cbs, idle worker = .expired cbs → cbs = 0

/-- Nothing is in flight between the places that `stopping()` reads one after the other. -/
structure Settled (s : State Worker Fiber) : Prop where
  rounds : ∀ worker, ¬BehindCount s worker
  still : Still s.timers s.events s.idle

def Terminated (s : State Worker Fiber) : Prop := ∃ worker, s.terminated worker = true

/-- The condition on a step: `stopping()` holds only in a settled state, and behind that no other
thread adds work. -/
def Orderly (s : State Worker Fiber) : Action Worker Fiber → Prop
  | .readQueue _ => s.queueStopping = true → Settled s
  | .schedule .outside _ => ¬Terminated s
  | .addTimer .outside _ => ¬Terminated s
  | .addEvent .outside _ _ => ¬Terminated s
  | _ => True

structure Ended (s : State Worker Fiber) : Prop where
  quiet : Scheduler.Quiet s.tasks
  still : Still s.timers s.events s.idle

omit [DecidableEq Worker] [DecidableEq Fiber] in
theorem ended_of_settled (accounted : Accounted s) (settled : Settled s)
    (holds : s.queueStopping = true) : Ended s := by
  simp only [State.queueStopping, Bool.and_eq_true, List.isEmpty_iff, beq_iff_eq] at holds
  refine ⟨⟨holds.1.2, accounted.idle holds.2, ?_⟩, settled.still⟩
  rintro worker ⟨stage, job, busy, requeueing | ⟨returned, _⟩⟩
  · rw [requeueing] at busy
    exact settled.rounds worker ⟨job, .inr busy⟩
  · rw [returned] at busy
    exact settled.rounds worker ⟨job, .inl ⟨busy, accounted.uncounted holds.2 worker⟩⟩

omit [DecidableEq Fiber] in
theorem Ended.goto {worker : Worker} {idle : Idle} (ended : Ended s)
    (expired : ∀ cbs, idle = .expired cbs → cbs = 0) : Ended (s.goto worker idle) := by
  refine ⟨ended.quiet, ended.still.timers, ended.still.events, ?_⟩
  intro other cbs there
  by_cases same : other = worker
  · rw [same, State.goto_idle_self] at there
    exact expired cbs there
  · rw [s.goto_idle_of_ne idle same] at there
    exact ended.still.expired other cbs there

omit [DecidableEq Fiber] in
theorem Ended.move {worker : Worker} {idle : Idle} (ended : Ended s)
    (unexpired : ∀ cbs, idle ≠ .expired cbs) : Ended (s.goto worker idle) := by
  apply ended.goto
  intro cbs expired
  exact absurd expired (unexpired cbs)

omit [DecidableEq Fiber] in
theorem Ended.terminate {worker : Worker} (ended : Ended s) :
    Ended ({ s with terminated := Function.update s.terminated worker true }.goto worker
      .looping) := by
  have same : Ended { s with terminated := Function.update s.terminated worker true } :=
    ⟨ended.quiet, ended.still⟩
  exact same.move (by simp)

omit [DecidableEq Worker] [DecidableEq Fiber] in
theorem Ended.acts {source : Source Worker} (ended : Ended s) (acts : s.acts source = true) :
    source = .outside := by
  cases source with
  | outside => rfl
  | task worker =>
      have resting := ended.quiet.executes worker
      simp only [State.acts] at acts
      split at acts
      next stage job busy =>
        rw [busy] at resting
        simp only [decide_eq_true_eq] at acts
        rcases acts with running | registered
        · rw [running] at resting
          cases resting
        · rw [registered] at resting
          cases resting
      next => cases acts

omit [DecidableEq Worker] [DecidableEq Fiber] in
theorem Ended.unregistered (ended : Ended s) (fd : Nat) (event : Event) :
    s.registered fd event = false := by
  rw [State.registered, ended.still.events]
  rfl

theorem list_expired_ended {worker : Worker} {due : List Nat} (ended : Ended s)
    (taken : step s (.listExpiredCb worker due) = some after) : Ended after := by
  simp only [step, ended.still.timers] at taken
  split_ifs at taken
  cases taken
  have same : Ended { s with timers := [] } :=
    ⟨ended.quiet, rfl, ended.still.events, ended.still.expired⟩
  apply same.goto
  intro cbs expired
  cases expired
  rfl

theorem schedule_expired_ended {worker : Worker} (ended : Ended s)
    (taken : step s (.scheduleExpired worker) = some after) : Ended after := by
  simp only [step] at taken
  split at taken
  next cbs expired =>
    cases taken
    cases ended.still.expired worker cbs expired
    have same : Ended { s with tasks := s.tasks.scheduleCbs 0 } := by
      refine ⟨⟨?_, ended.quiet.executes, ended.quiet.requeues⟩, ended.still⟩
      rw [Scheduler.State.scheduleCbs, ended.quiet.queue]
      rfl
    exact same.move (by simp)
  next => cases taken

theorem deliver_ended {worker : Worker} {action : Scheduler.Action Worker Fiber} (ended : Ended s)
    (taken : step s (.deliver worker action) = some after) : Ended after := by
  simp only [step] at taken
  split at taken
  next fd event events triggering =>
    rw [triggerEvent, ended.unregistered fd event, if_neg Bool.false_ne_true] at taken
    cases taken
    exact ended.move (by simp)
  next => cases taken

theorem uncount_report_ended {worker : Worker} (ended : Ended s)
    (taken : step s (.uncountReport worker) = some after) : Ended after := by
  simp only [step] at taken
  split at taken
  next fd uncounting =>
    cases taken
    have same : Ended { s with
        pendingEventCount := s.pendingEventCount - 1
        locked := s.locked.erase (fd, some worker) } := ⟨ended.quiet, ended.still⟩
    exact same.move (by simp)
  next fd events uncounting _ =>
    cases taken
    have same : Ended { s with pendingEventCount := s.pendingEventCount - 1 } :=
      ⟨ended.quiet, ended.still⟩
    exact same.move (by simp)
  next => cases taken

/-- The end stays, also while other workers find it out. -/
theorem step_ended {action : Action Worker Fiber} (ended : Ended s) (terminated : Terminated s)
    (orderly : Orderly s action) (taken : step s action = some after) : Ended after := by
  cases action with
  | autoStop =>
      cases taken
      exact ⟨ended.quiet, ended.still⟩
  | stop =>
      simp only [step] at taken
      split_ifs at taken
      cases taken
      exact ⟨ended.quiet, ended.still⟩
  | schedule source action =>
      simp only [step] at taken
      split_ifs at taken with acts
      cases ended.acts acts
      exact absurd terminated orderly
  | work worker action =>
      rcases work_some taken with ⟨own, next, moved, other | picked⟩
      · rw [other.2]
        exact ⟨Scheduler.step_quiet ended.quiet own moved, ended.still⟩
      · rw [picked.2.2.2]
        exact ⟨Scheduler.step_quiet ended.quiet own moved, ended.still⟩
  | uncount worker =>
      rw [(uncount_some taken).2.2]
      exact ⟨ended.quiet, ended.still⟩
  | scan worker | swapOutIdle worker =>
      simp only [step] at taken
      split_ifs at taken
      cases taken
      exact ended.move (by simp)
  | swapInIdle worker | readTimers worker | readEvents worker =>
      simp only [step] at taken
      split_ifs at taken <;> cases taken <;> exact ended.move (by simp)
  | readQueue worker =>
      simp only [step] at taken
      split_ifs at taken
      · cases taken
        exact ended.terminate
      · cases taken
        exact ended.move (by simp)
  | listExpiredCb worker due => exact list_expired_ended ended taken
  | scheduleExpired worker => exact schedule_expired_ended ended taken
  | dispatch worker fd read write =>
      simp only [step] at taken
      split_ifs at taken
      cases taken
      have same : Ended { s with locked := s.locked ++ [(fd, some worker)] } :=
        ⟨ended.quiet, ended.still⟩
      exact same.move (by simp)
  | deliver worker action => exact deliver_ended ended taken
  | uncountReport worker => exact uncount_report_ended ended taken
  | addTimer source timer =>
      simp only [step] at taken
      split_ifs at taken with acts
      cases ended.acts acts
      exact absurd terminated orderly
  | addEvent source fd event =>
      simp only [step] at taken
      split_ifs at taken with acts
      cases ended.acts acts.1
      exact absurd terminated orderly
  | cancelTimer source id =>
      simp only [step, ended.still.timers] at taken
      split_ifs at taken
      cases taken
      exact ⟨ended.quiet, rfl, ended.still.events, ended.still.expired⟩
  | delEvent source fd event | cancelEvent source fd event action =>
      simp only [step] at taken
      split_ifs at taken with registered
      rw [ended.unregistered fd event] at registered
      cases registered.2.2
  | uncountEvent fd =>
      simp only [step] at taken
      split_ifs at taken
      cases taken
      exact ⟨ended.quiet, ended.still⟩

theorem trigger_event_terminated {fd : Nat} {event : Event}
    {action : Scheduler.Action Worker Fiber} (taken : triggerEvent s fd event action = some after) :
    after.terminated = s.terminated := by
  rcases trigger_event_some taken with same | ⟨_, _, next, _, same⟩
  · rw [same]
  · rw [same]

theorem step_terminated {action : Action Worker Fiber} (taken : step s action = some after) :
    after.terminated = s.terminated ∨
      (∃ worker, action = .readQueue worker) ∧ s.queueStopping = true ∧
        (Ended s → Ended after) := by
  cases action with
  | autoStop =>
      cases taken
      exact .inl rfl
  | schedule source action =>
      simp only [step] at taken
      split_ifs at taken
      rcases schedule_some taken with ⟨_, next, _, same⟩
      rw [same]
      exact .inl rfl
  | work worker action =>
      rcases work_some taken with ⟨_, next, _, other | picked⟩
      · rw [other.2]
        exact .inl rfl
      · rw [picked.2.2.2]
        exact .inl rfl
  | uncount worker =>
      rw [(uncount_some taken).2.2]
      exact .inl rfl
  | scheduleExpired worker =>
      simp only [step] at taken
      split at taken
      · cases taken
        exact .inl rfl
      · cases taken
  | deliver worker action =>
      simp only [step] at taken
      split at taken
      next fd event events triggering =>
        rcases Option.map_eq_some_iff.mp taken with ⟨next, triggered, same⟩
        have kept := trigger_event_terminated triggered
        rw [← same]
        exact .inl kept
      next => cases taken
  | uncountReport worker =>
      simp only [step] at taken
      split at taken
      · cases taken
        exact .inl rfl
      · cases taken
        exact .inl rfl
      · cases taken
  | cancelEvent source fd event action =>
      simp only [step] at taken
      split_ifs at taken
      have kept := trigger_event_terminated taken
      exact .inl kept
  | readQueue worker =>
      simp only [step] at taken
      split_ifs at taken with here holds
      · cases taken
        exact .inr ⟨⟨worker, rfl⟩, holds, Ended.terminate⟩
      · cases taken
        exact .inl rfl
  | _ =>
      simp only [step] at taken
      split_ifs at taken <;> cases taken <;> exact .inl rfl

structure Sound (s : State Worker Fiber) : Prop where
  accounted : Accounted s
  ended : Terminated s → Ended s

theorem step_sound {action : Action Worker Fiber} (sound : Sound s) (orderly : Orderly s action)
    (taken : step s action = some after) : Sound after := by
  constructor
  · exact step_accounted sound.accounted taken
  · intro terminated
    rcases step_terminated taken with same | ⟨⟨worker, reads⟩, holds, keeps⟩
    · have before : Terminated s := by
        rw [Terminated, same] at terminated
        exact terminated
      exact step_ended (sound.ended before) before orderly taken
    · rw [reads] at orderly
      exact keeps (ended_of_settled sound.accounted (orderly holds) holds)

theorem sound_of_reaches (reached : Reaches step Orderly (State.initial : State Worker Fiber) s) :
    Sound s := by
  apply invariant_of_reaches _ _ reached
  · exact ⟨initial_accounted, nofun⟩
  · intro state action after sound orderly taken
    exact step_sound sound orderly taken

theorem schedule_cbs_runs (cbs : Nat) : ∀ tasks : Scheduler.State Worker Fiber,
    Runs Scheduler.step (fun _ _ => True) tasks (List.replicate cbs (.post none))
      (tasks.scheduleCbs cbs) := by
  induction cbs with
  | zero =>
      intro tasks
      simp [Runs, Scheduler.State.scheduleCbs]
  | succ cbs induction =>
      intro tasks
      refine ⟨trivial, tasks.schedule .cb none, rfl, ?_⟩
      have later := induction (tasks.schedule .cb none)
      simpa [Scheduler.State.scheduleCbs, Scheduler.State.schedule, List.replicate_succ] using later

theorem step_tasks {action : Action Worker Fiber} (taken : step s action = some after) :
    ∃ actions, Runs Scheduler.step (fun _ _ => True) s.tasks actions after.tasks := by
  rcases step_cases taken with posts | ⟨worker, action, worked⟩ | ⟨worker, uncounted⟩
  · cases posts.calls with
    | none same => exact ⟨[], same.symm⟩
    | one action foreign moved => exact ⟨[action], trivial, _, moved, rfl⟩
    | many cbs same =>
        rw [same]
        exact ⟨_, schedule_cbs_runs cbs s.tasks⟩
  · rcases work_some worked with ⟨_, next, moved, other | picked⟩
    · exact ⟨[action], trivial, next, moved, by rw [other.2, Runs]⟩
    · exact ⟨[action], trivial, next, moved, by rw [picked.2.2.2, Runs]⟩
  · rw [(uncount_some uncounted).2.2]
    exact ⟨[], rfl⟩

theorem tasks_reached
    (reached : Reaches step (fun _ _ => True) (State.initial : State Worker Fiber) s) :
    Reaches Scheduler.step (fun _ _ => True) Scheduler.State.initial s.tasks := by
  induction reached with
  | start => exact .start
  | next action before permitted taken induction =>
      rcases step_tasks taken with ⟨actions, ran⟩
      exact reaches_of_runs actions induction ran

/-- A worker leaves `run()`. -/
def Leaves (s : State Worker Fiber) (worker : Worker) : Prop :=
  ∃ after, step s (.swapInIdle worker) = some after ∧ after.idle worker = .left

theorem leaves_iff {worker : Worker} :
    Leaves s worker ↔ s.idle worker = .scanned ∧ s.terminated worker = true := by
  constructor
  · rintro ⟨after, taken, left⟩
    simp only [step] at taken
    split_ifs at taken with scanned terminated
    · exact ⟨scanned, terminated⟩
    · cases taken
      rw [State.goto_idle_self] at left
      cases left
  · rintro ⟨scanned, terminated⟩
    refine ⟨s.goto worker .left, ?_, State.goto_idle_self _ _ _⟩
    simp [step, scanned, terminated]

/-- In orderly runs a worker leaves only when nothing is queued, no worker executes anything, and
no fiber is to be scheduled again. -/
theorem worker_leaves_quiet (s : State Worker Fiber) (worker : Worker)
    (reached : Reaches step Orderly (State.initial : State Worker Fiber) s)
    (leaves : Leaves s worker) : Scheduler.Quiet s.tasks :=
  ((sound_of_reaches reached).ended ⟨worker, (leaves_iff.mp leaves).2⟩).quiet

/-- A fiber yields to `READY`, runs to its end, and a worker leaves. -/
theorem worker_leaves_quiet_yield :
    ∃ s : State Bool Unit, Runs step Orderly State.initial
      [.schedule .outside (.spawn () none), .work false (.pick false), .work false (.enter false),
        .work false (.load false), .work false (.yieldToReady false), .work false (.save false),
        .uncount false, .work false (.inspect false), .work false (.settle false),
        .work true (.pick true), .work true (.enter true), .work true (.load true),
        .work true (.finish true false), .work true (.save true), .uncount true,
        .work true (.inspect true), .autoStop, .stop, .scan false, .swapInIdle false,
        .readTimers false, .readEvents false, .readQueue false, .scan false] s ∧
      Leaves s false ∧ Scheduler.Quiet s.tasks := by
  have ran : ∃ s : State Bool Unit, Runs step Orderly State.initial
      [.schedule .outside (.spawn () none), .work false (.pick false), .work false (.enter false),
        .work false (.load false), .work false (.yieldToReady false), .work false (.save false),
        .uncount false, .work false (.inspect false), .work false (.settle false),
        .work true (.pick true), .work true (.enter true), .work true (.load true),
        .work true (.finish true false), .work true (.save true), .uncount true,
        .work true (.inspect true), .autoStop, .stop, .scan false, .swapInIdle false,
        .readTimers false, .readEvents false, .readQueue false, .scan false] s ∧
      s.idle false = .scanned ∧ s.terminated false = true := by
    refine ⟨_, ⟨nofun, _, rfl, trivial, _, rfl, trivial, _, rfl, trivial, _, rfl, trivial, _, rfl,
      trivial, _, rfl, trivial, _, rfl, trivial, _, rfl, trivial, _, rfl, trivial, _, rfl,
      trivial, _, rfl, trivial, _, rfl, trivial, _, rfl, trivial, _, rfl, trivial, _, rfl,
      trivial, _, rfl, trivial, _, rfl, trivial, _, rfl, trivial, _, rfl, trivial, _, rfl,
      trivial, _, rfl, trivial, _, rfl, ?_, _, rfl, trivial, _, rfl, rfl⟩, rfl, rfl⟩
    intro _
    constructor
    · rintro worker ⟨job, ⟨busy, _⟩ | busy⟩
      · cases worker <;> cases busy
      · cases worker <;> cases busy
    · constructor
      · rfl
      · rfl
      · intro worker cbs expired
        cases worker <;> cases expired
  rcases ran with ⟨s, ran, scanned, terminated⟩
  have leaves : Leaves s false := leaves_iff.mpr ⟨scanned, terminated⟩
  exact ⟨s, ran, leaves, worker_leaves_quiet s false (reaches_of_runs _ .start ran) leaves⟩

/-- The fiber of worker `false` is `READY` and uncounted, but not scheduled again yet, when worker
`true` reads the queue; or worker `false` has a callback that is not in the timers any more and
not in the queue yet; or worker `false` has counted `READ` of descriptor 5 down although it was
deleted before the dispatch, and descriptor 7 is still registered. -/
theorem worker_leaves_early :
    (∃ s : State Bool Unit, Reaches step (fun _ _ => True) State.initial s ∧ s.stopping = true ∧
      Leaves s true ∧ Scheduler.Requeues s.tasks false) ∧
    (∃ s : State Bool Unit, Reaches step (fun _ _ => True) State.initial s ∧ s.stopping = true ∧
      Leaves s true ∧ s.tasks.queue ≠ []) ∧
    ∃ s : State Bool Unit, Reaches step (fun _ _ => True) State.initial s ∧ s.stopping = true ∧
      Leaves s false ∧ s.tasks.queue ≠ [] := by
  refine ⟨?_, ?_, ?_⟩
  · have reached : ∃ s : State Bool Unit, Reaches step (fun _ _ => True) State.initial s ∧
        (s.stopping = true ∧ s.idle true = .scanned ∧ s.terminated true = true ∧
          s.tasks.pc false = .busy .requeueing ⟨(), false⟩) :=
      exists_of_run [.schedule .outside (.spawn () none), .work false (.pick false),
        .work false (.enter false), .work false (.load false), .work false (.yieldToReady false),
        .work false (.save false), .uncount false, .work false (.inspect false), .autoStop, .stop,
        .scan true, .swapInIdle true, .readTimers true, .readEvents true, .readQueue true,
        .scan true] (by decide +kernel)
    rcases reached with ⟨s, reached, stopping, scanned, terminated, busy⟩
    exact ⟨s, reached, stopping, leaves_iff.mpr ⟨scanned, terminated⟩, _, _, busy, .inl rfl⟩
  · have reached : ∃ s : State Bool Unit, Reaches step (fun _ _ => True) State.initial s ∧
        (s.stopping = true ∧ s.idle true = .scanned ∧ s.terminated true = true ∧
          s.tasks.queue ≠ []) :=
      exists_of_run [.addTimer .outside ⟨0, false⟩, .autoStop, .stop, .scan false,
        .swapInIdle false, .readTimers false, .listExpiredCb false [0], .scan true,
        .swapInIdle true, .readTimers true, .readEvents true, .readQueue true, .scan true,
        .scheduleExpired false] (by decide +kernel)
    rcases reached with ⟨s, reached, stopping, scanned, terminated, queued⟩
    exact ⟨s, reached, stopping, leaves_iff.mpr ⟨scanned, terminated⟩, queued⟩
  · have reached : ∃ s : State Bool Unit, Reaches step (fun _ _ => True) State.initial s ∧
        (s.stopping = true ∧ s.idle false = .scanned ∧ s.terminated false = true ∧
          s.tasks.queue ≠ []) :=
      exists_of_run [.addEvent .outside 5 .read, .addEvent .outside 5 .write,
        .addEvent .outside 7 .read, .autoStop, .stop, .scan true, .swapInIdle true,
        .readTimers true, .readEvents true, .listExpiredCb true [], .scheduleExpired true,
        .scan false, .swapInIdle false, .readTimers false, .readEvents false,
        .listExpiredCb false [], .scheduleExpired false, .delEvent .outside 5 .read,
        .dispatch false 5 true true, .deliver false (.post none), .uncountReport false,
        .deliver false (.post none), .uncountReport false, .swapOutIdle false,
        .work false (.pick false), .work false (.prepare false ()), .work false (.enter false),
        .work false (.load false), .work false (.finish false false), .work false (.save false),
        .uncount false, .work false (.inspect false), .scan false, .swapInIdle false,
        .readTimers false, .readEvents false, .readQueue false, .scan false,
        .dispatch true 7 true false, .deliver true (.post none)] (by decide +kernel)
    rcases reached with ⟨s, reached, stopping, scanned, terminated, queued⟩
    exact ⟨s, reached, stopping, leaves_iff.mpr ⟨scanned, terminated⟩, queued⟩

end ChatServer.IOManager
