import ChatServer.Fiber.Ownership
import ChatServer.Lib.Transition

/-!
# A fiber runs on one worker

As long as wakers schedule a fiber only when its worker is done with it, every step keeps an
assignment of owners, and no fiber runs on two workers. The code does not make wakers wait:
`m_state` leaves `EXEC` before the context is saved, and is written once more in `run()`.
-/

namespace ChatServer.Scheduler

set_option autoImplicit false

open Transition

variable {Worker Fiber : Type}

/-- The fiber's code runs on the worker: its context is loaded and not saved again. -/
def OnStack (s : State Worker Fiber) (worker : Worker) (fiber : Fiber) : Prop :=
  ∃ stage job, s.pc worker = .busy stage job ∧ job.fiber = fiber ∧
    (stage = .running ∨ stage = .registered ∨ stage = .leaving)

/-- No fiber runs on two workers, and none is swapped in before its context was saved. -/
structure Exclusive (s : State Worker Fiber) : Prop where
  alone : ∀ {first second fiber}, OnStack s first fiber → OnStack s second fiber → first = second
  saved : ∀ {worker job}, s.pc worker = .busy .entering job → ∀ other, ¬OnStack s other job.fiber

def Pc.handles [DecidableEq Fiber] : Pc Fiber → Fiber → Bool
  | .busy stage job, fiber => job.fiber = fiber ∧ stage ≠ .picked ∧ stage ≠ .entering
  | _, _ => false

/-- The condition on a step: a waker schedules a fiber when no worker handles it. -/
def WellTimed [DecidableEq Fiber] (s : State Worker Fiber) : Action Worker Fiber → Prop
  | .wake fiber _ => ∀ worker, (s.pc worker).handles fiber = false
  | _ => True

theorem exclusive_of_owned {s : State Worker Fiber} {owner : Fiber → Owner Worker}
    (owned : Owned s owner) : Exclusive s := by
  constructor
  · intro first second fiber onFirst onSecond
    obtain ⟨_, firstJob, firstBusy, firstSame, _⟩ := onFirst
    obtain ⟨_, secondJob, secondBusy, secondSame, _⟩ := onSecond
    exact (busy_unique owned secondBusy firstBusy (firstSame.trans secondSame.symm)).1
  · intro worker job entering other onOther
    obtain ⟨stage, otherJob, otherBusy, same, onStack⟩ := onOther
    obtain ⟨_, sameStage, _⟩ := busy_unique owned entering otherBusy same
    rw [sameStage] at onStack
    rcases onStack with impossible | impossible | impossible <;> cases impossible

section Steps

variable [DecidableEq Worker] [DecidableEq Fiber] {s after : State Worker Fiber}
  {owner : Fiber → Owner Worker}

theorem spawn_owned (owned : Owned s owner) {fiber : Fiber} {thread : Option Worker}
    (taken : step s (.spawn fiber thread) = some after) : ∃ next, Owned after next := by
  rw [step] at taken
  split_ifs at taken with unborn
  cases taken
  obtain ⟨created, loose, isBorn⟩ := owned_create owned unborn
  exact ⟨_, owned_schedule created loose isBorn thread⟩

theorem wake_owned (owned : Owned s owner) {fiber : Fiber} {thread : Option Worker}
    (timed : ∀ worker, (s.pc worker).handles fiber = false)
    (taken : step s (.wake fiber thread) = some after) : ∃ next, Owned after next := by
  rw [step] at taken
  split_ifs at taken with member
  cases taken
  have waker : owner fiber = .waker := by
    rcases owned.waiting member with waker | ⟨worker, stage, job, busy, same, waits⟩
    · exact waker
    · have handled := timed worker
      rw [busy, Pc.handles, decide_eq_false_iff_not] at handled
      refine absurd ⟨same, ?_, ?_⟩ handled
      · intro picked
        rw [picked] at waits
        exact waits
      · intro entering
        rw [entering] at waits
        exact waits
  have loose : Loose { s with wakeups := s.wakeups.erase fiber } fiber := by
    apply loose_of_owner (owned_forget owned fiber)
    · intro worker mine
      cases waker.symm.trans mine
    · intro queued
      cases waker.symm.trans (owned.queued queued)
    · exact fun _ => owned.waitingOnce.not_mem_erase
  have isBorn : s.status fiber ≠ none := by
    apply born_of_owner owned
    rw [waker]
    intro impossible
    cases impossible
  exact ⟨_, owned_schedule (owned_forget owned fiber) loose isBorn thread⟩

theorem pick_owned (owned : Owned s owner) {worker : Worker}
    (taken : step s (.pick worker) = some after) : ∃ next, Owned after next := by
  rw [step] at taken
  split at taken
  next fiber thread rest free found =>
    cases taken
    obtain ⟨before, behind, split, restSplit⟩ := take_first_split found
    have fibers : s.queued = before.filterMap Entry.fiber ++ fiber :: behind.filterMap Entry.fiber := by
      rw [State.queued, split, List.filterMap_append]
      rfl
    have once := owned.queuedOnce
    rw [fibers, List.nodup_middle, List.nodup_cons] at once
    have queue : owner fiber = .queue := by
      apply owned.queued
      rw [fibers]
      exact List.mem_append_right _ List.mem_cons_self
    have unqueued := owned_unqueue owned (take_first_sublist found)
    have loose : Loose { s with queue := rest } fiber := by
      apply loose_of_owner unqueued
      · intro other theirs
        cases queue.symm.trans theirs
      · rw [State.queued, restSplit, List.filterMap_append]
        exact once.1
      · intro waker
        cases queue.symm.trans waker
    have isBorn : s.status fiber ≠ none := by
      apply born_of_owner owned
      rw [queue]
      intro impossible
      cases impossible
    have given := owned_give unqueued loose isBorn (.worker worker)
    refine ⟨_, owned_take given ?_ (Function.update_self _ _ _) ?_⟩
    · intro stage job busy
      cases free.symm.trans busy
    · exact fun kept => absurd kept loose.notKept
  next thread rest free found =>
    cases taken
    refine ⟨owner, owned_goto_free (owned_unqueue owned (take_first_sublist found)) ?_ ?_⟩
    · intro stage job busy
      cases free.symm.trans busy
    · intro stage job impossible
      cases impossible
  next => cases taken

theorem prepare_owned (owned : Owned s owner) {worker : Worker} {new : Fiber}
    (taken : step s (.prepare worker new) = some after) : ∃ next, Owned after next := by
  have idle (pickedCb : s.pc worker = .pickedCb) (stage : Stage) (job : Job Fiber) :
      s.pc worker ≠ .busy stage job := by
    intro busy
    cases pickedCb.symm.trans busy
  rw [step] at taken
  split at taken
  next fiber pickedCb kept =>
    split_ifs at taken
    cases taken
    have mine := owned.kept kept
    have notWaiting : fiber ∉ s.wakeups := by
      apply not_waiting_of_owner owned
      · intro waker
        cases mine.symm.trans waker
      · intro other stage job busy same
        have theirs := owned.busy busy
        rw [same, mine] at theirs
        cases theirs
        exact idle pickedCb stage job busy
    have reset := owned_set_status owned .init fun member => absurd member notWaiting
    exact ⟨owner, owned_take reset (idle pickedCb) mine fun _ => rfl⟩
  next pickedCb notKept =>
    split_ifs at taken with unborn
    cases taken
    obtain ⟨created, loose, isBorn⟩ := owned_create owned unborn
    have given := owned_give created loose isBorn (.worker worker)
    have mine : Function.update owner new (.worker worker) new = .worker worker :=
      Function.update_self _ _ _
    exact ⟨_, owned_take (owned_keep given (idle pickedCb) mine) (idle pickedCb) mine fun _ => rfl⟩
  next => cases taken

theorem enter_owned (owned : Owned s owner) {worker : Worker}
    (taken : step s (.enter worker) = some after) : Owned after owner := by
  obtain ⟨job, busy, taken⟩ := State.at_stage_some taken
  have notWaiting : job.fiber ∉ s.wakeups := waits_here owned busy
  split_ifs at taken
  · cases taken
    exact owned_drop owned busy notWaiting
  · cases taken
    exact owned_write_goto owned busy .exec .entering fun member => absurd member notWaiting

theorem register_owned (owned : Owned s owner) {worker : Worker}
    (taken : step s (.register worker) = some after) : Owned after owner := by
  obtain ⟨job, busy, taken⟩ := State.at_stage_some taken
  cases taken
  have fresh : job.fiber ∉ s.wakeups := waits_here owned busy
  have moved := owned_goto_stage owned busy .registered fun _ => trivial
  exact owned_remember moved (State.goto_self s worker _) fresh

theorem inspect_owned (owned : Owned s owner) {worker : Worker}
    (taken : step s (.inspect worker) = some after) : Owned after owner := by
  obtain ⟨job, busy, taken⟩ := State.at_stage_some taken
  have held : job.fiber ∈ s.wakeups → s.status job.fiber = some .hold := waits_here owned busy
  have notWaiting (ended : s.status job.fiber = some .term ∨ s.status job.fiber = some .except) :
      job.fiber ∉ s.wakeups := by
    intro member
    rw [held member] at ended
    rcases ended with impossible | impossible <;> cases impossible
  split_ifs at taken with ready ended isCb
  · cases taken
    apply owned_goto_stage owned busy
    intro member
    cases ready.symm.trans (held member)
  · cases taken
    have reset := owned_write owned busy .init fun member => absurd member (notWaiting ended)
    exact owned_drop reset busy (notWaiting ended)
  · cases taken
    exact owned_drop owned busy (notWaiting ended)
  · cases taken
    exact owned_goto_stage owned busy .holding fun _ => trivial

theorem settle_owned (owned : Owned s owner) {worker : Worker}
    (taken : step s (.settle worker) = some after) : ∃ next, Owned after next := by
  rw [step] at taken
  split at taken
  next job busy =>
    cases taken
    have handed := owned_hand_over owned busy
    have waker : Function.update owner job.fiber .waker job.fiber = .waker :=
      Function.update_self _ _ _
    have loose : Loose ((s.release worker job).goto worker .free) job.fiber := by
      apply loose_of_owner handed
      · intro other theirs
        cases waker.symm.trans theirs
      · intro queued
        cases waker.symm.trans (handed.queued queued)
      · exact fun _ => waits_here owned busy
    have isBorn : s.status job.fiber ≠ none := by
      apply born_of_owner owned
      rw [owned.busy busy]
      intro impossible
      cases impossible
    exact ⟨_, owned_schedule handed loose isBorn none⟩
  next job busy =>
    cases taken
    exact ⟨_, owned_hand_over (owned_write owned busy .hold fun _ => trivial) busy⟩
  next => cases taken

theorem step_owned (owned : Owned s owner) {action : Action Worker Fiber}
    (timed : WellTimed s action) (taken : step s action = some after) :
    ∃ next, Owned after next := by
  cases action with
  | spawn fiber thread => exact spawn_owned owned taken
  | post thread =>
      cases taken
      exact ⟨owner, owned_post owned thread⟩
  | wake fiber thread => exact wake_owned owned timed taken
  | pick worker => exact pick_owned owned taken
  | prepare worker new => exact prepare_owned owned taken
  | enter worker => exact ⟨owner, enter_owned owned taken⟩
  | load worker =>
      obtain ⟨job, busy, taken⟩ := State.at_stage_some taken
      cases taken
      exact ⟨owner, owned_goto_stage owned busy .running fun member =>
        (waits_here owned busy member).elim⟩
  | register worker => exact ⟨owner, register_owned owned taken⟩
  | yieldToHold worker =>
      obtain ⟨job, busy, taken⟩ := State.at_stage_some taken
      split_ifs at taken
      cases taken
      exact ⟨owner, owned_write_goto owned busy .hold .leaving fun _ => ⟨trivial, rfl⟩⟩
  | yieldToReady worker =>
      obtain ⟨job, busy, taken⟩ := State.at_stage_some taken
      split_ifs at taken
      cases taken
      exact ⟨owner, owned_write_goto owned busy .ready .leaving fun member =>
        (waits_here owned busy member).elim⟩
  | finish worker failed =>
      obtain ⟨job, busy, taken⟩ := State.at_stage_some taken
      cases taken
      exact ⟨owner, owned_write_goto owned busy _ .leaving fun member =>
        (waits_here owned busy member).elim⟩
  | save worker =>
      obtain ⟨job, busy, taken⟩ := State.at_stage_some taken
      cases taken
      have held : job.fiber ∈ s.wakeups → s.status job.fiber = some .hold := waits_here owned busy
      exact ⟨owner, owned_goto_stage owned busy .returned held⟩
  | inspect worker => exact ⟨owner, inspect_owned owned taken⟩
  | settle worker => exact settle_owned owned taken

/-- In runs whose wakers wait until `run()` is done with a fiber, every state is exclusive. -/
theorem fiber_exclusive (s : State Worker Fiber)
    (reached : Reaches step WellTimed (State.initial : State Worker Fiber) s) : Exclusive s := by
  have owned : ∃ owner, Owned s owner := by
    apply invariant_of_reaches ⟨_, initial_owned⟩ _ reached
    intro state action after owned timed taken
    obtain ⟨owner, owned⟩ := owned
    exact step_owned owned timed taken
  obtain ⟨owner, owned⟩ := owned
  exact exclusive_of_owned owned

end Steps

/-- A fiber holds on one worker and is resumed on another. -/
theorem fiber_exclusive_resumed :
    ∃ s : State Bool Unit, Runs step WellTimed State.initial
      [.spawn () none, .pick false, .enter false, .load false, .register false,
        .yieldToHold false, .save false, .inspect false, .settle false, .wake () none,
        .pick true, .enter true, .load true] s ∧
      OnStack s true () ∧ Exclusive s := by
  have ran : ∃ s : State Bool Unit, Runs step WellTimed State.initial
      [.spawn () none, .pick false, .enter false, .load false, .register false,
        .yieldToHold false, .save false, .inspect false, .settle false, .wake () none,
        .pick true, .enter true, .load true] s ∧ s.pc true = .busy .running ⟨(), false⟩ := by
    refine ⟨_, ⟨trivial, _, rfl, trivial, _, rfl, trivial, _, rfl, trivial, _, rfl, trivial, _, rfl,
      trivial, _, rfl, trivial, _, rfl, trivial, _, rfl, trivial, _, rfl, ?_, _, rfl,
      trivial, _, rfl, trivial, _, rfl, trivial, _, rfl, rfl⟩, rfl⟩
    intro worker
    cases worker <;> rfl
  obtain ⟨s, ran, running⟩ := ran
  exact ⟨s, ran, ⟨_, _, running, rfl, .inl rfl⟩, fiber_exclusive s (reaches_of_runs _ .start ran)⟩

/-- A waker that schedules the fiber before it has left its worker: another worker finds `HOLD`
and swaps the fiber in. -/
theorem early_wake_not_exclusive :
    ∃ s : State Bool Unit, Reaches step (fun _ _ => True) State.initial s ∧
      OnStack s false () ∧ OnStack s true () ∧ ¬Exclusive s := by
  have ran : ∃ s : State Bool Unit, Runs step (fun _ _ => True) State.initial
      [.spawn () none, .pick false, .enter false, .load false, .register false, .wake () none,
        .yieldToHold false, .pick true, .enter true, .load true] s ∧
      s.pc false = .busy .leaving ⟨(), false⟩ ∧ s.pc true = .busy .running ⟨(), false⟩ :=
    ⟨_, ⟨trivial, _, rfl, trivial, _, rfl, trivial, _, rfl, trivial, _, rfl, trivial, _, rfl,
      trivial, _, rfl, trivial, _, rfl, trivial, _, rfl, trivial, _, rfl, trivial, _, rfl, rfl⟩,
      rfl, rfl⟩
  obtain ⟨s, ran, leaving, running⟩ := ran
  have first : OnStack s false () := ⟨_, _, leaving, rfl, .inr (.inr rfl)⟩
  have second : OnStack s true () := ⟨_, _, running, rfl, .inl rfl⟩
  refine ⟨s, reaches_of_runs _ .start ran, first, second, ?_⟩
  intro exclusive
  cases exclusive.alone first second

/-- Scheduled behind the save it is no better: `run()` then sets `HOLD` over the `EXEC` of the
other worker, and a third `swapIn` is possible. -/
example : ∃ s : State Bool Unit, Runs step (fun _ _ => True) State.initial
    [.spawn () none, .pick false, .enter false, .load false, .register false,
      .yieldToHold false, .save false, .wake () none, .pick true, .enter true, .load true,
      .inspect false, .settle false, .register true, .wake () none, .pick false, .enter false,
      .load false] s ∧
    s.pc false = .busy .running ⟨(), false⟩ ∧ s.pc true = .busy .registered ⟨(), false⟩ :=
  ⟨_, ⟨trivial, _, rfl, trivial, _, rfl, trivial, _, rfl, trivial, _, rfl, trivial, _, rfl,
    trivial, _, rfl, trivial, _, rfl, trivial, _, rfl, trivial, _, rfl, trivial, _, rfl,
    trivial, _, rfl, trivial, _, rfl, trivial, _, rfl, trivial, _, rfl, trivial, _, rfl,
    trivial, _, rfl, trivial, _, rfl, trivial, _, rfl, rfl⟩, rfl, rfl⟩

end ChatServer.Scheduler
