import ChatServer.Fiber.Scheduler
import Mathlib.Data.List.Nodup

/-!
# Owners of fibers

Every fiber has one owner at a time: the queue, a worker, or the waker it registered with. A
worker owns its fiber from `pick` until `run()` has dealt with its return, and hands it back
to the queue or to the waker then. The rules say which changes of the state keep an
assignment of owners valid, and which fibers may get another owner.
-/

namespace ChatServer.Scheduler

set_option autoImplicit false

variable {Worker Fiber : Type}

inductive Owner (Worker : Type) where
  | nobody
  | queue
  | worker (worker : Worker)
  | waker

def Entry.fiber (entry : Entry Worker Fiber) : Option Fiber :=
  match entry.task with
  | .fiber fiber => some fiber
  | .cb => none

/-- The fibers in `m_fibers`. -/
def State.queued (s : State Worker Fiber) : List Fiber := s.queue.filterMap Entry.fiber

/-- The stages in which a worker may have a fiber that is registered with a waker. -/
def Waits : Stage → Option FiberState → Prop
  | .registered, _ => True
  | .leaving, status => status = some .hold
  | .returned, status => status = some .hold
  | .holding, _ => True
  | _, _ => False

/-- Everything that mentions a fiber agrees with its owner. -/
structure Owned (s : State Worker Fiber) (owner : Fiber → Owner Worker) : Prop where
  busy : ∀ {worker stage job}, s.pc worker = .busy stage job → owner job.fiber = .worker worker
  kept : ∀ {worker fiber}, s.cbFiber worker = some fiber → owner fiber = .worker worker
  plain : ∀ {worker stage job}, s.pc worker = .busy stage job →
    s.cbFiber worker = some job.fiber → job.isCb = true
  queued : ∀ {fiber}, fiber ∈ s.queued → owner fiber = .queue
  queuedOnce : s.queued.Nodup
  waiting : ∀ {fiber}, fiber ∈ s.wakeups → owner fiber = .waker ∨
    ∃ worker stage job, s.pc worker = .busy stage job ∧ job.fiber = fiber ∧
      Waits stage (s.status fiber)
  waitingOnce : s.wakeups.Nodup
  born : ∀ {fiber}, s.status fiber = none → owner fiber = .nobody

theorem busy_unique {s : State Worker Fiber} {owner : Fiber → Owner Worker} (owned : Owned s owner)
    {worker other : Worker} {stage otherStage : Stage} {job otherJob : Job Fiber}
    (busy : s.pc worker = .busy stage job) (otherBusy : s.pc other = .busy otherStage otherJob)
    (same : otherJob.fiber = job.fiber) : other = worker ∧ otherStage = stage ∧ otherJob = job := by
  have theirs := owned.busy otherBusy
  rw [same, owned.busy busy] at theirs
  cases theirs
  rw [busy] at otherBusy
  cases otherBusy
  exact ⟨rfl, rfl, rfl⟩

theorem initial_owned : Owned (State.initial : State Worker Fiber) fun _ => .nobody := by
  constructor
  · intro worker stage job busy
    cases busy
  · intro worker fiber kept
    cases kept
  · intro worker stage job busy
    cases busy
  · intro fiber member
    cases member
  · exact List.nodup_nil
  · intro fiber member
    cases member
  · exact List.nodup_nil
  · intro fiber none
    rfl

section Rules

variable {s : State Worker Fiber} {owner : Fiber → Owner Worker}

theorem born_of_owner (owned : Owned s owner) {fiber : Fiber} (some : owner fiber ≠ .nobody) :
    s.status fiber ≠ none := fun unborn => some (owned.born unborn)

/-- A fiber of a worker waits at most in the stages where that is expected. -/
theorem waits_here (owned : Owned s owner) {worker : Worker} {stage : Stage} {job : Job Fiber}
    (busy : s.pc worker = .busy stage job) (member : job.fiber ∈ s.wakeups) :
    Waits stage (s.status job.fiber) := by
  rcases owned.waiting member with other | ⟨found, foundStage, foundJob, foundBusy, same, waits⟩
  · rw [owned.busy busy] at other
    cases other
  · obtain ⟨_, sameStage, _⟩ := busy_unique owned busy foundBusy same
    rw [sameStage] at waits
    exact waits

theorem not_waiting_of_owner (owned : Owned s owner) {fiber : Fiber}
    (notWaker : owner fiber ≠ .waker)
    (notBusy : ∀ worker stage job, s.pc worker = .busy stage job → job.fiber ≠ fiber) :
    fiber ∉ s.wakeups := by
  intro member
  rcases owned.waiting member with waker | ⟨worker, stage, job, busy, same, _⟩
  · exact notWaker waker
  · exact notBusy worker stage job busy same

structure Loose (s : State Worker Fiber) (fiber : Fiber) : Prop where
  notBusy : ∀ {worker stage job}, s.pc worker = .busy stage job → job.fiber ≠ fiber
  notKept : ∀ {worker}, s.cbFiber worker ≠ some fiber
  notQueued : fiber ∉ s.queued
  notWaiting : fiber ∉ s.wakeups

theorem loose_of_owner (owned : Owned s owner) {fiber : Fiber}
    (noWorker : ∀ worker, owner fiber ≠ .worker worker) (notQueued : fiber ∉ s.queued)
    (notWaiting : owner fiber = .waker → fiber ∉ s.wakeups) : Loose s fiber := by
  have notBusy (worker : Worker) (stage : Stage) (job : Job Fiber)
      (busy : s.pc worker = .busy stage job) : job.fiber ≠ fiber := by
    intro same
    apply noWorker worker
    rw [← same]
    exact owned.busy busy
  refine ⟨notBusy _ _ _, fun kept => noWorker _ (owned.kept kept), notQueued, ?_⟩
  intro member
  by_cases waker : owner fiber = .waker
  · exact notWaiting waker member
  · exact not_waiting_of_owner owned waker notBusy member

theorem loose_of_unborn (owned : Owned s owner) {fiber : Fiber} (unborn : s.status fiber = none) :
    Loose s fiber := by
  have nobody := owned.born unborn
  apply loose_of_owner owned
  · intro worker mine
    cases nobody.symm.trans mine
  · intro member
    cases nobody.symm.trans (owned.queued member)
  · intro waker
    cases nobody.symm.trans waker

theorem owned_set_status [DecidableEq Fiber] (owned : Owned s owner) {fiber : Fiber}
    (status : FiberState)
    (calm : fiber ∈ s.wakeups → ∀ worker stage job, s.pc worker = .busy stage job →
      job.fiber = fiber → Waits stage (some status)) :
    Owned (s.setStatus fiber status) owner := by
  refine ⟨owned.busy, owned.kept, owned.plain, owned.queued, owned.queuedOnce, ?_,
    owned.waitingOnce, ?_⟩
  · intro other member
    rcases owned.waiting member with waker | ⟨worker, stage, job, busy, same, waits⟩
    · exact .inl waker
    · refine .inr ⟨worker, stage, job, busy, same, ?_⟩
      by_cases mine : other = fiber
      · subst mine
        rw [State.set_status_self]
        exact calm member worker stage job busy same
      · rw [State.set_status_of_ne s status mine]
        exact waits
  · intro other unborn
    apply owned.born
    by_cases mine : other = fiber
    · subst mine
      rw [State.set_status_self] at unborn
      cases unborn
    · rw [State.set_status_of_ne s status mine] at unborn
      exact unborn

theorem owned_write [DecidableEq Fiber] (owned : Owned s owner) {worker : Worker} {stage : Stage}
    {job : Job Fiber} (busy : s.pc worker = .busy stage job) (status : FiberState)
    (waits : job.fiber ∈ s.wakeups → Waits stage (some status)) :
    Owned (s.setStatus job.fiber status) owner := by
  apply owned_set_status owned
  intro member other otherStage otherJob otherBusy same
  obtain ⟨_, sameStage, _⟩ := busy_unique owned busy otherBusy same
  rw [sameStage]
  exact waits member

theorem owned_goto_stage [DecidableEq Worker] (owned : Owned s owner) {worker : Worker} {stage : Stage}
    {job : Job Fiber} (busy : s.pc worker = .busy stage job) (next : Stage)
    (waits : job.fiber ∈ s.wakeups → Waits next (s.status job.fiber)) :
    Owned (s.goto worker (.busy next job)) owner := by
  have back {other : Worker} {otherStage : Stage} {otherJob : Job Fiber}
      (moved : (s.goto worker (.busy next job)).pc other = .busy otherStage otherJob) :
      ∃ before, s.pc other = .busy before otherJob := by
    by_cases same : other = worker
    · subst same
      rw [State.goto_self] at moved
      cases moved
      exact ⟨stage, busy⟩
    · rw [State.goto_of_ne s _ same] at moved
      exact ⟨otherStage, moved⟩
  refine ⟨?_, owned.kept, ?_, owned.queued, owned.queuedOnce, ?_, owned.waitingOnce, owned.born⟩
  · intro other otherStage otherJob moved
    obtain ⟨before, busyBefore⟩ := back moved
    exact owned.busy busyBefore
  · intro other otherStage otherJob moved
    obtain ⟨before, busyBefore⟩ := back moved
    exact owned.plain busyBefore
  · intro fiber member
    rcases owned.waiting member with waker | ⟨other, otherStage, otherJob, otherBusy, same, found⟩
    · exact .inl waker
    · right
      by_cases mine : other = worker
      · subst mine
        rw [busy] at otherBusy
        cases otherBusy
        subst same
        exact ⟨other, next, job, State.goto_self s other _, rfl, waits member⟩
      · exact ⟨other, otherStage, otherJob, (State.goto_of_ne s _ mine).trans otherBusy, same, found⟩

/-- A worker lets go of a fiber that does not wait; the fiber keeps its owner. -/
theorem owned_goto_free [DecidableEq Worker] (owned : Owned s owner) {worker : Worker}
    (calm : ∀ stage job, s.pc worker = .busy stage job → job.fiber ∉ s.wakeups) {pc : Pc Fiber}
    (idle : ∀ stage job, pc ≠ .busy stage job) : Owned (s.goto worker pc) owner := by
  have back {other : Worker} {stage : Stage} {job : Job Fiber}
      (moved : (s.goto worker pc).pc other = .busy stage job) :
      other ≠ worker ∧ s.pc other = .busy stage job := by
    by_cases same : other = worker
    · subst same
      rw [State.goto_self] at moved
      exact absurd moved (idle stage job)
    · rw [State.goto_of_ne s _ same] at moved
      exact ⟨same, moved⟩
  refine ⟨fun moved => owned.busy (back moved).2, owned.kept, fun moved => owned.plain (back moved).2,
    owned.queued, owned.queuedOnce, ?_, owned.waitingOnce, owned.born⟩
  intro fiber member
  rcases owned.waiting member with waker | ⟨other, stage, job, busy, same, found⟩
  · exact .inl waker
  · have distinct : other ≠ worker := by
      intro mine
      subst mine
      apply calm stage job busy
      rw [same]
      exact member
    exact .inr ⟨other, stage, job, (State.goto_of_ne s _ distinct).trans busy, same, found⟩

theorem owned_write_goto [DecidableEq Worker] [DecidableEq Fiber] (owned : Owned s owner)
    {worker : Worker} {stage : Stage} {job : Job Fiber} (busy : s.pc worker = .busy stage job)
    (status : FiberState) (next : Stage)
    (waits : job.fiber ∈ s.wakeups → Waits stage (some status) ∧ Waits next (some status)) :
    Owned ((s.setStatus job.fiber status).goto worker (.busy next job)) owner := by
  have written := owned_write owned busy status fun member => (waits member).1
  apply owned_goto_stage written (show (s.setStatus job.fiber status).pc worker = _ from busy)
  intro member
  rw [State.set_status_self]
  exact (waits member).2

theorem owned_drop [DecidableEq Worker] (owned : Owned s owner) {worker : Worker} {stage : Stage}
    {job : Job Fiber} (busy : s.pc worker = .busy stage job) (notWaiting : job.fiber ∉ s.wakeups) :
    Owned (s.goto worker .free) owner := by
  apply owned_goto_free owned
  · intro otherStage other otherBusy
    cases busy.symm.trans otherBusy
    exact notWaiting
  · intro otherStage other impossible
    cases impossible

/-- A fiber that nothing mentions may have any owner, if it was created. -/
theorem owned_give [DecidableEq Fiber] (owned : Owned s owner) {fiber : Fiber} (loose : Loose s fiber)
    (isBorn : s.status fiber ≠ none) (next : Owner Worker) :
    Owned s (Function.update owner fiber next) := by
  have other {found : Fiber} (distinct : found ≠ fiber) :
      Function.update owner fiber next found = owner found := Function.update_of_ne distinct _ _
  refine ⟨?_, ?_, owned.plain, ?_, owned.queuedOnce, ?_, owned.waitingOnce, ?_⟩
  · intro worker stage job busy
    rw [other (loose.notBusy busy)]
    exact owned.busy busy
  · intro worker found kept
    rw [other fun same => loose.notKept (same ▸ kept)]
    exact owned.kept kept
  · intro found member
    rw [other fun same => loose.notQueued (same ▸ member)]
    exact owned.queued member
  · intro found member
    rw [other fun same => loose.notWaiting (same ▸ member)]
    exact owned.waiting member
  · intro found unborn
    rw [other fun same => isBorn (same ▸ unborn)]
    exact owned.born unborn

theorem queued_schedule (s : State Worker Fiber) (task : Task Fiber) (thread : Option Worker) :
    (s.schedule task thread).queued = s.queued ++ (Entry.fiber ⟨task, thread⟩ : Option Fiber).toList := by
  rw [State.queued, State.schedule, List.filterMap_append]
  cases task <;> rfl

theorem owned_schedule [DecidableEq Fiber] (owned : Owned s owner) {fiber : Fiber}
    (loose : Loose s fiber) (isBorn : s.status fiber ≠ none) (thread : Option Worker) :
    Owned (s.schedule (.fiber fiber) thread) (Function.update owner fiber .queue) := by
  have given := owned_give owned loose isBorn .queue
  have queue := queued_schedule s (.fiber fiber) thread
  refine ⟨given.busy, given.kept, given.plain, ?_, ?_, given.waiting, given.waitingOnce,
    given.born⟩
  · intro found member
    rw [queue] at member
    rcases List.mem_append.mp member with before | last
    · exact given.queued before
    · rw [List.mem_singleton.mp last]
      exact Function.update_self _ _ _
  · rw [queue]
    exact List.Nodup.append owned.queuedOnce (List.nodup_singleton fiber)
      (List.disjoint_singleton.mpr loose.notQueued)

theorem owned_create [DecidableEq Fiber] (owned : Owned s owner) {fiber : Fiber}
    (unborn : s.status fiber = none) :
    Owned (s.setStatus fiber .init) owner ∧ Loose (s.setStatus fiber .init) fiber ∧
      (s.setStatus fiber .init).status fiber ≠ none := by
  have loose := loose_of_unborn owned unborn
  refine ⟨owned_set_status owned .init fun member => absurd member loose.notWaiting,
    ⟨loose.notBusy, loose.notKept, loose.notQueued, loose.notWaiting⟩, ?_⟩
  rw [State.set_status_self]
  exact Option.some_ne_none _

theorem owned_post (owned : Owned s owner) (thread : Option Worker) :
    Owned (s.schedule .cb thread) owner := by
  have queue := queued_schedule s .cb thread
  rw [show (Entry.fiber ⟨.cb, thread⟩ : Option Fiber).toList = [] from rfl, List.append_nil] at queue
  refine ⟨owned.busy, owned.kept, owned.plain, ?_, ?_, owned.waiting, owned.waitingOnce,
    owned.born⟩
  · intro found member
    rw [queue] at member
    exact owned.queued member
  · rw [queue]
    exact owned.queuedOnce

/-- A worker without a fiber takes one that it owns. -/
theorem owned_take [DecidableEq Worker] (owned : Owned s owner) {worker : Worker}
    (idle : ∀ stage job, s.pc worker ≠ .busy stage job) {job : Job Fiber}
    (mine : owner job.fiber = .worker worker)
    (plain : s.cbFiber worker = some job.fiber → job.isCb = true) :
    Owned (s.goto worker (.busy .picked job)) owner := by
  have back {other : Worker} {otherStage : Stage} {otherJob : Job Fiber}
      (moved : (s.goto worker (.busy .picked job)).pc other = .busy otherStage otherJob) :
      other = worker ∧ otherJob = job ∨ s.pc other = .busy otherStage otherJob := by
    by_cases same : other = worker
    · subst same
      rw [State.goto_self] at moved
      cases moved
      exact .inl ⟨rfl, rfl⟩
    · rw [State.goto_of_ne s _ same] at moved
      exact .inr moved
  refine ⟨?_, owned.kept, ?_, owned.queued, owned.queuedOnce, ?_, owned.waitingOnce, owned.born⟩
  · intro other otherStage otherJob moved
    rcases back moved with ⟨rfl, rfl⟩ | before
    · exact mine
    · exact owned.busy before
  · intro other otherStage otherJob moved
    rcases back moved with ⟨rfl, rfl⟩ | before
    · exact plain
    · exact owned.plain before
  · intro fiber member
    rcases owned.waiting member with waker | ⟨other, otherStage, otherJob, otherBusy, found⟩
    · exact .inl waker
    · have distinct : other ≠ worker := by
        intro same
        rw [same] at otherBusy
        exact idle _ _ otherBusy
      exact .inr ⟨other, otherStage, otherJob, (State.goto_of_ne s _ distinct).trans otherBusy,
        found⟩

theorem owned_keep [DecidableEq Worker] (owned : Owned s owner) {worker : Worker}
    (idle : ∀ stage job, s.pc worker ≠ .busy stage job) {fiber : Fiber}
    (mine : owner fiber = .worker worker) : Owned (s.keep worker fiber) owner := by
  refine ⟨owned.busy, ?_, ?_, owned.queued, owned.queuedOnce, owned.waiting, owned.waitingOnce,
    owned.born⟩
  · intro other found kept
    by_cases same : other = worker
    · subst same
      rw [State.keep_self] at kept
      cases kept
      exact mine
    · rw [State.keep_of_ne s _ same] at kept
      exact owned.kept kept
  · intro other stage job busy kept
    have distinct : other ≠ worker := by
      intro same
      rw [same] at busy
      exact idle stage job busy
    rw [State.keep_of_ne s _ distinct] at kept
    exact owned.plain busy kept

/-- The worker is done with its fiber, which belongs to the waker from now on. -/
theorem owned_hand_over [DecidableEq Worker] [DecidableEq Fiber] (owned : Owned s owner)
    {worker : Worker} {stage : Stage} {job : Job Fiber} (busy : s.pc worker = .busy stage job) :
    Owned ((s.release worker job).goto worker .free)
      (Function.update owner job.fiber .waker) := by
  have mine := owned.busy busy
  have otherOwner {fiber : Fiber} (distinct : fiber ≠ job.fiber) :
      Function.update owner job.fiber .waker fiber = owner fiber :=
    Function.update_of_ne distinct _ _
  have onlyMine {other : Worker} (theirs : owner job.fiber = .worker other) : other = worker := by
    rw [mine] at theirs
    cases theirs
    rfl
  have back {other : Worker} {otherStage : Stage} {otherJob : Job Fiber}
      (moved : ((s.release worker job).goto worker .free).pc other = .busy otherStage otherJob) :
      other ≠ worker ∧ s.pc other = .busy otherStage otherJob := by
    by_cases same : other = worker
    · subst same
      rw [State.goto_self] at moved
      cases moved
    · rw [State.goto_of_ne _ _ same] at moved
      exact ⟨same, moved⟩
  have slot {other : Worker} {fiber : Fiber}
      (kept : (s.release worker job).cbFiber other = some fiber) :
      s.cbFiber other = some fiber ∧ fiber ≠ job.fiber := by
    obtain ⟨before, different⟩ := State.release_cb_fiber kept
    refine ⟨before, ?_⟩
    rintro rfl
    have same := onlyMine (owned.kept before)
    subst same
    exact different rfl (owned.plain busy before)
  refine ⟨?_, ?_, ?_, ?_, owned.queuedOnce, ?_, owned.waitingOnce, ?_⟩
  · intro other otherStage otherJob moved
    obtain ⟨distinct, before⟩ := back moved
    rw [otherOwner]
    · exact owned.busy before
    · intro same
      apply distinct
      apply onlyMine
      rw [← same]
      exact owned.busy before
  · intro other fiber kept
    obtain ⟨before, different⟩ := slot kept
    rw [otherOwner different]
    exact owned.kept before
  · intro other otherStage otherJob moved kept
    exact owned.plain (back moved).2 (slot kept).1
  · intro fiber member
    have queue := owned.queued member
    rw [otherOwner]
    · exact queue
    · rintro rfl
      rw [mine] at queue
      cases queue
  · intro fiber member
    by_cases same : fiber = job.fiber
    · rw [same]
      exact .inl (Function.update_self _ _ _)
    · rw [otherOwner same]
      rcases owned.waiting member with waker | ⟨other, otherStage, otherJob, otherBusy, found⟩
      · exact .inl waker
      · have distinct : other ≠ worker := by
          rintro rfl
          rw [busy] at otherBusy
          cases otherBusy
          exact same found.1.symm
        refine .inr ⟨other, otherStage, otherJob, ?_, found⟩
        rw [State.goto_of_ne _ _ distinct]
        exact otherBusy
  · intro fiber unborn
    have nobody := owned.born unborn
    rw [otherOwner]
    · exact nobody
    · rintro rfl
      rw [mine] at nobody
      cases nobody

theorem owned_unqueue (owned : Owned s owner) {rest : List (Entry Worker Fiber)}
    (part : rest.Sublist s.queue) : Owned { s with queue := rest } owner := by
  have fibers : (rest.filterMap Entry.fiber).Sublist s.queued := part.filterMap Entry.fiber
  refine ⟨owned.busy, owned.kept, owned.plain, ?_, fibers.nodup owned.queuedOnce, owned.waiting,
    owned.waitingOnce, owned.born⟩
  exact fun member => owned.queued (fibers.subset member)

theorem owned_forget [DecidableEq Fiber] (owned : Owned s owner) (fiber : Fiber) :
    Owned { s with wakeups := s.wakeups.erase fiber } owner := by
  refine ⟨owned.busy, owned.kept, owned.plain, owned.queued, owned.queuedOnce, ?_,
    owned.waitingOnce.erase fiber, owned.born⟩
  exact fun member => owned.waiting (List.mem_of_mem_erase member)

theorem owned_remember (owned : Owned s owner) {worker : Worker} {job : Job Fiber}
    (busy : s.pc worker = .busy .registered job) (fresh : job.fiber ∉ s.wakeups) :
    Owned { s with wakeups := job.fiber :: s.wakeups } owner := by
  refine ⟨owned.busy, owned.kept, owned.plain, owned.queued, owned.queuedOnce, ?_,
    List.nodup_cons.mpr ⟨fresh, owned.waitingOnce⟩, owned.born⟩
  intro fiber member
  rcases List.mem_cons.mp member with rfl | before
  · exact .inr ⟨worker, .registered, job, busy, rfl, trivial⟩
  · exact owned.waiting before

end Rules

end ChatServer.Scheduler
