import ChatServer.Fiber.WorkerGroup

/-!
# Batches that wait for permits

`schedule` of a vector takes a permit for every callback before the scheduler gets the first one.
While the calls in progress want no more permits than the group has, a call that waits can count
on a callback that is out; a longer vector waits in the end for callbacks that it has itself.
-/

namespace ChatServer.Fiber

open Streams

set_option autoImplicit false

namespace Call

variable {Cb : Type}

def wanted : Call Cb → Nat
  | .schedule cs todo => cs.length + todo.length
  | .waitAll _ => 0

def collected : Call Cb → Nat
  | .schedule _ _ => 0
  | .waitAll i => i

/-- A call of `schedule` has its permits. -/
def Complete : Call Cb → Prop
  | .schedule _ todo => todo = []
  | .waitAll _ => True

theorem permits_le (call : Call Cb) : call.permits ≤ call.wanted + call.collected := by
  cases call with
  | schedule cs todo => exact Nat.le_add_right _ _
  | waitAll i => exact Nat.le_add_left _ _

end Call

namespace Waiting

variable {Cb : Type}

def wanted : Waiting Cb → Nat
  | .schedule cs _ todo => cs.length + (todo.length + 1)
  | .waitAll _ => 0

def collected : Waiting Cb → Nat
  | .schedule _ _ _ => 0
  | .waitAll i => i

/-- A call of `schedule` waits for its last permit. -/
def Complete : Waiting Cb → Prop
  | .schedule _ _ todo => todo = []
  | .waitAll _ => True

theorem permits_le (waiting : Waiting Cb) :
    waiting.permits ≤ waiting.wanted + waiting.collected := by
  cases waiting with
  | schedule cs cb todo => exact Nat.le_add_right _ _
  | waitAll i => exact Nat.le_add_left _ _

theorem permits_lt {waiting : Waiting Cb} (batch : ¬waiting.Collects) :
    waiting.permits < waiting.wanted + waiting.collected := by
  cases waiting with
  | schedule cs cb todo =>
      simp only [permits, wanted, collected]
      omega
  | waitAll i => exact absurd trivial batch

variable {waiting : Waiting Cb}

@[simp] theorem pass_wanted : waiting.pass.wanted = waiting.wanted := by
  cases waiting with
  | schedule cs cb todo =>
      simp only [pass, Call.wanted, wanted, List.length_append, List.length_singleton]
      omega
  | waitAll i => rfl

theorem pass_complete (complete : waiting.Complete) : waiting.pass.Complete := by
  cases waiting with
  | schedule cs cb todo => exact complete
  | waitAll i => trivial

theorem pass_of_batch (batch : ¬waiting.Collects) :
    waiting.pass.collected = waiting.collected ∧ ∀ i, waiting.pass ≠ .waitAll i := by
  cases waiting with
  | schedule cs cb todo => exact ⟨rfl, fun i same => nomatch same⟩
  | waitAll i => exact absurd trivial batch

theorem collected_of_batch (batch : ¬waiting.Collects) : waiting.collected = 0 := by
  cases waiting with
  | schedule cs cb todo => rfl
  | waitAll i => exact absurd trivial batch

end Waiting

namespace WorkerGroup

variable {Cb : Type}

def demand (group : WorkerGroup Cb) : Nat :=
  TaskPool.total Waiting.wanted group.sem.waiters + TaskPool.total Call.wanted group.running

/-- `schedule` comes before `waitAll` and fits into the group together with the calls in
progress; `waitAll` comes when these have their permits or wait for the last one. -/
def Fits (group : WorkerGroup Cb) : WorkerAction Cb → Prop
  | .schedule cbs => cbs ≠ [] →
      group.finish = false ∧ group.demand + cbs.length ≤ group.batchSize
  | .waitAll => group.finish = false →
      (∀ waiting ∈ group.sem.waiters, waiting.Complete) ∧ ∀ call ∈ group.running, call.Complete
  | .proceed _ | .doWork _ | .notify => True

/-- While a call of `schedule` waits, a callback is with the scheduler or in `doWork`. -/
def Progress (group : WorkerGroup Cb) : Prop :=
  ∀ waiting ∈ group.sem.waiters, ¬waiting.Collects → group.handed ≠ [] ∨ 0 < group.notifying

/-- The calls want no more than there is. `kept` is what calls of `waitAll` have taken that have
returned; once `waitAll` has anything, nobody else waits. -/
structure Fitting (group : WorkerGroup Cb) (calls : List (Call Cb)) (kept : Nat) : Prop where
  idle : group.sem.Idle
  permits : group.sem.concurrency + TaskPool.total Waiting.permits group.sem.waiters +
    TaskPool.total Call.permits calls + group.handed.length + group.notifying + kept =
    group.batchSize
  wanted : TaskPool.total Waiting.wanted group.sem.waiters + TaskPool.total Call.wanted calls ≤
    group.batchSize
  unissued : group.finish = false → kept = 0 ∧
    (∀ waiting ∈ group.sem.waiters, ¬waiting.Collects) ∧ ∀ i, .waitAll i ∉ calls
  complete : group.finish = true →
    (∀ waiting ∈ group.sem.waiters, waiting.Complete) ∧ ∀ call ∈ calls, call.Complete
  ordered : group.sem.waiters.Pairwise fun first second => first.Collects → second.Collects
  collecting : 0 < TaskPool.total Waiting.collected group.sem.waiters +
    TaskPool.total Call.collected calls + kept → ∀ waiting ∈ group.sem.waiters, waiting.Collects

variable {group : WorkerGroup Cb} {calls rest : List (Call Cb)} {call : Call Cb}
  {waiting : Waiting Cb} {kept : Nat}

/-- A call that waits lacks a permit, so the calls do not hold all of them. -/
theorem Fitting.progress (fitting : group.Fitting calls kept) : group.Progress := by
  intro waiting member batch
  have none : group.sem.concurrency = 0 :=
    fitting.idle (List.ne_nil_of_mem member)
  have uncollected : ¬0 < TaskPool.total Waiting.collected group.sem.waiters +
      TaskPool.total Call.collected calls + kept :=
    fun collected => batch (fitting.collecting collected waiting member)
  have held := TaskPool.total_lt_total Waiting.permits_le member (Waiting.permits_lt batch)
  have running := @TaskPool.total_le_total (Call Cb) calls _ _ Call.permits_le
  rw [TaskPool.total_add] at held running
  have permits := fitting.permits
  have wanted := fitting.wanted
  by_contra neither
  simp only [not_or, not_not, Nat.not_lt] at neither
  have handed : group.handed.length = 0 := by rw [neither.1, List.length_nil]
  omega

theorem Fitting.perm (fitting : group.Fitting calls kept) (moved : calls.Perm rest) :
    group.Fitting rest kept where
  idle := fitting.idle
  permits := by
    rw [← TaskPool.total_perm _ moved]
    exact fitting.permits
  wanted := by
    rw [← TaskPool.total_perm _ moved]
    exact fitting.wanted
  unissued := by
    intro unset
    rcases fitting.unissued unset with ⟨nothing, waiters, running⟩
    exact ⟨nothing, waiters, fun i member => running i (moved.mem_iff.mpr member)⟩
  complete := by
    intro finish
    rcases fitting.complete finish with ⟨waiters, running⟩
    exact ⟨waiters, fun call member => running call (moved.mem_iff.mpr member)⟩
  ordered := fitting.ordered
  collecting := by
    rw [← TaskPool.total_perm _ moved]
    exact fitting.collecting

theorem Fitting.with_running (fitting : group.Fitting calls kept) (running : List (Call Cb)) :
    { group with running }.Fitting calls kept :=
  ⟨fitting.idle, fitting.permits, fitting.wanted, fitting.unissued, fitting.complete,
    fitting.ordered, fitting.collecting⟩

theorem start_fitting (batchSize : Nat) : (start batchSize : WorkerGroup Cb).Fitting [] 0 where
  idle := fun waits => absurd rfl waits
  permits := by simp [start]
  wanted := by simp [start]
  unissued := by simp [start]
  complete := by simp [start]
  ordered := List.Pairwise.nil
  collecting := by simp [start]

theorem Fitting.uncollected (fitting : group.Fitting calls kept) (unset : group.finish = false) :
    TaskPool.total Waiting.collected group.sem.waiters + TaskPool.total Call.collected calls +
      kept = 0 := by
  rcases fitting.unissued unset with ⟨nothing, waiters, running⟩
  have waiting : TaskPool.total Waiting.collected group.sem.waiters = 0 :=
    TaskPool.total_eq_zero fun waiting member =>
      Waiting.collected_of_batch (waiters waiting member)
  have calls_zero : TaskPool.total Call.collected calls = 0 := by
    apply TaskPool.total_eq_zero
    intro call member
    cases call with
    | schedule cs todo => rfl
    | waitAll i => exact absurd member (running i)
  omega

theorem complete_of_finished {waiting : Waiting Cb}
    (batch : ¬waiting.Collects → group.finish = false) (set : group.finish = true) :
    waiting.Complete := by
  cases waiting with
  | schedule cs cb todo =>
      rw [batch (fun collects => collects)] at set
      cases set
  | waitAll i => trivial

/-- A permit is there: nobody waits, and the call goes on. -/
theorem permit_fitting (waiting : Waiting Cb) (fitting : group.Fitting (call :: rest) kept)
    (permits : call.permits = waiting.permits) (wanted : call.wanted = waiting.wanted)
    (collects : waiting.Collects → group.finish = true)
    (batch : ¬waiting.Collects → group.finish = false) (permit : 0 < group.sem.concurrency) :
    (group.await waiting).1.Fitting (rest ++ (group.await waiting).2) kept := by
  have held := fitting.permits
  have demanded := fitting.wanted
  simp only [TaskPool.total_cons, permits, wanted] at held demanded
  have nobody : group.sem.waiters = [] := by
    by_contra waits
    have none := fitting.idle waits
    omega
  rw [await, FiberSemaphore.wait, if_pos permit]
  simp only [if_true]
  constructor
  case idle => exact fun waits => absurd nobody waits
  case permits =>
    simp only [TaskPool.total_append, TaskPool.total_cons, TaskPool.total_nil,
      Waiting.pass_permits]
    omega
  case wanted =>
    simp only [TaskPool.total_append, TaskPool.total_cons, TaskPool.total_nil,
      Waiting.pass_wanted]
    omega
  case unissued =>
    intro unset
    rcases fitting.unissued unset with ⟨nothing, waiters, running⟩
    refine ⟨nothing, waiters, ?_⟩
    intro i member
    rcases List.mem_append.mp member with before | new
    · exact running i (List.mem_cons_of_mem _ before)
    · have isBatch : ¬waiting.Collects := by
        intro isWaitAll
        rw [collects isWaitAll] at unset
        cases unset
      exact (Waiting.pass_of_batch isBatch).2 i (List.mem_singleton.mp new).symm
  case complete =>
    intro set
    rcases fitting.complete set with ⟨waiters, running⟩
    refine ⟨waiters, ?_⟩
    intro other member
    rcases List.mem_append.mp member with before | new
    · exact running other (List.mem_cons_of_mem _ before)
    · rw [List.mem_singleton.mp new]
      exact Waiting.pass_complete (complete_of_finished batch set)
  case ordered =>
    rw [nobody]
    exact List.Pairwise.nil
  case collecting =>
    intro _ other member
    rw [nobody] at member
    cases member

/-- No permit is there: the call waits behind the others. -/
theorem parked_fitting (waiting : Waiting Cb) (fitting : group.Fitting (call :: rest) kept)
    (permits : call.permits = waiting.permits) (wanted : call.wanted = waiting.wanted)
    (collected : call.collected = waiting.collected)
    (collects : waiting.Collects → group.finish = true)
    (batch : ¬waiting.Collects → group.finish = false) (permit : ¬0 < group.sem.concurrency) :
    (group.await waiting).1.Fitting (rest ++ (group.await waiting).2) kept := by
  have held := fitting.permits
  have demanded := fitting.wanted
  have collecting := fitting.collecting
  simp only [TaskPool.total_cons, permits, wanted, collected] at held demanded collecting
  rw [await, FiberSemaphore.wait, if_neg permit]
  simp only [Bool.false_eq_true, if_false, List.append_nil]
  constructor
  case idle => exact fun _ => Nat.eq_zero_of_not_pos permit
  case permits =>
    simp only [TaskPool.total_append, TaskPool.total_cons, TaskPool.total_nil]
    omega
  case wanted =>
    simp only [TaskPool.total_append, TaskPool.total_cons, TaskPool.total_nil]
    omega
  case unissued =>
    intro unset
    rcases fitting.unissued unset with ⟨nothing, waiters, running⟩
    refine ⟨nothing, ?_, fun i member => running i (List.mem_cons_of_mem _ member)⟩
    intro other member
    rcases List.mem_append.mp member with before | new
    · exact waiters other before
    · rw [List.mem_singleton.mp new]
      intro isWaitAll
      rw [collects isWaitAll] at unset
      cases unset
  case complete =>
    intro set
    rcases fitting.complete set with ⟨waiters, running⟩
    refine ⟨?_, fun other member => running other (List.mem_cons_of_mem _ member)⟩
    intro other member
    rcases List.mem_append.mp member with before | new
    · exact waiters other before
    · rw [List.mem_singleton.mp new]
      exact complete_of_finished batch set
  case ordered =>
    apply List.pairwise_append.mpr
    refine ⟨fitting.ordered, List.pairwise_singleton _ _, ?_⟩
    intro first earlier second last isWaitAll
    rw [List.mem_singleton.mp last]
    by_contra isBatch
    exact (fitting.unissued (batch isBatch)).2.1 first earlier isWaitAll
  case collecting =>
    simp only [TaskPool.total_append, TaskPool.total_cons, TaskPool.total_nil]
    intro positive other member
    rcases List.mem_append.mp member with before | new
    · exact collecting (by omega) other before
    · rw [List.mem_singleton.mp new]
      by_contra isBatch
      have none := fitting.uncollected (batch isBatch)
      simp only [TaskPool.total_cons, collected] at none
      omega

theorem await_fitting (waiting : Waiting Cb) (fitting : group.Fitting (call :: rest) kept)
    (permits : call.permits = waiting.permits) (wanted : call.wanted = waiting.wanted)
    (collected : call.collected = waiting.collected)
    (collects : waiting.Collects → group.finish = true)
    (batch : ¬waiting.Collects → group.finish = false) :
    (group.await waiting).1.Fitting (rest ++ (group.await waiting).2) kept := by
  by_cases permit : 0 < group.sem.concurrency
  · exact permit_fitting waiting fitting permits wanted collects batch permit
  · exact parked_fitting waiting fitting permits wanted collected collects batch permit

theorem handed_fitting {cs : List Cb} (fitting : group.Fitting (.schedule cs [] :: rest) kept) :
    { group with handed := group.handed ++ cs }.Fitting rest kept where
  idle := fitting.idle
  permits := by
    have before := fitting.permits
    simp only [TaskPool.total_cons, Call.permits, List.length_append] at before ⊢
    omega
  wanted := by
    have before := fitting.wanted
    simp only [TaskPool.total_cons] at before ⊢
    omega
  unissued := by
    intro unset
    rcases fitting.unissued unset with ⟨nothing, waiters, running⟩
    exact ⟨nothing, waiters, fun i member => running i (List.mem_cons_of_mem _ member)⟩
  complete := by
    intro set
    rcases fitting.complete set with ⟨waiters, running⟩
    exact ⟨waiters, fun call member => running call (List.mem_cons_of_mem _ member)⟩
  ordered := fitting.ordered
  collecting := by
    have before := fitting.collecting
    simp only [TaskPool.total_cons, Call.collected, Nat.zero_add] at before
    exact before

/-- The loop of `waitAll` ends, and its permits stay away. -/
theorem collected_fitting {i : Nat} (fitting : group.Fitting (.waitAll i :: rest) kept) :
    { group with returned := true }.Fitting rest (kept + i) where
  idle := fitting.idle
  permits := by
    have before := fitting.permits
    simp only [TaskPool.total_cons, Call.permits] at before ⊢
    omega
  wanted := by
    have before := fitting.wanted
    simp only [TaskPool.total_cons] at before ⊢
    omega
  unissued := by
    intro unset
    exact absurd List.mem_cons_self ((fitting.unissued unset).2.2 i)
  complete := by
    intro set
    rcases fitting.complete set with ⟨waiters, running⟩
    exact ⟨waiters, fun call member => running call (List.mem_cons_of_mem _ member)⟩
  ordered := fitting.ordered
  collecting := by
    have before := fitting.collecting
    simp only [TaskPool.total_cons, Call.collected] at before ⊢
    intro positive
    exact before (by omega)

theorem proceed_fitting (fitting : group.Fitting (call :: rest) kept) :
    ∃ kept, (group.proceed call).1.Fitting (rest ++ (group.proceed call).2) kept := by
  cases call with
  | schedule cs todo =>
      cases todo with
      | nil =>
          rw [proceed, List.append_nil]
          exact ⟨kept, handed_fitting fitting⟩
      | cons cb todo =>
          rw [proceed]
          refine ⟨kept, await_fitting _ fitting rfl rfl rfl (fun collects => collects.elim) ?_⟩
          intro _
          by_contra set
          have complete := fitting.complete (by simpa using set)
          have done : cb :: todo = [] := complete.2 _ List.mem_cons_self
          cases done
  | waitAll i =>
      rw [proceed]
      split
      · refine ⟨kept, await_fitting _ fitting rfl rfl rfl ?_ (fun batch => absurd trivial batch)⟩
        intro _
        by_contra unset
        exact (fitting.unissued (Bool.eq_false_iff.mpr unset)).2.2 i List.mem_cons_self
      · rw [List.append_nil]
        exact ⟨kept + i, collected_fitting fitting⟩

theorem schedule_fitting (fitting : group.Fitting group.running kept) {cbs : List Cb}
    (fits : group.Fits (.schedule cbs)) :
    (group.schedule cbs).Fitting (group.schedule cbs).running kept := by
  have begun : { group with scheduled := group.scheduled ++ cbs }.Fitting
      (.schedule [] cbs :: group.running) kept := by
    constructor
    case idle => exact fitting.idle
    case permits =>
      have before := fitting.permits
      simp only [TaskPool.total_cons, Call.permits, List.length_nil] at before ⊢
      omega
    case wanted =>
      have before := fitting.wanted
      simp only [TaskPool.total_cons, Call.wanted, List.length_nil, Nat.zero_add]
      cases cbs with
      | nil =>
          rw [List.length_nil]
          omega
      | cons cb todo =>
          have room := (fits (List.cons_ne_nil cb todo)).2
          rw [demand] at room
          omega
    case unissued =>
      intro unset
      rcases fitting.unissued unset with ⟨nothing, waiters, running⟩
      refine ⟨nothing, waiters, ?_⟩
      intro i member
      rcases List.mem_cons.mp member with same | before
      · cases same
      · exact running i before
    case complete =>
      intro set
      rcases fitting.complete set with ⟨waiters, running⟩
      refine ⟨waiters, ?_⟩
      intro call member
      rcases List.mem_cons.mp member with same | before
      · rw [same]
        by_contra filled
        have unset : group.finish = false := (fits filled).1
        rw [show group.finish = true from set] at unset
        cases unset
      · exact running call before
    case ordered => exact fitting.ordered
    case collecting =>
      have before := fitting.collecting
      simp only [TaskPool.total_cons, Call.collected, Nat.zero_add]
      exact before
  cases cbs with
  | nil => exact (begun.perm (List.perm_append_singleton _ _).symm).with_running _
  | cons cb todo =>
      have awaited := await_fitting (.schedule [] cb todo) begun rfl
        (by simp [Call.wanted, Waiting.wanted]) rfl (fun collects => collects.elim)
        (fun _ => (fits (List.cons_ne_nil cb todo)).1)
      exact awaited.with_running _

theorem wait_all_fitting (fitting : group.Fitting group.running kept)
    (fits : group.Fits .waitAll) : group.waitAll.Fitting group.waitAll.running kept := by
  rw [waitAll]
  split
  · exact ⟨fitting.idle, fitting.permits, fitting.wanted, fitting.unissued, fitting.complete,
      fitting.ordered, fitting.collecting⟩
  · have unset : group.finish = false := Bool.eq_false_iff.mpr ‹_›
    rcases fits unset with ⟨waiters, running⟩
    constructor
    case idle => exact fitting.idle
    case permits =>
      have before := fitting.permits
      simp only [TaskPool.total_append, TaskPool.total_cons, TaskPool.total_nil, Call.permits]
      exact before
    case wanted =>
      have before := fitting.wanted
      simp only [TaskPool.total_append, TaskPool.total_cons, TaskPool.total_nil, Call.wanted]
      exact before
    case unissued =>
      intro unset
      cases unset
    case complete =>
      intro _
      refine ⟨waiters, ?_⟩
      intro call member
      rcases List.mem_append.mp member with before | new
      · exact running call before
      · rw [List.mem_singleton.mp new]
        trivial
    case ordered => exact fitting.ordered
    case collecting =>
      have none := fitting.uncollected unset
      simp only [TaskPool.total_append, TaskPool.total_cons, TaskPool.total_nil, Call.collected]
      omega

theorem do_work_fitting (fitting : group.Fitting calls kept) {place : Nat} {cb : Cb}
    (found : group.handed[place]? = some cb) :
    { group with
      handed := TaskPool.replace group.handed place []
      notifying := group.notifying + 1
      finished := group.finished ++ [cb] }.Fitting calls kept where
  idle := fitting.idle
  permits := by
    have before := fitting.permits
    have fewer := (TaskPool.replace_perm found []).length_eq
    simp only [List.length_cons, List.append_nil] at fewer ⊢
    omega
  wanted := fitting.wanted
  unissued := fitting.unissued
  complete := fitting.complete
  ordered := fitting.ordered
  collecting := fitting.collecting

/-- The first waiter gets the permit; behind `waitAll` there is nobody else. -/
theorem notify_fitting (fitting : group.Fitting group.running kept)
    (positive : 0 < group.notifying) : group.notify.Fitting group.notify.running kept := by
  have held := fitting.permits
  have demanded := fitting.wanted
  have unissued := fitting.unissued
  have complete := fitting.complete
  have ordered := fitting.ordered
  have collecting := fitting.collecting
  have idle := fitting.idle
  cases waiters : group.sem.waiters with
  | nil =>
      rw [waiters] at held demanded unissued complete
      simp only [notify, FiberSemaphore.notify, waiters, Option.toList_none, List.map_nil,
        List.append_nil]
      constructor
      case idle => exact fun waits => absurd rfl waits
      case permits =>
        simp only
        omega
      case wanted => exact demanded
      case unissued => exact unissued
      case complete => exact complete
      case ordered => exact List.Pairwise.nil
      case collecting => simp
  | cons next others =>
      rw [waiters] at held demanded unissued complete ordered collecting
      rcases List.pairwise_cons.mp ordered with ⟨behind, ordered⟩
      simp only [TaskPool.total_cons] at held demanded collecting
      simp only [notify, FiberSemaphore.notify, waiters, Option.toList_some, List.map_cons,
        List.map_nil]
      constructor
      case idle =>
        intro _
        exact idle (by simp [waiters])
      case permits =>
        simp only [TaskPool.total_append, TaskPool.total_cons, TaskPool.total_nil,
          Waiting.pass_permits]
        omega
      case wanted =>
        simp only [TaskPool.total_append, TaskPool.total_cons, TaskPool.total_nil,
          Waiting.pass_wanted]
        omega
      case unissued =>
        intro unset
        rcases unissued unset with ⟨nothing, waiting, running⟩
        refine ⟨nothing, fun other member => waiting other (List.mem_cons_of_mem _ member), ?_⟩
        intro i member
        rcases List.mem_append.mp member with before | new
        · exact running i before
        · have isBatch := waiting next List.mem_cons_self
          exact (Waiting.pass_of_batch isBatch).2 i (List.mem_singleton.mp new).symm
      case complete =>
        intro set
        rcases complete set with ⟨waiting, running⟩
        refine ⟨fun other member => waiting other (List.mem_cons_of_mem _ member), ?_⟩
        intro call member
        rcases List.mem_append.mp member with before | new
        · exact running call before
        · rw [List.mem_singleton.mp new]
          exact Waiting.pass_complete (waiting next List.mem_cons_self)
      case ordered => exact ordered
      case collecting =>
        simp only [TaskPool.total_append, TaskPool.total_cons, TaskPool.total_nil]
        intro positive other member
        by_cases isWaitAll : next.Collects
        · exact behind other member isWaitAll
        · have same := (Waiting.pass_of_batch isWaitAll).1
          exact collecting (by omega) other (List.mem_cons_of_mem _ member)

theorem step_fitting {action : WorkerAction Cb} {after : WorkerGroup Cb}
    (fitting : group.Fitting group.running kept) (fits : group.Fits action)
    (taken : group.step action = some after) : ∃ kept, after.Fitting after.running kept := by
  cases action with
  | schedule cbs =>
      cases taken
      exact ⟨kept, schedule_fitting fitting fits⟩
  | waitAll =>
      cases taken
      exact ⟨kept, wait_all_fitting fitting fits⟩
  | proceed place =>
      rcases Option.map_eq_some_iff.mp taken with ⟨call, found, same⟩
      rcases proceed_fitting (fitting.perm (TaskPool.taken_perm found).symm) with ⟨kept, next⟩
      rw [← same]
      exact ⟨kept, next.with_running _⟩
  | doWork place =>
      rcases Option.map_eq_some_iff.mp taken with ⟨cb, found, same⟩
      rw [← same]
      exact ⟨kept, do_work_fitting fitting found⟩
  | notify =>
      rw [step] at taken
      split at taken
      · cases taken
        exact ⟨kept, notify_fitting fitting ‹_›⟩
      · cases taken

theorem reached_progress {batchSize : Nat}
    (reached : Transition.Reaches step Fits (start batchSize) group) : group.Progress := by
  have fitting : ∃ kept, group.Fitting group.running kept := by
    apply Transition.invariant_of_reaches ⟨0, start_fitting batchSize⟩ _ reached
    rintro state action after ⟨kept, fitting⟩ fits taken
    exact step_fitting fitting fits taken
  rcases fitting with ⟨kept, fitting⟩
  exact fitting.progress

/-- No further calls. -/
def Alone (_group : WorkerGroup Cb) : WorkerAction Cb → Prop
  | .schedule _ | .waitAll => False
  | .proceed _ | .doWork _ | .notify => True

/-- A call of `schedule` on a new group that has taken so many permits. -/
def taking (batchSize : Nat) (cbs : List Cb) (taken : Nat) : WorkerGroup Cb :=
  ⟨batchSize, false, ⟨batchSize - taken, []⟩, [.schedule (cbs.take taken) (cbs.drop taken)], [], 0,
    cbs, [], false⟩

variable {batchSize : Nat} {cbs : List Cb}

theorem schedule_taking (positive : 1 ≤ batchSize) (filled : cbs ≠ []) :
    (start batchSize).schedule cbs = taking batchSize cbs 1 := by
  cases cbs with
  | nil => exact absurd rfl filled
  | cons cb todo =>
      have waited : FiberSemaphore.wait ⟨batchSize, []⟩ (Waiting.schedule [] cb todo) =
          (⟨batchSize - 1, []⟩, true) := if_pos positive
      simp only [schedule, start, await, waited, if_true]
      rfl

theorem taking_step {taken : Nat} (more : taken < cbs.length) (permit : taken < batchSize) :
    step (taking batchSize cbs taken) (.proceed 0) = some (taking batchSize cbs (taken + 1)) := by
  have next : cbs.drop taken = cbs[taken] :: cbs.drop (taken + 1) := List.drop_eq_getElem_cons more
  have grown : cbs.take taken ++ [cbs[taken]] = cbs.take (taken + 1) :=
    (List.take_succ_eq_append_getElem more).symm
  have free : 0 < batchSize - taken := by omega
  have fewer : batchSize - taken - 1 = batchSize - (taken + 1) := by omega
  simp only [step, taking, List.getElem?_cons_zero, Option.map_some, next, proceed, await,
    FiberSemaphore.wait, free, if_true, Waiting.pass, grown, fewer]
  rfl

def starved (batchSize : Nat) (cbs : List Cb) (cb : Cb) : WorkerGroup Cb :=
  ⟨batchSize, false, ⟨0, [.schedule (cbs.take batchSize) cb (cbs.drop (batchSize + 1))]⟩, [], [],
    0, cbs, [], false⟩

theorem taking_starved (long : batchSize < cbs.length) :
    step (taking batchSize cbs batchSize) (.proceed 0) =
      some (starved batchSize cbs cbs[batchSize]) := by
  have next : cbs.drop batchSize = cbs[batchSize] :: cbs.drop (batchSize + 1) :=
    List.drop_eq_getElem_cons long
  simp only [step, taking, List.getElem?_cons_zero, Option.map_some, next, proceed, await,
    FiberSemaphore.wait, Nat.sub_self, Nat.lt_irrefl, if_false, Bool.false_eq_true]
  rfl

theorem starved_reached (positive : 1 ≤ batchSize) (long : batchSize < cbs.length) :
    ∃ cb, Transition.Reaches step Alone ((start batchSize).schedule cbs)
      (starved batchSize cbs cb) := by
  have filled : cbs ≠ [] := List.ne_nil_of_length_pos (by omega)
  rw [schedule_taking positive filled]
  have reached : ∀ taken, taken + 1 ≤ batchSize → Transition.Reaches step Alone
      (taking batchSize cbs 1) (taking batchSize cbs (taken + 1)) := by
    intro taken
    induction taken with
    | zero =>
        intro _
        exact .start
    | succ taken induction =>
        intro bounded
        exact .next (.proceed 0) (induction (by omega)) trivial
          (taking_step (by omega) (by omega))
  have all := reached (batchSize - 1) (by omega)
  rw [Nat.sub_add_cancel positive] at all
  exact ⟨_, .next (.proceed 0) all trivial (taking_starved long)⟩

theorem starved_no_progress (cb : Cb) : ¬(starved batchSize cbs cb).Progress := by
  intro progress
  rcases progress _ List.mem_cons_self (fun collects => collects) with out | ending
  · exact out rfl
  · exact Nat.lt_irrefl 0 ending

theorem starved_stuck (cb : Cb) (action : WorkerAction Cb)
    (alone : (starved batchSize cbs cb).Alone action) :
    step (starved batchSize cbs cb) action = none := by
  cases action with
  | schedule cbs => exact alone.elim
  | waitAll => exact alone.elim
  | proceed place => rfl
  | doWork place => rfl
  | notify => rfl

theorem fits_of_alone {action : WorkerAction Cb} (alone : group.Alone action) :
    group.Fits action := by
  cases action with
  | schedule cbs => exact alone.elim
  | waitAll => exact alone.elim
  | proceed place => trivial
  | doWork place => trivial
  | notify => trivial

/-- In every run whose calls fit into the group a call that waits can count on a callback that is
out; and one call on a new group can, whatever happens then, just if its vector is not longer
than the group is large. -/
theorem batches_progress (positive : 1 ≤ batchSize) :
    (∀ group : WorkerGroup Cb, Transition.Reaches step Fits (start batchSize) group →
      group.Progress) ∧
    ∀ cbs : List Cb,
      (∀ group, Transition.Reaches step Alone ((start batchSize).schedule cbs) group →
        group.Progress) ↔ cbs.length ≤ batchSize := by
  refine ⟨fun group reached => reached_progress reached, ?_⟩
  intro cbs
  constructor
  · intro progress
    by_contra long
    rcases starved_reached positive (Nat.lt_of_not_le long) with ⟨cb, reached⟩
    exact starved_no_progress cb (progress _ reached)
  · intro short group reached
    have fits : (start batchSize).Fits (.schedule cbs) := by
      intro _
      exact ⟨rfl, by simpa [demand, start] using short⟩
    have first : Transition.Reaches step Fits (start batchSize) ((start batchSize).schedule cbs) :=
      .next (.schedule cbs) .start fits rfl
    have later : Transition.Reaches step Fits ((start batchSize).schedule cbs) group := by
      induction reached with
      | start => exact .start
      | next action before alone taken induction =>
          exact .next action induction (fits_of_alone alone) taken
    exact reached_progress (first.trans later)

theorem batches_progress_two :
    (∀ group : WorkerGroup Nat, Transition.Reaches step Fits (start 2) group → group.Progress) ∧
    ∀ cbs : List Nat,
      (∀ group, Transition.Reaches step Alone ((start 2).schedule cbs) group → group.Progress) ↔
        cbs.length ≤ 2 :=
  batches_progress (by decide)

/-- A group of one and a vector of two: the call waits, nothing is out, and nothing goes on. -/
theorem batch_starves : ∃ group : WorkerGroup Nat,
    Transition.Reaches step Alone ((start 1).schedule [1, 2]) group ∧
    group.sem.waiters = [.schedule [1] 2 []] ∧ group.handed = [] ∧ group.notifying = 0 ∧
    ¬group.Progress ∧ ∀ action, group.Alone action → step group action = none := by
  have reached : Transition.Reaches step Alone ((start 1).schedule [1, 2])
      (starved 1 [1, 2] 2) := .next (.proceed 0) .start trivial (by decide)
  exact ⟨_, reached, rfl, rfl, rfl, starved_no_progress 2, starved_stuck 2⟩

end WorkerGroup
end ChatServer.Fiber
