import ChatServer.Lib.TaskPool
import ChatServer.Streams.BlockingQueue

/-!
# Groups of callbacks

`WorkerGroup` of `worker.cc` over the semaphore of `mutex.cc`. A call of `schedule` takes a permit
for each of its callbacks before it hands all of them to the scheduler, a callback gives its
permit back when it has returned, and `waitAll` takes as many permits as there are. So when
`waitAll` has them all, no callback is left that somebody could still wait for.
-/

namespace ChatServer.Fiber

open Streams

set_option autoImplicit false

/-- A call between two of its steps: what `schedule` has a permit for and what it still needs one
for, or the loop counter of `waitAll`. -/
inductive Call (Cb : Type) where
  | schedule (cs todo : List Cb)
  | waitAll (i : Nat)
  deriving DecidableEq

inductive Waiting (Cb : Type) where
  | schedule (cs : List Cb) (cb : Cb) (todo : List Cb)
  | waitAll (i : Nat)
  deriving DecidableEq

namespace Call

variable {Cb : Type}

def permits : Call Cb → Nat
  | .schedule cs _ => cs.length
  | .waitAll i => i

def cbs : Call Cb → List Cb
  | .schedule cs todo => cs ++ todo
  | .waitAll _ => []

/-- There are callbacks and no permit yet. -/
def Fresh (call : Call Cb) : Prop := call.permits = 0 ∧ call.cbs ≠ []

end Call

namespace Waiting

variable {Cb : Type}

def permits : Waiting Cb → Nat
  | .schedule cs _ _ => cs.length
  | .waitAll i => i

def cbs : Waiting Cb → List Cb
  | .schedule cs cb todo => cs ++ cb :: todo
  | .waitAll _ => []

def Fresh (waiting : Waiting Cb) : Prop := waiting.permits = 0 ∧ waiting.cbs ≠ []

def Collects : Waiting Cb → Prop
  | .schedule _ _ _ => False
  | .waitAll _ => True

def pass : Waiting Cb → Call Cb
  | .schedule cs cb todo => .schedule (cs ++ [cb]) todo
  | .waitAll i => .waitAll (i + 1)

variable {waiting : Waiting Cb}

@[simp] theorem pass_permits : waiting.pass.permits = waiting.permits + 1 := by
  cases waiting with
  | schedule cs cb todo => exact List.length_append
  | waitAll i => rfl

@[simp] theorem pass_cbs : waiting.pass.cbs = waiting.cbs := by
  cases waiting with
  | schedule cs cb todo => exact List.append_assoc cs [cb] todo
  | waitAll i => rfl

theorem pass_not_fresh : ¬waiting.pass.Fresh := by
  intro fresh
  have none := fresh.1
  rw [pass_permits] at none
  omega

end Waiting

/-- `running` holds the calls that can go on, `handed` the callbacks that the scheduler has and
that have not returned, `notifying` counts those that have, with their `notify` to come.
`scheduled` and `finished` are histories, and `returned` says that `waitAll` has. -/
structure WorkerGroup (Cb : Type) where
  batchSize : Nat
  finish : Bool
  sem : FiberSemaphore (Waiting Cb)
  running : List (Call Cb)
  handed : List Cb
  notifying : Nat
  scheduled : List Cb
  finished : List Cb
  returned : Bool
  deriving DecidableEq

/-- A call comes with its first critical section; before that it has touched nothing. -/
inductive WorkerAction (Cb : Type) where
  | schedule (cbs : List Cb)
  | waitAll
  | proceed (place : Nat)
  | doWork (place : Nat)
  | notify

namespace WorkerGroup

variable {Cb : Type}

def start (batchSize : Nat) : WorkerGroup Cb :=
  ⟨batchSize, false, ⟨batchSize, []⟩, [], [], 0, [], [], false⟩

/-- `m_sem.wait()`, and the call if it goes on. -/
def await (group : WorkerGroup Cb) (waiting : Waiting Cb) : WorkerGroup Cb × List (Call Cb) :=
  let (sem, passed) := group.sem.wait waiting
  ({ group with sem }, if passed then [waiting.pass] else [])

def proceed (group : WorkerGroup Cb) : Call Cb → WorkerGroup Cb × List (Call Cb)
  | .schedule cs [] => ({ group with handed := group.handed ++ cs }, [])
  | .schedule cs (cb :: todo) => group.await (.schedule cs cb todo)
  | .waitAll i =>
      if i < group.batchSize then group.await (.waitAll i)
      else ({ group with returned := true }, [])

def schedule (group : WorkerGroup Cb) (cbs : List Cb) : WorkerGroup Cb :=
  let group := { group with scheduled := group.scheduled ++ cbs }
  match cbs with
  | [] => { group with running := group.running ++ [.schedule [] []] }
  | cb :: todo =>
      let (after, more) := group.await (.schedule [] cb todo)
      { after with running := group.running ++ more }

def waitAll (group : WorkerGroup Cb) : WorkerGroup Cb :=
  if group.finish then { group with returned := true }
  else { group with finish := true, running := group.running ++ [.waitAll 0] }

/-- The end of `doWork`. A waiter that is scheduled has the permit. -/
def notify (group : WorkerGroup Cb) : WorkerGroup Cb :=
  let (sem, next) := group.sem.notify
  { group with
    sem
    notifying := group.notifying - 1
    running := group.running ++ next.toList.map Waiting.pass }

def step (group : WorkerGroup Cb) : WorkerAction Cb → Option (WorkerGroup Cb)
  | .schedule cbs => some (group.schedule cbs)
  | .waitAll => some group.waitAll
  | .proceed place => group.running[place]?.map fun call =>
      let (after, more) := group.proceed call
      { after with running := TaskPool.replace group.running place more }
  | .doWork place => group.handed[place]?.map fun cb =>
      { group with
        handed := TaskPool.replace group.handed place []
        notifying := group.notifying + 1
        finished := group.finished ++ [cb] }
  | .notify => if 0 < group.notifying then some group.notify else none

/-- One `waitAll`, and no `schedule` behind it. -/
def Last (group : WorkerGroup Cb) : WorkerAction Cb → Prop
  | .schedule _ | .waitAll => group.finish = false
  | _ => True

instance (group : WorkerGroup Cb) (action : WorkerAction Cb) : Decidable (group.Last action) :=
  match action with
  | .schedule _ | .waitAll => inferInstanceAs (Decidable (group.finish = false))
  | .proceed _ | .doWork _ | .notify => inferInstanceAs (Decidable True)

theorem proceed_batch_size (group : WorkerGroup Cb) (call : Call Cb) :
    (group.proceed call).1.batchSize = group.batchSize := by
  rcases call with ⟨cs, _ | ⟨cb, todo⟩⟩ | ⟨i⟩
  · rfl
  · rfl
  · rw [proceed]
    split <;> rfl

theorem schedule_batch_size (group : WorkerGroup Cb) (cbs : List Cb) :
    (group.schedule cbs).batchSize = group.batchSize := by
  cases cbs <;> rfl

theorem wait_all_batch_size (group : WorkerGroup Cb) :
    group.waitAll.batchSize = group.batchSize := by
  rw [waitAll]
  split <;> rfl

/-- No call is between its first permit and the critical section that takes it. -/
def Settled (calls : List (Call Cb)) : Prop := ∀ call ∈ calls, ¬call.Fresh

theorem start_settled {batchSize : Nat} : Settled (start batchSize : WorkerGroup Cb).running := by
  intro call member
  cases member

theorem await_settled {group : WorkerGroup Cb} {rest : List (Call Cb)} {waiting : Waiting Cb}
    (settled : Settled rest) :
    Settled (rest ++ (group.await waiting).2) := by
  intro call member
  rcases List.mem_append.mp member with kept | new
  · exact settled call kept
  · simp only [await] at new
    split at new
    · rw [List.mem_singleton.mp new]
      exact Waiting.pass_not_fresh
    · cases new

/-- A permit is with the semaphore, a call, a callback or a `notify` to come. -/
structure Sound [DecidableEq Cb] (group : WorkerGroup Cb) (calls : List (Call Cb)) : Prop where
  permits : group.sem.concurrency + TaskPool.total Waiting.permits group.sem.waiters +
    TaskPool.total Call.permits calls + group.handed.length + group.notifying +
    (if group.returned then group.batchSize else 0) = group.batchSize
  accounted : ∀ cb, group.scheduled.count cb = group.finished.count cb + group.handed.count cb +
    TaskPool.total (fun waiting => waiting.cbs.count cb) group.sem.waiters +
    TaskPool.total (fun call => call.cbs.count cb) calls
  idle : group.sem.Idle
  unissued : group.finish = false → group.returned = false ∧
    (∀ waiting ∈ group.sem.waiters, ¬waiting.Collects) ∧ ∀ i, .waitAll i ∉ calls
  queued : group.sem.waiters.Pairwise fun first second => first.Collects → ¬second.Fresh
  collecting : (group.returned = true ∨ ∃ i, .waitAll (i + 1) ∈ calls) →
    ∀ waiting ∈ group.sem.waiters, ¬waiting.Fresh

variable [DecidableEq Cb] {group : WorkerGroup Cb} {calls rest : List (Call Cb)} {call : Call Cb}
  {waiting : Waiting Cb}

theorem Sound.not_fresh (sound : group.Sound calls)
    (earlier : ∀ i, .waitAll (i + 1) ∈ rest → .waitAll (i + 1) ∈ calls) :
    (group.returned = true ∨ ∃ i, .waitAll (i + 1) ∈ rest) →
      ∀ waiting ∈ group.sem.waiters, ¬waiting.Fresh := by
  intro collecting
  apply sound.collecting
  rcases collecting with returned | ⟨i, inside⟩
  · exact Or.inl returned
  · exact Or.inr ⟨i, earlier i inside⟩

theorem Sound.perm (sound : group.Sound calls) (moved : calls.Perm rest) : group.Sound rest where
  permits := by
    rw [← TaskPool.total_perm _ moved]
    exact sound.permits
  accounted := by
    intro cb
    rw [← TaskPool.total_perm _ moved]
    exact sound.accounted cb
  idle := sound.idle
  unissued := by
    intro unset
    rcases sound.unissued unset with ⟨unreturned, waiters, running⟩
    exact ⟨unreturned, waiters, fun i member => running i (moved.mem_iff.mpr member)⟩
  queued := sound.queued
  collecting := sound.not_fresh fun _ member => moved.mem_iff.mpr member

theorem Sound.with_running (sound : group.Sound calls) (running : List (Call Cb)) :
    { group with running }.Sound calls :=
  ⟨sound.permits, sound.accounted, sound.idle, sound.unissued, sound.queued, sound.collecting⟩

theorem start_sound (batchSize : Nat) : (start batchSize : WorkerGroup Cb).Sound [] where
  permits := by simp [start]
  accounted := by simp [start]
  idle := fun waits => absurd rfl waits
  unissued := by simp [start]
  queued := List.Pairwise.nil
  collecting := by simp [start]

/-- Nobody waits in front of a call that gets a permit at once. -/
theorem permit_sound (sound : group.Sound (call :: rest)) (permits : call.permits = waiting.permits)
    (cbs : call.cbs = waiting.cbs) (collects : waiting.Collects → group.finish = true)
    (permit : 0 < group.sem.concurrency) :
    { group with sem := { group.sem with concurrency := group.sem.concurrency - 1 } }.Sound
      (rest ++ [waiting.pass]) := by
  have nobody : group.sem.waiters = [] := by
    by_contra waits
    have none := sound.idle waits
    omega
  constructor
  case permits =>
    have before := sound.permits
    simp only [TaskPool.total_cons, TaskPool.total_append, TaskPool.total_nil,
      Waiting.pass_permits] at before ⊢
    omega
  case accounted =>
    intro cb
    have before := sound.accounted cb
    simp only [TaskPool.total_cons, TaskPool.total_append, TaskPool.total_nil,
      Waiting.pass_cbs, cbs] at before ⊢
    omega
  case idle => exact fun waits => absurd nobody waits
  case unissued =>
    intro unset
    rcases sound.unissued unset with ⟨unreturned, waiters, running⟩
    refine ⟨unreturned, waiters, ?_⟩
    intro i member
    rcases List.mem_append.mp member with kept | new
    · exact running i (List.mem_cons_of_mem _ kept)
    · have same := List.mem_singleton.mp new
      cases waiting with
      | schedule cs cb todo => cases same
      | waitAll j =>
          have set := collects trivial
          rw [unset] at set
          cases set
  case queued =>
    rw [nobody]
    exact List.Pairwise.nil
  case collecting =>
    intro _ waiting member
    rw [nobody] at member
    cases member

theorem queue_sound (sound : group.Sound (call :: rest)) (permits : call.permits = waiting.permits)
    (cbs : call.cbs = waiting.cbs) (fresh : waiting.Fresh → group.finish = false)
    (collects : waiting.Collects → group.finish = true) (none : group.sem.concurrency = 0) :
    { group with sem := { group.sem with waiters := group.sem.waiters ++ [waiting] } }.Sound rest :=
    by
  constructor
  case permits =>
    have before := sound.permits
    simp only [TaskPool.total_cons, TaskPool.total_append, TaskPool.total_nil] at before ⊢
    omega
  case accounted =>
    intro cb
    have before := sound.accounted cb
    simp only [TaskPool.total_cons, TaskPool.total_append, TaskPool.total_nil, cbs] at before ⊢
    omega
  case idle => exact fun _ => none
  case unissued =>
    intro unset
    rcases sound.unissued unset with ⟨unreturned, waiters, running⟩
    refine ⟨unreturned, ?_, fun i member => running i (List.mem_cons_of_mem _ member)⟩
    intro other member
    rcases List.mem_append.mp member with kept | new
    · exact waiters other kept
    · rw [List.mem_singleton.mp new]
      intro collecting
      have set := collects collecting
      rw [unset] at set
      cases set
  case queued =>
    apply List.pairwise_append.mpr
    refine ⟨sound.queued, List.pairwise_singleton _ _, ?_⟩
    intro first earlier second last collecting
    rw [List.mem_singleton.mp last]
    intro isFresh
    exact (sound.unissued (fresh isFresh)).2.1 first earlier collecting
  case collecting =>
    intro collecting other member
    rcases List.mem_append.mp member with kept | new
    · exact sound.not_fresh (fun i => List.mem_cons_of_mem call) collecting other kept
    · rw [List.mem_singleton.mp new]
      intro isFresh
      rcases sound.unissued (fresh isFresh) with ⟨unreturned, waiters, running⟩
      rcases collecting with returned | ⟨i, inside⟩
      · have closed : group.returned = true := returned
        rw [unreturned] at closed
        cases closed
      · exact running (i + 1) (List.mem_cons_of_mem _ inside)

theorem await_sound (waiting : Waiting Cb) (sound : group.Sound (call :: rest))
    (permits : call.permits = waiting.permits)
    (cbs : call.cbs = waiting.cbs) (fresh : waiting.Fresh → group.finish = false)
    (collects : waiting.Collects → group.finish = true) :
    (group.await waiting).1.Sound (rest ++ (group.await waiting).2) := by
  rw [await, FiberSemaphore.wait]
  by_cases permit : 0 < group.sem.concurrency
  · rw [if_pos permit]
    exact permit_sound sound permits cbs collects permit
  · rw [if_neg permit]
    simp only [Bool.false_eq_true, if_false, List.append_nil]
    exact queue_sound sound permits cbs fresh collects (Nat.eq_zero_of_not_pos permit)

theorem handed_sound {cs : List Cb} (sound : group.Sound (.schedule cs [] :: rest)) :
    { group with handed := group.handed ++ cs }.Sound rest where
  permits := by
    have before := sound.permits
    simp only [TaskPool.total_cons, Call.permits, List.length_append] at before ⊢
    omega
  accounted := by
    intro cb
    have before := sound.accounted cb
    simp only [TaskPool.total_cons, Call.cbs, List.append_nil, List.count_append] at before ⊢
    omega
  idle := sound.idle
  unissued := by
    intro unset
    rcases sound.unissued unset with ⟨unreturned, waiters, running⟩
    exact ⟨unreturned, waiters, fun i member => running i (List.mem_cons_of_mem _ member)⟩
  queued := sound.queued
  collecting := sound.not_fresh fun _ => List.mem_cons_of_mem _

theorem collected_sound {i : Nat} (positive : 1 ≤ group.batchSize)
    (sound : group.Sound (.waitAll i :: rest)) (all : ¬i < group.batchSize) :
    { group with returned := true }.Sound rest := by
  have before := sound.permits
  simp only [TaskPool.total_cons, Call.permits] at before
  cases returned : group.returned with
  | true =>
      rw [returned, if_pos rfl] at before
      omega
  | false =>
      rw [returned] at before
      simp only [Bool.false_eq_true, if_false] at before
      constructor
      case permits =>
        simp only [if_true]
        omega
      case accounted =>
        intro cb
        have counted := sound.accounted cb
        simp only [TaskPool.total_cons, Call.cbs, List.count_nil, Nat.zero_add] at counted
        exact counted
      case idle => exact sound.idle
      case unissued =>
        intro unset
        exact absurd List.mem_cons_self ((sound.unissued unset).2.2 i)
      case queued => exact sound.queued
      case collecting =>
        intro _
        apply sound.collecting
        cases i with
        | zero => omega
        | succ i => exact Or.inr ⟨i, List.mem_cons_self⟩

theorem proceed_sound (positive : 1 ≤ group.batchSize) (sound : group.Sound (call :: rest))
    (settled : Settled (call :: rest)) :
    (group.proceed call).1.Sound (rest ++ (group.proceed call).2) ∧
      Settled (rest ++ (group.proceed call).2) := by
  have others : Settled rest := fun other member => settled other (List.mem_cons_of_mem _ member)
  cases call with
  | schedule cs todo =>
      cases todo with
      | nil =>
          rw [proceed, List.append_nil]
          exact ⟨handed_sound sound, others⟩
      | cons cb todo =>
          rw [proceed]
          refine ⟨await_sound _ sound rfl rfl ?_ fun collects => collects.elim,
            await_settled others⟩
          intro fresh
          exact absurd fresh (settled _ List.mem_cons_self)
  | waitAll i =>
      rw [proceed]
      split
      · refine ⟨await_sound _ sound rfl rfl ?_ ?_, await_settled others⟩
        · intro fresh
          exact absurd rfl fresh.2
        · intro _
          by_contra unset
          exact (sound.unissued (Bool.eq_false_iff.mpr unset)).2.2 i List.mem_cons_self
      · rw [List.append_nil]
        exact ⟨collected_sound positive sound ‹_›, others⟩

theorem schedule_sound (sound : group.Sound group.running) (settled : Settled group.running)
    (cbs : List Cb) (unset : group.finish = false) :
    (group.schedule cbs).Sound (group.schedule cbs).running ∧
      Settled (group.schedule cbs).running := by
  have begun : { group with scheduled := group.scheduled ++ cbs }.Sound
      (.schedule [] cbs :: group.running) := by
    constructor
    case permits =>
      have before := sound.permits
      simp only [TaskPool.total_cons, Call.permits, List.length_nil] at before ⊢
      omega
    case accounted =>
      intro cb
      have before := sound.accounted cb
      simp only [TaskPool.total_cons, Call.cbs, List.nil_append, List.count_append] at before ⊢
      omega
    case idle => exact sound.idle
    case unissued =>
      intro unset
      rcases sound.unissued unset with ⟨unreturned, waiters, running⟩
      refine ⟨unreturned, waiters, ?_⟩
      intro i member
      rcases List.mem_cons.mp member with same | kept
      · cases same
      · exact running i kept
    case queued => exact sound.queued
    case collecting =>
      apply sound.not_fresh
      intro i inside
      rcases List.mem_cons.mp inside with same | kept
      · cases same
      · exact kept
  cases cbs with
  | nil =>
      refine ⟨(begun.perm (List.perm_append_singleton _ _).symm).with_running _, ?_⟩
      intro call member
      rcases List.mem_append.mp member with kept | new
      · exact settled call kept
      · rw [List.mem_singleton.mp new]
        intro fresh
        exact fresh.2 rfl
  | cons cb todo =>
      have awaited := await_sound (.schedule [] cb todo) begun rfl rfl
        (fun _ => unset) (fun collects => collects.elim)
      exact ⟨awaited.with_running _, await_settled settled⟩

theorem wait_all_sound (sound : group.Sound group.running) (settled : Settled group.running)
    (unset : group.finish = false) :
    group.waitAll.Sound group.waitAll.running ∧ Settled group.waitAll.running := by
  rw [waitAll, if_neg (Bool.eq_false_iff.mp unset)]
  refine ⟨?_, ?_⟩
  · constructor
    case permits =>
      have before := sound.permits
      simp only [TaskPool.total_append, TaskPool.total_cons, TaskPool.total_nil, Call.permits]
      exact before
    case accounted =>
      intro cb
      have before := sound.accounted cb
      simp only [TaskPool.total_append, TaskPool.total_cons, TaskPool.total_nil, Call.cbs,
        List.count_nil]
      exact before
    case idle => exact sound.idle
    case unissued =>
      intro unset
      cases unset
    case queued => exact sound.queued
    case collecting =>
      apply sound.not_fresh
      intro i inside
      rcases List.mem_append.mp inside with kept | new
      · exact kept
      · cases List.mem_singleton.mp new
  · intro call member
    rcases List.mem_append.mp member with kept | new
    · exact settled call kept
    · rw [List.mem_singleton.mp new]
      intro fresh
      exact fresh.2 rfl

theorem do_work_sound (sound : group.Sound calls) {place : Nat} {cb : Cb}
    (found : group.handed[place]? = some cb) :
    { group with
      handed := TaskPool.replace group.handed place []
      notifying := group.notifying + 1
      finished := group.finished ++ [cb] }.Sound calls where
  permits := by
    have before := sound.permits
    have fewer := (TaskPool.replace_perm found []).length_eq
    simp only [List.length_cons, List.append_nil] at fewer ⊢
    omega
  accounted := by
    intro other
    have before := sound.accounted other
    have moved := (TaskPool.replace_perm found []).count_eq other
    simp only [List.count_cons, List.append_nil, List.count_append, List.count_nil] at moved ⊢
    omega
  idle := sound.idle
  unissued := sound.unissued
  queued := sound.queued
  collecting := sound.collecting

theorem notify_sound (sound : group.Sound group.running) (positive : 0 < group.notifying) :
    group.notify.Sound group.notify.running := by
  have before := sound.permits
  cases waiters : group.sem.waiters with
  | nil =>
      rw [waiters] at before
      simp only [notify, FiberSemaphore.notify, waiters, Option.toList_none, List.map_nil,
        List.append_nil]
      exact
        { permits := by
            simp only
            omega
          accounted := by
            have counted := sound.accounted
            rw [waiters] at counted
            exact counted
          idle := fun waits => absurd rfl waits
          unissued := by
            have unissued := sound.unissued
            rw [waiters] at unissued
            exact unissued
          queued := List.Pairwise.nil
          collecting := by simp }
  | cons next others =>
      have queued := sound.queued
      have unissued := sound.unissued
      have collecting := sound.collecting
      rw [waiters] at before queued unissued collecting
      rcases List.pairwise_cons.mp queued with ⟨behind, queued⟩
      simp only [notify, FiberSemaphore.notify, waiters, Option.toList_some, List.map_cons,
        List.map_nil]
      constructor
      case permits =>
        simp only [TaskPool.total_cons, TaskPool.total_append, TaskPool.total_nil,
          Waiting.pass_permits] at before ⊢
        omega
      case accounted =>
        intro cb
        have counted := sound.accounted cb
        rw [waiters] at counted
        simp only [TaskPool.total_cons, TaskPool.total_append, TaskPool.total_nil,
          Waiting.pass_cbs] at counted ⊢
        omega
      case idle =>
        have idle := sound.idle
        intro _
        exact idle (by simp [waiters])
      case unissued =>
        intro unset
        rcases unissued unset with ⟨unreturned, waiting, running⟩
        refine ⟨unreturned, fun other member => waiting other (List.mem_cons_of_mem _ member), ?_⟩
        intro i member
        rcases List.mem_append.mp member with kept | new
        · exact running i kept
        · cases next with
          | schedule cs cb todo => cases List.mem_singleton.mp new
          | waitAll j => exact waiting _ List.mem_cons_self trivial
      case queued => exact queued
      case collecting =>
        intro collects other member
        rcases collects with returned | ⟨i, inside⟩
        · exact collecting (Or.inl returned) other (List.mem_cons_of_mem _ member)
        · rcases List.mem_append.mp inside with kept | new
          · exact collecting (Or.inr ⟨i, kept⟩) other (List.mem_cons_of_mem _ member)
          · cases next with
            | schedule cs cb todo => cases List.mem_singleton.mp new
            | waitAll j => exact behind other member trivial

variable {batchSize : Nat}

/-- What every group keeps whose size is at least 1. -/
structure Kept (batchSize : Nat) (group : WorkerGroup Cb) : Prop where
  size : group.batchSize = batchSize
  sound : group.Sound group.running
  settled : Settled group.running

theorem step_kept {action : WorkerAction Cb} {after : WorkerGroup Cb} (positive : 1 ≤ batchSize)
    (kept : group.Kept batchSize) (last : group.Last action)
    (taken : group.step action = some after) : after.Kept batchSize := by
  rcases kept with ⟨size, sound, settled⟩
  cases action with
  | schedule cbs =>
      cases taken
      rcases schedule_sound sound settled cbs last with ⟨sound, settled⟩
      exact ⟨(schedule_batch_size group cbs).trans size, sound, settled⟩
  | waitAll =>
      cases taken
      rcases wait_all_sound sound settled last with ⟨sound, settled⟩
      exact ⟨(wait_all_batch_size group).trans size, sound, settled⟩
  | proceed place =>
      rcases Option.map_eq_some_iff.mp taken with ⟨call, found, same⟩
      have moved := (TaskPool.taken_perm found).symm
      have calls : Settled (call :: group.running.eraseIdx place) := by
        intro other member
        exact settled other (moved.mem_iff.mpr member)
      rw [← size] at positive
      rcases proceed_sound positive (sound.perm moved) calls with ⟨sound, settled⟩
      rw [← same]
      exact ⟨(proceed_batch_size group call).trans size, sound.with_running _, settled⟩
  | doWork place =>
      rcases Option.map_eq_some_iff.mp taken with ⟨cb, found, same⟩
      rw [← same]
      exact ⟨size, do_work_sound sound found, settled⟩
  | notify =>
      rw [step] at taken
      split at taken
      · cases taken
        refine ⟨size, notify_sound sound ‹_›, ?_⟩
        intro call member
        rcases List.mem_append.mp member with kept | new
        · exact settled call kept
        · rcases List.mem_map.mp new with ⟨waiting, _, same⟩
          rw [← same]
          exact Waiting.pass_not_fresh
      · cases taken

theorem reached_kept (positive : 1 ≤ batchSize)
    (reached : Transition.Reaches step Last (start batchSize) group) : group.Kept batchSize := by
  apply Transition.invariant_of_reaches ⟨rfl, start_sound batchSize, start_settled⟩ _ reached
  intro state action after kept last taken
  exact step_kept positive kept last taken

/-- A list of calls that hold no permits and are not fresh holds no callbacks. -/
theorem no_callbacks {Task : Type} {permits : Task → Nat} {cbs : Task → List Cb}
    {tasks : List Task} (none : TaskPool.total permits tasks = 0)
    (settled : ∀ task ∈ tasks, ¬(permits task = 0 ∧ cbs task ≠ [])) (cb : Cb) :
    TaskPool.total (fun task => (cbs task).count cb) tasks = 0 := by
  apply TaskPool.total_eq_zero
  intro task member
  have held := TaskPool.weight_le_total permits member
  have empty : cbs task = [] := by
    by_contra filled
    exact settled task member ⟨by omega, filled⟩
  rw [empty, List.count_nil]

/-- With all permits in the hands of `waitAll`, nothing is left to finish. -/
theorem returned_finished (sound : group.Sound group.running) (settled : Settled group.running)
    (returned : group.returned = true) : group.scheduled.Perm group.finished := by
  have permits := sound.permits
  rw [returned, if_pos rfl] at permits
  have waiters : TaskPool.total Waiting.permits group.sem.waiters = 0 := by omega
  have running : TaskPool.total Call.permits group.running = 0 := by omega
  have handed : group.handed = [] := List.eq_nil_of_length_eq_zero (by omega)
  apply List.perm_iff_count.mpr
  intro cb
  have counted := sound.accounted cb
  rw [handed, no_callbacks waiters (sound.collecting (Or.inl returned)) cb,
    no_callbacks running settled cb, List.count_nil] at counted
  omega

omit [DecidableEq Cb] in
/-- No more callbacks are out than the group admits, and `waitAll` returns behind all of them. -/
theorem barrier_holds (positive : 1 ≤ batchSize)
    (reached : Transition.Reaches step Last (start batchSize) group) :
    group.handed.length ≤ batchSize ∧
      (group.returned = true → group.scheduled.Perm group.finished) := by
  classical
  have kept := reached_kept positive reached
  have permits := kept.sound.permits
  rw [kept.size] at permits
  exact ⟨by omega, returned_finished kept.sound kept.settled⟩

/-- Three callbacks, two of them scheduled by one call that waits for its second permit while
`waitAll` begins. -/
theorem barrier_holds_three : ∃ group : WorkerGroup Nat,
    (Transition.Reaches step Last (start 2) group ∧ group.returned = true ∧
      group.finished = [1, 2, 3]) ∧
    group.handed.length ≤ 2 ∧ (group.returned = true → group.scheduled.Perm group.finished) := by
  have reached : ∃ group : WorkerGroup Nat, Transition.Reaches step Last (start 2) group ∧
      group.returned = true ∧ group.finished = [1, 2, 3] := by
    apply Transition.exists_of_run [.schedule [1], .proceed 0, .schedule [2, 3], .waitAll,
      .proceed 0, .doWork 0, .notify, .proceed 1, .proceed 0, .doWork 0, .notify, .doWork 0,
      .notify, .proceed 0, .proceed 0]
    decide +kernel
  rcases reached with ⟨group, reached, done⟩
  exact ⟨group, ⟨reached, done⟩, barrier_holds (by decide) reached⟩

end WorkerGroup
end ChatServer.Fiber
