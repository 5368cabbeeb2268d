import ChatServer.Fiber.DynaThreadPool
import Mathlib.Data.List.Nodup

/-!
# Whose the threads of a pool are

Every thread of a pool is free, held by one shared pointer, or on its way back to the free ones.
The copies of a pointer are counted where they are: in the calls of `check`, and in what the
threads were given and have not destroyed.
-/

namespace ChatServer.Fiber

set_option autoImplicit false

variable {Cb : Type}

namespace CheckStage

/-- Whether a callback is on its way with the pointer. -/
def carries (thr : Nat) : CheckStage Cb → Nat
  | .taken _ other | .giving _ other | .returning _ other => if other = thr then 1 else 0
  | _ => 0

/-- Whether the call is going to let go of the pointer. -/
def lets (thr : Nat) : CheckStage Cb → Nat
  | .sent other => if other = thr then 1 else 0
  | _ => 0

def releases (thread : Nat) : CheckStage Cb → Nat
  | .releasing other => if other = thread then 1 else 0
  | _ => 0

end CheckStage

/-- Whether a copy of the pointer holds the thread. -/
def ThreadPtr.holds (thread : Nat) (pointer : ThreadPtr) : Nat :=
  if pointer.thread = thread ∧ 0 < pointer.uses then 1 else 0

namespace DynaThreadPool

def uses (pool : DynaThreadPool Cb) (thr : Nat) : Nat :=
  (pool.pointers[thr]?.map ThreadPtr.uses).getD 0

def carried (pool : DynaThreadPool Cb) (thr : Nat) : Nat :=
  TaskPool.total (fun call => call.stage.carries thr) pool.checks

def parting (pool : DynaThreadPool Cb) (thr : Nat) : Nat :=
  TaskPool.total (fun call => call.stage.lets thr) pool.checks

def bound (pool : DynaThreadPool Cb) (thr : Nat) : Nat :=
  TaskPool.total (fun thread => thread.bound thr) pool.threads

def live (pool : DynaThreadPool Cb) (thread : Nat) : Nat :=
  TaskPool.total (ThreadPtr.holds thread) pool.pointers

def released (pool : DynaThreadPool Cb) (thread : Nat) : Nat :=
  TaskPool.total (fun call => call.stage.releases thread) pool.checks

/-- Every thread is free, held by one shared pointer, or about to be free; and the copies of a
pointer are those in calls of `check` and in what threads were given, at most one of each. -/
structure Shared (size : Nat) (pool : DynaThreadPool Cb) : Prop where
  counted : ∀ thr, pool.uses thr = pool.carried thr + pool.parting thr + pool.bound thr
  one : ∀ thr, pool.carried thr + pool.parting thr ≤ 1 ∧ pool.carried thr + pool.bound thr ≤ 1
  owned : ∀ thread, pool.freeDynaThreads.count thread + pool.live thread + pool.released thread =
    if thread < size then 1 else 0

/-- What a thread was given is bound to pointers of its own. -/
structure Placed (size : Nat) (pool : DynaThreadPool Cb) : Prop where
  length : pool.threads.length = size
  sound : ∀ thread ∈ pool.threads, thread.Sound
  own : ∀ (place : Nat) (thread : PoolThread Cb) (thr : Nat), pool.threads[place]? = some thread →
    0 < thread.bound thr → ∃ pointer, pool.pointers[thr]? = some pointer ∧ pointer.thread = place

variable {pool after : DynaThreadPool Cb} {size place thr : Nat} {call : PoolCheck Cb}

theorem started_shared (size : Nat) : (started size : DynaThreadPool Cb).Shared size := by
  have unbound (thr : Nat) : (started size : DynaThreadPool Cb).bound thr = 0 := by
    apply TaskPool.total_eq_zero
    intro thread member
    rw [(List.mem_replicate.mp member).2]
    rfl
  refine ⟨?_, ?_, ?_⟩
  · intro thr
    rw [unbound]
    rfl
  · intro thr
    rw [unbound]
    exact ⟨Nat.zero_le 1, Nat.zero_le 1⟩
  · intro thread
    have free : (started size : DynaThreadPool Cb).freeDynaThreads.count thread =
        if thread < size then 1 else 0 := List.count_range
    rw [free]
    rfl

theorem started_placed (size : Nat) : (started size : DynaThreadPool Cb).Placed size := by
  have fresh : ∀ thread ∈ (started size : DynaThreadPool Cb).threads,
      thread = PoolThread.started := fun thread member => (List.mem_replicate.mp member).2
  refine ⟨List.length_replicate, ?_, ?_⟩
  · intro thread member
    rw [fresh thread member]
    exact PoolThread.started_sound
  · intro place thread thr found held
    rw [fresh thread (List.mem_of_getElem? found)] at held
    cases held

theorem total_goto (weight : PoolCheck Cb → Nat) (found : pool.checks[place]? = some call)
    (more : List (PoolCheck Cb)) :
    weight call + TaskPool.total weight (pool.goto place more).checks =
      TaskPool.total weight pool.checks + TaskPool.total weight more :=
  TaskPool.total_replace weight found more

theorem total_leave (measure : CheckStage Cb → Nat) (quiet : measure .looking = 0)
    (call : PoolCheck Cb) :
    TaskPool.total (fun call => measure call.stage) (PoolCheck.leave call) = 0 := by
  rw [PoolCheck.leave]
  split
  · rfl
  · rw [TaskPool.total_cons, TaskPool.total_nil, quiet]

/-- A call goes on with what it carried, and with what is free. -/
theorem shared_goto (shared : pool.Shared size) (found : pool.checks[place]? = some call)
    (more : List (PoolCheck Cb)) (free : List Nat) (callbacks : List Cb)
    (carries : ∀ thr, TaskPool.total (fun call => call.stage.carries thr) more ≤
      call.stage.carries thr)
    (balanced : ∀ thr, TaskPool.total (fun call => call.stage.carries thr) more +
      TaskPool.total (fun call => call.stage.lets thr) more =
        call.stage.carries thr + call.stage.lets thr)
    (freed : ∀ thread, free.count thread +
      TaskPool.total (fun call => call.stage.releases thread) more =
        pool.freeDynaThreads.count thread + call.stage.releases thread) :
    { pool.goto place more with freeDynaThreads := free, callbacks }.Shared size := by
  have first := fun thr => total_goto (fun call => call.stage.carries thr) found more
  have second := fun thr => total_goto (fun call => call.stage.lets thr) found more
  have third := fun thread => total_goto (fun call => call.stage.releases thread) found more
  refine ⟨?_, ?_, ?_⟩
  · intro thr
    have counted := shared.counted thr
    have same := balanced thr
    specialize first thr
    specialize second thr
    unfold carried parting at counted
    change pool.uses thr = TaskPool.total _ (pool.goto place more).checks +
      TaskPool.total _ (pool.goto place more).checks + pool.bound thr
    omega
  · intro thr
    have one := shared.one thr
    have same := balanced thr
    have less := carries thr
    specialize first thr
    specialize second thr
    unfold carried parting at one
    change TaskPool.total _ (pool.goto place more).checks +
      TaskPool.total _ (pool.goto place more).checks ≤ 1 ∧
        TaskPool.total _ (pool.goto place more).checks + pool.bound thr ≤ 1
    omega
  · intro thread
    have owned := shared.owned thread
    have same := freed thread
    specialize third thread
    unfold released at owned
    change free.count thread + pool.live thread + TaskPool.total _ (pool.goto place more).checks = _
    omega

theorem shared_quiet (shared : pool.Shared size) (found : pool.checks[place]? = some call)
    (more : List (PoolCheck Cb))
    (same : ∀ measure : CheckStage Cb → Nat, measure .looking = 0 → measure .locking = 0 →
      measure call.stage = 0 ∧ TaskPool.total (fun call => measure call.stage) more = 0) :
    (pool.goto place more).Shared size := by
  apply shared_goto shared found more pool.freeDynaThreads pool.callbacks
  · intro thr
    rw [(same (CheckStage.carries thr) rfl rfl).2]
    exact Nat.zero_le _
  · intro thr
    obtain ⟨first, second⟩ := same (CheckStage.carries thr) rfl rfl
    obtain ⟨third, fourth⟩ := same (CheckStage.lets thr) rfl rfl
    rw [first, second, third, fourth]
  · intro thread
    obtain ⟨first, second⟩ := same (CheckStage.releases thread) rfl rfl
    rw [first, second]

theorem shared_leave (shared : pool.Shared size) (found : pool.checks[place]? = some call)
    (stage : call.stage = .looking ∨ call.stage = .locking) :
    (pool.goto place (PoolCheck.leave call)).Shared size := by
  apply shared_quiet shared found
  intro measure looking locking
  refine ⟨?_, total_leave measure looking call⟩
  rcases stage with same | same
  · rw [same, looking]
  · rw [same, locking]

theorem shared_push (shared : pool.Shared size) (cbs : List Cb) : (pool.push cbs).Shared size := by
  have same (measure : CheckStage Cb → Nat) (quiet : measure .looking = 0) :
      TaskPool.total (fun call => measure call.stage) (pool.push cbs).checks =
        TaskPool.total (fun call => measure call.stage) pool.checks := by
    rw [push, TaskPool.total_append, TaskPool.total_cons, TaskPool.total_nil, quiet]
    rfl
  refine ⟨?_, ?_, ?_⟩
  · intro thr
    rw [carried, parting, same _ rfl, same _ rfl]
    exact shared.counted thr
  · intro thr
    rw [carried, parting, same _ rfl, same _ rfl]
    exact shared.one thr
  · intro thread
    rw [released, same _ rfl]
    exact shared.owned thread

theorem total_next (measure : CheckStage Cb → Nat) (found : pool.checks[place]? = some call)
    (next : PoolCheck Cb) :
    measure call.stage + TaskPool.total (fun call => measure call.stage)
      (pool.goto place [next]).checks =
        TaskPool.total (fun call => measure call.stage) pool.checks + measure next.stage := by
  have moved := total_goto (fun call => measure call.stage) found [next]
  rwa [TaskPool.total_cons, TaskPool.total_nil, Nat.add_zero] at moved

theorem next_counts (found : pool.checks[place]? = some call) (next : PoolCheck Cb)
    (checks : after.checks = (pool.goto place [next]).checks) :
    (∀ thr, call.stage.carries thr + after.carried thr =
      pool.carried thr + next.stage.carries thr) ∧
    (∀ thr, call.stage.lets thr + after.parting thr = pool.parting thr + next.stage.lets thr) ∧
    ∀ thread, call.stage.releases thread + after.released thread =
      pool.released thread + next.stage.releases thread := by
  unfold carried parting released
  rw [checks]
  exact ⟨fun thr => total_next (CheckStage.carries thr) found next,
    fun thr => total_next (CheckStage.lets thr) found next,
    fun thread => total_next (CheckStage.releases thread) found next⟩

theorem uses_append (pointers : List ThreadPtr) (pointer : ThreadPtr) (thr : Nat) :
    (((pointers ++ [pointer])[thr]?).map ThreadPtr.uses).getD 0 =
      if pointers.length = thr then pointer.uses
      else ((pointers[thr]?).map ThreadPtr.uses).getD 0 := by
  by_cases new : pointers.length = thr
  · rw [if_pos new, ← new, List.getElem?_concat_length]
    rfl
  · rw [if_neg new]
    by_cases inside : thr < pointers.length
    · rw [List.getElem?_append_left inside]
    · rw [List.getElem?_eq_none (by rw [List.length_append, List.length_singleton]; omega),
        List.getElem?_eq_none (by omega)]

theorem uses_beyond {thr : Nat} (beyond : pool.pointers.length ≤ thr) : pool.uses thr = 0 := by
  rw [uses, List.getElem?_eq_none beyond]
  rfl

theorem uses_found {pointer : ThreadPtr} (found : pool.pointers[thr]? = some pointer) :
    pool.uses thr = pointer.uses := by
  rw [uses, found]
  rfl

theorem pointer_of_uses (used : 0 < pool.uses thr) :
    ∃ pointer, pool.pointers[thr]? = some pointer := by
  cases found : pool.pointers[thr]? with
  | none =>
      rw [uses, found] at used
      exact absurd used (Nat.lt_irrefl 0)
  | some pointer => exact ⟨pointer, rfl⟩

theorem uses_recount {pointer : ThreadPtr} (found : pool.pointers[thr]? = some pointer)
    (change : Nat → Nat) (other : Nat) :
    (pool.recount thr change).uses other =
      if thr = other then change (pool.uses other) else pool.uses other := by
  unfold uses recount
  dsimp only
  by_cases here : thr = other
  · rw [← here, List.getElem?_modify_eq, found, if_pos rfl]
    rfl
  · rw [List.getElem?_modify_ne _ _ here, if_neg here]

theorem live_recount {pointer : ThreadPtr} (found : pool.pointers[thr]? = some pointer)
    (change : Nat → Nat) (thread : Nat) :
    (pool.recount thr change).live thread + pointer.holds thread =
      pool.live thread + ThreadPtr.holds thread { pointer with uses := change pointer.uses } :=
  TaskPool.total_modify (ThreadPtr.holds thread) _ found

theorem shared_take {thread : Nat} {free : List Nat} {cb : Cb} {callbacks : List Cb}
    (shared : pool.Shared size) (found : pool.checks[place]? = some call)
    (stage : call.stage = .locking) (first : pool.freeDynaThreads = thread :: free) :
    (pool.takeOut place call thread free cb callbacks).Shared size := by
  have new := uses_beyond (Nat.le_refl pool.pointers.length)
  have used (thr : Nat) : (pool.takeOut place call thread free cb callbacks).uses thr =
      if pool.pointers.length = thr then 1 else pool.uses thr :=
    uses_append pool.pointers ⟨thread, 1⟩ thr
  obtain ⟨carries, lets, releases⟩ :=
    @next_counts _ _ (pool.takeOut place call thread free cb callbacks) _ _ found _ rfl
  have held (thr : Nat) : (pool.takeOut place call thread free cb callbacks).bound thr =
      pool.bound thr := rfl
  have alive (other : Nat) : (pool.takeOut place call thread free cb callbacks).live other =
      pool.live other + ThreadPtr.holds other ⟨thread, 1⟩ := by
    unfold live takeOut
    dsimp only
    rw [TaskPool.total_append, TaskPool.total_cons, TaskPool.total_nil, Nat.add_zero]
  simp only [stage, CheckStage.carries, CheckStage.lets, CheckStage.releases, Nat.zero_add,
    Nat.add_zero] at carries lets releases
  refine ⟨?_, ?_, ?_⟩
  · intro thr
    have counted := shared.counted thr
    rw [used, carries, lets, held]
    split_ifs with here
    · rw [here] at new
      omega
    · omega
  · intro thr
    have counted := shared.counted thr
    have one := shared.one thr
    rw [carries, lets, held]
    split_ifs with here
    · rw [here] at new
      omega
    · omega
  · intro other
    have owned := shared.owned other
    rw [first, List.count_cons] at owned
    rw [alive, releases, ← owned, ThreadPtr.holds]
    simp only [beq_iff_eq, Nat.zero_lt_one, and_true, takeOut]
    omega

theorem thread_of_pointer (shared : pool.Shared size) (placed : pool.Placed size)
    {pointer : ThreadPtr} (found : pool.pointers[thr]? = some pointer) (used : 0 < pointer.uses) :
    ∃ thread, pool.threads[pointer.thread]? = some thread := by
  have owned := shared.owned pointer.thread
  have holds : pointer.holds pointer.thread = 1 := if_pos ⟨rfl, used⟩
  have alive := TaskPool.weight_le_total (ThreadPtr.holds pointer.thread)
    (List.mem_of_getElem? found)
  have inside : pointer.thread < pool.threads.length := by
    rw [placed.length]
    by_contra beyond
    rw [if_neg beyond, live] at owned
    omega
  exact ⟨_, List.getElem?_eq_getElem inside⟩

theorem shared_give {cb : Cb} {pointer : ThreadPtr} (shared : pool.Shared size)
    (placed : pool.Placed size) (found : pool.checks[place]? = some call)
    (stage : call.stage = .giving cb thr) (known : pool.pointers[thr]? = some pointer) :
    ((pool.goto place [{ call with stage := .sent thr }]).give cb thr pointer.thread).Shared
      size := by
  obtain ⟨carries, lets, releases⟩ := @next_counts _ _
    ((pool.goto place [{ call with stage := .sent thr }]).give cb thr pointer.thread) _ _ found _ rfl
  have used := uses_recount known fun uses => uses + 1
  have alive := live_recount known fun uses => uses + 1
  have mine : 0 < pool.carried thr := by
    have before := carries thr
    simp only [stage, CheckStage.carries, if_true] at before
    omega
  have counted := shared.counted thr
  have usesMine := uses_found known
  obtain ⟨thread, held⟩ := thread_of_pointer shared placed known (by omega)
  have bounds (other : Nat) :
      ((pool.goto place [{ call with stage := .sent thr }]).give cb thr pointer.thread).bound
        other + thread.bound other = pool.bound other + (thread.wrap cb thr).bound other :=
    TaskPool.total_modify (fun thread => thread.bound other) _ held
  simp only [stage, CheckStage.carries, CheckStage.lets, CheckStage.releases, Nat.zero_add,
    Nat.add_zero, PoolThread.wrap_bound] at carries lets releases bounds
  refine ⟨?_, ?_, ?_⟩
  · intro other
    have before := shared.counted other
    have first := carries other
    have second := lets other
    have third := bounds other
    have fourth := used other
    change (pool.recount thr fun uses => uses + 1).uses other = _
    split_ifs at * <;> omega
  · intro other
    have before := shared.one other
    have first := carries other
    have second := lets other
    have third := bounds other
    split_ifs at * <;> omega
  · intro other
    have owned := shared.owned other
    have moved := alive other
    have same : ThreadPtr.holds other { pointer with uses := pointer.uses + 1 } =
        pointer.holds other := by
      unfold ThreadPtr.holds
      have both : (pointer.thread = other ∧ 0 < pointer.uses + 1) ↔
          (pointer.thread = other ∧ 0 < pointer.uses) := by omega
      rw [if_congr both rfl rfl]
    change pool.freeDynaThreads.count other + (pool.recount thr fun uses => uses + 1).live other + _
      = _
    rw [releases other, ← owned]
    omega

theorem last_use {pointer : ThreadPtr} (found : pool.pointers[thr]? = some pointer) :
    pool.lastUse thr = if pointer.uses = 1 then some pointer.thread else none := by
  rw [lastUse, found]
  rfl

theorem live_drop (used : 0 < pool.uses thr) (thread : Nat) :
    (pool.drop thr).live thread + (if pool.lastUse thr = some thread then 1 else 0) =
      pool.live thread := by
  obtain ⟨pointer, found⟩ := pointer_of_uses used
  rw [uses_found found] at used
  have moved := live_recount found (fun uses => uses - 1) thread
  rw [last_use found]
  change (pool.recount thr fun uses => uses - 1).live thread + _ = _
  unfold ThreadPtr.holds at moved
  dsimp only at moved
  by_cases last : pointer.uses = 1
  · rw [if_pos last]
    simp only [Option.some.injEq]
    split_ifs at * <;> omega
  · rw [if_neg last]
    simp only [reduceCtorEq, if_false]
    split_ifs at * <;> omega

theorem uses_drop (used : 0 < pool.uses thr) (other : Nat) :
    (pool.drop thr).uses other + (if thr = other then 1 else 0) = pool.uses other := by
  obtain ⟨pointer, found⟩ := pointer_of_uses used
  have moved := uses_recount found (fun uses => uses - 1) other
  change (pool.recount thr fun uses => uses - 1).uses other + _ = _
  rw [moved]
  by_cases here : thr = other
  · rw [if_pos here, if_pos here, ← here]
    omega
  · rw [if_neg here, if_neg here, Nat.add_zero]

/-- The pool without one copy of a pointer, and with its thread about to be free if that was the
last one. -/
theorem shared_drop (shared : pool.Shared size) (used : 0 < pool.uses thr)
    (pointers : after.pointers = (pool.drop thr).pointers)
    (free : after.freeDynaThreads = pool.freeDynaThreads)
    (carries : ∀ other, after.carried other ≤ pool.carried other)
    (fewer : ∀ other, after.parting other ≤ pool.parting other ∧
      after.bound other ≤ pool.bound other ∧
      after.carried other + after.parting other + after.bound other +
        (if thr = other then 1 else 0) =
          pool.carried other + pool.parting other + pool.bound other)
    (releases : ∀ thread, after.released thread =
      pool.released thread + if pool.lastUse thr = some thread then 1 else 0) :
    after.Shared size := by
  refine ⟨?_, ?_, ?_⟩
  · intro other
    have before := shared.counted other
    have less := uses_drop used other
    have rest := (fewer other).2.2
    rw [show after.uses other = (pool.drop thr).uses other by rw [uses, uses, pointers]]
    omega
  · intro other
    have before := shared.one other
    have first := carries other
    have second := fewer other
    omega
  · intro other
    have owned := shared.owned other
    have alive := live_drop used other
    rw [free, releases, show after.live other = (pool.drop thr).live other by
      rw [live, live, pointers]]
    omega

theorem shared_let_go (shared : pool.Shared size) (found : pool.checks[place]? = some call)
    (stage : call.stage = .sent thr) : (pool.check place call).Shared size := by
  have mine : 0 < pool.parting thr := by
    have one : call.stage.lets thr ≤ pool.parting thr :=
      TaskPool.weight_le_total (fun call : PoolCheck Cb => call.stage.lets thr)
        (List.mem_of_getElem? found)
    rw [stage, CheckStage.lets, if_pos rfl] at one
    exact one
  have used : 0 < pool.uses thr := by
    have counted := shared.counted thr
    omega
  obtain ⟨next, goes, quiet, frees⟩ : ∃ next : PoolCheck Cb,
      pool.check place call = (pool.goto place [next]).drop thr ∧
        (∀ other, next.stage.carries other = 0 ∧ next.stage.lets other = 0) ∧
          ∀ thread, next.stage.releases thread =
            if pool.lastUse thr = some thread then 1 else 0 := by
    unfold check
    dsimp only
    rw [stage]
    dsimp only
    cases last : pool.lastUse thr with
    | some thread =>
        refine ⟨_, rfl, fun other => ⟨rfl, rfl⟩, ?_⟩
        intro other
        rw [CheckStage.releases]
        simp only [Option.some.injEq]
    | none => exact ⟨_, rfl, fun other => ⟨rfl, rfl⟩, fun other => rfl⟩
  rw [goes]
  obtain ⟨carries, lets, releases⟩ :=
    @next_counts _ _ ((pool.goto place [next]).drop thr) _ _ found _ rfl
  simp only [stage, (quiet _).1, (quiet _).2, frees] at carries lets releases
  simp only [CheckStage.carries, CheckStage.lets, CheckStage.releases, Nat.zero_add,
    Nat.add_zero] at carries lets releases
  refine shared_drop shared used rfl rfl (fun other => Nat.le_of_eq (carries other)) ?_ releases
  intro other
  have second := lets other
  have same : ((pool.goto place [next]).drop thr).bound other = pool.bound other := rfl
  rw [carries, same]
  omega

/-- The pool when a thread destroys a task. -/
theorem shared_destroy {thread : PoolThread Cb} {task : Option (PoolTask Cb)}
    {rest : List (Option (PoolTask Cb))} (shared : pool.Shared size)
    (found : pool.threads[place]? = some thread) (held : thread.batch = task :: rest) :
    (pool.destroy place task rest).Shared size := by
  have bounds (other : Nat) : TaskPool.total (fun thread : PoolThread Cb => thread.bound other)
      (pool.threads.modify place fun thread => { thread with batch := rest }) +
        (if PoolTask.pointer task = some other then 1 else 0) = pool.bound other := by
    have moved := TaskPool.total_modify (fun thread : PoolThread Cb => thread.bound other)
      (fun thread => { thread with batch := rest }) found
    have less : thread.bound other = ({ thread with batch := rest } : PoolThread Cb).bound other +
        if PoolTask.pointer task = some other then 1 else 0 := by
      unfold PoolThread.bound PoolThread.held
      dsimp only
      rw [held, List.cons_append, List.filterMap_cons]
      cases PoolTask.pointer task with
      | none => rfl
      | some thr =>
          dsimp only
          rw [List.count_cons]
          simp only [beq_iff_eq, Option.some.injEq]
    unfold bound
    omega
  unfold destroy
  dsimp only
  cases copy : PoolTask.pointer task with
  | none =>
      dsimp only
      rw [copy] at bounds
      simp only [reduceCtorEq, if_false, Nat.add_zero] at bounds
      refine ⟨?_, ?_, shared.owned⟩
      · intro other
        rw [bound, bounds]
        exact shared.counted other
      · intro other
        rw [bound, bounds]
        exact shared.one other
  | some thr =>
      dsimp only
      rw [copy] at bounds
      simp only [Option.some.injEq] at bounds
      have used : 0 < pool.uses thr := by
        have counted := shared.counted thr
        have mine := bounds thr
        rw [if_pos rfl] at mine
        omega
      split
      · rename_i free last
        have again (measure : CheckStage Cb → Nat) :
            TaskPool.total (fun call => measure call.stage)
              (pool.checks ++ [⟨some place, .releasing free, 0⟩]) =
                TaskPool.total (fun call => measure call.stage) pool.checks +
                  measure (.releasing free) := by
          rw [TaskPool.total_append, TaskPool.total_cons, TaskPool.total_nil, Nat.add_zero]
        refine shared_drop shared used rfl rfl (fun other => Nat.le_of_eq (again _)) ?_ ?_
        · intro other
          have second := bounds other
          unfold carried parting
          rw [again, again]
          change _ ≤ _ ∧ TaskPool.total _ (pool.threads.modify _ _) ≤ _ ∧
            _ + _ + TaskPool.total _ (pool.threads.modify _ _) + _ = _
          simp only [CheckStage.carries, CheckStage.lets]
          omega
        · intro thread
          have same : pool.lastUse thr = some free := last
          unfold released
          rw [again, same]
          simp only [CheckStage.releases, Option.some.injEq]
      · rename_i last
        refine shared_drop shared used rfl rfl (fun _ => Nat.le_refl _) ?_ ?_
        · intro other
          have second := bounds other
          change pool.parting other ≤ pool.parting other ∧
            TaskPool.total _ (pool.threads.modify _ _) ≤ _ ∧
            pool.carried other + pool.parting other +
              TaskPool.total _ (pool.threads.modify _ _) + _ = _
          omega
        · intro thread
          have same : pool.lastUse thr = none := last
          rw [same]
          rfl

/-- A call that has returned its callback lets go of the pointer next. -/
theorem shared_return {cb : Cb} (shared : pool.Shared size)
    (found : pool.checks[place]? = some call) (stage : call.stage = .returning cb thr) :
    { pool.goto place [{ call with stage := .sent thr }] with
      callbacks := cb :: pool.callbacks }.Shared size := by
  apply shared_goto shared found [{ call with stage := .sent thr }] pool.freeDynaThreads
  · intro other
    exact Nat.zero_le _
  · intro other
    rw [TaskPool.total_cons, TaskPool.total_nil, TaskPool.total_cons, TaskPool.total_nil, stage]
    exact Nat.add_comm _ _
  · intro thread
    rw [TaskPool.total_cons, TaskPool.total_nil, stage]
    rfl

theorem shared_release {thread : Nat} (shared : pool.Shared size)
    (found : pool.checks[place]? = some call) (stage : call.stage = .releasing thread) :
    { pool.goto place [{ call with stage := .looking }] with
      freeDynaThreads := pool.freeDynaThreads ++ [thread] }.Shared size := by
  apply shared_goto shared found [{ call with stage := .looking }] _ pool.callbacks
  · intro other
    exact Nat.zero_le _
  · intro other
    rw [TaskPool.total_cons, TaskPool.total_nil, TaskPool.total_cons, TaskPool.total_nil, stage]
    rfl
  · intro other
    rw [TaskPool.total_cons, TaskPool.total_nil, stage, List.count_append, List.count_singleton]
    simp only [CheckStage.releases, beq_iff_eq, Nat.add_zero]

/-- Whatever a call of `check` does, every thread is owned once. -/
theorem shared_check (shared : pool.Shared size) (placed : pool.Placed size)
    (found : pool.checks[place]? = some call) : (pool.check place call).Shared size := by
  cases stage : call.stage with
  | looking =>
      unfold check
      dsimp only
      rw [stage]
      dsimp only
      split
      · apply shared_quiet shared found
        intro measure looking locking
        rw [stage, TaskPool.total_cons, TaskPool.total_nil]
        exact ⟨looking, locking⟩
      · exact shared_leave shared found (Or.inl stage)
  | locking =>
      unfold check
      dsimp only
      rw [stage]
      dsimp only
      split
      · rename_i first _
        exact shared_take shared found stage first
      · exact shared_leave shared found (Or.inr stage)
  | taken cb thr =>
      have going (next : CheckStage Cb) (carries : ∀ thr, next.carries thr = call.stage.carries thr)
          (lets : ∀ thr, next.lets thr = call.stage.lets thr)
          (releases : ∀ thread, next.releases thread = call.stage.releases thread) :
          (pool.goto place [{ call with stage := next }]).Shared size := by
        apply shared_goto shared found _ pool.freeDynaThreads pool.callbacks
        · intro thr
          exact Nat.le_of_eq (carries thr)
        · intro thr
          exact congrArg₂ (· + ·) (carries thr) (lets thr)
        · intro thread
          exact congrArg (_ + ·) (releases thread)
      unfold check
      dsimp only
      rw [stage]
      dsimp only
      split <;> apply going <;> intro other <;> rw [stage] <;> rfl
  | giving cb thr =>
      unfold check
      dsimp only
      rw [stage]
      dsimp only
      split
      · rename_i pointer known
        exact shared_give shared placed found stage known
      · exact shared
  | returning cb thr =>
      unfold check
      dsimp only
      rw [stage]
      exact shared_return shared found stage
  | sent thr => exact shared_let_go shared found stage
  | releasing thread =>
      unfold check
      dsimp only
      rw [stage]
      exact shared_release shared found stage

inductive Stepped (pool : DynaThreadPool Cb) : DynaThreadPool Cb → Prop
  | pushed (cbs : List Cb) : Stepped pool (pool.push cbs)
  | stopped : Stepped pool { pool with start := false }
  | checked {place : Nat} {call : PoolCheck Cb} (found : pool.checks[place]? = some call) :
      Stepped pool (pool.check place call)
  | turned {place : Nat} {thread next : PoolThread Cb} (found : pool.threads[place]? = some thread)
      (turned : thread.Turned next) :
      Stepped pool { pool with threads := pool.threads.set place next }
  | destroyed {place : Nat} {thread : PoolThread Cb} {task : Option (PoolTask Cb)}
      {rest : List (Option (PoolTask Cb))} (found : pool.threads[place]? = some thread)
      (held : thread.batch = task :: rest) : Stepped pool (pool.destroy place task rest)

theorem stepped_on_thread {action : ThreadAction (PoolTask Cb)}
    (taken : pool.onThread place action = some after)
    (single : ∀ cbs, action ≠ .batchDispatch cbs)
    (foreign : ∀ task, action = .dispatch task → PoolTask.pointer task = none) :
    pool.Stepped after := by
  obtain ⟨next, stepped, same⟩ := Option.map_eq_some_iff.mp taken
  obtain ⟨thread, found, moves⟩ := Option.bind_eq_some_iff.mp stepped
  rw [← same]
  exact .turned found (PoolThread.turned_of_moves ⟨action, moves, single, foreign⟩)

theorem stepped_of_step {action : PoolAction Cb} (taken : pool.step action = some after) :
    pool.Stepped after := by
  cases action with
  | dispatch cb =>
      cases taken
      exact .pushed [cb]
  | batchDispatch cbs =>
      cases taken
      exact .pushed cbs
  | stop =>
      cases taken
      exact .stopped
  | check place =>
      obtain ⟨call, found, same⟩ := Option.map_eq_some_iff.mp taken
      rw [← same]
      exact .checked found
  | give place cb =>
      apply stepped_on_thread taken
      · intro cbs same
        cases same
      · intro task same
        cases same
        cases cb <;> rfl
  | send place slot sent =>
      apply stepped_on_thread taken
      · intro cbs same
        cases same
      · intro task same
        cases same
  | recv place count =>
      rw [step] at taken
      split at taken
      · apply stepped_on_thread taken
        · intro cbs same
          cases same
        · intro task same
          cases same
      · cases taken
  | swap place =>
      apply stepped_on_thread taken
      · intro cbs same
        cases same
      · intro task same
        cases same
  | run place =>
      apply stepped_on_thread taken
      · intro cbs same
        cases same
      · intro task same
        cases same
  | destroy place =>
      rw [step] at taken
      split at taken
      · cases taken
      · rename_i thread found
        split at taken
        · cases taken
        · rename_i task rest held
          split at taken
          · split at taken
            · cases taken
              exact .destroyed found held
            · cases taken
          · cases taken

theorem recount_thread (change : Nat → Nat) {other : Nat} {pointer : ThreadPtr}
    (found : pool.pointers[other]? = some pointer) :
    ∃ after, (pool.recount thr change).pointers[other]? = some after ∧
      after.thread = pointer.thread := by
  unfold recount
  dsimp only
  by_cases here : thr = other
  · rw [← here, List.getElem?_modify_eq, here, found]
    exact ⟨_, rfl, rfl⟩
  · rw [List.getElem?_modify_ne _ _ here, found]
    exact ⟨pointer, rfl, rfl⟩

/-- The pool after a step in which no pointer changes its thread and a thread is given what is
bound to one of its own. -/
theorem placed_of (placed : pool.Placed size) (length : after.threads.length = pool.threads.length)
    (pointers : ∀ (thr : Nat) (pointer : ThreadPtr), pool.pointers[thr]? = some pointer →
      ∃ next, after.pointers[thr]? = some next ∧ next.thread = pointer.thread)
    (threads : ∀ (place : Nat) (next : PoolThread Cb), after.threads[place]? = some next →
      ∃ thread, pool.threads[place]? = some thread ∧ (thread.Sound → next.Sound) ∧
        ∀ thr, 0 < next.bound thr → 0 < thread.bound thr ∨
          ∃ pointer, pool.pointers[thr]? = some pointer ∧ pointer.thread = place) :
    after.Placed size := by
  refine ⟨length.trans placed.length, ?_, ?_⟩
  · intro next member
    obtain ⟨place, found⟩ := List.getElem?_of_mem member
    obtain ⟨thread, before, keeps, _⟩ := threads place next found
    exact keeps (placed.sound thread (List.mem_of_getElem? before))
  · intro place next thr found held
    obtain ⟨thread, before, _, from_⟩ := threads place next found
    have known : ∃ pointer, pool.pointers[thr]? = some pointer ∧ pointer.thread = place := by
      rcases from_ thr held with had | given
      · exact placed.own place thread thr before had
      · exact given
    obtain ⟨pointer, there, same⟩ := known
    obtain ⟨next, now, kept⟩ := pointers thr pointer there
    exact ⟨next, now, kept.trans same⟩

theorem threads_kept {place : Nat} {next : PoolThread Cb} (found : pool.threads[place]? = some next) :
    ∃ thread, pool.threads[place]? = some thread ∧ (thread.Sound → next.Sound) ∧
      ∀ thr, 0 < next.bound thr → 0 < thread.bound thr ∨
        ∃ pointer, pool.pointers[thr]? = some pointer ∧ pointer.thread = place :=
  ⟨next, found, id, fun _ held => Or.inl held⟩

theorem placed_check (placed : pool.Placed size) (call : PoolCheck Cb) (place : Nat) :
    (pool.check place call).Placed size := by
  have same (thr : Nat) (pointer : ThreadPtr) (found : pool.pointers[thr]? = some pointer) :
      ∃ next, pool.pointers[thr]? = some next ∧ next.thread = pointer.thread :=
    ⟨pointer, found, rfl⟩
  unfold check
  dsimp only
  split
  · split <;> exact placed_of placed rfl same fun place next => threads_kept
  · split
    · apply placed_of placed
      · rfl
      · intro thr pointer found
        refine ⟨pointer, ?_, rfl⟩
        unfold takeOut
        dsimp only
        rw [List.getElem?_append_left (List.getElem?_eq_some_iff.mp found).1]
        exact found
      · intro place next now
        exact @threads_kept _ pool place next now
    · exact placed_of placed rfl same fun place next => threads_kept
  · split <;> exact placed_of placed rfl same fun place next => threads_kept
  · rename_i cb thr _
    split
    · rename_i pointer known
      apply placed_of placed
      · exact List.length_modify _ _ _
      · intro thr pointer found
        exact recount_thread _ found
      · intro other next found
        unfold give at found
        dsimp only at found
        by_cases here : pointer.thread = other
        · rw [here, List.getElem?_modify_eq] at found
          obtain ⟨thread, before, same⟩ := Option.map_eq_some_iff.mp found
          refine ⟨thread, before, ?_, ?_⟩
          · intro sound
            rw [← same]
            exact PoolThread.wrap_sound sound cb thr
          · intro bound held
            rw [← same, PoolThread.wrap_bound] at held
            by_cases mine : thr = bound
            · exact Or.inr ⟨pointer, mine ▸ known, here⟩
            · rw [if_neg mine, Nat.add_zero] at held
              exact Or.inl held
        · rw [List.getElem?_modify_ne _ _ here] at found
          exact threads_kept found
    · exact placed
  · exact placed_of placed rfl same fun place next => threads_kept
  · split
    · apply placed_of placed
      · rfl
      · intro thr pointer found
        exact recount_thread _ found
      · intro place next now
        exact @threads_kept _ pool place next now
    · apply placed_of placed
      · rfl
      · intro thr pointer found
        exact recount_thread _ found
      · intro place next now
        exact @threads_kept _ pool place next now
  · exact placed_of placed rfl same fun place next => threads_kept

theorem placed_destroy {thread : PoolThread Cb} {task : Option (PoolTask Cb)}
    {rest : List (Option (PoolTask Cb))} (placed : pool.Placed size)
    (found : pool.threads[place]? = some thread) (held : thread.batch = task :: rest) :
    (pool.destroy place task rest).Placed size := by
  have threads (other : Nat) (next : PoolThread Cb)
      (now : (pool.threads.modify place fun thread => { thread with batch := rest })[other]? =
        some next) :
      ∃ thread, pool.threads[other]? = some thread ∧ (thread.Sound → next.Sound) ∧
        ∀ thr, 0 < next.bound thr → 0 < thread.bound thr ∨
          ∃ pointer, pool.pointers[thr]? = some pointer ∧ pointer.thread = other := by
    by_cases here : place = other
    · rw [← here, List.getElem?_modify_eq, found] at now
      cases now
      refine ⟨thread, here ▸ found, ?_, ?_⟩
      · intro sound
        refine ⟨?_, sound.known, sound.stopped⟩
        intro received
        have empty := sound.unread received
        rw [held] at empty
        cases empty
      · intro thr had
        left
        have fewer : ({ thread with batch := rest } : PoolThread Cb).held.Sublist thread.held := by
          unfold PoolThread.held
          rw [held]
          exact (List.sublist_cons_self task _).filterMap PoolTask.pointer
        exact Nat.lt_of_lt_of_le had (fewer.count_le thr)
    · rw [List.getElem?_modify_ne _ _ here] at now
      exact threads_kept now
  unfold destroy
  dsimp only
  split
  · exact placed_of placed (List.length_modify _ _ _) (fun _ pointer found => ⟨pointer, found, rfl⟩)
      threads
  · rename_i thr _
    have pointers {other : Nat} {pointer : ThreadPtr} :=
      @recount_thread _ pool thr (fun uses => uses - 1) other pointer
    split
    · exact placed_of placed (List.length_modify _ _ _) (fun _ _ => pointers) threads
    · exact placed_of placed (List.length_modify _ _ _) (fun _ _ => pointers) threads

theorem placed_turned {thread next : PoolThread Cb} (placed : pool.Placed size)
    (found : pool.threads[place]? = some thread) (turned : thread.Turned next) :
    { pool with threads := pool.threads.set place next }.Placed size := by
  apply placed_of placed
  · exact List.length_set
  · intro thr pointer known
    exact ⟨pointer, known, rfl⟩
  · intro other next' now
    dsimp only at now
    by_cases here : place = other
    · rw [← here, List.getElem?_set_self (List.getElem?_eq_some_iff.mp found).1] at now
      cases now
      refine ⟨thread, here ▸ found, fun sound => PoolThread.turned_sound sound turned, ?_⟩
      intro thr held
      rw [PoolThread.turned_bound (placed.sound thread (List.mem_of_getElem? found)) turned] at held
      exact Or.inl held
    · rw [List.getElem?_set_ne here] at now
      exact threads_kept now

theorem shared_turned {thread next : PoolThread Cb} (shared : pool.Shared size)
    (placed : pool.Placed size) (found : pool.threads[place]? = some thread)
    (turned : thread.Turned next) :
    { pool with threads := pool.threads.set place next }.Shared size := by
  have sound := placed.sound thread (List.mem_of_getElem? found)
  have held (thr : Nat) : { pool with threads := pool.threads.set place next }.bound thr =
      pool.bound thr := by
    have moved := TaskPool.total_modify (fun thread : PoolThread Cb => thread.bound thr)
      (fun _ => next) found
    rw [PoolThread.turned_bound sound turned] at moved
    unfold bound
    dsimp only
    rw [List.set_eq_modify]
    omega
  refine ⟨?_, ?_, shared.owned⟩
  · intro thr
    rw [held]
    exact shared.counted thr
  · intro thr
    rw [held]
    exact shared.one thr

theorem stepped_shared (shared : pool.Shared size) (placed : pool.Placed size)
    (stepped : pool.Stepped after) : after.Shared size ∧ after.Placed size := by
  cases stepped with
  | pushed cbs =>
      refine ⟨shared_push shared cbs, placed_of placed rfl ?_ fun _ _ => threads_kept⟩
      intro thr pointer found
      exact ⟨pointer, found, rfl⟩
  | stopped =>
      refine ⟨⟨shared.counted, shared.one, shared.owned⟩, placed_of placed rfl ?_
        fun _ _ => threads_kept⟩
      intro thr pointer found
      exact ⟨pointer, found, rfl⟩
  | checked found => exact ⟨shared_check shared placed found, placed_check placed _ _⟩
  | turned found turned =>
      exact ⟨shared_turned shared placed found turned, placed_turned placed found turned⟩
  | destroyed found held =>
      exact ⟨shared_destroy shared found held, placed_destroy placed found held⟩

def Unstopped (pool : DynaThreadPool Cb) : Prop :=
  ∀ thread ∈ pool.threads, none ∉ thread.thread.pushed

/-- A pointer that is on its way leads to a thread that takes callbacks, unless one was given
null. -/
theorem is_start_of_unstopped {thr : Nat} (shared : pool.Shared size) (placed : pool.Placed size)
    (unstopped : pool.Unstopped) (used : 0 < pool.carried thr) : pool.isStart thr = true := by
  have counted := shared.counted thr
  have uses : 0 < pool.uses thr := by omega
  obtain ⟨pointer, known⟩ := pointer_of_uses uses
  rw [uses_found known] at counted
  obtain ⟨thread, held⟩ := thread_of_pointer shared placed known (by omega)
  have member := List.mem_of_getElem? held
  rw [isStart, known, Option.bind_some, held, Option.any_some]
  by_contra stopped
  exact unstopped thread member
    ((placed.sound thread member).stopped (Bool.eq_false_iff.mpr stopped))

end DynaThreadPool
end ChatServer.Fiber
