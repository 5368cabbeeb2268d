import ChatServer.Fiber.PoolOwnership

/-!
# What a pool does with its callbacks

A callback waits in the pool, is on its way in a call of `check`, waits in a thread, or has been
called. A thread that is given null drops what is behind it, and `check` then returns what it has
taken for that thread; nothing else loses a callback or changes the order.
-/

namespace ChatServer.Fiber

set_option autoImplicit false

variable {Cb : Type}

/-- The callback that is on its way in a call of `check`. -/
def CheckStage.callback : CheckStage Cb → Option Cb
  | .taken cb _ | .giving cb _ | .returning cb _ => some cb
  | _ => none

namespace PoolThread

def awaited (thread : PoolThread Cb) : List Cb :=
  (thread.thread.hand ++ thread.thread.callbacks).filterMap PoolTask.callback

def called (thread : PoolThread Cb) : List Cb :=
  (thread.thread.executed.map some).filterMap PoolTask.callback

variable [DecidableEq Cb] {thread after : PoolThread Cb}

def kept (cb : Cb) (thread : PoolThread Cb) : Nat :=
  thread.awaited.count cb + thread.called.count cb

theorem wrap_kept (thread : PoolThread Cb) (cb : Cb) (thr : Nat) (other : Cb) :
    (thread.wrap cb thr).kept other = thread.kept other + if cb = other then 1 else 0 := by
  have more : (thread.wrap cb thr).awaited = thread.awaited ++ [cb] := by
    have given : (thread.wrap cb thr).awaited =
        (thread.thread.hand ++ thread.thread.callbacks ++ [some (PoolTask.wrapped cb thr)]).filterMap
          PoolTask.callback := by
      rw [List.append_assoc]
      rfl
    rw [given, List.filterMap_append]
    rfl
  have same : (thread.wrap cb thr).called = thread.called := rfl
  rw [kept, more, same, List.count_append, List.count_singleton, kept]
  simp only [beq_iff_eq]
  omega

/-- A callback is not lost unless the thread comes to null. -/
theorem turned_kept (turned : thread.Turned after) (cb : Cb) :
    after.kept cb ≤ thread.kept cb ∧ (none ∉ thread.thread.hand → after.kept cb = thread.kept cb) := by
  cases turned with
  | given task foreign =>
      have none : PoolTask.callback task = none := by
        cases task with
        | none => rfl
        | some task =>
            cases task with
            | own cb => rfl
            | wrapped cb thr => cases foreign
      have same : ({ thread with thread := thread.thread.dispatch task } : PoolThread Cb).awaited =
          thread.awaited := by
        have given : ({ thread with thread := thread.thread.dispatch task } : PoolThread Cb).awaited =
            (thread.thread.hand ++ thread.thread.callbacks ++ [task]).filterMap
              PoolTask.callback := by
          rw [List.append_assoc]
          rfl
        rw [given, List.filterMap_append, List.filterMap_cons, none, List.filterMap_nil,
          List.append_nil]
        rfl
      rw [kept, same]
      exact ⟨Nat.le_refl _, fun _ => rfl⟩
  | sent place cbs sent => exact ⟨Nat.le_refl _, fun _ => rfl⟩
  | received count waiting empty =>
      have idle : thread.thread.hand = [] := by rw [DynaThread.hand, waiting]
      rw [kept, kept, awaited, awaited, idle]
      exact ⟨Nat.le_refl _, fun _ => rfl⟩
  | swapped received =>
      have idle : thread.thread.hand = [] := by rw [DynaThread.hand, received]
      have same : (⟨thread.thread.swap, thread.thread.callbacks⟩ : PoolThread Cb).awaited =
          thread.awaited := by
        rw [awaited, awaited, idle, DynaThread.swap, DynaThread.hand, List.append_nil,
          List.nil_append]
      rw [kept, same]
      exact ⟨Nat.le_refl _, fun _ => rfl⟩
  | ran rest size running =>
      have held : thread.thread.hand = rest := by rw [DynaThread.hand, running]
      cases rest with
      | nil =>
          rw [kept, kept, awaited, awaited, held]
          exact ⟨Nat.le_refl _, fun _ => rfl⟩
      | cons front rest =>
          cases front with
          | none =>
              refine ⟨?_, fun going => absurd (held ▸ List.mem_cons_self) going⟩
              have fewer : ({ thread with thread := thread.thread.run size (none :: rest) } :
                  PoolThread Cb).awaited = thread.thread.callbacks.filterMap PoolTask.callback := rfl
              have same : ({ thread with thread := thread.thread.run size (none :: rest) } :
                  PoolThread Cb).called = thread.called := rfl
              rw [kept, kept, fewer, same, awaited, List.filterMap_append, List.count_append]
              omega
          | some task =>
              have fewer : ({ thread with thread := thread.thread.run size (some task :: rest) } :
                  PoolThread Cb).awaited =
                    (rest ++ thread.thread.callbacks).filterMap PoolTask.callback := rfl
              have more : ({ thread with thread := thread.thread.run size (some task :: rest) } :
                  PoolThread Cb).called =
                    thread.called ++ [some task].filterMap PoolTask.callback := by
                rw [called, DynaThread.run, List.map_append, List.filterMap_append]
                rfl
              have split : thread.awaited = [some task].filterMap PoolTask.callback ++
                  (rest ++ thread.thread.callbacks).filterMap PoolTask.callback := by
                rw [awaited, held, ← List.filterMap_append]
                rfl
              rw [kept, kept, fewer, more, split, List.count_append, List.count_append]
              exact ⟨Nat.le_of_eq (by omega), fun _ => by omega⟩

end PoolThread

namespace DynaThreadPool

variable [DecidableEq Cb] {pool after : DynaThreadPool Cb} {size place : Nat} {call : PoolCheck Cb}

/-- How often a callback is on its way in a call of `check`. -/
def inHand (pool : DynaThreadPool Cb) (cb : Cb) : Nat :=
  TaskPool.total (fun call => if call.stage.callback = some cb then 1 else 0) pool.checks

/-- How often it waits in a thread or has been called. -/
def kept (pool : DynaThreadPool Cb) (cb : Cb) : Nat :=
  TaskPool.total (PoolThread.kept cb) pool.threads

def accounts (pool : DynaThreadPool Cb) (cb : Cb) : Nat :=
  pool.callbacks.count cb + pool.inHand cb + pool.kept cb

/-- No callback is accounted for more often than it was dispatched, and none waits beside a free
thread unless a call of `check` is under way. Unless a thread was given null, none is lost and they
leave the list in the order they came. -/
structure Accounted (pool : DynaThreadPool Cb) : Prop where
  bounded : ∀ cb, pool.accounts cb ≤ pool.dispatched.count cb
  awake : pool.start = true → pool.callbacks ≠ [] → pool.freeDynaThreads ≠ [] → pool.checks ≠ []
  whole : pool.Unstopped → ∀ cb, pool.accounts cb = pool.dispatched.count cb
  ordered : pool.Unstopped → pool.taken ++ pool.callbacks = pool.dispatched
  kept_on : pool.Unstopped → ∀ call ∈ pool.checks, ∀ cb thr, call.stage ≠ .returning cb thr

theorem started_accounted (size : Nat) : (started size : DynaThreadPool Cb).Accounted := by
  have none (cb : Cb) : (started size : DynaThreadPool Cb).accounts cb = 0 := by
    have empty : (started size : DynaThreadPool Cb).kept cb = 0 := by
      apply TaskPool.total_eq_zero
      intro thread member
      rw [(List.mem_replicate.mp member).2]
      rfl
    rw [accounts, empty]
    rfl
  refine ⟨?_, ?_, ?_, fun _ => rfl, ?_⟩
  · intro cb
    rw [none]
    exact Nat.zero_le _
  · intro _ waiting
    exact absurd rfl waiting
  · intro _ cb
    rw [none]
    rfl
  · intro _ call member
    cases member

theorem in_hand_next (found : pool.checks[place]? = some call) (next : PoolCheck Cb) (cb : Cb)
    {had has : Option Cb} (before : call.stage.callback = had) (behind : next.stage.callback = has) :
    (if had = some cb then 1 else 0) + (pool.goto place [next]).inHand cb =
      pool.inHand cb + if has = some cb then 1 else 0 := by
  have moved := total_next (fun stage : CheckStage Cb => if stage.callback = some cb then 1 else 0)
    found next
  rw [before, behind] at moved
  exact moved

omit [DecidableEq Cb] in
theorem unstopped_modify {change : PoolThread Cb → PoolThread Cb}
    (stays : ∀ thread : PoolThread Cb, none ∈ thread.thread.pushed →
      none ∈ (change thread).thread.pushed)
    (unstopped : ∀ thread ∈ pool.threads.modify place change, none ∉ thread.thread.pushed) :
    pool.Unstopped := by
  intro other member given
  obtain ⟨index, at_⟩ := List.getElem?_of_mem member
  by_cases here : place = index
  · have now : (pool.threads.modify place change)[index]? = some (change other) := by
      rw [here, List.getElem?_modify_eq, at_]
      rfl
    exact unstopped _ (List.mem_of_getElem? now) (stays other given)
  · have now : (pool.threads.modify place change)[index]? = some other := by
      rw [List.getElem?_modify_ne _ _ here, at_]
    exact unstopped _ (List.mem_of_getElem? now) given

theorem accounted_goes (accounted : pool.Accounted)
    (same : ∀ cb, after.accounts cb = pool.accounts cb) (dispatched : after.dispatched = pool.dispatched)
    (ordered : after.taken ++ after.callbacks = pool.taken ++ pool.callbacks)
    (awake : after.start = true → after.callbacks ≠ [] → after.freeDynaThreads ≠ [] →
      after.checks ≠ []) (before : after.Unstopped → pool.Unstopped)
    (kept : pool.Unstopped → ∀ call ∈ after.checks, ∀ cb thr, call.stage ≠ .returning cb thr) :
    after.Accounted := by
  refine ⟨?_, awake, ?_, ?_, fun unstopped => kept (before unstopped)⟩
  · intro cb
    rw [same, dispatched]
    exact accounted.bounded cb
  · intro unstopped cb
    rw [same, dispatched]
    exact accounted.whole (before unstopped) cb
  · intro unstopped
    rw [ordered, dispatched]
    exact accounted.ordered (before unstopped)

omit [DecidableEq Cb] in
theorem checks_next (next : PoolCheck Cb) : (pool.goto place [next]).checks ≠ [] :=
  List.append_ne_nil_of_right_ne_nil _ (List.cons_ne_nil _ _)

theorem accounted_next (accounted : pool.Accounted) (found : pool.checks[place]? = some call)
    (next : PoolCheck Cb) (free : List Nat) (pointers : List ThreadPtr)
    (same : next.stage.callback = call.stage.callback)
    (going : pool.Unstopped → ∀ cb thr, next.stage ≠ .returning cb thr) :
    { pool.goto place [next] with freeDynaThreads := free, pointers }.Accounted := by
  have hand (cb : Cb) : { pool.goto place [next] with freeDynaThreads := free, pointers }.accounts
      cb = pool.accounts cb := by
    have moved := in_hand_next found next cb rfl same
    change pool.callbacks.count cb + (pool.goto place [next]).inHand cb + pool.kept cb =
      pool.callbacks.count cb + pool.inHand cb + pool.kept cb
    omega
  apply accounted_goes accounted hand rfl rfl (fun _ _ _ => checks_next next) id
  intro unstopped
  exact TaskPool.forall_replace_one (accounted.kept_on unstopped) (going unstopped)

/-- A call of `check` whose loop ends leaves no callback behind for a free thread. -/
theorem accounted_leave (accounted : pool.Accounted) (found : pool.checks[place]? = some call)
    (empty : call.stage.callback = none)
    (idle : pool.start = false ∨ pool.freeDynaThreads = [] ∨ pool.callbacks = []) :
    (pool.goto place (PoolCheck.leave call)).Accounted := by
  have hand (cb : Cb) : (pool.goto place (PoolCheck.leave call)).accounts cb =
      pool.accounts cb := by
    have moved := total_goto
      (fun call : PoolCheck Cb => if call.stage.callback = some cb then 1 else 0) found
        (PoolCheck.leave call)
    rw [total_leave (fun stage : CheckStage Cb => if stage.callback = some cb then 1 else 0) rfl,
      empty, if_neg (by simp)] at moved
    change pool.callbacks.count cb + TaskPool.total _ (pool.goto place _).checks + pool.kept cb =
      pool.callbacks.count cb + pool.inHand cb + pool.kept cb
    unfold inHand
    omega
  refine accounted_goes accounted hand rfl rfl ?_ id ?_
  · intro running waiting free
    rcases idle with stopped | none | none
    · change pool.start = true at running
      rw [stopped] at running
      cases running
    · exact absurd none free
    · exact absurd none waiting
  · intro unstopped
    apply TaskPool.forall_replace (accounted.kept_on unstopped)
    intro next member cb thr
    rw [PoolCheck.leave] at member
    split at member
    · cases member
    · rw [List.mem_singleton.mp member]
      simp

theorem accounted_take {thread : Nat} {free : List Nat} {cb : Cb} {callbacks : List Cb}
    (accounted : pool.Accounted) (found : pool.checks[place]? = some call)
    (stage : call.stage = .locking) (first : pool.callbacks = cb :: callbacks) :
    (pool.takeOut place call thread free cb callbacks).Accounted := by
  have hand (other : Cb) : (pool.takeOut place call thread free cb callbacks).accounts other =
      pool.accounts other := by
    have moved := in_hand_next found { call with stage := .taken cb pool.pointers.length } other
      (congrArg CheckStage.callback stage) rfl
    change callbacks.count other + (pool.goto place _).inHand other + pool.kept other =
      pool.callbacks.count other + pool.inHand other + pool.kept other
    rw [first, List.count_cons]
    simp only [CheckStage.callback, beq_iff_eq, Option.some.injEq, reduceCtorEq, if_false] at *
    omega
  refine accounted_goes accounted hand rfl ?_ (fun _ _ _ => checks_next _) id ?_
  · rw [first, takeOut]
    dsimp only
    rw [List.append_assoc]
    rfl
  · intro unstopped
    apply TaskPool.forall_replace_one (accounted.kept_on unstopped)
    intro other thr same
    cases same

theorem accounted_give {cb : Cb} {thr : Nat} {pointer : ThreadPtr} (accounted : pool.Accounted)
    (shared : pool.Shared size) (placed : pool.Placed size)
    (found : pool.checks[place]? = some call) (stage : call.stage = .giving cb thr)
    (known : pool.pointers[thr]? = some pointer) :
    ((pool.goto place [{ call with stage := .sent thr }]).give cb thr pointer.thread).Accounted := by
  have used : 0 < pointer.uses := by
    have mine : call.stage.carries thr ≤ pool.carried thr :=
      TaskPool.weight_le_total (fun call : PoolCheck Cb => call.stage.carries thr)
        (List.mem_of_getElem? found)
    have counted := shared.counted thr
    rw [uses_found known] at counted
    rw [stage, CheckStage.carries, if_pos rfl] at mine
    omega
  obtain ⟨thread, held⟩ := thread_of_pointer shared placed known used
  have hand (other : Cb) :
      ((pool.goto place [{ call with stage := .sent thr }]).give cb thr pointer.thread).accounts
        other = pool.accounts other := by
    have moved := in_hand_next found { call with stage := .sent thr } other
      (congrArg CheckStage.callback stage) rfl
    have more := TaskPool.total_modify (PoolThread.kept other)
      (fun thread => thread.wrap cb thr) held
    rw [PoolThread.wrap_kept] at more
    change pool.callbacks.count other + (pool.goto place _).inHand other +
      TaskPool.total _ (pool.threads.modify _ _) =
        pool.callbacks.count other + pool.inHand other + pool.kept other
    unfold kept
    simp only [CheckStage.callback, Option.some.injEq, reduceCtorEq, if_false] at moved
    omega
  have before : ((pool.goto place [{ call with stage := .sent thr }]).give cb thr
      pointer.thread).Unstopped → pool.Unstopped := by
    exact unstopped_modify fun thread given => List.mem_append_left _ given
  apply accounted_goes accounted hand rfl rfl (fun _ _ _ => checks_next _) before
  intro unstopped
  apply TaskPool.forall_replace_one (accounted.kept_on unstopped)
  intro other thr same
  cases same

theorem accounted_return {cb : Cb} {thr : Nat} (accounted : pool.Accounted)
    (found : pool.checks[place]? = some call) (stage : call.stage = .returning cb thr) :
    { pool.goto place [{ call with stage := .sent thr }] with
      callbacks := cb :: pool.callbacks }.Accounted := by
  have never : ¬pool.Unstopped := by
    intro unstopped
    exact accounted.kept_on unstopped call (List.mem_of_getElem? found) cb thr stage
  refine ⟨?_, ?_, ?_, ?_, ?_⟩
  · intro other
    have moved := in_hand_next found { call with stage := .sent thr } other
      (congrArg CheckStage.callback stage) rfl
    have bounded := accounted.bounded other
    change (cb :: pool.callbacks).count other + (pool.goto place _).inHand other +
      pool.kept other ≤ pool.dispatched.count other
    unfold accounts at bounded
    rw [List.count_cons]
    simp only [CheckStage.callback, beq_iff_eq, Option.some.injEq, reduceCtorEq, if_false] at *
    omega
  · exact fun _ _ _ => checks_next _
  · exact fun unstopped => absurd unstopped never
  · exact fun unstopped => absurd unstopped never
  · exact fun unstopped => absurd unstopped never

theorem accounted_check (accounted : pool.Accounted) (shared : pool.Shared size)
    (placed : pool.Placed size) (found : pool.checks[place]? = some call) :
    (pool.check place call).Accounted := by
  have goes {had : CheckStage Cb} (stage : call.stage = had) (next : CheckStage Cb)
      (free : List Nat) (pointers : List ThreadPtr) (same : next.callback = had.callback)
      (going : pool.Unstopped → ∀ cb thr, next ≠ .returning cb thr) (outer : Nat) :
      { pool.goto place [{ call with stage := next, outer }] with
        freeDynaThreads := free, pointers }.Accounted :=
    accounted_next accounted found _ free pointers (same.trans (congrArg _ stage.symm)) going
  unfold check
  dsimp only
  cases stage : call.stage with
  | looking =>
      dsimp only
      split
      · exact goes stage .locking pool.freeDynaThreads pool.pointers rfl
          (fun _ _ _ equal => by cases equal) _
      · rename_i stopped
        apply accounted_leave accounted found
        · rw [stage]
          rfl
        · exact Or.inl (Bool.eq_false_iff.mpr stopped)
  | locking =>
      dsimp only
      split
      · rename_i first
        exact accounted_take accounted found stage first
      · rename_i neither
        apply accounted_leave accounted found
        · rw [stage]
          rfl
        · right
          cases free : pool.freeDynaThreads with
          | nil => exact Or.inl rfl
          | cons thread rest =>
              cases waiting : pool.callbacks with
              | nil => exact Or.inr rfl
              | cons cb callbacks => exact absurd waiting (neither thread rest cb callbacks free)
  | taken cb thr =>
      dsimp only
      split
      · exact goes stage (.giving cb thr) pool.freeDynaThreads pool.pointers rfl
          (fun _ _ _ equal => by cases equal) _
      · rename_i stopped
        apply goes stage (.returning cb thr) pool.freeDynaThreads pool.pointers rfl
        · intro unstopped
          have mine : call.stage.carries thr ≤ pool.carried thr :=
            TaskPool.weight_le_total (fun call : PoolCheck Cb => call.stage.carries thr)
              (List.mem_of_getElem? found)
          rw [stage, CheckStage.carries, if_pos rfl] at mine
          exact absurd (is_start_of_unstopped shared placed unstopped mine) stopped
  | giving cb thr =>
      dsimp only
      split
      · rename_i pointer known
        exact accounted_give accounted shared placed found stage known
      · exact accounted
  | returning cb thr =>
      exact accounted_return accounted found stage
  | sent thr =>
      dsimp only
      split
      · exact goes stage (.releasing _) pool.freeDynaThreads _ rfl
          (fun _ _ _ equal => by cases equal) _
      · exact goes stage .looking pool.freeDynaThreads _ rfl (fun _ _ _ equal => by cases equal) _
  | releasing thread =>
      exact goes stage .looking _ pool.pointers rfl (fun _ _ _ equal => by cases equal) _

theorem accounted_push (accounted : pool.Accounted) (cbs : List Cb) :
    (pool.push cbs).Accounted := by
  have hand (cb : Cb) : (pool.push cbs).accounts cb = pool.accounts cb + cbs.count cb := by
    have same : (pool.push cbs).inHand cb = pool.inHand cb := by
      unfold inHand push
      dsimp only
      rw [TaskPool.total_append, TaskPool.total_cons, TaskPool.total_nil]
      rfl
    change (pool.callbacks ++ cbs).count cb + (pool.push cbs).inHand cb + pool.kept cb = _
    rw [same, List.count_append, accounts]
    omega
  refine ⟨?_, ?_, ?_, ?_, ?_⟩
  · intro cb
    have bounded := accounted.bounded cb
    rw [hand, push, List.count_append]
    omega
  · intro _ _ _
    exact List.append_ne_nil_of_right_ne_nil _ (List.cons_ne_nil _ _)
  · intro unstopped cb
    rw [hand, accounted.whole unstopped cb, push, List.count_append]
  · intro unstopped
    rw [push, ← accounted.ordered unstopped, List.append_assoc]
  · intro unstopped other member cb thr
    rcases List.mem_append.mp member with old | new
    · exact accounted.kept_on unstopped other old cb thr
    · rw [List.mem_singleton.mp new]
      simp

theorem accounted_turned {thread next : PoolThread Cb} (accounted : pool.Accounted)
    (placed : pool.Placed size) (found : pool.threads[place]? = some thread)
    (turned : thread.Turned next) :
    { pool with threads := pool.threads.set place next }.Accounted := by
  have member := List.mem_of_getElem? found
  have before : Unstopped { pool with threads := pool.threads.set place next } →
      pool.Unstopped := by
    intro unstopped other inside
    obtain ⟨index, at_⟩ := List.getElem?_of_mem inside
    by_cases here : place = index
    · rw [← here, found] at at_
      cases at_
      have new : next ∈ pool.threads.set place next :=
        List.mem_set (List.getElem?_eq_some_iff.mp found).1 next
      exact fun had => unstopped next new (PoolThread.turned_pushed turned none had)
    · apply unstopped
      have kept : (pool.threads.set place next)[index]? = some other := by
        rw [List.getElem?_set_ne here, at_]
      exact List.mem_of_getElem? kept
  have moved (cb : Cb) : { pool with threads := pool.threads.set place next }.kept cb +
      thread.kept cb = pool.kept cb + next.kept cb := by
    have changed := TaskPool.total_modify (PoolThread.kept cb) (fun _ => next) found
    rw [← List.set_eq_modify] at changed
    exact changed
  refine ⟨?_, accounted.awake, ?_, fun unstopped => accounted.ordered (before unstopped),
    fun unstopped => accounted.kept_on (before unstopped)⟩
  · intro cb
    have bounded := accounted.bounded cb
    have less := (PoolThread.turned_kept turned cb).1
    have same := moved cb
    change pool.callbacks.count cb + pool.inHand cb + _ ≤ pool.dispatched.count cb
    unfold accounts at bounded
    omega
  · intro unstopped cb
    have whole := accounted.whole (before unstopped) cb
    have hand : none ∉ thread.thread.hand := by
      intro inside
      exact before unstopped thread member
        ((placed.sound thread member).known none (List.mem_append_left _ inside))
    have equal := (PoolThread.turned_kept turned cb).2 hand
    have same := moved cb
    change pool.callbacks.count cb + pool.inHand cb + _ = pool.dispatched.count cb
    unfold accounts at whole
    omega

omit [DecidableEq Cb] in
/-- A thread that destroys a task may begin to free a thread, and touches nothing else. -/
theorem destroy_checks (pool : DynaThreadPool Cb) (place : Nat) (task : Option (PoolTask Cb))
    (rest : List (Option (PoolTask Cb))) : ∃ (more : List (PoolCheck Cb)) (pointers : List ThreadPtr),
    pool.destroy place task rest = { pool with
      threads := pool.threads.modify place fun thread => { thread with batch := rest }
      checks := pool.checks ++ more
      pointers } ∧ ∀ call ∈ more, ∃ thread, call.stage = .releasing thread := by
  unfold destroy
  dsimp only
  split
  · refine ⟨[], pool.pointers, ?_, ?_⟩
    · rw [List.append_nil]
    · intro call member
      cases member
  · rename_i thr _
    split
    · refine ⟨_, _, rfl, ?_⟩
      intro call member
      rw [List.mem_singleton.mp member]
      exact ⟨_, rfl⟩
    · refine ⟨[], (pool.drop thr).pointers, ?_, ?_⟩
      · rw [List.append_nil]
        rfl
      · intro call member
        cases member

theorem accounted_destroy {thread : PoolThread Cb} (accounted : pool.Accounted)
    (found : pool.threads[place]? = some thread) (task : Option (PoolTask Cb))
    (rest : List (Option (PoolTask Cb))) : (pool.destroy place task rest).Accounted := by
  obtain ⟨more, pointers, same, freeing⟩ := destroy_checks pool place task rest
  rw [same]
  have keeps (cb : Cb) : TaskPool.total (PoolThread.kept cb)
      (pool.threads.modify place fun thread => { thread with batch := rest }) = pool.kept cb := by
    have changed := TaskPool.total_modify (PoolThread.kept cb)
      (fun thread => { thread with batch := rest }) found
    have equal : PoolThread.kept cb { thread with batch := rest } = thread.kept cb := rfl
    unfold kept
    omega
  have hand (cb : Cb) : TaskPool.total
      (fun call : PoolCheck Cb => if call.stage.callback = some cb then 1 else 0)
        (pool.checks ++ more) = pool.inHand cb := by
    rw [TaskPool.total_append, inHand, Nat.add_eq_left]
    apply TaskPool.total_eq_zero
    intro call member
    obtain ⟨free, stage⟩ := freeing call member
    rw [stage]
    rfl
  have before : Unstopped { pool with
      threads := pool.threads.modify place fun thread => { thread with batch := rest }
      checks := pool.checks ++ more
      pointers } → pool.Unstopped := by
    exact unstopped_modify fun thread given => given
  have sum (cb : Cb) : accounts { pool with
      threads := pool.threads.modify place fun thread => { thread with batch := rest }
      checks := pool.checks ++ more
      pointers } cb = pool.accounts cb := by
    rw [accounts, accounts, ← keeps, ← hand]
    rfl
  refine accounted_goes accounted sum rfl rfl ?_ before ?_
  · intro running waiting free
    exact List.append_ne_nil_of_left_ne_nil (accounted.awake running waiting free) _
  · intro unstopped call member cb thr
    rcases List.mem_append.mp member with old | new
    · exact accounted.kept_on unstopped call old cb thr
    · obtain ⟨free, stage⟩ := freeing call new
      rw [stage]
      simp

theorem stepped_accounted (accounted : pool.Accounted) (shared : pool.Shared size)
    (placed : pool.Placed size) (stepped : pool.Stepped after) : after.Accounted := by
  cases stepped with
  | pushed cbs => exact accounted_push accounted cbs
  | stopped =>
      refine ⟨accounted.bounded, ?_, accounted.whole, accounted.ordered, accounted.kept_on⟩
      intro running
      cases running
  | checked found => exact accounted_check accounted shared placed found
  | turned found turned => exact accounted_turned accounted placed found turned
  | destroyed found held => exact accounted_destroy accounted found _ _

/-- What holds of the pool at every moment. -/
structure Orderly (pool : DynaThreadPool Cb) : Prop where
  /-- No thread is given a second callback of the pool before the first one is destroyed. -/
  alone : ∀ thread ∈ pool.threads, thread.held.length ≤ 1
  idle : ∀ (place : Nat) (thread : PoolThread Cb), pool.threads[place]? = some thread →
    place ∈ pool.freeDynaThreads → thread.held = []
  distinct : pool.freeDynaThreads.Nodup
  bounded : ∀ cb, pool.accounts cb ≤ pool.dispatched.count cb
  /-- When no call of `check` is under way, no callback waits beside a free thread. -/
  awake : pool.start = true → pool.checks = [] → pool.callbacks = [] ∨ pool.freeDynaThreads = []
  whole : pool.Unstopped → (∀ cb, pool.accounts cb = pool.dispatched.count cb) ∧
    pool.taken ++ pool.callbacks = pool.dispatched

omit [DecidableEq Cb] in
theorem pointer_unique {thread first second : Nat} {one other : ThreadPtr}
    (shared : pool.Shared size) (found : pool.pointers[first]? = some one)
    (also : pool.pointers[second]? = some other) (holds : one.holds thread = 1)
    (too : other.holds thread = 1) : first = second := by
  by_contra apart
  have owned := shared.owned thread
  have most : pool.live thread ≤ 1 := by
    split at owned <;> omega
  have rest := TaskPool.total_replace (ThreadPtr.holds thread) found []
  have inside : other ∈ TaskPool.replace pool.pointers first [] := by
    rw [TaskPool.replace, List.append_nil, List.mem_eraseIdx_iff_getElem?]
    exact ⟨second, fun same => apart same.symm, also⟩
  have more := TaskPool.weight_le_total (ThreadPtr.holds thread) inside
  unfold live at most
  rw [TaskPool.total_nil] at rest
  omega

omit [DecidableEq Cb] in
theorem pointer_of_held {thread : PoolThread Cb} {thr : Nat} (shared : pool.Shared size)
    (placed : pool.Placed size) (found : pool.threads[place]? = some thread)
    (member : thr ∈ thread.held) :
    ∃ pointer, pool.pointers[thr]? = some pointer ∧ pointer.holds place = 1 := by
  have some : 0 < thread.bound thr := List.count_pos_iff.mpr member
  obtain ⟨pointer, known, same⟩ := placed.own place thread thr found some
  have counted := shared.counted thr
  have least : thread.bound thr ≤ pool.bound thr :=
    TaskPool.weight_le_total (fun thread : PoolThread Cb => thread.bound thr)
      (List.mem_of_getElem? found)
  rw [uses_found known] at counted
  refine ⟨pointer, known, if_pos ⟨same, ?_⟩⟩
  omega

omit [DecidableEq Cb] in
theorem held_alone {thread : PoolThread Cb} (shared : pool.Shared size) (placed : pool.Placed size)
    (found : pool.threads[place]? = some thread) : thread.held.length ≤ 1 := by
  have same (first second : Nat) (one : first ∈ thread.held) (other : second ∈ thread.held) :
      first = second := by
    obtain ⟨pointer, known, holds⟩ := pointer_of_held shared placed found one
    obtain ⟨pointer', known', holds'⟩ := pointer_of_held shared placed found other
    exact pointer_unique shared known known' holds holds'
  have once (thr : Nat) : thread.held.count thr ≤ 1 := by
    have least : thread.bound thr ≤ pool.bound thr :=
      TaskPool.weight_le_total (fun thread : PoolThread Cb => thread.bound thr)
        (List.mem_of_getElem? found)
    have one := (shared.one thr).2
    unfold PoolThread.bound at least
    omega
  cases held : thread.held with
  | nil => exact Nat.zero_le 1
  | cons first rest =>
      cases rest with
      | nil => exact Nat.le_refl 1
      | cons second rest =>
          have equal := same first second (held ▸ List.mem_cons_self)
            (held ▸ List.mem_cons_of_mem _ List.mem_cons_self)
          have twice := once first
          rw [held, ← equal, List.count_cons_self, List.count_cons_self] at twice
          omega

theorem orderly_of_sound (shared : pool.Shared size) (placed : pool.Placed size)
    (accounted : pool.Accounted) : pool.Orderly where
  alone := by
    intro thread member
    obtain ⟨place, found⟩ := List.getElem?_of_mem member
    exact held_alone shared placed found
  idle := by
    intro place thread found free
    apply List.eq_nil_iff_forall_not_mem.mpr
    intro thr member
    obtain ⟨pointer, known, holds⟩ := pointer_of_held shared placed found member
    have owned := shared.owned place
    have first := List.count_pos_iff.mpr free
    have second : pointer.holds place ≤ pool.live place :=
      TaskPool.weight_le_total (ThreadPtr.holds place) (List.mem_of_getElem? known)
    split at owned <;> omega
  distinct := by
    apply List.nodup_iff_count_le_one.mpr
    intro thread
    have owned := shared.owned thread
    split at owned <;> omega
  bounded := accounted.bounded
  awake := by
    intro running quiet
    by_contra neither
    rw [not_or] at neither
    exact accounted.awake running neither.1 neither.2 quiet
  whole := fun unstopped => ⟨accounted.whole unstopped, accounted.ordered unstopped⟩

/-- Whoever dispatches, and however the threads and the deleters take turns: each callback is run
at most once, by a thread that has no other one of the pool, and none waits while a thread is free.
As long as no thread is given null, none is lost and they are taken in the order they came. -/
theorem pool_orderly (reached : Transition.Reaches step (fun _ _ => True) (started size) pool) :
    pool.Orderly := by
  have both : pool.Shared size ∧ pool.Placed size ∧ pool.Accounted := by
    apply Transition.invariant_of_reaches _ _ reached
    · exact ⟨started_shared size, started_placed size, started_accounted size⟩
    · intro before action after sound _ taken
      have stepped := stepped_of_step taken
      have next := stepped_shared sound.1 sound.2.1 stepped
      exact ⟨next.1, next.2, stepped_accounted sound.2.2 sound.1 sound.2.1 stepped⟩
  exact orderly_of_sound both.1 both.2.1 both.2.2

/-- The thread runs its callback and destroys it behind the call of `check` that gave it, while
another callback waits: its deleter finds that one. -/
theorem pool_orderly_two : ∃ pool : DynaThreadPool Nat,
    Transition.Reaches step (fun _ _ => True) (started 1) pool ∧
      pool.threads.map PoolThread.called = [[7]] ∧ pool.taken = [7, 8] ∧
      pool.checks.map PoolCheck.caller = [some 0] ∧ pool.Orderly := by
  obtain ⟨pool, reached, called, taken, checks⟩ : ∃ pool : DynaThreadPool Nat,
      Transition.Reaches step (fun _ _ => True) (started 1) pool ∧
        pool.threads.map PoolThread.called = [[7]] ∧ pool.taken = [7, 8] ∧
        pool.checks.map PoolCheck.caller = [some 0] := by
    apply Transition.exists_of_run [.dispatch 7, .check 0, .check 0, .check 0, .check 0,
      .dispatch 8, .check 1, .send 0 0 true, .recv 0 1, .swap 0, .run 0, .run 0, .check 1, .check 0,
      .check 0, .check 0, .destroy 0, .check 0, .check 0, .check 0]
    decide +kernel
  exact ⟨pool, reached, called, taken, checks, pool_orderly reached⟩

end DynaThreadPool
end ChatServer.Fiber
