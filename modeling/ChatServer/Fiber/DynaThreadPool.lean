import ChatServer.Fiber.DynaThread

/-!
# A pool that hands out free threads

`DynaThreadPool` with `advance`. Callbacks wait in `m_callbacks` until `check` finds a free thread
for the first of them. The thread is taken out of `m_freeDynaThreads` behind a shared pointer whose
deleter puts it back: the pointer is copied into what the thread is given to run, so the thread is
free again when that has been destroyed and the call of `check` that gave it has let go of its own
copy. The deleter calls `check` too, inside the call of `check` or on the thread that destroys the
last copy.
-/

namespace ChatServer.Fiber

set_option autoImplicit false

/-- What a thread of a pool is given: a callback of its own, or `wrapcb` with a callback of the
pool and the number of the shared pointer it is bound to. -/
inductive PoolTask (Cb : Type) where
  | own (cb : Cb)
  | wrapped (cb : Cb) (thr : Nat)
  deriving DecidableEq

structure ThreadPtr where
  thread : Nat
  uses : Nat
  deriving DecidableEq

inductive CheckStage (Cb : Type) where
  | looking
  | locking
  | taken (cb : Cb) (thr : Nat)
  | giving (cb : Cb) (thr : Nat)
  | returning (cb : Cb) (thr : Nat)
  | sent (thr : Nat)
  | releasing (thread : Nat)
  deriving DecidableEq

/-- A call of `check`: the thread of the pool on which a deleter made it, or none, and how many
calls it is nested in. -/
structure PoolCheck (Cb : Type) where
  caller : Option Nat
  stage : CheckStage Cb
  outer : Nat
  deriving DecidableEq

/-- A thread and the list that its `read_cb` has swapped out, as far as it is not destroyed. -/
structure PoolThread (Cb : Type) where
  thread : DynaThread (PoolTask Cb)
  batch : List (Option (PoolTask Cb))
  deriving DecidableEq

/-- `dispatched` and `taken` are histories: what was dispatched, and what `check` has taken out. -/
structure DynaThreadPool (Cb : Type) where
  start : Bool
  callbacks : List Cb
  freeDynaThreads : List Nat
  threads : List (PoolThread Cb)
  pointers : List ThreadPtr
  checks : List (PoolCheck Cb)
  dispatched : List Cb
  taken : List Cb
  deriving DecidableEq

/-- `give` is a callback for one thread, from `dispatch` with an id, from `broadcast` or from
`stop`; null stops the thread. -/
inductive PoolAction (Cb : Type) where
  | dispatch (cb : Cb)
  | batchDispatch (cbs : List Cb)
  | stop
  | check (place : Nat)
  | give (place : Nat) (cb : Option Cb)
  | send (place : Nat) (slot : Nat) (sent : Bool)
  | recv (place : Nat) (count : Nat)
  | swap (place : Nat)
  | run (place : Nat)
  | destroy (place : Nat)
  deriving DecidableEq

variable {Cb : Type}

def PoolTask.pointer : Option (PoolTask Cb) → Option Nat
  | some (.wrapped _ thr) => some thr
  | _ => none

def PoolTask.callback : Option (PoolTask Cb) → Option Cb
  | some (.wrapped cb _) => some cb
  | _ => none

namespace PoolThread

variable {thread after : PoolThread Cb}

def started : PoolThread Cb := ⟨DynaThread.started, []⟩

/-- A thread that still destroys a list does not look at its socket. -/
def step (thread : PoolThread Cb) : ThreadAction (PoolTask Cb) → Option (PoolThread Cb)
  | .recv count =>
      if thread.batch = [] then
        (thread.thread.step (.recv count)).map fun after => { thread with thread := after }
      else none
  | .swap => (thread.thread.step .swap).map fun after => ⟨after, thread.thread.callbacks⟩
  | action => (thread.thread.step action).map fun after => { thread with thread := after }

def Moves (thread after : PoolThread Cb) : Prop :=
  ∃ action, thread.step action = some after ∧
    (∀ cbs, action ≠ .batchDispatch cbs) ∧
      ∀ task, action = .dispatch task → PoolTask.pointer task = none

def wrap (thread : PoolThread Cb) (cb : Cb) (thr : Nat) : PoolThread Cb :=
  { thread with thread := thread.thread.dispatch (some (.wrapped cb thr)) }

/-- Nothing is left of the list before when another one is swapped out, and only null stops the
thread. -/
structure Sound (thread : PoolThread Cb) : Prop where
  unread : thread.thread.stage = .received → thread.batch = []
  known : ∀ task ∈ thread.thread.hand ++ thread.thread.callbacks, task ∈ thread.thread.pushed
  stopped : thread.thread.start = false → none ∈ thread.thread.pushed

/-- The pointers in what the thread was given and has not destroyed. -/
def held (thread : PoolThread Cb) : List Nat :=
  (thread.batch ++ thread.thread.callbacks).filterMap PoolTask.pointer

def bound (thread : PoolThread Cb) (thr : Nat) : Nat := thread.held.count thr

theorem started_sound : (started : PoolThread Cb).Sound := by
  refine ⟨fun _ => rfl, ?_, ?_⟩
  · intro task member
    cases member
  · intro stopped
    cases stopped

theorem wrap_sound (sound : thread.Sound) (cb : Cb) (thr : Nat) : (thread.wrap cb thr).Sound := by
  refine ⟨sound.unread, ?_, ?_⟩
  · intro task member
    have split : task ∈ thread.thread.hand ++ thread.thread.callbacks ∨
        task ∈ [some (PoolTask.wrapped cb thr)] := by
      rw [← List.mem_append, List.append_assoc]
      exact member
    apply List.mem_append.mpr
    exact split.imp_left (sound.known task)
  · intro stopped
    exact List.mem_append_left _ (sound.stopped stopped)

inductive Turned (thread : PoolThread Cb) : PoolThread Cb → Prop
  | given (task : Option (PoolTask Cb)) (foreign : PoolTask.pointer task = none) :
      Turned thread { thread with thread := thread.thread.dispatch task }
  | sent (place : Nat) (cbs : List (Option (PoolTask Cb))) (sent : Bool) :
      Turned thread { thread with thread := thread.thread.send place cbs sent }
  | received (count : Nat) (waiting : thread.thread.stage = .waiting) (empty : thread.batch = []) :
      Turned thread { thread with
        thread := { thread.thread with bytes := thread.thread.bytes - count, stage := .received } }
  | swapped (received : thread.thread.stage = .received) :
      Turned thread ⟨thread.thread.swap, thread.thread.callbacks⟩
  | ran (rest : List (Option (PoolTask Cb))) (size : Nat)
      (running : thread.thread.stage = .running rest size) :
      Turned thread { thread with thread := thread.thread.run size rest }

theorem turned_of_moves (moves : thread.Moves after) : thread.Turned after := by
  obtain ⟨action, taken, single, foreign⟩ := moves
  cases action with
  | dispatch task =>
      cases taken
      exact .given task (foreign task rfl)
  | batchDispatch cbs => exact absurd rfl (single cbs)
  | send place sent =>
      have whole : ((thread.thread.sending[place]?.map fun cbs => thread.thread.send place cbs sent).map
          fun next => { thread with thread := next }) = some after := taken
      rw [Option.map_map] at whole
      obtain ⟨cbs, _, same⟩ := Option.map_eq_some_iff.mp whole
      rw [← same]
      exact .sent place cbs sent
  | recv count =>
      rw [step, DynaThread.step] at taken
      split at taken
      · rename_i empty
        split at taken
        · rename_i waiting
          split at taken
          · cases taken
            exact .received count waiting empty
          · cases taken
        · cases taken
      · cases taken
  | swap =>
      rw [step, DynaThread.step] at taken
      split at taken
      · cases taken
        exact .swapped ‹_›
      · cases taken
  | run =>
      have whole : (thread.thread.step .run).map (fun next => { thread with thread := next }) =
          some after := taken
      rw [DynaThread.step] at whole
      split at whole
      · cases whole
        exact .ran _ _ ‹_›
      · cases whole

theorem turned_sound (sound : thread.Sound) (turned : thread.Turned after) : after.Sound := by
  cases turned with
  | given task foreign =>
      refine ⟨sound.unread, ?_, ?_⟩
      · intro other member
        have split : other ∈ thread.thread.hand ++ thread.thread.callbacks ∨ other ∈ [task] := by
          rw [← List.mem_append, List.append_assoc]
          exact member
        apply List.mem_append.mpr
        exact split.imp_left (sound.known other)
      · intro stopped
        exact List.mem_append_left _ (sound.stopped stopped)
  | sent place cbs sent => exact ⟨sound.unread, sound.known, sound.stopped⟩
  | received count waiting empty =>
      refine ⟨fun _ => empty, ?_, sound.stopped⟩
      intro task member
      exact sound.known task (List.mem_append_right _ member)
  | swapped received =>
      refine ⟨?_, ?_, sound.stopped⟩
      · intro received
        cases received
      · intro task member
        have inside : task ∈ thread.thread.callbacks := by
          rw [DynaThread.swap, DynaThread.hand, List.append_nil] at member
          exact member
        exact sound.known task (List.mem_append_right _ inside)
  | ran rest size running =>
      have held : thread.thread.hand = rest := by rw [DynaThread.hand, running]
      have known := sound.known
      rw [held] at known
      cases rest with
      | nil =>
          refine ⟨?_, known, sound.stopped⟩
          intro received
          cases received
      | cons front rest =>
          cases front with
          | none =>
              refine ⟨?_, ?_, ?_⟩
              · intro received
                cases received
              · intro task member
                exact known task (List.mem_append_right _ member)
              · intro stopped
                exact known none List.mem_cons_self
          | some task =>
              refine ⟨?_, ?_, sound.stopped⟩
              · intro received
                cases received
              · intro other member
                exact known other (List.mem_cons_of_mem _ member)

theorem turned_pushed (turned : thread.Turned after) :
    ∀ task ∈ thread.thread.pushed, task ∈ after.thread.pushed := by
  intro task member
  cases turned with
  | given task' foreign => exact List.mem_append_left _ member
  | sent place cbs sent => exact member
  | received count waiting empty => exact member
  | swapped received => exact member
  | ran rest size running =>
      cases rest with
      | nil => exact member
      | cons front rest =>
          cases front with
          | none => exact member
          | some task => exact member

theorem wrap_bound (thread : PoolThread Cb) (cb : Cb) (thr other : Nat) :
    (thread.wrap cb thr).bound other = thread.bound other + if thr = other then 1 else 0 := by
  have given : (thread.wrap cb thr).held = (thread.batch ++ thread.thread.callbacks ++
      [some (PoolTask.wrapped cb thr)]).filterMap PoolTask.pointer := by
    rw [List.append_assoc]
    rfl
  have more : (thread.wrap cb thr).held = thread.held ++ [thr] := by
    rw [given, List.filterMap_append]
    rfl
  rw [bound, more, List.count_append, List.count_singleton, bound]
  simp only [beq_iff_eq]

theorem turned_bound (sound : thread.Sound) (turned : thread.Turned after) (thr : Nat) :
    after.bound thr = thread.bound thr := by
  cases turned with
  | given task foreign =>
      have given : ({ thread with thread := thread.thread.dispatch task } : PoolThread Cb).held =
          (thread.batch ++ thread.thread.callbacks ++ [task]).filterMap PoolTask.pointer := by
        rw [List.append_assoc]
        rfl
      rw [bound, given, List.filterMap_append, List.filterMap_cons, foreign, List.filterMap_nil,
        List.append_nil]
      rfl
  | sent place cbs sent => rfl
  | received count waiting empty => rfl
  | swapped received =>
      rw [bound, bound, held, held, sound.unread received, DynaThread.swap, List.append_nil,
        List.nil_append]
  | ran rest size running =>
      cases rest with
      | nil => rfl
      | cons front rest =>
          cases front with
          | none => rfl
          | some task => rfl

end PoolThread

namespace DynaThreadPool

/-- Behind `start`, whose call of `check` finds no callback. -/
def started (size : Nat) : DynaThreadPool Cb where
  start := true
  callbacks := []
  freeDynaThreads := List.range size
  threads := List.replicate size PoolThread.started
  pointers := []
  checks := []
  dispatched := []
  taken := []

/-- The locked part of `dispatch` or `batchDispatch`, which call `check` behind it. -/
def push (pool : DynaThreadPool Cb) (cbs : List Cb) : DynaThreadPool Cb :=
  { pool with
    callbacks := pool.callbacks ++ cbs
    checks := pool.checks ++ [⟨none, .looking, 0⟩]
    dispatched := pool.dispatched ++ cbs }

def dispatch (pool : DynaThreadPool Cb) (cb : Cb) : DynaThreadPool Cb := pool.push [cb]

def batchDispatch (pool : DynaThreadPool Cb) (cbs : List Cb) : DynaThreadPool Cb := pool.push cbs

def goto (pool : DynaThreadPool Cb) (place : Nat) (more : List (PoolCheck Cb)) :
    DynaThreadPool Cb :=
  { pool with checks := TaskPool.replace pool.checks place more }

/-- What is left of a call of `check` whose loop ends: the call it is nested in goes on. -/
def PoolCheck.leave (call : PoolCheck Cb) : List (PoolCheck Cb) :=
  match call.outer with
  | 0 => []
  | outer + 1 => [{ call with stage := .looking, outer }]

def lastUse (pool : DynaThreadPool Cb) (thr : Nat) : Option Nat :=
  pool.pointers[thr]?.bind fun pointer => if pointer.uses = 1 then some pointer.thread else none

def recount (pool : DynaThreadPool Cb) (thr : Nat) (change : Nat → Nat) : DynaThreadPool Cb :=
  { pool with
    pointers := pool.pointers.modify thr fun pointer =>
      { pointer with uses := change pointer.uses } }

def drop (pool : DynaThreadPool Cb) (thr : Nat) : DynaThreadPool Cb :=
  pool.recount thr fun uses => uses - 1

def isStart (pool : DynaThreadPool Cb) (thr : Nat) : Bool :=
  (pool.pointers[thr]?.bind fun pointer => pool.threads[pointer.thread]?).any
    fun thread => thread.thread.start

/-- `thr->dispatch(std::bind(..., thr, cb))`; what is copied on the way is gone before the call
lets go of `thr`. -/
def give (pool : DynaThreadPool Cb) (cb : Cb) (thr thread : Nat) : DynaThreadPool Cb :=
  { pool.recount thr fun uses => uses + 1 with
    threads := pool.threads.modify thread fun poolThread => poolThread.wrap cb thr }

def takeOut (pool : DynaThreadPool Cb) (place : Nat) (call : PoolCheck Cb) (thread : Nat)
    (free : List Nat) (cb : Cb) (callbacks : List Cb) : DynaThreadPool Cb :=
  { pool.goto place [{ call with stage := .taken cb pool.pointers.length }] with
    freeDynaThreads := free
    callbacks
    pointers := pool.pointers ++ [⟨thread, 1⟩]
    taken := pool.taken ++ [cb] }

def check (pool : DynaThreadPool Cb) (place : Nat) (call : PoolCheck Cb) : DynaThreadPool Cb :=
  let next stage := pool.goto place [{ call with stage }]
  match call.stage with
  | .looking => if pool.start then next .locking else pool.goto place (PoolCheck.leave call)
  | .locking =>
      match pool.freeDynaThreads, pool.callbacks with
      | thread :: free, cb :: callbacks => pool.takeOut place call thread free cb callbacks
      | _, _ => pool.goto place (PoolCheck.leave call)
  | .taken cb thr => if pool.isStart thr then next (.giving cb thr) else next (.returning cb thr)
  | .giving cb thr =>
      match pool.pointers[thr]? with
      | some pointer => (next (.sent thr)).give cb thr pointer.thread
      | none => pool
  | .returning cb thr => { next (.sent thr) with callbacks := cb :: pool.callbacks }
  | .sent thr =>
      match pool.lastUse thr with
      | some thread =>
          (pool.goto place [{ call with stage := .releasing thread, outer := call.outer + 1 }]).drop
            thr
      | none => (next .looking).drop thr
  | .releasing thread =>
      { next .looking with freeDynaThreads := pool.freeDynaThreads ++ [thread] }

def destroy (pool : DynaThreadPool Cb) (place : Nat) (task : Option (PoolTask Cb))
    (rest : List (Option (PoolTask Cb))) : DynaThreadPool Cb :=
  let pool := { pool with
    threads := pool.threads.modify place fun thread => { thread with batch := rest } }
  match PoolTask.pointer task with
  | none => pool
  | some thr =>
      match pool.lastUse thr with
      | some thread =>
          { pool.drop thr with
            checks := pool.checks ++ [⟨some place, .releasing thread, 0⟩] }
      | none => pool.drop thr

def Unoccupied (pool : DynaThreadPool Cb) (place : Nat) : Prop :=
  ∀ call ∈ pool.checks, call.caller ≠ some place

instance (pool : DynaThreadPool Cb) (place : Nat) : Decidable (pool.Unoccupied place) :=
  inferInstanceAs (Decidable (∀ call ∈ pool.checks, call.caller ≠ some place))

def onThread (pool : DynaThreadPool Cb) (place : Nat) (action : ThreadAction (PoolTask Cb)) :
    Option (DynaThreadPool Cb) :=
  (pool.threads[place]?.bind fun thread => thread.step action).map fun after =>
    { pool with threads := pool.threads.set place after }

def step (pool : DynaThreadPool Cb) : PoolAction Cb → Option (DynaThreadPool Cb)
  | .dispatch cb => some (pool.dispatch cb)
  | .batchDispatch cbs => some (pool.batchDispatch cbs)
  | .stop => some { pool with start := false }
  | .check place => pool.checks[place]?.map fun call => pool.check place call
  | .give place cb => pool.onThread place (.dispatch (cb.map .own))
  | .send place slot sent => pool.onThread place (.send slot sent)
  | .recv place count =>
      if pool.Unoccupied place then pool.onThread place (.recv count) else none
  | .swap place => pool.onThread place .swap
  | .run place => pool.onThread place .run
  | .destroy place =>
      match pool.threads[place]? with
      | none => none
      | some thread =>
          match thread.batch with
          | [] => none
          | task :: rest =>
              match thread.thread.stage with
              | .waiting =>
                  if pool.Unoccupied place then some (pool.destroy place task rest) else none
              | _ => none

end DynaThreadPool
end ChatServer.Fiber
