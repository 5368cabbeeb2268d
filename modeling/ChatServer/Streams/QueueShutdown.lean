import ChatServer.Streams.BlockingQueue

/-!
# Waking every pop of a queue

`BlockingQueue::notifyAll` schedules the fibers that wait in `pop` without giving them permits,
and `pop` takes the front of the list whenever it returns from `wait`. So the queue is safe as
long as nobody waits when it is called, and from then on no more: such a fiber finds the list
empty, or it takes an element that is there for the permit of somebody else.
-/

namespace ChatServer.Streams

set_option autoImplicit false

namespace BlockingQueue

variable {Data : Type}

def notifyAll (queue : BlockingQueue Data) : BlockingQueue Data × List FiberId :=
  let (sem, next) := queue.sem.notifyAll
  ({ queue with sem, woken := queue.woken ++ next }, next)

end BlockingQueue

/-- `freed` holds the pops that `notifyAll` has woken and that have not removed an element yet. -/
structure ClosableQueue (Data : Type) where
  queue : BlockingQueue Data
  freed : List FiberId

inductive ShutdownAction (Data : Type) where
  | queue (action : QueueAction Data)
  | notifyAll

namespace ClosableQueue

variable {Data : Type}

def start : ClosableQueue Data := ⟨.start, []⟩

def leave (freed : List FiberId) : QueueAction Data → List FiberId
  | .remove fiber => freed.erase fiber
  | _ => freed

def notifyAll (closable : ClosableQueue Data) : ClosableQueue Data :=
  let (queue, next) := closable.queue.notifyAll
  ⟨queue, closable.freed ++ next⟩

def step : Result (ClosableQueue Data) → ShutdownAction Data →
    Option (Result (ClosableQueue Data))
  | .error _, _ => none
  | .ok closable, .queue action =>
      (BlockingQueue.step (.ok closable.queue) action).map fun after =>
        after.map fun queue => ⟨queue, leave closable.freed action⟩
  | .ok closable, .notifyAll => some (.ok closable.notifyAll)

/-- No pop waits when `notifyAll` is called. -/
def Unwaited : Result (ClosableQueue Data) → ShutdownAction Data → Prop
  | .ok closable, .notifyAll => closable.queue.sem.waiters = []
  | .ok _, .queue _ => True
  | .error _, _ => True

instance (state : Result (ClosableQueue Data)) (action : ShutdownAction Data) :
    Decidable (Unwaited state action) :=
  match state, action with
  | .ok closable, .notifyAll => inferInstanceAs (Decidable (closable.queue.sem.waiters = []))
  | .ok _, .queue _ => inferInstanceAs (Decidable True)
  | .error _, _ => inferInstanceAs (Decidable True)

/-- No pop has taken the front of an empty list, and there is an element for every permit: with
the semaphore, with a pop that was given one, and with a `notify` to come. -/
def Intact (state : Result (ClosableQueue Data)) : Prop :=
  ∃ closable, state = .ok closable ∧
    closable.queue.sem.concurrency + closable.queue.holders + closable.queue.notifying.length ≤
      closable.queue.datas.length + closable.freed.length

/-- While nobody was woken, the queue is as if `notifyAll` had not been called. -/
structure Sound (closable : ClosableQueue Data) : Prop where
  queue : closable.queue.Sound
  unfreed : closable.freed = []

theorem start_sound : Sound (start : ClosableQueue Data) := ⟨BlockingQueue.start_sound, rfl⟩

variable {closable : ClosableQueue Data} {action : ShutdownAction Data}

theorem leave_nil (action : QueueAction Data) : leave [] action = [] := by
  cases action <;> rfl

theorem notify_all_unwaited (none : closable.queue.sem.waiters = []) :
    closable.notifyAll = closable := by
  rcases closable with ⟨⟨datas, ⟨concurrency, waiters⟩, notifying, woken, passed, pushed, popped⟩,
    freed⟩
  cases none
  simp [notifyAll, BlockingQueue.notifyAll, FiberSemaphore.notifyAll]

theorem step_sound {after : Result (ClosableQueue Data)} (sound : closable.Sound)
    (unwaited : Unwaited (.ok closable) action) (taken : step (.ok closable) action = some after) :
    ∃ next, after = .ok next ∧ next.Sound := by
  cases action with
  | queue action =>
      rcases Option.map_eq_some_iff.mp taken with ⟨middle, moved, same⟩
      rcases BlockingQueue.step_sound sound.queue moved with ⟨queue, returned, kept⟩
      rw [returned] at same
      refine ⟨_, same.symm, kept, ?_⟩
      rw [sound.unfreed]
      exact leave_nil action
  | notifyAll =>
      cases taken
      exact ⟨closable, congrArg Except.ok (notify_all_unwaited unwaited), sound⟩

theorem reached_sound {state : Result (ClosableQueue Data)}
    (reached : Transition.Reaches step Unwaited (.ok start) state) :
    ∃ closable, state = .ok closable ∧ closable.Sound := by
  apply Transition.invariant_of_reaches ⟨start, rfl, start_sound⟩ _ reached
  intro state action after sound unwaited taken
  rcases sound with ⟨closable, same, sound⟩
  rw [same] at taken unwaited
  exact step_sound sound unwaited taken

theorem sound_intact (sound : closable.Sound) : Intact (.ok closable) := by
  have counted := sound.queue.counted
  exact ⟨closable, rfl, by omega⟩

theorem woken_pop_removes (sound : closable.Sound) {fiber : FiberId} {rest : List FiberId}
    (waiters : closable.queue.sem.waiters = fiber :: rest) :
    ∃ last, Transition.Reaches step (fun _ _ => True) (.ok closable) last ∧ ¬Intact last := by
  let woken := closable.notifyAll
  let passed : ClosableQueue Data := ⟨woken.queue.resume fiber, woken.freed⟩
  have isWoken : fiber ∈ woken.queue.woken := by
    simp [woken, notifyAll, BlockingQueue.notifyAll, FiberSemaphore.notifyAll, waiters]
  have isPassed : fiber ∈ passed.queue.passed := List.mem_cons_self
  have toWoken : Transition.Reaches step (fun _ _ => True) (.ok closable) (.ok woken) :=
    .next .notifyAll .start trivial rfl
  have resumed : step (.ok woken) (.queue (.resume fiber)) = some (.ok passed) := by
    rw [step, BlockingQueue.step, if_pos isWoken]
    rfl
  have toPassed := Transition.Reaches.next _ toWoken trivial resumed
  have removed : step (.ok passed) (.queue (.remove fiber)) =
      some ((passed.queue.remove fiber).map fun queue => ⟨queue, passed.freed.erase fiber⟩) := by
    rw [step, BlockingQueue.step, if_pos isPassed]
    rfl
  refine ⟨_, .next _ toPassed trivial removed, ?_⟩
  rintro ⟨last, same, counted⟩
  have before := sound.queue.counted
  rw [BlockingQueue.holders] at before
  cases datas : closable.queue.datas with
  | nil =>
      have empty : passed.queue.datas = [] := datas
      rw [BlockingQueue.remove, empty] at same
      cases same
  | cons front behind =>
      have filled : passed.queue.datas = front :: behind := datas
      have fewer : (woken.queue.woken.erase fiber).length =
          closable.queue.woken.length + rest.length := by
        rw [List.length_erase_of_mem isWoken]
        simp [woken, notifyAll, BlockingQueue.notifyAll, FiberSemaphore.notifyAll, waiters]
      have others : passed.freed.erase fiber = rest := by
        simp [passed, woken, notifyAll, BlockingQueue.notifyAll, FiberSemaphore.notifyAll, waiters,
          sound.unfreed]
      rw [BlockingQueue.remove, filled] at same
      cases same
      have held : (passed.queue.passed.erase fiber).length = closable.queue.passed.length := by
        simp [passed, woken, BlockingQueue.resume, notifyAll, BlockingQueue.notifyAll]
      have counted : closable.queue.sem.concurrency +
          ((woken.queue.woken.erase fiber).length + (passed.queue.passed.erase fiber).length) +
          closable.queue.notifying.length ≤ behind.length + (passed.freed.erase fiber).length :=
        counted
      rw [fewer, held, others] at counted
      rw [datas, List.length_cons] at before
      omega

/-- While `notifyAll` is called only when no pop waits, pops take elements that are theirs. Where
one waits, the call lets it take what is not. -/
theorem permits_keep_elements (state : Result (ClosableQueue Data))
    (reached : Transition.Reaches step Unwaited (.ok start) state) :
    Intact state ∧ ∀ closable, state = .ok closable → closable.queue.sem.waiters ≠ [] →
      ∃ last, Transition.Reaches step (fun _ _ => True) (.ok closable) last ∧ ¬Intact last := by
  rcases reached_sound reached with ⟨closable, same, sound⟩
  rw [same]
  refine ⟨sound_intact sound, ?_⟩
  intro other equal waits
  cases equal
  cases waiters : closable.queue.sem.waiters with
  | nil => exact absurd waiters waits
  | cons fiber rest => exact woken_pop_removes sound waiters

/-- An element comes and goes while two pops wait for it, and `notifyAll` is called behind them. -/
theorem permits_keep_elements_four : ∃ state : Result (ClosableQueue Nat),
    (Transition.Reaches step Unwaited (.ok start) state ∧
      state.toOption.map (fun closable => closable.queue.popped) = some [5]) ∧ Intact state ∧
    ∀ closable, state = .ok closable → closable.queue.sem.waiters ≠ [] →
      ∃ last, Transition.Reaches step (fun _ _ => True) (.ok closable) last ∧ ¬Intact last := by
  have reached : ∃ state : Result (ClosableQueue Nat),
      Transition.Reaches step Unwaited (.ok start) state ∧
        state.toOption.map (fun closable => closable.queue.popped) = some [5] := by
    apply Transition.exists_of_run [.queue (.wait 0), .queue (.push 1 5), .queue (.notify 1),
      .notifyAll, .queue (.resume 0), .queue (.remove 0), .queue (.wait 2)]
    decide +kernel
  rcases reached with ⟨state, reached, popped⟩
  exact ⟨state, ⟨reached, popped⟩, permits_keep_elements state reached⟩

/-- The queue is closed while one pop waits: that pop reads the front of an empty list. With an
element whose `notify` is still to come, it takes that one. -/
theorem closed_under_pop :
    (∃ state : Result (ClosableQueue Nat),
      Transition.Reaches step (fun _ _ => True) (.ok start) state ∧
        faultOf state = some (.undefined .outOfBounds)) ∧
    ∃ state : Result (ClosableQueue Nat),
      Transition.Reaches step (fun _ _ => True) (.ok start) state ∧
        state.toOption.map (fun closable => (closable.queue.datas, closable.queue.notifying,
          closable.queue.popped)) = some ([], [1], [5]) := by
  constructor
  · apply Transition.exists_of_run [.queue (.wait 0), .notifyAll, .queue (.resume 0),
      .queue (.remove 0)]
    decide +kernel
  · apply Transition.exists_of_run [.queue (.wait 0), .queue (.push 1 5), .notifyAll,
      .queue (.resume 0), .queue (.remove 0)]
    decide +kernel

end ClosableQueue
end ChatServer.Streams
