import ChatServer.Machine
import ChatServer.Streams.SendQueue

/-!
# The blocking queue

`BlockingQueue` of `blocking_queue.h` over the semaphore of `mutex.cc`, for any number of fibers.
`push` and `pop` touch the list and the semaphore in critical sections of their own, so elements
and permits are out of step in between: an element whose `notify` is still to come has no permit,
and a fiber that was handed one has not removed its element yet.
-/

namespace ChatServer.Streams

set_option autoImplicit false

namespace FiberSemaphore

variable {Waiter : Type} {sem after : FiberSemaphore Waiter}

def tryWait (sem : FiberSemaphore Waiter) : FiberSemaphore Waiter × Bool :=
  if 0 < sem.concurrency then ({ sem with concurrency := sem.concurrency - 1 }, true)
  else (sem, false)

def notifyAll (sem : FiberSemaphore Waiter) : FiberSemaphore Waiter × List Waiter :=
  ({ sem with waiters := [] }, sem.waiters)

/-- Nobody waits while there are permits. -/
def Idle (sem : FiberSemaphore Waiter) : Prop := sem.waiters ≠ [] → sem.concurrency = 0

theorem tryWait_idle (idle : sem.Idle) : sem.tryWait.1.Idle := by
  intro waits
  by_cases permit : 0 < sem.concurrency
  · simp only [tryWait, permit, if_true] at waits
    exact absurd (idle waits) (Nat.ne_of_gt permit)
  · simp only [tryWait, permit, if_false]
    omega

theorem wait_idle (idle : sem.Idle) (waiter : Waiter) : (sem.wait waiter).1.Idle := by
  intro waits
  by_cases permit : 0 < sem.concurrency
  · simp only [wait, permit, if_true] at waits
    exact absurd (idle waits) (Nat.ne_of_gt permit)
  · simp only [wait, permit, if_false]
    omega

theorem notify_idle (idle : sem.Idle) : sem.notify.1.Idle := by
  cases waiters : sem.waiters with
  | nil => simp [Idle, notify, waiters]
  | cons next rest =>
      intro _
      simp only [notify, waiters]
      exact idle (by simp [waiters])

theorem notifyAll_idle : sem.notifyAll.1.Idle := by simp [Idle, notifyAll]

/-- What any code may do with a semaphore. -/
inductive Call (Waiter : Type) where
  | tryWait
  | wait (waiter : Waiter)
  | notify
  | notifyAll

def step (sem : FiberSemaphore Waiter) : Call Waiter → Option (FiberSemaphore Waiter)
  | .tryWait => some sem.tryWait.1
  | .wait waiter => some (sem.wait waiter).1
  | .notify => some sem.notify.1
  | .notifyAll => some sem.notifyAll.1

/-- The semaphores that calls in any order lead to. -/
abbrev Reached (concurrency : Nat) (sem : FiberSemaphore Waiter) : Prop :=
  Transition.Reaches step (fun _ _ => True) ⟨concurrency, []⟩ sem

theorem reached_idle {concurrency : Nat} (reached : Reached concurrency sem) : sem.Idle := by
  apply Transition.invariant_of_reaches _ _ reached
  · intro waits
    exact absurd rfl waits
  · intro sem call after idle _ taken
    cases call <;> cases taken
    · exact tryWait_idle idle
    · exact wait_idle idle _
    · exact notify_idle idle
    · exact notifyAll_idle

end FiberSemaphore

abbrev FiberId := Nat

/-- Where the fibers are: `notifying` between the push and the notify of `push`, `woken` behind a
notify that scheduled them, `passed` behind `wait`. `pushed` and `popped` are histories. -/
structure BlockingQueue (Data : Type) where
  datas : List Data
  sem : FiberSemaphore FiberId
  notifying : List FiberId
  woken : List FiberId
  passed : List FiberId
  pushed : List Data
  popped : List Data

/-- The critical sections of `push` and `pop`, and the scheduler running a fiber again. -/
inductive QueueAction (Data : Type) where
  | push (fiber : FiberId) (data : Data)
  | notify (fiber : FiberId)
  | wait (fiber : FiberId)
  | resume (fiber : FiberId)
  | remove (fiber : FiberId)

namespace BlockingQueue

variable {Data : Type}

def start : BlockingQueue Data := ⟨[], ⟨0, []⟩, [], [], [], [], []⟩

def Busy (queue : BlockingQueue Data) (fiber : FiberId) : Prop :=
  fiber ∈ queue.notifying ∨ fiber ∈ queue.sem.waiters ∨ fiber ∈ queue.woken ∨
    fiber ∈ queue.passed

instance (queue : BlockingQueue Data) (fiber : FiberId) : Decidable (queue.Busy fiber) :=
  inferInstanceAs (Decidable (_ ∨ _ ∨ _ ∨ _))

def push (queue : BlockingQueue Data) (fiber : FiberId) (data : Data) : BlockingQueue Data :=
  { queue with
    datas := queue.datas ++ [data]
    notifying := fiber :: queue.notifying
    pushed := queue.pushed ++ [data] }

def notify (queue : BlockingQueue Data) (fiber : FiberId) : BlockingQueue Data :=
  let (sem, next) := queue.sem.notify
  { queue with
    sem
    notifying := queue.notifying.erase fiber
    woken := queue.woken ++ next.toList }

/-- `m_sem.wait()` at the beginning of `pop`. -/
def wait (queue : BlockingQueue Data) (fiber : FiberId) : BlockingQueue Data :=
  let (sem, passed) := queue.sem.wait fiber
  { queue with sem, passed := if passed then fiber :: queue.passed else queue.passed }

def resume (queue : BlockingQueue Data) (fiber : FiberId) : BlockingQueue Data :=
  { queue with woken := queue.woken.erase fiber, passed := fiber :: queue.passed }

def remove (queue : BlockingQueue Data) (fiber : FiberId) : Result (BlockingQueue Data) :=
  match queue.datas with
  | [] => .error (.undefined .outOfBounds)
  | front :: rest =>
      .ok { queue with
        datas := rest
        passed := queue.passed.erase fiber
        popped := queue.popped ++ [front] }

def step : Result (BlockingQueue Data) → QueueAction Data → Option (Result (BlockingQueue Data))
  | .error _, _ => none
  | .ok queue, .push fiber data =>
      if queue.Busy fiber then none else some (.ok (queue.push fiber data))
  | .ok queue, .notify fiber =>
      if fiber ∈ queue.notifying then some (.ok (queue.notify fiber)) else none
  | .ok queue, .wait fiber => if queue.Busy fiber then none else some (.ok (queue.wait fiber))
  | .ok queue, .resume fiber =>
      if fiber ∈ queue.woken then some (.ok (queue.resume fiber)) else none
  | .ok queue, .remove fiber => if fiber ∈ queue.passed then some (queue.remove fiber) else none

/-- Pops that have a permit and have not removed their element yet. -/
def holders (queue : BlockingQueue Data) : Nat := queue.woken.length + queue.passed.length

/-- Every element has a permit, a pop that holds one, or a notify to come. -/
structure Sound (queue : BlockingQueue Data) : Prop where
  counted : queue.sem.concurrency + queue.holders + queue.notifying.length = queue.datas.length
  ordered : queue.popped ++ queue.datas = queue.pushed
  idle : queue.sem.Idle

theorem start_sound : Sound (start : BlockingQueue Data) :=
  ⟨rfl, rfl, fun waits => absurd rfl waits⟩

variable {queue : BlockingQueue Data} {fiber : FiberId}

theorem push_sound (sound : queue.Sound) (fiber : FiberId) (data : Data) :
    (queue.push fiber data).Sound where
  counted := by
    have counted := sound.counted
    simp only [push, holders, List.length_cons, List.length_append, List.length_nil] at counted ⊢
    omega
  ordered := by
    rw [push, ← sound.ordered, List.append_assoc]
  idle := sound.idle

/-- A notify gives the permit to the first who waits, or leaves it with the semaphore. -/
theorem notify_sound (sound : queue.Sound) (member : fiber ∈ queue.notifying) :
    (queue.notify fiber).Sound where
  counted := by
    have counted := sound.counted
    have fewer := List.length_erase_of_mem member
    have some := List.length_pos_of_mem member
    cases waiters : queue.sem.waiters <;>
      simp only [notify, FiberSemaphore.notify, waiters, holders, fewer, Option.toList,
        List.length_append, List.length_cons, List.length_nil] at counted ⊢ <;> omega
  ordered := sound.ordered
  idle := FiberSemaphore.notify_idle sound.idle

theorem wait_sound (sound : queue.Sound) (fiber : FiberId) : (queue.wait fiber).Sound where
  counted := by
    have counted := sound.counted
    by_cases permit : 0 < queue.sem.concurrency
    · simp only [wait, FiberSemaphore.wait, permit, if_true, holders, List.length_cons]
        at counted ⊢
      omega
    · simpa [wait, FiberSemaphore.wait, permit, holders] using counted
  ordered := sound.ordered
  idle := FiberSemaphore.wait_idle sound.idle fiber

theorem resume_sound (sound : queue.Sound) (member : fiber ∈ queue.woken) :
    (queue.resume fiber).Sound where
  counted := by
    have counted := sound.counted
    have fewer := List.length_erase_of_mem member
    have some := List.length_pos_of_mem member
    simp only [resume, holders, fewer, List.length_cons] at counted ⊢
    omega
  ordered := sound.ordered
  idle := sound.idle

theorem holder_has_data (sound : queue.Sound) (member : fiber ∈ queue.passed) :
    queue.datas ≠ [] := by
  have counted := sound.counted
  have some := List.length_pos_of_mem member
  intro empty
  rw [empty, holders, List.length_nil] at counted
  omega

theorem remove_sound (sound : queue.Sound) (member : fiber ∈ queue.passed) :
    ∃ after, queue.remove fiber = .ok after ∧ after.Sound := by
  have counted := sound.counted
  have ordered := sound.ordered
  have fewer := List.length_erase_of_mem member
  have some := List.length_pos_of_mem member
  cases datas : queue.datas with
  | nil => exact absurd datas (holder_has_data sound member)
  | cons front rest =>
      rw [datas] at ordered
      simp only [datas, holders, List.length_cons] at counted
      let after : BlockingQueue Data :=
        { queue with
          datas := rest
          passed := queue.passed.erase fiber
          popped := queue.popped ++ [front] }
      have done : queue.remove fiber = .ok after := by rw [remove, datas]
      refine ⟨after, done, ?_, ?_, sound.idle⟩
      · simp only [after, holders, fewer]
        omega
      · simpa [after] using ordered

theorem step_sound {after : Result (BlockingQueue Data)} {action : QueueAction Data}
    (sound : queue.Sound) (taken : step (.ok queue) action = some after) :
    ∃ next, after = .ok next ∧ next.Sound := by
  cases action with
  | push fiber data =>
      rw [step] at taken
      split at taken
      · cases taken
      · exact ⟨_, (Option.some.inj taken).symm, push_sound sound fiber data⟩
  | notify fiber =>
      rw [step] at taken
      split at taken
      · exact ⟨_, (Option.some.inj taken).symm, notify_sound sound ‹_›⟩
      · cases taken
  | wait fiber =>
      rw [step] at taken
      split at taken
      · cases taken
      · exact ⟨_, (Option.some.inj taken).symm, wait_sound sound fiber⟩
  | resume fiber =>
      rw [step] at taken
      split at taken
      · exact ⟨_, (Option.some.inj taken).symm, resume_sound sound ‹_›⟩
      · cases taken
  | remove fiber =>
      rw [step] at taken
      split at taken
      · rcases remove_sound sound ‹_› with ⟨next, done, kept⟩
        rw [done] at taken
        exact ⟨next, (Option.some.inj taken).symm, kept⟩
      · cases taken

/-- Every interleaving of pushes and pops is a run of these steps. -/
abbrev Reached (state : Result (BlockingQueue Data)) : Prop :=
  Transition.Reaches step (fun _ _ => True) (.ok start) state

theorem reached_sound {state : Result (BlockingQueue Data)} (reached : Reached state) :
    ∃ queue, state = .ok queue ∧ queue.Sound := by
  apply Transition.invariant_of_reaches ⟨start, rfl, start_sound⟩ _ reached
  intro state action after sound _ taken
  rcases sound with ⟨queue, same, sound⟩
  rw [same] at taken
  exact step_sound sound taken

/-- No pop finds the list empty, elements leave it in the order they came, and each is accounted
for. A semaphore on which anyone waits has no permits, whatever is called on it. -/
theorem fifo_exactly_once :
    (∀ state : Result (BlockingQueue Data), Reached state →
      ∃ queue, state = .ok queue ∧ (∀ fiber ∈ queue.passed, queue.datas ≠ []) ∧
        queue.popped ++ queue.datas = queue.pushed ∧ queue.popped <+: queue.pushed ∧
        queue.sem.concurrency + (queue.woken.length + queue.passed.length) +
          queue.notifying.length = queue.datas.length ∧
        (queue.sem.waiters ≠ [] → queue.sem.concurrency = 0)) ∧
    ∀ (concurrency : Nat) (sem : FiberSemaphore FiberId),
      FiberSemaphore.Reached concurrency sem → sem.waiters ≠ [] → sem.concurrency = 0 := by
  constructor
  · intro state reached
    rcases reached_sound reached with ⟨queue, same, sound⟩
    have front : queue.popped <+: queue.pushed := ⟨queue.datas, sound.ordered⟩
    exact ⟨queue, same, fun fiber member => holder_has_data sound member, sound.ordered, front,
      sound.counted, sound.idle⟩
  · intro concurrency sem reached
    exact FiberSemaphore.reached_idle reached

/-- Two pops wait for two pushes, and the second push overtakes the notify of the first; one of
two fibers gets the only permit of a semaphore. -/
theorem fifo_exactly_once_two :
    (∃ state : Result (BlockingQueue Nat), Reached state ∧
      state.toOption.map popped = some [5] ∧
      ∃ queue, state = .ok queue ∧ (∀ fiber ∈ queue.passed, queue.datas ≠ []) ∧
        queue.popped ++ queue.datas = queue.pushed ∧ queue.popped <+: queue.pushed ∧
        queue.sem.concurrency + (queue.woken.length + queue.passed.length) +
          queue.notifying.length = queue.datas.length ∧
        (queue.sem.waiters ≠ [] → queue.sem.concurrency = 0)) ∧
    ∃ sem : FiberSemaphore FiberId, FiberSemaphore.Reached 1 sem ∧ sem.waiters = [7] ∧
      sem.concurrency = 0 := by
  have reached : ∃ state : Result (BlockingQueue Nat), Reached state ∧
      state.toOption.map popped = some [5] := by
    apply Transition.exists_of_run [.wait 0, .wait 1, .push 2 5, .push 3 6, .notify 3, .resume 0,
      .remove 0]
    decide +kernel
  have waited : ∃ sem : FiberSemaphore FiberId, FiberSemaphore.Reached 1 sem ∧
      sem.waiters = [7] := by
    apply Transition.exists_of_run [.tryWait, .notify, .wait 6, .tryWait, .wait 7]
    decide +kernel
  rcases reached with ⟨state, reached, popped⟩
  rcases waited with ⟨sem, waited, waiters⟩
  refine ⟨⟨state, reached, popped, fifo_exactly_once.1 state reached⟩, sem, waited, waiters, ?_⟩
  apply (@fifo_exactly_once Nat).2 1 sem waited
  simp [waiters]

end BlockingQueue
end ChatServer.Streams
