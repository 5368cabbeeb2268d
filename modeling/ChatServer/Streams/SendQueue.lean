import ChatServer.Lib.Transition
import Mathlib.Data.List.Basic

/-!
# The send queue of a socket stream

`enqueue` and `doWrite` of `async_socket_stream.cc` over the semaphore of `mutex.cc`. Callers push
under the queue lock and notify behind it, if the queue was empty; one writer waits, swaps the
queue out under the lock and sends what it holds. While the connection is open the writer does
not leave this loop.

A push into an empty queue makes one token, which is first the caller's notification, then a
permit or the grant that wakes the writer, and which the swap uses up. No step loses a token, so
a queue that is not empty always has one.
-/

namespace ChatServer.Streams

set_option autoImplicit false

structure FiberSemaphore (Waiter : Type) where
  concurrency : Nat
  waiters : List Waiter
  deriving DecidableEq

namespace FiberSemaphore

variable {Waiter : Type}

/-- The locked part of `wait`: a permit, or a place among the waiters and `YieldToHold`. -/
def wait (sem : FiberSemaphore Waiter) (waiter : Waiter) : FiberSemaphore Waiter × Bool :=
  if 0 < sem.concurrency then ({ sem with concurrency := sem.concurrency - 1 }, true)
  else ({ sem with waiters := sem.waiters ++ [waiter] }, false)

def notify (sem : FiberSemaphore Waiter) : FiberSemaphore Waiter × Option Waiter :=
  match sem.waiters with
  | next :: rest => ({ sem with waiters := rest }, some next)
  | [] => ({ sem with concurrency := sem.concurrency + 1 }, none)

end FiberSemaphore

inductive Waiter where
  | doWrite
  deriving DecidableEq

/-- Where the fiber of `doWrite` is. A waiter that was notified has its permit and will run
again behind `YieldToHold`. -/
inductive Stage (Ctx : Type) where
  | looping
  | parked
  | woken
  | passed
  | sending (ctxs : List Ctx)
  deriving DecidableEq

namespace Stage

variable {Ctx : Type}

/-- The writer has got its permit and has not swapped yet. -/
def granted : Stage Ctx → Bool
  | .woken | .passed => true
  | _ => false

def waiting : Stage Ctx → List Waiter
  | .parked => [.doWrite]
  | _ => []

def hand : Stage Ctx → List Ctx
  | .sending ctxs => ctxs
  | _ => []

end Stage

/-- `notifying` holds the callers of `enqueue` between their push and their notify; `enqueued`
and `sent` are histories. -/
structure SendQueue (Ctx : Type) where
  queue : List Ctx
  sem : FiberSemaphore Waiter
  stage : Stage Ctx
  notifying : List Nat
  enqueued : List Ctx
  sent : List Ctx
  deriving DecidableEq

/-- The locked sections of `enqueue` and `doWrite`, and what lies between them. -/
inductive Action (Ctx : Type) where
  | push (caller : Nat) (ctx : Ctx)
  | notify (caller : Nat)
  | wait
  | resume
  | swap
  | doSend
  | loop

namespace SendQueue

variable {Ctx : Type}

/-- A stream that starts with permits that an earlier connection has left. -/
def start (permits : Nat) : SendQueue Ctx := ⟨[], ⟨permits, []⟩, .looping, [], [], []⟩

/-- `enqueue` up to `lock.unlock()`; the caller remembers whether the queue was empty. -/
def push (state : SendQueue Ctx) (caller : Nat) (ctx : Ctx) : SendQueue Ctx :=
  let empty := state.queue.isEmpty
  { state with
    queue := state.queue ++ [ctx]
    enqueued := state.enqueued ++ [ctx]
    notifying := if empty then caller :: state.notifying else state.notifying }

def notify (state : SendQueue Ctx) (caller : Nat) : SendQueue Ctx :=
  let (sem, next) := state.sem.notify
  { state with
    sem
    notifying := state.notifying.erase caller
    stage := match next with
      | some .doWrite => .woken
      | none => state.stage }

def wait (state : SendQueue Ctx) : SendQueue Ctx :=
  let (sem, passed) := state.sem.wait .doWrite
  { state with sem, stage := if passed then .passed else .parked }

def swap (state : SendQueue Ctx) : SendQueue Ctx :=
  { state with queue := [], stage := .sending state.queue }

def step (state : SendQueue Ctx) : Action Ctx → Option (SendQueue Ctx)
  | .push caller ctx => if caller ∈ state.notifying then none else some (state.push caller ctx)
  | .notify caller => if caller ∈ state.notifying then some (state.notify caller) else none
  | .wait => match state.stage with
      | .looping => some state.wait
      | _ => none
  | .resume => match state.stage with
      | .woken => some { state with stage := .passed }
      | _ => none
  | .swap => match state.stage with
      | .passed => some state.swap
      | _ => none
  | .doSend => match state.stage with
      | .sending (ctx :: rest) =>
          some { state with stage := .sending rest, sent := state.sent ++ [ctx] }
      | _ => none
  | .loop => match state.stage with
      | .sending [] => some { state with stage := .looping }
      | _ => none

def tokens (state : SendQueue Ctx) : Nat :=
  state.notifying.length + state.sem.concurrency + state.stage.granted.toNat

structure Awaited (state : SendQueue Ctx) : Prop where
  waiting : state.sem.waiters = state.stage.waiting
  idle : state.stage.waiting ≠ [] → state.sem.concurrency = 0

structure Sound (state : SendQueue Ctx) : Prop where
  awaited : Awaited state
  pending : state.queue ≠ [] → 0 < state.tokens
  ordered : state.sent ++ state.stage.hand ++ state.queue = state.enqueued

theorem start_sound (permits : Nat) : Sound (start permits : SendQueue Ctx) :=
  ⟨⟨rfl, fun waits => absurd rfl waits⟩, fun filled => absurd rfl filled, rfl⟩

theorem push_sound {state : SendQueue Ctx} (sound : Sound state) (caller : Nat) (ctx : Ctx) :
    Sound (state.push caller ctx) := by
  refine ⟨⟨sound.awaited.waiting, sound.awaited.idle⟩, ?_, ?_⟩
  · intro _
    cases filled : state.queue with
    | nil =>
        simp only [tokens, push, filled, List.isEmpty_nil, if_true, List.length_cons]
        omega
    | cons first rest =>
        have kept := sound.pending (by simp [filled])
        simpa [tokens, push, filled] using kept
  · simp [push, ← sound.ordered]

/-- Notifying turns the caller's token into a permit, or hands it to the parked writer. -/
theorem notify_tokens {state : SendQueue Ctx} (awaited : Awaited state) {caller : Nat}
    (member : caller ∈ state.notifying) : (state.notify caller).tokens = state.tokens := by
  have one := List.length_erase_of_mem member
  have some := List.length_pos_of_mem member
  have waiting := awaited.waiting
  cases stage : state.stage <;> rw [stage] at waiting <;>
    simp only [Stage.waiting] at waiting <;>
    simp only [tokens, notify, FiberSemaphore.notify, waiting, stage, one, Stage.granted,
      Bool.toNat_true, Bool.toNat_false] <;> omega

theorem notify_awaited {state : SendQueue Ctx} (awaited : Awaited state) (caller : Nat) :
    Awaited (state.notify caller) := by
  have waiting := awaited.waiting
  cases stage : state.stage <;> rw [stage] at waiting <;>
    simp only [Stage.waiting] at waiting <;>
    constructor <;> simp [notify, FiberSemaphore.notify, waiting, stage, Stage.waiting]

theorem notify_hand {state : SendQueue Ctx} (awaited : Awaited state) (caller : Nat) :
    (state.notify caller).stage.hand = state.stage.hand := by
  have waiting := awaited.waiting
  cases stage : state.stage <;> rw [stage] at waiting <;>
    simp only [Stage.waiting] at waiting <;>
    simp [notify, FiberSemaphore.notify, waiting, stage, Stage.hand]

theorem notify_sound {state : SendQueue Ctx} (sound : Sound state) {caller : Nat}
    (member : caller ∈ state.notifying) : Sound (state.notify caller) := by
  have queue : (state.notify caller).queue = state.queue := rfl
  have histories : (state.notify caller).sent = state.sent ∧
      (state.notify caller).enqueued = state.enqueued := ⟨rfl, rfl⟩
  refine ⟨notify_awaited sound.awaited caller, ?_, ?_⟩
  · rw [queue, notify_tokens sound.awaited member]
    exact sound.pending
  · rw [histories.1, histories.2, queue, notify_hand sound.awaited caller]
    exact sound.ordered

theorem wait_sound {state : SendQueue Ctx} (sound : Sound state)
    (looping : state.stage = .looping) : Sound state.wait := by
  have waiting := sound.awaited.waiting
  have ordered := sound.ordered
  have pending := sound.pending
  rw [looping] at waiting ordered
  simp only [Stage.waiting] at waiting
  by_cases permit : 0 < state.sem.concurrency
  · refine ⟨⟨?_, ?_⟩, ?_, ?_⟩
    · simp [wait, FiberSemaphore.wait, permit, waiting, Stage.waiting]
    · simp [wait, FiberSemaphore.wait, permit, Stage.waiting]
    · simp [tokens, wait, FiberSemaphore.wait, permit, Stage.granted]
    · simpa [wait, FiberSemaphore.wait, permit, Stage.hand] using ordered
  · refine ⟨⟨?_, ?_⟩, ?_, ?_⟩
    · simp [wait, FiberSemaphore.wait, permit, waiting, Stage.waiting]
    · intro _
      simp only [wait, FiberSemaphore.wait, permit, if_false]
      omega
    · intro filled
      have kept := pending filled
      simp only [tokens, looping, Stage.granted, Bool.toNat_false] at kept
      simpa [tokens, wait, FiberSemaphore.wait, permit, Stage.granted] using kept
    · simpa [wait, FiberSemaphore.wait, permit, Stage.hand] using ordered

theorem move_sound {state after : SendQueue Ctx} (sound : Sound state)
    (sem : after.sem = state.sem) (notifying : after.notifying = state.notifying)
    (waiting : after.stage.waiting = state.stage.waiting)
    (granted : after.queue ≠ [] → state.queue ≠ [] ∧ after.stage.granted = state.stage.granted)
    (ordered : after.sent ++ after.stage.hand ++ after.queue = after.enqueued) :
    Sound after := by
  refine ⟨⟨?_, ?_⟩, ?_, ordered⟩
  · rw [sem, waiting]
    exact sound.awaited.waiting
  · rw [sem, waiting]
    exact sound.awaited.idle
  · intro filled
    rw [tokens, sem, notifying, (granted filled).2]
    exact sound.pending (granted filled).1

theorem step_sound {state after : SendQueue Ctx} {action : Action Ctx} (sound : Sound state)
    (taken : step state action = some after) : Sound after := by
  have ordered := sound.ordered
  cases action with
  | push caller ctx =>
      rw [step] at taken
      split at taken
      · cases taken
      · cases taken
        exact push_sound sound caller ctx
  | notify caller =>
      rw [step] at taken
      split at taken
      · cases taken
        exact notify_sound sound ‹_›
      · cases taken
  | wait =>
      cases stage : state.stage <;> simp only [step, stage] at taken <;> cases taken
      exact wait_sound sound stage
  | resume =>
      cases stage : state.stage <;> simp only [step, stage] at taken <;> cases taken
      rw [stage] at ordered
      exact move_sound sound rfl rfl (by rw [stage]; rfl) (by rw [stage]; exact fun h => ⟨h, rfl⟩)
        ordered
  | swap =>
      cases stage : state.stage <;> simp only [step, stage] at taken <;> cases taken
      rw [stage] at ordered
      refine @move_sound _ state state.swap sound rfl rfl (by rw [stage]; rfl) ?_ ?_
      · exact fun filled => absurd rfl filled
      · simpa [swap, Stage.hand] using ordered
  | doSend =>
      cases stage : state.stage with
      | sending ctxs =>
          cases ctxs with
          | nil => simp [step, stage] at taken
          | cons ctx rest =>
              simp only [step, stage] at taken
              cases taken
              rw [stage] at ordered
              refine move_sound sound rfl rfl (by rw [stage]; rfl) ?_ ?_
              · rw [stage]
                exact fun filled => ⟨filled, rfl⟩
              · simpa [Stage.hand] using ordered
      | _ => simp [step, stage] at taken
  | loop =>
      cases stage : state.stage with
      | sending ctxs =>
          cases ctxs with
          | nil =>
              simp only [step, stage] at taken
              cases taken
              rw [stage] at ordered
              exact move_sound sound rfl rfl (by rw [stage]; rfl)
                (by rw [stage]; exact fun filled => ⟨filled, rfl⟩) ordered
          | cons ctx rest => simp [step, stage] at taken
      | _ => simp [step, stage] at taken

/-- Every interleaving of callers and writer is a run of these steps. -/
abbrev Reached (permits : Nat) (state : SendQueue Ctx) : Prop :=
  Transition.Reaches step (fun _ _ => True) (start permits) state

theorem reached_sound {permits : Nat} {state : SendQueue Ctx} (reached : Reached permits state) :
    Sound state :=
  Transition.invariant_of_reaches (start_sound permits)
    (fun _ _ _ sound _ taken => step_sound sound taken) reached

/-- Something in the queue will be sent, and what was sent was queued first, in this order. -/
theorem queue_served_in_order {permits : Nat} {state : SendQueue Ctx}
    (reached : Reached permits state) :
    (state.queue ≠ [] → 0 < state.sem.concurrency ∨ (∃ caller, caller ∈ state.notifying) ∨
      state.stage = .woken ∨ state.stage = .passed) ∧ state.sent <+: state.enqueued := by
  have sound := reached_sound reached
  constructor
  · intro filled
    have kept := sound.pending filled
    cases callers : state.notifying with
    | cons caller rest => exact .inr (.inl ⟨caller, List.mem_cons_self⟩)
    | nil =>
        cases stage : state.stage with
        | woken => exact .inr (.inr (.inl rfl))
        | passed => exact .inr (.inr (.inr rfl))
        | _ =>
            left
            simpa [tokens, callers, stage, Stage.granted] using kept
  · rw [← sound.ordered, List.append_assoc]
    exact List.prefix_append _ _

/-- The second caller pushes while the writer sends what the first one pushed. -/
theorem queue_served_in_order_two : ∃ state : SendQueue Nat, Reached 0 state ∧
    (state.queue = [2] ∧ state.sent = [1]) ∧
    (state.queue ≠ [] → 0 < state.sem.concurrency ∨ (∃ caller, caller ∈ state.notifying) ∨
      state.stage = .woken ∨ state.stage = .passed) ∧ state.sent <+: state.enqueued := by
  have reached : ∃ state : SendQueue Nat, Reached 0 state ∧ state.queue = [2] ∧ state.sent = [1] :=
    Transition.exists_of_run [.wait, .push 0 1, .notify 0, .resume, .swap, .push 1 2, .doSend]
      (by decide +kernel)
  obtain ⟨state, reached, held⟩ := reached
  exact ⟨state, reached, held, queue_served_in_order reached⟩

end SendQueue
end ChatServer.Streams
