import ChatServer.Lib.Transition
import ChatServer.Lib.TaskPool

/-!
# Callbacks for a thread

`DynaThread` of `dyna_thread.cc`. Dispatchers push callbacks under the lock and send one byte
behind it; the thread receives what bytes there are, swaps the list out under the lock and runs
it. Bytes and callbacks do not correspond: one `recv` may take the bytes of many dispatchers, and
the list may be taken before the byte of a dispatcher comes.
-/

namespace ChatServer.Fiber

set_option autoImplicit false

/-- Where `read_cb` is: outside, between `recv` and the swap, or with the list that it has
swapped out, of that many callbacks. -/
inductive ReadStage (Cb : Type) where
  | waiting
  | received
  | running (rest : List (Option Cb)) (size : Nat)
  deriving DecidableEq

/-- A callback may be null, which stops the thread. `bytes` are in the socket, `sending` holds what
dispatchers have pushed whose byte is to come, and `loopbreak` says that the event loop ends.
`pushed`, `refused`, `executed` and `dropped` are histories; `dropped` was swapped out behind a null
callback, at which the loop over the list ends. -/
structure DynaThread (Cb : Type) where
  callbacks : List (Option Cb)
  bytes : Nat
  sending : List (List (Option Cb))
  stage : ReadStage Cb
  loopbreak : Bool
  working : Bool
  start : Bool
  total : UInt64
  pushed : List (Option Cb)
  refused : List (Option Cb)
  executed : List Cb
  dropped : List (Option Cb)
  deriving DecidableEq

inductive ThreadAction (Cb : Type) where
  | dispatch (cb : Option Cb)
  | batchDispatch (cbs : List (Option Cb))
  | send (place : Nat) (sent : Bool)
  | recv (count : Nat)
  | swap
  | run
  deriving DecidableEq

namespace DynaThread

variable {Cb : Type}

/-- Behind `start`. -/
def started : DynaThread Cb := ⟨[], 0, [], .waiting, false, false, true, 0, [], [], [], []⟩

def push (thread : DynaThread Cb) (cbs : List (Option Cb)) : DynaThread Cb :=
  { thread with
    callbacks := thread.callbacks ++ cbs
    sending := thread.sending ++ [cbs]
    pushed := thread.pushed ++ cbs }

def dispatch (thread : DynaThread Cb) (cb : Option Cb) : DynaThread Cb := thread.push [cb]

def batchDispatch (thread : DynaThread Cb) (cbs : List (Option Cb)) : DynaThread Cb :=
  thread.push cbs

/-- The rest of a dispatch, which returns whether the byte was sent. -/
def send (thread : DynaThread Cb) (place : Nat) (cbs : List (Option Cb)) (sent : Bool) :
    DynaThread Cb :=
  { thread with
    sending := thread.sending.eraseIdx place
    bytes := if sent then thread.bytes + 1 else thread.bytes
    refused := if sent then thread.refused else thread.refused ++ cbs }

def behindNull : List (Option Cb) → List (Option Cb)
  | [] => []
  | none :: rest => rest
  | some _ :: rest => behindNull rest

def swap (thread : DynaThread Cb) : DynaThread Cb :=
  { thread with
    callbacks := []
    stage := .running thread.callbacks thread.callbacks.length
    working := true
    dropped := thread.dropped ++ behindNull thread.callbacks }

/-- One round of the loop of `read_cb`, or what stands behind it. -/
def run (thread : DynaThread Cb) (size : Nat) : List (Option Cb) → DynaThread Cb
  | some cb :: rest =>
      { thread with stage := .running rest size, executed := thread.executed ++ [cb] }
  | none :: _ => { thread with stage := .running [] size, loopbreak := true, start := false }
  | [] => { thread with
      stage := .waiting
      total := thread.total + UInt64.ofNat size
      working := false }

def step (thread : DynaThread Cb) : ThreadAction Cb → Option (DynaThread Cb)
  | .dispatch cb => some (thread.dispatch cb)
  | .batchDispatch cbs => some (thread.batchDispatch cbs)
  | .send place sent => thread.sending[place]?.map fun cbs => thread.send place cbs sent
  | .recv count =>
      match thread.stage with
      | .waiting =>
          if thread.loopbreak = false ∧ 0 < count ∧ count ≤ min thread.bytes 4096 then
            some { thread with bytes := thread.bytes - count, stage := .received }
          else none
      | _ => none
  | .swap =>
      match thread.stage with
      | .received => some thread.swap
      | _ => none
  | .run =>
      match thread.stage with
      | .running rest size => some (thread.run size rest)
      | _ => none

/-- Every byte is sent. -/
def Sends (_ : DynaThread Cb) (action : ThreadAction Cb) : Prop :=
  ∀ place, action ≠ .send place false

instance (thread : DynaThread Cb) (action : ThreadAction Cb) : Decidable (thread.Sends action) :=
  match action with
  | .send place false => .isFalse fun sends => sends place rfl
  | .send _ true | .dispatch _ | .batchDispatch _ | .recv _ | .swap | .run =>
      .isTrue fun _ same => by cases same

def hand (thread : DynaThread Cb) : List (Option Cb) :=
  match thread.stage with
  | .running rest _ => rest
  | _ => []

/-- Callbacks are run in the order they were pushed until one stops the loop, and somebody is
going to see the list unless it is empty. -/
structure Sound (thread : DynaThread Cb) : Prop where
  ordered : thread.executed.map some <+: thread.pushed
  accounted : thread.loopbreak = false →
    thread.executed.map some ++ thread.hand ++ thread.callbacks = thread.pushed
  broken : thread.loopbreak = true → thread.hand = [] ∧ thread.stage ≠ .received
  awaited : thread.callbacks ≠ [] →
    0 < thread.bytes ∨ thread.sending ≠ [] ∨ thread.stage = .received

variable {thread after : DynaThread Cb} {action : ThreadAction Cb}

theorem started_sound : (started : DynaThread Cb).Sound :=
  ⟨List.prefix_rfl, fun _ => rfl, fun broken => absurd broken Bool.false_ne_true,
    fun filled => absurd rfl filled⟩

theorem push_sound (sound : thread.Sound) (cbs : List (Option Cb)) : (thread.push cbs).Sound where
  ordered := sound.ordered.trans (List.prefix_append _ _)
  accounted := by
    intro going
    have before := sound.accounted going
    rw [push, ← before]
    exact (List.append_assoc _ _ _).symm
  broken := sound.broken
  awaited := by
    intro _
    right
    left
    exact List.append_ne_nil_of_right_ne_nil _ (List.cons_ne_nil _ _)

theorem send_sound (sound : thread.Sound) (place : Nat) (cbs : List (Option Cb)) :
    (thread.send place cbs true).Sound where
  ordered := sound.ordered
  accounted := sound.accounted
  broken := sound.broken
  awaited := fun _ => Or.inl (Nat.succ_pos _)

theorem recv_sound (sound : thread.Sound) (waiting : thread.stage = .waiting)
    (going : thread.loopbreak = false) (count : Nat) :
    { thread with bytes := thread.bytes - count, stage := .received }.Sound where
  ordered := sound.ordered
  accounted := by
    intro _
    have before := sound.accounted going
    rw [hand, waiting] at before
    exact before
  broken := by
    intro broken
    have set : thread.loopbreak = true := broken
    rw [going] at set
    cases set
  awaited := fun _ => Or.inr (Or.inr rfl)

theorem swap_sound (sound : thread.Sound) (received : thread.stage = .received) :
    thread.swap.Sound where
  ordered := sound.ordered
  accounted := by
    intro going
    have before := sound.accounted going
    rw [hand, received, List.append_nil] at before
    rw [swap, hand, List.append_nil]
    exact before
  broken := fun broken => absurd received (sound.broken broken).2
  awaited := fun filled => absurd rfl filled

theorem run_sound {rest : List (Option Cb)} {size : Nat} (sound : thread.Sound)
    (running : thread.stage = .running rest size) : (thread.run size rest).Sound := by
  have held : thread.hand = rest := by rw [hand, running]
  have awaited := sound.awaited
  rw [running] at awaited
  have onward : thread.callbacks ≠ [] → 0 < thread.bytes ∨ thread.sending ≠ [] := by
    intro filled
    rcases awaited filled with bytes | sending | received
    · exact Or.inl bytes
    · exact Or.inr sending
    · cases received
  have left : ∀ stage : ReadStage Cb, thread.callbacks ≠ [] →
      0 < thread.bytes ∨ thread.sending ≠ [] ∨ stage = .received := by
    intro stage filled
    exact (onward filled).imp_right Or.inl
  cases rest with
  | nil =>
      refine ⟨sound.ordered, ?_, ?_, left _⟩
      · intro going
        have before := sound.accounted going
        rw [held] at before
        exact before
      · intro _
        exact ⟨rfl, by simp [run]⟩
  | cons front rest =>
      cases front with
      | none =>
          refine ⟨sound.ordered, ?_, ?_, left _⟩
          · intro going
            cases going
          · intro _
            exact ⟨rfl, by simp [run]⟩
      | some cb =>
          have going : thread.loopbreak = false := by
            by_contra broken
            have empty := (sound.broken (Bool.not_eq_false _ ▸ broken)).1
            rw [held] at empty
            cases empty
          have before := sound.accounted going
          rw [held] at before
          have moved : (thread.executed ++ [cb]).map some ++ rest ++ thread.callbacks =
              thread.pushed := by
            rw [← before, List.map_append]
            simp
          refine ⟨⟨rest ++ thread.callbacks, ?_⟩, fun _ => moved, ?_, left _⟩
          · rw [← List.append_assoc]
            exact moved
          · intro broken
            have set : thread.loopbreak = true := broken
            rw [going] at set
            cases set

theorem step_sound (sound : thread.Sound) (sends : thread.Sends action)
    (taken : thread.step action = some after) : after.Sound := by
  cases action with
  | dispatch cb =>
      cases taken
      exact push_sound sound [cb]
  | batchDispatch cbs =>
      cases taken
      exact push_sound sound cbs
  | send place sent =>
      rcases Option.map_eq_some_iff.mp taken with ⟨cbs, _, same⟩
      cases sent with
      | false => exact absurd rfl (sends place)
      | true =>
          rw [← same]
          exact send_sound sound place cbs
  | recv count =>
      rw [step] at taken
      split at taken
      · split at taken
        · cases taken
          rename_i waiting met
          exact recv_sound sound waiting met.1 count
        · cases taken
      · cases taken
  | swap =>
      rw [step] at taken
      split at taken
      · cases taken
        exact swap_sound sound ‹_›
      · cases taken
  | run =>
      rw [step] at taken
      split at taken
      · cases taken
        exact run_sound sound ‹_›
      · cases taken

/-- The thread runs what is pushed, in order and once, and misses nothing. -/
theorem dispatched_in_order (reached : Transition.Reaches step Sends started thread) :
    thread.executed.map some <+: thread.pushed ∧
      (thread.callbacks ≠ [] →
        0 < thread.bytes ∨ thread.sending ≠ [] ∨ thread.stage = .received) := by
  have sound := Transition.invariant_of_reaches started_sound
    (fun _ _ _ sound sends taken => step_sound sound sends taken) reached
  exact ⟨sound.ordered, sound.awaited⟩

/-- Two dispatchers push before the first byte, and their callbacks are taken with it. -/
theorem dispatched_in_order_three : ∃ thread : DynaThread Nat,
    (Transition.Reaches step Sends started thread ∧ thread.executed = [1, 2] ∧
      thread.callbacks = [some 4] ∧ thread.bytes = 1) ∧
    thread.executed.map some <+: thread.pushed ∧
      (thread.callbacks ≠ [] →
        0 < thread.bytes ∨ thread.sending ≠ [] ∨ thread.stage = .received) := by
  have reached : ∃ thread : DynaThread Nat, Transition.Reaches step Sends started thread ∧
      thread.executed = [1, 2] ∧ thread.callbacks = [some 4] ∧ thread.bytes = 1 := by
    apply Transition.exists_of_run [.dispatch (some 1), .batchDispatch [some 2, some 3],
      .send 1 true, .recv 1, .swap, .run, .send 0 true, .dispatch (some 4), .run]
    decide +kernel
  rcases reached with ⟨thread, reached, state⟩
  exact ⟨thread, ⟨reached, state⟩, dispatched_in_order reached⟩

end DynaThread
end ChatServer.Fiber
