import ChatServer.Fiber.TimerExpiry

/-!
# When timers fire

Runs of the calls on a `TimerManager` under a clock that never goes back. Beside the manager
stands the time before which the callback of a timer must not come out of `listExpiredCb`, in
exact arithmetic, while `m_next` is a sum modulo `2^64`. `refresh` and `reset` read the clock with
the mutex held; `addTimer` and `listExpiredCb` read it before they have the mutex, so their
reading may be behind. The second part is the wait that `IOManager::idle` passes to `epoll_wait`.
-/

namespace ChatServer.Fiber

set_option autoImplicit false

variable {Callback : Type}

open TimerManager

structure TimedCall (Callback : Type) where
  clock : UInt64
  call : TimerCall Callback

def TimerCall.Read (clock : UInt64) : TimerCall Callback → Prop
  | .addTimer _ _ _ _ now | .listExpiredCb _ now => now ≤ clock
  | .refresh _ now | .reset _ _ _ now | .getNextTimer now => now = clock
  | .cancel _ | .release _ => True

instance (clock : UInt64) (call : TimerCall Callback) : Decidable (call.Read clock) :=
  match call with
  | .addTimer _ _ _ _ now | .listExpiredCb _ now => inferInstanceAs (Decidable (now ≤ clock))
  | .refresh _ now | .reset _ _ _ now | .getNextTimer now =>
      inferInstanceAs (Decidable (now = clock))
  | .cancel _ | .release _ => inferInstanceAs (Decidable True)

/-- `promised` is a history: the time of the last `addTimer` or `reset(ms, true)` of a timer plus
the interval it was given. A `reset(ms, false)` to another interval takes that back. -/
structure TimedManager (Callback : Type) where
  state : Result (TimerManager Callback)
  clock : UInt64
  promised : Address → Nat

def TimedManager.begin (previousTime : UInt64) : TimedManager Callback :=
  ⟨.ok (start previousTime), previousTime, fun _ => 0⟩

def resets (manager : TimerManager Callback) (timer : Address) (ms : UInt64) (fromNow : Bool)
    (now : UInt64) : Bool :=
  (manager.reset timer ms fromNow now).toOption.any Prod.snd

def promise (manager : TimerManager Callback) (promised : Address → Nat) :
    TimerCall Callback → Address → Nat
  | .addTimer address ms _ _ now => Function.update promised address (now.toNat + ms.toNat)
  | .reset timer ms fromNow now =>
      if resets manager timer ms fromNow now then
        if fromNow then Function.update promised timer (now.toNat + ms.toNat)
        else if (manager.heap timer).any (fun before => before.ms = ms) then promised
        else Function.update promised timer 0
      else promised
  | .cancel _ | .refresh _ _ | .getNextTimer _ | .listExpiredCb _ _ | .release _ => promised

def timedStep (timed : TimedManager Callback) (action : TimedCall Callback) :
    Option (TimedManager Callback) :=
  match timed.state with
  | .error _ => none
  | .ok manager =>
      if timed.clock ≤ action.clock ∧ action.call.Read action.clock ∧
          action.call.Possible manager then
        some ⟨action.call.perform manager, action.clock,
          promise manager timed.promised action.call⟩
      else none

/-- The sum for `m_next` does not wrap, and `listExpiredCb` has not waited so long for the mutex
that its reading counts as a rollover. -/
def TimerCall.Sound (manager : TimerManager Callback) : TimerCall Callback → Prop
  | .addTimer _ ms _ _ now => now.toNat + ms.toNat < 2 ^ 64
  | .refresh timer now => ∀ before ∈ manager.heap timer, now.toNat + before.ms.toNat < 2 ^ 64
  | .reset _ ms fromNow now => fromNow = true → now.toNat + ms.toNat < 2 ^ 64
  | .listExpiredCb _ now => manager.rolledOver now = false
  | .cancel _ | .getNextTimer _ | .release _ => True

instance (manager : TimerManager Callback) (call : TimerCall Callback) :
    Decidable (call.Sound manager) :=
  match call with
  | .addTimer _ ms _ _ now => inferInstanceAs (Decidable (now.toNat + ms.toNat < 2 ^ 64))
  | .refresh timer now =>
      inferInstanceAs (Decidable (∀ before ∈ manager.heap timer,
        now.toNat + before.ms.toNat < 2 ^ 64))
  | .reset _ ms fromNow now =>
      inferInstanceAs (Decidable (fromNow = true → now.toNat + ms.toNat < 2 ^ 64))
  | .listExpiredCb _ now => inferInstanceAs (Decidable (manager.rolledOver now = false))
  | .cancel _ | .getNextTimer _ | .release _ => inferInstanceAs (Decidable True)

def SoundStep (timed : TimedManager Callback) (action : TimedCall Callback) : Prop :=
  match timed.state with
  | .error _ => True
  | .ok manager => action.call.Sound manager

instance (timed : TimedManager Callback) (action : TimedCall Callback) :
    Decidable (SoundStep timed action) :=
  match timed with
  | ⟨.error _, _, _⟩ => inferInstanceAs (Decidable True)
  | ⟨.ok manager, _, _⟩ => inferInstanceAs (Decidable (action.call.Sound manager))

structure Kept (manager : TimerManager Callback) (clock : UInt64) (promised : Address → Nat) :
    Prop where
  sorted : manager.Sorted
  checked : manager.previousTime ≤ clock
  interval : ∀ address timer, manager.heap address = some timer →
    promised address ≤ clock.toNat + timer.ms.toNat
  deadline : ∀ address timer, address ∈ manager.timers → manager.heap address = some timer →
    promised address ≤ max timer.next.toNat clock.toNat

theorem start_kept (previousTime : UInt64) :
    Kept (start previousTime : TimerManager Callback) previousTime fun _ => 0 where
  sorted := start_sorted previousTime
  checked := UInt64.le_refl previousTime
  interval := by simp
  deadline := by simp

variable {manager after : TimerManager Callback} {clock : UInt64} {promised : Address → Nat}

namespace Kept

theorem later (kept : Kept manager clock promised) {now : UInt64} (passed : clock ≤ now) :
    Kept manager now promised where
  sorted := kept.sorted
  checked := UInt64.le_trans kept.checked passed
  interval := by
    intro address timer found
    have before := kept.interval address timer found
    have order := UInt64.le_iff_toNat_le.mp passed
    omega
  deadline := by
    intro address timer member found
    have before := kept.deadline address timer member found
    have order := UInt64.le_iff_toNat_le.mp passed
    omega

theorem rewrite (kept : Kept manager clock promised) {this : Address} {timer : Timer Callback}
    {value : Nat} (sorted : after.Sorted) (checked : after.previousTime ≤ clock)
    (heap : after.heap = Function.update manager.heap this (some timer))
    (timers : ∀ address, address ∈ after.timers → address ≠ this → address ∈ manager.timers)
    (interval : value ≤ clock.toNat + timer.ms.toNat)
    (deadline : this ∈ after.timers → value ≤ max timer.next.toNat clock.toNat) :
    Kept after clock (Function.update promised this value) where
  sorted := sorted
  checked := checked
  interval := by
    intro address other found
    rw [heap] at found
    by_cases same : address = this
    · subst same
      rw [Function.update_self] at found ⊢
      cases found
      exact interval
    · rw [Function.update_of_ne same] at found ⊢
      exact kept.interval address other found
  deadline := by
    intro address other member found
    rw [heap] at found
    by_cases same : address = this
    · subst same
      rw [Function.update_self] at found ⊢
      cases found
      exact deadline member
    · rw [Function.update_of_ne same] at found ⊢
      exact kept.deadline address other (timers address member same) found

theorem rewrite_same (kept : Kept manager clock promised) {this : Address}
    {timer : Timer Callback} (sorted : after.Sorted) (checked : after.previousTime ≤ clock)
    (heap : after.heap = Function.update manager.heap this (some timer))
    (timers : ∀ address, address ∈ after.timers → address ≠ this → address ∈ manager.timers)
    (interval : promised this ≤ clock.toNat + timer.ms.toNat)
    (deadline : this ∈ after.timers → promised this ≤ max timer.next.toNat clock.toNat) :
    Kept after clock promised := by
  have written := kept.rewrite sorted checked heap timers interval deadline
  rwa [Function.update_eq_self] at written

theorem addTimer (kept : Kept manager clock promised) {this : Address} {ms now : UInt64}
    {cb : Option Callback} {recurring : Bool} (read : now ≤ clock)
    (free : manager.heap this = none) (fits : now.toNat + ms.toNat < 2 ^ 64) :
    Kept (manager.addTimer this ms cb recurring now).1 clock
      (Function.update promised this (now.toNat + ms.toNat)) := by
  have absent : this ∉ manager.timers := fun member => kept.sorted.live this member free
  have written := kept.sorted.write_out absent ⟨ms, now + ms, cb, recurring⟩
  have live : (manager.write this ⟨ms, now + ms, cb, recurring⟩).heap this ≠ none := by
    simp [write]
  have inserted := insert_split written.ordered written.live live absent
  have order := UInt64.le_iff_toNat_le.mp read
  apply kept.rewrite (kept.sorted.addTimer free ms cb recurring now) kept.checked rfl
  · intro address member different
    exact ((inserted.1 address).mp member).resolve_left different
  · exact Nat.add_le_add_right order ms.toNat
  · intro _
    have next : (now + ms).toNat = now.toNat + ms.toNat := by
      rw [UInt64.toNat_add, Nat.mod_eq_of_lt fits]
    exact next ▸ Nat.le_max_left _ _

theorem refresh (kept : Kept manager clock promised) {this : Address} {refreshed : Bool}
    (fits : ∀ before, manager.heap this = some before → clock.toNat + before.ms.toNat < 2 ^ 64)
    (done : manager.refresh this clock = .ok (after, refreshed)) :
    Kept after clock promised := by
  rcases refresh_cases kept.sorted done with unchanged | ⟨timer, found, moved⟩
  · rw [unchanged]
    exact kept
  · have promise := kept.interval this timer found
    apply kept.rewrite_same moved.sorted (moved.previousTime ▸ kept.checked) moved.heap
      (fun address member _ => (moved.timers address).mp member) promise
    intro _
    have next : (clock + timer.ms).toNat = clock.toNat + timer.ms.toNat := by
      rw [UInt64.toNat_add, Nat.mod_eq_of_lt (fits timer found)]
    exact Nat.le_trans (next ▸ promise) (Nat.le_max_left _ _)

theorem reset (kept : Kept manager clock promised) {this : Address} {ms : UInt64}
    {fromNow known : Bool} (fits : fromNow = true → clock.toNat + ms.toNat < 2 ^ 64)
    (done : manager.reset this ms fromNow clock = .ok (after, known)) :
    Kept after clock (promise manager promised (.reset this ms fromNow clock)) := by
  have answered : resets manager this ms fromNow clock = known := by
    rw [resets, done]
    rfl
  rw [promise, answered]
  rcases reset_cases kept.sorted done with ⟨unchanged, same⟩ | ⟨timer, found, known, moved⟩
  · rw [unchanged]
    cases known with
    | false => exact kept
    | true =>
        rcases same rfl with ⟨steady, timer, found, interval⟩
        have matched : (manager.heap this).any (fun before => before.ms = ms) = true := by
          simp [found, interval]
        rw [steady, matched]
        exact kept
  · have timers := fun address member (_ : address ≠ this) => (moved.timers address).mp member
    have checked : after.previousTime ≤ clock := moved.previousTime ▸ kept.checked
    rw [known, if_pos rfl]
    cases fromNow with
    | true =>
        rw [if_pos rfl]
        apply kept.rewrite moved.sorted checked moved.heap timers (Nat.le_refl _)
        intro _
        have next : (clock + ms).toNat = clock.toNat + ms.toNat := by
          rw [UInt64.toNat_add, Nat.mod_eq_of_lt (fits rfl)]
        exact next ▸ Nat.le_max_left _ _
    | false =>
        rw [if_neg Bool.false_ne_true]
        split
        · have interval : timer.ms = ms := by
            have matched : (manager.heap this).any (fun before => before.ms = ms) = true := ‹_›
            simpa [found] using matched
          have promise := kept.interval this timer found
          apply kept.rewrite_same moved.sorted checked moved.heap timers (interval ▸ promise)
          intro member
          have before := kept.deadline this timer ((moved.timers this).mp member) found
          have next : resetStart timer false clock + ms = timer.next := by
            rw [resetStart, if_neg Bool.false_ne_true, ← interval]
            exact UInt64.sub_add_cancel timer.next timer.ms
          rw [next]
          exact before
        · apply kept.rewrite moved.sorted checked moved.heap timers (Nat.zero_le _)
          intro _
          exact Nat.zero_le _

theorem cancel (kept : Kept manager clock promised) {this : Address} {cancelled : Bool}
    (done : manager.cancel this = .ok (after, cancelled)) : Kept after clock promised := by
  rcases cancel_cases kept.sorted done with
    unchanged | ⟨timer, found, sorted, heap, timers, previousTime⟩
  · rw [unchanged]
    exact kept
  · apply kept.rewrite_same sorted (previousTime ▸ kept.checked) heap
      (fun address member _ => timers member) (kept.interval this timer found)
    intro member
    exact kept.deadline this timer (timers member) found

end Kept

/-- Without a rollover nothing comes out before its time, and what comes round is behind its
time from now on. -/
theorem listExpiredCb_kept (kept : Kept manager clock promised) {nowTimer : Address}
    {now : UInt64} {cbs : List (Option Callback)} (free : manager.heap nowTimer = none)
    (read : now ≤ clock) (steady : manager.rolledOver now = false)
    (done : manager.listExpiredCb nowTimer now = .ok (after, cbs)) :
    Kept after clock promised ∧ cbs = (manager.expiring now).map (callbackAt manager.heap) ∧
      ∀ address ∈ manager.expiring now, promised address ≤ clock.toNat := by
  rcases list_expired_cb_expired kept.sorted free now with
    ⟨rest, previousTime, next, callbacks, also, split, time, expired⟩
  rw [done] at also
  cases also
  have passed : ∀ address ∈ manager.expiring now, promised address ≤ clock.toNat := by
    intro address member
    rw [expiring, List.mem_filter, steady, Bool.false_or, is_due_iff] at member
    rcases member with ⟨inside, timer, found, due⟩
    have before := kept.deadline address timer inside found
    have reached := UInt64.le_iff_toNat_le.mp (UInt64.le_trans due read)
    omega
  refine ⟨⟨expired.sorted, ?_, ?_, ?_⟩, expired.callbacks, passed⟩
  · rw [expired.previousTime]
    rcases time with same | same
    · exact same ▸ kept.checked
    · exact same ▸ read
  · intro address timer found
    rw [expired.heap] at found
    split at found
    · rcases Option.map_eq_some_iff.mp found with ⟨before, here, same⟩
      have interval := kept.interval address before here
      have unchanged : timer.ms = before.ms := by
        rw [← same, expiredTimer]
        split <;> rfl
      rw [unchanged]
      exact interval
    · exact kept.interval address timer found
  · intro address timer member found
    by_cases due : address ∈ manager.expiring now
    · exact Nat.le_trans (passed address due) (Nat.le_max_right _ _)
    · rw [expired.heap, if_neg due] at found
      rcases (expired.timers address).mp member with still | ⟨out, _⟩
      · have inside : address ∈ manager.timers := by
          rw [split]
          exact List.mem_append_right _ still
        exact kept.deadline address timer inside found
      · exact absurd out due

theorem perform_kept {call : TimerCall Callback} (kept : Kept manager clock promised)
    (read : call.Read clock) (possible : call.Possible manager) (sound : call.Sound manager)
    (done : call.perform manager = .ok after) :
    Kept after clock (promise manager promised call) := by
  cases call with
  | addTimer address ms cb recurring now =>
      cases done
      exact kept.addTimer read possible sound
  | cancel timer =>
      rcases map_eq_ok done with ⟨⟨next, cancelled⟩, called, same⟩
      rw [← same]
      exact kept.cancel called
  | refresh timer now =>
      rcases map_eq_ok done with ⟨⟨next, refreshed⟩, called, same⟩
      rw [← same]
      cases (show now = clock from read)
      exact kept.refresh sound called
  | reset timer ms fromNow now =>
      rcases map_eq_ok done with ⟨⟨next, known⟩, called, same⟩
      rw [← same]
      cases (show now = clock from read)
      exact kept.reset sound called
  | getNextTimer now =>
      rcases map_eq_ok done with ⟨⟨next, wait⟩, called, same⟩
      rw [← same, get_next_timer_same called]
      exact ⟨{ kept.sorted with }, kept.checked, kept.interval, kept.deadline⟩
  | listExpiredCb nowTimer now =>
      rcases map_eq_ok done with ⟨⟨next, cbs⟩, called, same⟩
      rw [← same]
      exact (listExpiredCb_kept kept possible read sound called).1
  | release timer =>
      have released := perform_sorted kept.sorted possible done
      cases done
      have outside : ∀ address ∈ manager.timers, address ≠ timer :=
        fun address member same => possible.2 (same ▸ member)
      refine ⟨released, kept.checked, ?_, ?_⟩
      · intro address other found
        by_cases same : address = timer
        · simp [same] at found
        · simp only [Function.update_of_ne same] at found
          exact kept.interval address other found
      · intro address other member found
        simp only [Function.update_of_ne (outside address member)] at found
        exact kept.deadline address other member found

theorem step_kept {timed next : TimedManager Callback} {action : TimedCall Callback}
    (kept : ∀ manager, timed.state = .ok manager → Kept manager timed.clock timed.promised)
    (sound : SoundStep timed action) (taken : timedStep timed action = some next) :
    ∀ manager, next.state = .ok manager → Kept manager next.clock next.promised := by
  intro manager same
  cases before : timed.state with
  | error fault =>
      rw [timedStep, before] at taken
      cases taken
  | ok old =>
      rw [timedStep, before] at taken
      dsimp only at taken
      split at taken
      · rename_i conditions
        rcases conditions with ⟨passed, read, possible⟩
        cases taken
        rw [SoundStep, before] at sound
        exact perform_kept ((kept old before).later passed) read possible sound same
      · cases taken

/-- Runs from an empty manager whose steps all meet the condition. -/
abbrev SoundlyReached (previousTime : UInt64) (timed : TimedManager Callback) : Prop :=
  Transition.Reaches timedStep SoundStep (.begin previousTime) timed

theorem timers_reached_of_timed {allowed : TimedManager Callback → TimedCall Callback → Prop}
    {previousTime : UInt64} {timed : TimedManager Callback}
    (reached : Transition.Reaches timedStep allowed (.begin previousTime) timed) :
    TimersReached previousTime timed.state := by
  induction reached with
  | start => exact .start
  | next action before permitted taken induction =>
      rename_i state after
      refine .next action.call induction trivial ?_
      cases here : state.state with
      | error fault =>
          rw [timedStep, here] at taken
          cases taken
      | ok manager =>
          rw [timedStep, here] at taken
          dsimp only at taken
          split at taken
          · rename_i conditions
            cases taken
            exact if_pos conditions.2.2
          · cases taken

theorem reached_kept {previousTime : UInt64} {timed : TimedManager Callback}
    (reached : SoundlyReached previousTime timed) {manager : TimerManager Callback}
    (same : timed.state = .ok manager) : Kept manager timed.clock timed.promised := by
  have kept : ∀ manager, timed.state = .ok manager →
      Kept manager timed.clock timed.promised := by
    apply Transition.invariant_of_reaches _ _ reached
    · intro manager same
      cases same
      exact start_kept previousTime
    · intro state action after before permitted taken
      exact step_kept before permitted taken
  exact kept manager same

/-- `next_timeout` as one turn of the loop around `epoll_wait` leaves it. -/
def clampTimeout (next_timeout : UInt64) : UInt64 :=
  let MAX_TIMEOUT : Int := 5000
  if next_timeout ≠ ~~~0 then
    if int32 next_timeout.toNat > MAX_TIMEOUT then 5000 else next_timeout
  else 5000

/-- The waits that `epoll_wait` is given, by how often a signal interrupts it. -/
def epollWaits (next_timeout : UInt64) : Nat → List Int
  | 0 => [int32 (clampTimeout next_timeout).toNat]
  | interrupted + 1 =>
      int32 (clampTimeout next_timeout).toNat ::
        epollWaits (clampTimeout next_timeout) interrupted

def timeLeft (manager : TimerManager Callback) (now : UInt64) : Option Nat :=
  (manager.timers.head?.bind manager.heap).map fun timer => timer.next.toNat - now.toNat

/-- The waits that `idle` passes when it calls `getNextTimer` at `now` and `epoll_wait` at `now`
and, each time a signal has interrupted it, again. -/
def idleWaits (manager : TimerManager Callback) (now : UInt64) (again : List UInt64) :
    Result (List (UInt64 × Int)) := do
  let (_, next_timeout) ← manager.getNextTimer now
  .ok ((now :: again).zip (epollWaits next_timeout again.length))

/-- The wait is in range and ends before the first timer is due. -/
def WaitFits (manager : TimerManager Callback) (clock : UInt64) (wait : Int) : Prop :=
  0 ≤ wait ∧ wait ≤ 5000 ∧ ∀ address ∈ manager.timers, ∀ timer,
    manager.heap address = some timer → wait ≤ (timer.next.toNat - clock.toNat : Nat)

theorem clamp_timeout_wait (next_timeout : UInt64) :
    int32 (clampTimeout next_timeout).toNat =
      if next_timeout = ~~~0 then 5000 else min (int32 next_timeout.toNat) 5000 := by
  have most : int32 ((5000 : UInt64).toNat : Int) = 5000 := by decide +kernel
  unfold clampTimeout
  dsimp only
  by_cases noTimer : next_timeout = ~~~0
  · rw [if_neg (not_not.mpr noTimer), if_pos noTimer, most]
  · rw [if_pos noTimer, if_neg noTimer]
    split
    · rw [most]
      omega
    · omega

theorem clamp_timeout_clamp (next_timeout : UInt64) :
    clampTimeout (clampTimeout next_timeout) = clampTimeout next_timeout := by
  have most : clampTimeout 5000 = 5000 := by decide +kernel
  unfold clampTimeout
  dsimp only
  split
  · split
    · exact most
    · rfl
  · exact most

theorem epoll_waits_same (interrupted : Nat) : ∀ next_timeout : UInt64,
    epollWaits next_timeout interrupted =
      List.replicate (interrupted + 1) (int32 (clampTimeout next_timeout).toNat) := by
  induction interrupted with
  | zero =>
      intro next_timeout
      rfl
  | succ interrupted induction =>
      intro next_timeout
      rw [epollWaits, induction, clamp_timeout_clamp, ← List.replicate_succ]

theorem forall_zip_replicate {Element Value : Type} (holds : Element → Value → Prop)
    (elements : List Element) (value : Value) :
    (∀ pair ∈ elements.zip (List.replicate elements.length value), holds pair.1 pair.2) ↔
      ∀ element ∈ elements, holds element value := by
  induction elements with
  | nil => simp
  | cons first rest induction =>
      rw [List.length_cons, List.replicate_succ, List.zip_cons_cons, List.forall_mem_cons,
        List.forall_mem_cons, induction]

/-- What the wait is by the time left: nothing of the time left above the lower 32 bits counts,
and bit 31 makes it negative. -/
theorem wait_of_left {next_timeout : UInt64} (bounded : next_timeout.toNat % 2 ^ 32 < 2 ^ 31 ∨
      next_timeout.toNat = 2 ^ 64 - 1) :
    int32 (clampTimeout next_timeout).toNat =
      (min (next_timeout.toNat % 2 ^ 32) 5000 : Nat) := by
  have all : (~~~0 : UInt64).toNat = 2 ^ 64 - 1 := rfl
  rw [clamp_timeout_wait]
  by_cases noTimer : next_timeout = ~~~0
  · rw [if_pos noTimer, noTimer, all]
    omega
  · have different : next_timeout.toNat ≠ 2 ^ 64 - 1 := by
      intro same
      exact noTimer (UInt64.toNat_inj.mp (same.trans all.symm))
    have low : next_timeout.toNat % 2 ^ 32 < 2 ^ 31 := bounded.resolve_right different
    have turns : ((next_timeout.toNat % 2 ^ 32 : Nat) : Int) +
        2 ^ 32 * (next_timeout.toNat / 2 ^ 32 : Nat) = next_timeout.toNat := by omega
    have value : int32 (next_timeout.toNat : Int) = (next_timeout.toNat % 2 ^ 32 : Nat) := by
      rw [← turns, int32_add_turns, int32_of_small low]
    rw [if_neg noTimer, value]
    omega

theorem wait_negative {next_timeout : UInt64} (low : 2 ^ 31 ≤ next_timeout.toNat % 2 ^ 32)
    (different : next_timeout.toNat ≠ 2 ^ 64 - 1) :
    int32 (clampTimeout next_timeout).toNat < 0 := by
  have noTimer : next_timeout ≠ ~~~0 := by
    intro same
    exact different (same ▸ rfl)
  have turns : ((next_timeout.toNat % 2 ^ 32 : Nat) : Int) +
      2 ^ 32 * (next_timeout.toNat / 2 ^ 32 : Nat) = next_timeout.toNat := by omega
  have value : int32 (next_timeout.toNat : Int) =
      ((next_timeout.toNat % 2 ^ 32 : Nat) : Int) - 2 ^ 32 := by
    rw [← turns, int32_add_turns]
    exact int32_overflow (by omega) (by omega)
  rw [clamp_timeout_wait, if_neg noTimer, value]
  omega

/-- Bit 31 of the time left is clear, or there is no timer; and when a signal has interrupted
`epoll_wait`, there is still as much time left as it is made to wait again. -/
def WaitBounded (manager : TimerManager Callback) (now : UInt64) (again : List UInt64) : Prop :=
  ∀ left, timeLeft manager now = some left →
    (left % 2 ^ 32 < 2 ^ 31 ∨ left = 2 ^ 64 - 1) ∧
      ∀ clock ∈ again, ∀ later, timeLeft manager clock = some later →
        min (left % 2 ^ 32) 5000 ≤ later

theorem wait_fits_iff (sorted : manager.Sorted) (clock : UInt64) (wait : Int) :
    WaitFits manager clock wait ↔ 0 ≤ wait ∧ wait ≤ 5000 ∧
      ∀ left, timeLeft manager clock = some left → wait ≤ left := by
  rw [WaitFits, and_congr_right_iff]
  intro lower
  rw [and_congr_right_iff]
  intro upper
  cases timers : manager.timers with
  | nil => simp [timeLeft, timers]
  | cons first rest =>
      rcases Option.ne_none_iff_exists'.mp (sorted.live first (by simp [timers])) with
        ⟨begin, begins⟩
      have left : timeLeft manager clock = some (begin.next.toNat - clock.toNat) := by
        rw [timeLeft, timers, List.head?_cons, Option.bind_some, begins, Option.map_some]
      rw [left]
      constructor
      · intro fits other same
        cases same
        exact fits first (by simp) begin begins
      · intro fits address member timer found
        have before := fits _ rfl
        rcases List.mem_cons.mp member with same | later
        · rw [same, begins] at found
          cases found
          exact before
        · have ordered := sorted.ordered
          rw [timers] at ordered
          have order := UInt64.le_iff_toNat_le.mp
            (next_le_of_earlier begins found (List.rel_of_pairwise_cons ordered later))
          omega

theorem get_next_timer_left (sorted : manager.Sorted) (now : UInt64) :
    ∃ next_timeout, manager.getNextTimer now =
        .ok ({ manager with tickled := false }, next_timeout) ∧
      (timeLeft manager now = none ∧ next_timeout = ~~~0 ∨
        timeLeft manager now = some next_timeout.toNat) := by
  cases timers : manager.timers with
  | nil =>
      refine ⟨~~~0, by simp only [getNextTimer, timers], .inl ⟨?_, rfl⟩⟩
      rw [timeLeft, timers]
      rfl
  | cons first rest =>
      rcases Option.ne_none_iff_exists'.mp (sorted.live first (by simp [timers])) with
        ⟨begin, begins⟩
      refine ⟨if now ≥ begin.next then 0 else begin.next - now,
        by simp only [getNextTimer, timers, begins], .inr ?_⟩
      rw [timeLeft, timers, List.head?_cons, Option.bind_some, begins, Option.map_some]
      split
      · have reached := UInt64.le_iff_toNat_le.mp ‹_›
        rw [Nat.sub_eq_zero_of_le reached]
        rfl
      · have ahead : now ≤ begin.next := UInt64.le_of_lt (UInt64.not_le.mp ‹_›)
        rw [UInt64.toNat_sub_of_le begin.next now ahead]

theorem idle_waits_fit_iff (sorted : manager.Sorted) (now : UInt64) (again : List UInt64) :
    ∃ waits, idleWaits manager now again = .ok waits ∧
      ((∀ passed ∈ waits, WaitFits manager passed.1 passed.2) ↔
        WaitBounded manager now again) := by
  rcases get_next_timer_left sorted now with ⟨next_timeout, called, left⟩
  refine ⟨_, by rw [idleWaits, called, bind_ok], ?_⟩
  rw [epoll_waits_same]
  have passed := forall_zip_replicate (WaitFits manager) (now :: again)
    (int32 (clampTimeout next_timeout).toNat)
  rw [List.length_cons] at passed
  rw [passed]
  simp only [wait_fits_iff sorted]
  rcases left with ⟨missing, all⟩ | present
  · -- Without a timer there is none at any time.
    have never : ∀ clock, timeLeft manager clock = none := by
      intro clock
      rw [timeLeft, Option.map_eq_none_iff] at missing ⊢
      exact missing
    have most : int32 (clampTimeout next_timeout).toNat = 5000 := by
      rw [all]
      decide +kernel
    simp [most, never, WaitBounded]
  · rw [WaitBounded]
    constructor
    · intro fits left same
      rw [present] at same
      cases same
      have bounded : next_timeout.toNat % 2 ^ 32 < 2 ^ 31 ∨ next_timeout.toNat = 2 ^ 64 - 1 := by
        by_contra neither
        simp only [not_or, Nat.not_lt] at neither
        have negative := wait_negative neither.1 neither.2
        have lower := (fits now (by simp)).1
        omega
      refine ⟨bounded, ?_⟩
      intro clock member later at_clock
      have fit := (fits clock (by simp [member])).2.2 later at_clock
      rw [wait_of_left bounded] at fit
      omega
    · intro bounded clock member
      rcases bounded _ present with ⟨low, still⟩
      rw [wait_of_left low]
      refine ⟨by omega, by omega, ?_⟩
      intro left at_clock
      rcases List.mem_cons.mp member with same | later
      · rw [same, present] at at_clock
        cases at_clock
        have part := Nat.mod_le next_timeout.toNat (2 ^ 32)
        omega
      · have enough := still clock later left at_clock
        omega

theorem Kept.steady (kept : Kept manager clock promised) {now : UInt64} (passed : clock ≤ now) :
    manager.rolledOver now = false :=
  rolled_over_of_forward (UInt64.le_trans kept.checked passed)

/-- Where no sum wraps, the callbacks that `listExpiredCb` returns are those of timers whose time
has come; and `idle` passes a wait that fits exactly when the time left is bounded. -/
theorem timers_in_time (previousTime : UInt64) :
    (∀ (timed : TimedManager Callback) (manager : TimerManager Callback),
      SoundlyReached previousTime timed → timed.state = .ok manager →
      (∀ nowTimer now clock, manager.heap nowTimer = none → now ≤ clock → timed.clock ≤ clock →
        manager.rolledOver now = false →
        ∃ after cbs, manager.listExpiredCb nowTimer now = .ok (after, cbs) ∧
          cbs = (manager.expiring now).map (callbackAt manager.heap) ∧
          ∀ address ∈ manager.expiring now, timed.promised address ≤ clock.toNat) ∧
      ∀ now, timed.clock ≤ now → manager.rolledOver now = false) ∧
    ∀ manager : TimerManager Callback, TimersReached previousTime (.ok manager) →
      ∀ now again, ∃ waits, idleWaits manager now again = .ok waits ∧
        ((∀ passed ∈ waits, WaitFits manager passed.1 passed.2) ↔
          WaitBounded manager now again) := by
  refine ⟨?_, ?_⟩
  · intro timed manager reached same
    have kept := reached_kept reached same
    refine ⟨?_, fun now passed => kept.steady passed⟩
    intro nowTimer now clock free read passed steady
    rcases list_expired_cb_expired kept.sorted free now with
      ⟨_, _, after, cbs, done, _, _, _⟩
    have fired := listExpiredCb_kept (kept.later passed) free read steady done
    exact ⟨after, cbs, done, fired.2⟩
  · intro manager reached now again
    exact idle_waits_fit_iff (reached_sorted reached rfl) now again

/-- A recurring timer fires once, and another is put off by `reset`. -/
theorem timers_in_time_two : ∃ (timed : TimedManager Nat) (manager : TimerManager Nat),
    SoundlyReached 5000000 timed ∧ timed.state = .ok manager ∧ manager.timers = [0, 1] ∧
      timed.promised 0 = 5000010 ∧ timed.promised 1 = 5000065 ∧
      (∃ after cbs, manager.listExpiredCb 2 5000070 = .ok (after, cbs) ∧
        cbs = (manager.expiring 5000070).map (callbackAt manager.heap) ∧
        ∀ address ∈ manager.expiring 5000070, timed.promised address ≤ 5000070) ∧
      ∃ waits, idleWaits manager 5000015 [5000016] = .ok waits ∧
        ((∀ passed ∈ waits, WaitFits manager passed.1 passed.2) ↔
          WaitBounded manager 5000015 [5000016]) := by
  have reached : ∃ timed : TimedManager Nat, SoundlyReached 5000000 timed ∧
      timed.state.toOption.any (fun manager => manager.timers = [0, 1] ∧ manager.heap 2 = none) ∧
      timed.promised 0 = 5000010 ∧ timed.promised 1 = 5000065 ∧ timed.clock ≤ 5000070 := by
    apply Transition.exists_of_run [⟨5000000, .addTimer 0 10 (some 7) true 5000000⟩,
      ⟨5000000, .addTimer 1 20 (some 8) false 5000000⟩, ⟨5000010, .listExpiredCb 2 5000010⟩,
      ⟨5000015, .reset 1 50 true 5000015⟩]
    decide +kernel
  rcases reached with ⟨timed, reached, shown, first, second, passed⟩
  cases state : timed.state with
  | error fault =>
      rw [state] at shown
      cases shown
  | ok manager =>
      rw [state] at shown
      rcases of_decide_eq_true shown with ⟨timers, free⟩
      have plain := timers_reached_of_timed reached
      rw [state] at plain
      rcases timers_in_time 5000000 with ⟨early, waits⟩
      rcases early timed manager reached state with ⟨fired, steady⟩
      exact ⟨timed, manager, reached, state, timers, first, second,
        fired 2 5000070 5000070 free (UInt64.le_refl _) passed (steady _ passed),
        waits manager plain 5000015 [5000016]⟩

/-- An interval of `2^64 - 1` ms lets a timer fire at once, and with `2^31` ms left the wait is
negative, which to `epoll_wait` means for ever. -/
theorem timers_out_of_time :
    (∃ (timed : TimedManager Nat) (manager : TimerManager Nat),
      Transition.Reaches timedStep (fun _ _ => True) (.begin 1000) timed ∧
      timed.state = .ok manager ∧ timed.clock = 1000 ∧
      timed.promised 0 = 1000 + (2 ^ 64 - 1) ∧
      ∃ after, manager.listExpiredCb 1 1000 = .ok (after, [some 7])) ∧
    ∃ manager : TimerManager Nat, TimersReached 1000 (.ok manager) ∧
      idleWaits manager 1000 [] = .ok [(1000, -2 ^ 31)] ∧
      ¬ WaitFits manager 1000 (-2 ^ 31) := by
  refine ⟨?_, ?_⟩
  · let call : TimerCall Nat := .addTimer 0 (~~~0) (some 7) false 1000
    let manager := ((start 1000).addTimer 0 (~~~0) (some 7) false 1000).1
    let timed : TimedManager Nat := ⟨.ok manager, 1000, promise (start 1000) (fun _ => 0) call⟩
    have possible : (1000 : UInt64) ≤ 1000 ∧ call.Read 1000 ∧ call.Possible (start 1000) :=
      ⟨UInt64.le_refl _, UInt64.le_refl _, rfl⟩
    have taken : timedStep (.begin 1000) ⟨1000, call⟩ = some timed := by
      rw [timedStep]
      exact if_pos possible
    have reached : Transition.Reaches timedStep (fun _ _ => True) (.begin 1000) timed :=
      .next ⟨1000, call⟩ .start trivial taken
    have promised : timed.promised 0 = 1000 + (2 ^ 64 - 1) := by decide +kernel
    have fired : (manager.listExpiredCb 1 1000).toOption.map Prod.snd = some [some 7] := by
      decide +kernel
    rcases Option.map_eq_some_iff.mp fired with ⟨⟨after, cbs⟩, done, same⟩
    cases called : manager.listExpiredCb 1 1000 with
    | error fault =>
        rw [called] at done
        cases done
    | ok result =>
        rw [called] at done
        cases done
        refine ⟨timed, manager, reached, rfl, rfl, promised, after, ?_⟩
        rw [called, ← same]
  · let manager := ((start 1000).addTimer 0 (2 ^ 31) (some 7) false 1000).1
    have reached : TimersReached 1000 (.ok manager) :=
      .next (.addTimer 0 (2 ^ 31) (some 7) false 1000) .start trivial rfl
    refine ⟨manager, reached, ?_, ?_⟩
    · decide +kernel
    · rintro ⟨lower, _⟩
      omega

end ChatServer.Fiber
