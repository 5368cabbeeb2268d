import ChatServer.Fiber.TimerExpiry

/-!
# The hooked sleeps

`sleep`, `usleep` and `nanosleep` of `hook.cc` in a thread with hooks enabled: a timer that
schedules the fiber again, and a yield. Each of them computes the milliseconds in another type:
`unsigned int`, `useconds_t`, which is as wide, and `long`, cut down to `int`. `addTimer` takes a
`uint64_t`.
-/

namespace ChatServer.Fiber

set_option autoImplicit false

variable {Callback : Type}

structure Timespec where
  tvSec : Int64
  tvNsec : Int64

/-- `addTimer` on `IOManager::GetThis()`, up to the yield; what the call returns in the end. -/
def yieldFor (iom : Option (TimerManager Callback)) (address : Address) (ms : UInt64)
    (wake : Callback) (now : UInt64) : Result (TimerManager Callback × Int) :=
  match iom with
  | none => .error (.undefined .nullDeref)
  | some manager => .ok ((manager.addTimer address ms (some wake) false now).1, 0)

def sleep (iom : Option (TimerManager Callback)) (address : Address) (wake : Callback)
    (now : UInt64) (seconds : UInt32) : Result (TimerManager Callback × Int) :=
  yieldFor iom address (seconds * 1000).toUInt64 wake now

def usleep (iom : Option (TimerManager Callback)) (address : Address) (wake : Callback)
    (now : UInt64) (usec : UInt32) : Result (TimerManager Callback × Int) :=
  yieldFor iom address (usec / 1000).toUInt64 wake now

def nanosleep (iom : Option (TimerManager Callback)) (address : Address) (wake : Callback)
    (now : UInt64) (req : Timespec) : Result (TimerManager Callback × Int) := do
  let seconds ← checkedLong (req.tvSec.toInt * 1000)
  let timeout ← checkedLong (seconds + (req.tvNsec.toInt.tdiv 1000).tdiv 1000)
  let timeoutMs := int32 timeout
  yieldFor iom address (UInt64.ofInt timeoutMs) wake now

/-- The call has armed a timer for the fiber that is due no earlier than so many nanoseconds from
now. -/
def ArmsFor (call : Result (TimerManager Callback × Int)) (address : Address) (wake : Callback)
    (now : UInt64) (duration : Nat) : Prop :=
  ∃ after, call = .ok (after, 0) ∧ address ∈ after.timers ∧
    ∃ timer, after.heap address = some timer ∧ timer.cb = some wake ∧
      now.toNat * 1000000 + duration ≤ timer.next.toNat * 1000000

open TimerManager

variable {manager : TimerManager Callback} {address : Address} {wake : Callback} {now : UInt64}

theorem yield_for_arms_iff (sorted : manager.Sorted) (free : manager.heap address = none)
    (ms : UInt64) (duration : Nat) :
    ArmsFor (yieldFor (some manager) address ms wake now) address wake now duration ↔
      now.toNat + ms.toNat < 2 ^ 64 ∧ duration ≤ ms.toNat * 1000000 := by
  have absent : address ∉ manager.timers := fun member => sorted.live address member free
  have written := sorted.write_out absent ⟨ms, now + ms, some wake, false⟩
  have here : (manager.write address ⟨ms, now + ms, some wake, false⟩).heap address =
      some ⟨ms, now + ms, some wake, false⟩ := Function.update_self _ _ _
  have inserted := insert_split written.ordered written.live (by simp [here]) absent
  have due : now.toNat * 1000000 + duration ≤ (now + ms).toNat * 1000000 ↔
      now.toNat + ms.toNat < 2 ^ 64 ∧ duration ≤ ms.toNat * 1000000 := by
    rw [UInt64.toNat_add]
    have clock := now.toNat_lt
    have interval := ms.toNat_lt
    omega
  rw [← due]
  constructor
  · rintro ⟨after, called, _, timer, found, _, enough⟩
    cases called
    rw [show (manager.addTimer address ms (some wake) false now).1.heap address =
      some ⟨ms, now + ms, some wake, false⟩ from here] at found
    cases found
    exact enough
  · intro enough
    exact ⟨_, rfl, (inserted.1 address).mpr (.inl rfl), _, here, rfl, enough⟩

theorem sleep_arms_iff (sorted : manager.Sorted) (free : manager.heap address = none)
    (seconds : UInt32) :
    ArmsFor (sleep (some manager) address wake now seconds) address wake now
      (seconds.toNat * 1000000000) ↔
        seconds.toNat ≤ 4294967 ∧ now.toNat + seconds.toNat * 1000 < 2 ^ 64 := by
  have wide := seconds.toNat_lt
  rw [sleep, yield_for_arms_iff sorted free, UInt32.toNat_toUInt64, UInt32.toNat_mul,
    show (1000 : UInt32).toNat = 1000 from rfl]
  omega

theorem usleep_arms_iff (sorted : manager.Sorted) (free : manager.heap address = none)
    (usec : UInt32) :
    ArmsFor (usleep (some manager) address wake now usec) address wake now (usec.toNat * 1000) ↔
      usec.toNat % 1000 = 0 ∧ now.toNat + usec.toNat / 1000 < 2 ^ 64 := by
  rw [usleep, yield_for_arms_iff sorted free, UInt32.toNat_toUInt64, UInt32.toNat_div,
    show (1000 : UInt32).toNat = 1000 from rfl]
  omega

/-- The milliseconds of a request, rounded down. -/
def Timespec.ms (req : Timespec) : Nat :=
  req.tvSec.toInt.toNat * 1000 + req.tvNsec.toInt.toNat / 1000000

def Timespec.ns (req : Timespec) : Nat :=
  req.tvSec.toInt.toNat * 1000000000 + req.tvNsec.toInt.toNat

theorem of_int_int32 (ms : Nat) :
    (UInt64.ofInt (int32 ms)).toNat =
      if ms % 2 ^ 32 < 2 ^ 31 then ms % 2 ^ 32 else 2 ^ 64 - 2 ^ 32 + ms % 2 ^ 32 := by
  have turns : (ms : Int) = (ms % 2 ^ 32 : Nat) + 2 ^ 32 * (ms / 2 ^ 32 : Nat) := by omega
  have below : ms % 2 ^ 32 < 2 ^ 32 := Nat.mod_lt _ (by decide)
  rw [turns, int32_add_turns]
  generalize ms % 2 ^ 32 = low at below
  have wrapped : ∀ value : Int, (UInt64.ofInt value).toNat = (value % 2 ^ 64).toNat % 2 ^ 64 :=
    fun value => rfl
  rw [wrapped]
  by_cases small : low < 2 ^ 31
  · rw [if_pos small, int32_of_small small]
    omega
  · rw [if_neg small, int32_overflow (by omega) (by omega)]
    omega

theorem nanosleep_of_nonneg (iom : Option (TimerManager Callback)) {req : Timespec}
    (sec_nonneg : 0 ≤ req.tvSec.toInt) (nsec_nonneg : 0 ≤ req.tvNsec.toInt) :
    nanosleep iom address wake now req =
      if req.ms < 2 ^ 63 then yieldFor iom address (UInt64.ofInt (int32 req.ms)) wake now
      else .error (.undefined .signedOverflow) := by
  rcases Int.eq_ofNat_of_zero_le sec_nonneg with ⟨sec, secs⟩
  rcases Int.eq_ofNat_of_zero_le nsec_nonneg with ⟨nsec, nsecs⟩
  have quotient : ((nsec : Int).tdiv 1000).tdiv 1000 = (nsec / 1000000 : Nat) := by
    rw [Int.tdiv_eq_ediv_of_nonneg (Int.natCast_nonneg nsec),
      Int.tdiv_eq_ediv_of_nonneg (by omega)]
    omega
  have total : req.ms = sec * 1000 + nsec / 1000000 := by
    rw [Timespec.ms, secs, nsecs, Int.toNat_natCast, Int.toNat_natCast]
  rw [nanosleep, secs, nsecs, quotient, total]
  by_cases product : sec * 1000 < 2 ^ 63
  · have first : checkedLong ((sec : Int) * 1000) = .ok ((sec : Int) * 1000) :=
      if_pos (by omega)
    rw [first, bind_ok]
    by_cases fits : sec * 1000 + nsec / 1000000 < 2 ^ 63
    · have second : checkedLong ((sec : Int) * 1000 + (nsec / 1000000 : Nat)) =
          .ok ((sec * 1000 + nsec / 1000000 : Nat) : Int) := by
        rw [checkedLong, if_pos (by omega)]
        exact congrArg Except.ok (by omega)
      rw [second, bind_ok, if_pos fits]
    · rw [checkedLong, if_neg (by omega), bind_error, if_neg fits]
  · have tooLong : ¬ sec * 1000 + nsec / 1000000 < 2 ^ 63 :=
      fun small => product (Nat.lt_of_le_of_lt (Nat.le_add_right _ _) small)
    have first : checkedLong ((sec : Int) * 1000) = .error (.undefined .signedOverflow) :=
      if_neg (by omega)
    rw [first, bind_error, if_neg tooLong]

theorem nanosleep_arms_iff (sorted : manager.Sorted) (free : manager.heap address = none)
    {req : Timespec} (sec_nonneg : 0 ≤ req.tvSec.toInt) (nsec_nonneg : 0 ≤ req.tvNsec.toInt) :
    ArmsFor (nanosleep (some manager) address wake now req) address wake now req.ns ↔
      req.ms < 2 ^ 63 ∧ (2 ^ 31 ≤ req.ms % 2 ^ 32 ∧ now.toNat + req.ms % 2 ^ 32 < 2 ^ 32 ∨
        req.ms < 2 ^ 31 ∧ req.tvNsec.toInt.toNat % 1000000 = 0 ∧
          now.toNat + req.ms < 2 ^ 64) := by
  rw [nanosleep_of_nonneg (some manager) sec_nonneg nsec_nonneg]
  have exact : req.ns = req.ms * 1000000 + req.tvNsec.toInt.toNat % 1000000 := by
    rw [Timespec.ns, Timespec.ms]
    omega
  have rest : req.tvNsec.toInt.toNat % 1000000 < 1000000 := Nat.mod_lt _ (by decide)
  rw [exact]
  generalize req.tvNsec.toInt.toNat % 1000000 = part at rest
  generalize req.ms = ms
  by_cases fits : ms < 2 ^ 63
  · rw [if_pos fits, yield_for_arms_iff sorted free, of_int_int32]
    split
    · omega
    · omega
  · rw [if_neg fits]
    constructor
    · rintro ⟨_, called, _⟩
      cases called
    · rintro ⟨small, _⟩
      exact absurd small fits

/-- Whole milliseconds that fit into the type of the computation are what the hooked sleeps wait
for. A negative `int` stands for almost 2^64 milliseconds, so with it the due time wraps around,
unless the clock is close to its start. -/
theorem sleeps_arm_iff {previousTime : UInt64} {manager : TimerManager Callback}
    (reached : TimersReached previousTime (.ok manager)) {address : Address}
    (free : manager.heap address = none) (wake : Callback) (now : UInt64) :
    (∀ seconds : UInt32, ArmsFor (sleep (some manager) address wake now seconds) address wake now
      (seconds.toNat * 1000000000) ↔
        seconds.toNat ≤ 4294967 ∧ now.toNat + seconds.toNat * 1000 < 2 ^ 64) ∧
    (∀ usec : UInt32, ArmsFor (usleep (some manager) address wake now usec) address wake now
      (usec.toNat * 1000) ↔
        usec.toNat % 1000 = 0 ∧ now.toNat + usec.toNat / 1000 < 2 ^ 64) ∧
    ∀ req : Timespec, 0 ≤ req.tvSec.toInt → 0 ≤ req.tvNsec.toInt →
      (ArmsFor (nanosleep (some manager) address wake now req) address wake now req.ns ↔
        req.ms < 2 ^ 63 ∧ (2 ^ 31 ≤ req.ms % 2 ^ 32 ∧ now.toNat + req.ms % 2 ^ 32 < 2 ^ 32 ∨
          req.ms < 2 ^ 31 ∧ req.tvNsec.toInt.toNat % 1000000 = 0 ∧
            now.toNat + req.ms < 2 ^ 64)) := by
  have sorted := reached_sorted reached rfl
  exact ⟨sleep_arms_iff sorted free, usleep_arms_iff sorted free,
    fun req => nanosleep_arms_iff sorted free⟩

theorem sleeps_arm_iff_start :
    (∀ seconds : UInt32, ArmsFor (sleep (some (start 1000)) 0 7 1000 seconds) 0 7 1000
      (seconds.toNat * 1000000000) ↔
        seconds.toNat ≤ 4294967 ∧ (1000 : UInt64).toNat + seconds.toNat * 1000 < 2 ^ 64) ∧
    (∀ usec : UInt32, ArmsFor (usleep (some (start 1000)) 0 7 1000 usec) 0 7 1000
      (usec.toNat * 1000) ↔
        usec.toNat % 1000 = 0 ∧ (1000 : UInt64).toNat + usec.toNat / 1000 < 2 ^ 64) ∧
    ∀ req : Timespec, 0 ≤ req.tvSec.toInt → 0 ≤ req.tvNsec.toInt →
      (ArmsFor (nanosleep (some (start 1000)) 0 7 1000 req) 0 7 1000 req.ns ↔
        req.ms < 2 ^ 63 ∧
          (2 ^ 31 ≤ req.ms % 2 ^ 32 ∧ (1000 : UInt64).toNat + req.ms % 2 ^ 32 < 2 ^ 32 ∨
            req.ms < 2 ^ 31 ∧ req.tvNsec.toInt.toNat % 1000000 = 0 ∧
              (1000 : UInt64).toNat + req.ms < 2 ^ 64)) :=
  sleeps_arm_iff (.start : TimersReached 1000 (.ok (start 1000))) rfl 7 1000

/-- In November 2023: 4294968 seconds end after 704 ms, less than a millisecond ends at once, and
so do 2147484 seconds, whose timer is due before it is armed. -/
theorem sleeps_end_early :
    ¬ ArmsFor (sleep (some (start 1700000000000)) 0 7 1700000000000 4294968) 0 7 1700000000000
      (4294968 * 1000000000) ∧
    ¬ ArmsFor (usleep (some (start 1700000000000)) 0 7 1700000000000 999) 0 7 1700000000000
      (999 * 1000) ∧
    ¬ ArmsFor (nanosleep (some (start 1700000000000)) 0 7 1700000000000 ⟨0, 999999⟩) 0 7
      1700000000000 999999 ∧
    ¬ ArmsFor (nanosleep (some (start 1700000000000)) 0 7 1700000000000 ⟨2147484, 0⟩) 0 7
      1700000000000 (2147484 * 1000000000) := by
  have sorted : (start 1700000000000 : TimerManager Nat).Sorted := start_sorted 1700000000000
  refine ⟨?_, ?_, ?_, ?_⟩
  · intro arms
    have small := (sleep_arms_iff sorted rfl 4294968).mp arms
    revert small
    decide
  · intro arms
    have whole := (usleep_arms_iff sorted rfl 999).mp arms
    revert whole
    decide
  · intro arms
    have whole := (nanosleep_arms_iff sorted rfl (by decide) (by decide)).mp arms
    revert whole
    decide +kernel
  · intro arms
    have whole := (nanosleep_arms_iff sorted rfl (by decide) (by decide)).mp arms
    revert whole
    decide +kernel

end ChatServer.Fiber
