import ChatServer.Lib.TaskPool
import ChatServer.Util.Tracker

/-!
# The seconds that a tracker reports

A history of calls under a clock that does not go back, with the timer at least once in every
second that is over. The counters of a dimension then hold the last seconds but the oldest one,
which the timer has cleared when it has already run in the current second.
-/

namespace ChatServer.Util

set_option autoImplicit false

open ChatServer.Http2 (ascii)

inductive TrackerCall where
  | inc (key : UInt32) (v : Int64)
  | dec (key : UInt32) (v : Int64)
  | onTimer
  deriving DecidableEq

structure TrackerEvent where
  time : Nat
  call : TrackerCall
  deriving DecidableEq

namespace TrackerCall

def amount (dim : Nat) : TrackerCall → Int
  | .inc key v => if key.toNat = dim then v.toInt else 0
  | .dec key v => if key.toNat = dim then -v.toInt else 0
  | .onTimer => 0

def weight : TrackerCall → Nat
  | .inc _ v | .dec _ v => v.toInt.natAbs
  | .onTimer => 0

def ofDims (count : Nat) : TrackerCall → Bool
  | .inc key _ | .dec key _ => decide (key.toNat < count)
  | .onTimer => true

theorem amount_le_weight (call : TrackerCall) (dim : Nat) :
    (call.amount dim).natAbs ≤ call.weight := by
  cases call with
  | inc key v =>
      rw [amount, weight]
      split
      · exact Nat.le_refl _
      · exact Nat.zero_le _
  | dec key v =>
      rw [amount, weight]
      split
      · exact Nat.le_of_eq (Int.natAbs_neg _)
      · exact Nat.zero_le _
  | onTimer => exact Nat.le_refl 0

end TrackerCall

def Tracker.apply (tracker : Tracker) (event : TrackerEvent) : Tracker :=
  match event.call with
  | .inc key v => (tracker.inc event.time key v).2
  | .dec key v => (tracker.dec event.time key v).2
  | .onTimer => tracker.onTimer event.time

abbrev History := List TrackerEvent

namespace History

def run (history : History) (tracker : Tracker) : Tracker := history.foldl Tracker.apply tracker

def net (history : History) (dim second : Nat) : Int :=
  (history.map fun event => if event.time = second then event.call.amount dim else 0).sum

/-- The net sum of the seconds `now - d` to `now - 1`. -/
def recent (history : History) (dim now : Nat) : Nat → Int
  | 0 => 0
  | d + 1 => history.recent dim now d + history.net dim (now - 1 - d)

/-- The timer has run in a second. -/
def Served (history : History) (second : Nat) : Prop :=
  ∃ event ∈ history, event.time = second ∧ event.call = .onTimer

instance (history : History) (second : Nat) : Decidable (history.Served second) :=
  inferInstanceAs (Decidable (∃ event ∈ history, _))

/-- A history from `start` to `now` in which the timer runs in every second. -/
structure Timed (start now : Nat) (history : History) : Prop where
  onward : history.Pairwise fun first second => first.time ≤ second.time
  inside : ∀ event ∈ history, start ≤ event.time ∧ event.time ≤ now
  served : ∀ second, start ≤ second → second < now → history.Served second

/-- Every call is for a dimension of the tracker, or reaches no counter. -/
def Aimed (tracker : Tracker) (history : History) : Prop :=
  ∀ event ∈ history, ∀ key v, event.call = .inc key v ∨ event.call = .dec key v →
    tracker.Aimed key

def weightAt (history : History) (second : Nat) : Nat :=
  TaskPool.total (fun event => if event.time = second then event.call.weight else 0) history

def weight (history : History) : Nat := TaskPool.total (fun event => event.call.weight) history

variable {history : History} {tracker : Tracker} {event : TrackerEvent}

theorem net_snoc (history : History) (event : TrackerEvent) (dim second : Nat) :
    net (history ++ [event]) dim second =
      history.net dim second + if event.time = second then event.call.amount dim else 0 := by
  rw [net, List.map_append, List.sum_append, List.map_singleton, List.sum_singleton]
  rfl

theorem served_snoc (history : History) (event : TrackerEvent) (second : Nat) :
    Served (history ++ [event]) second ↔
      history.Served second ∨ event.time = second ∧ event.call = .onTimer := by
  constructor
  · rintro ⟨other, member, there⟩
    rcases List.mem_append.mp member with before | last
    · exact Or.inl ⟨other, before, there⟩
    · rw [List.mem_singleton.mp last] at there
      exact Or.inr there
  · rintro (⟨other, before, there⟩ | there)
    · exact ⟨other, List.mem_append_left _ before, there⟩
    · exact ⟨event, List.mem_append_right _ List.mem_cons_self, there⟩

theorem net_later {now : Nat} (past : ∀ event ∈ history, event.time ≤ now) (dim : Nat)
    {second : Nat} (later : now < second) : history.net dim second = 0 := by
  induction history with
  | nil => rfl
  | cons event history induction =>
      have here := past event List.mem_cons_self
      have rest := induction fun other member => past other (List.mem_cons_of_mem event member)
      rw [net] at rest
      rw [net, List.map_cons, List.sum_cons, rest, if_neg (by omega)]
      rfl

theorem net_le_weight (history : History) (dim second : Nat) :
    (history.net dim second).natAbs ≤ history.weightAt second := by
  induction history with
  | nil => exact Nat.le_refl 0
  | cons event history induction =>
      have own := event.call.amount_le_weight dim
      rw [net] at induction
      rw [net, List.map_cons, List.sum_cons, weightAt, TaskPool.total_cons]
      refine (Int.natAbs_add_le _ _).trans (Nat.add_le_add ?_ induction)
      split
      · exact own
      · exact Nat.zero_le _

/-- What remains of a history whose last event is taken away. -/
theorem timed_front {start now : Nat} (timed : Timed start now (history ++ [event])) :
    Timed start event.time history ∧ event.time ≤ now ∧ start ≤ event.time := by
  have last := timed.inside event (List.mem_append_right _ List.mem_cons_self)
  rcases List.pairwise_append.mp timed.onward with ⟨onward, -, across⟩
  refine ⟨⟨onward, fun other member => ?_, fun second first before => ?_⟩, last.2, last.1⟩
  · exact ⟨(timed.inside other (List.mem_append_left _ member)).1,
      across other member event List.mem_cons_self⟩
  · rcases (served_snoc history event second).mp (timed.served second first (by omega))
      with served | ⟨same, -⟩
    · exact served
    · omega

/-- The counters hold the seconds from `now - (n - 2)` on. The one before them has its counter
until the timer clears it for the next second. -/
structure Windowed (history : History) (now : Nat) (tracker : Tracker) : Prop where
  kept : ∀ dim < tracker.dims.length, ∀ second ≤ now,
    now < second + (tracker.interval.toNat - 1) →
    tracker.counter dim (second % tracker.interval.toNat) = Int64.ofInt (history.net dim second)
  next : history.Served now → ∀ dim < tracker.dims.length,
    tracker.counter dim ((now + 1) % tracker.interval.toNat) = 0
  oldest : ¬history.Served now → ∀ dim < tracker.dims.length, ∀ second,
    second + tracker.interval.toNat = now + 1 →
    tracker.counter dim (second % tracker.interval.toNat) = Int64.ofInt (history.net dim second)

/-- Seconds that are less than the interval apart have different counters. -/
theorem mod_apart {n first second : Nat} (before : first < second) (near : second < first + n) :
    first % n ≠ second % n := by
  intro same
  have apart := Nat.sub_mod_eq_zero_of_mod_eq same.symm
  have whole := Nat.le_of_dvd (by omega) (Nat.dvd_of_mod_eq_zero apart)
  omega

theorem windowed_init {dims : List Str} {interval : UInt32} (now : Nat) :
    Windowed [] now (Tracker.init { dims, interval }) where
  kept := fun dim _ _ _ _ => Tracker.init_counter dims interval dim _
  next := fun ⟨_, member, _⟩ => absurd member List.not_mem_nil
  oldest := fun _ dim _ _ _ => Tracker.init_counter dims interval dim _

/-- The next second starts with an empty counter, which the timer has seen to. -/
theorem windowed_advance {now : Nat} (wide : 3 ≤ tracker.interval.toNat)
    (windowed : Windowed history now tracker) (past : ∀ event ∈ history, event.time ≤ now)
    (served : history.Served now) : Windowed history (now + 1) tracker := by
  have unserved : ¬history.Served (now + 1) := by
    rintro ⟨event, member, time, -⟩
    have before := past event member
    omega
  refine ⟨fun dim known second upTo near => ?_, fun now => absurd now unserved,
    fun _ dim known second oldest => ?_⟩
  · by_cases new : second = now + 1
    · rw [new, windowed.next served dim known, net_later past dim (Nat.lt_succ_self now)]
      rfl
    · exact windowed.kept dim known second (by omega) (by omega)
  · exact windowed.kept dim known second (by omega) (by omega)

theorem windowed_change {fetch : Int64 → Int64} {key : UInt32} (ready : tracker.Ready)
    (aimed : tracker.Aimed key) (windowed : Windowed history event.time tracker)
    (counted : event.call ≠ .onTimer)
    (adds : ∀ (dim : Nat) (value : Int), (if key.toNat = dim then fetch (Int64.ofInt value)
      else Int64.ofInt value) = Int64.ofInt (value + event.call.amount dim)) :
    Windowed (history ++ [event]) event.time (tracker.change event.time key fetch).2 := by
  have wide := ready.wide
  have positive : 0 < tracker.interval.toNat := by omega
  rcases @Tracker.change_frame tracker event.time key fetch with ⟨dims, interval⟩
  have same : Served (history ++ [event]) event.time ↔ history.Served event.time := by
    rw [served_snoc]
    constructor
    · rintro (served | ⟨-, timer⟩)
      · exact served
      · exact absurd timer counted
    · exact Or.inl
  refine ⟨?_, ?_, ?_⟩
  · rw [dims, interval]
    intro dim known second upTo near
    have below := Nat.mod_lt second positive
    rw [Tracker.change_counter ready aimed _ _ known below, net_snoc,
      windowed.kept dim known second upTo near]
    by_cases here : event.time = second
    · rw [if_pos here, ← adds, here]
      simp only [and_true]
    · rw [if_neg here, Int.add_zero, if_neg]
      rintro ⟨-, place⟩
      exact mod_apart (by omega) (by omega) place.symm
  · rw [same, dims, interval]
    intro served dim known
    have below := Nat.mod_lt (event.time + 1) positive
    rw [Tracker.change_counter ready aimed _ _ known below, if_neg]
    · exact windowed.next served dim known
    · rintro ⟨-, place⟩
      exact mod_apart (Nat.lt_succ_self _) (by omega) place
  · rw [same, dims, interval]
    intro unserved dim known second oldest
    have below := Nat.mod_lt second positive
    have other : event.time ≠ second := by omega
    rw [Tracker.change_counter ready aimed _ _ known below, net_snoc, if_neg other,
      Int.add_zero, if_neg]
    · exact windowed.oldest unserved dim known second oldest
    · rintro ⟨-, place⟩
      exact mod_apart (by omega) (by omega) place.symm

theorem windowed_timer (ready : tracker.Ready) (windowed : Windowed history event.time tracker)
    (timer : event.call = .onTimer) :
    Windowed (history ++ [event]) event.time (tracker.onTimer event.time) := by
  have wide := ready.wide
  have positive : 0 < tracker.interval.toNat := by omega
  have frame : (tracker.onTimer event.time).interval = tracker.interval ∧
      (tracker.onTimer event.time).dims = tracker.dims := ⟨rfl, rfl⟩
  have served : Served (history ++ [event]) event.time :=
    (served_snoc history event event.time).mpr (Or.inr ⟨rfl, timer⟩)
  refine ⟨?_, ?_, fun unserved => absurd served unserved⟩
  · rw [frame.1, frame.2]
    intro dim known second upTo near
    have below := Nat.mod_lt second positive
    have nothing : event.call.amount dim = 0 := by
      rw [timer]
      rfl
    rw [Tracker.timer_counter ready _ known below, net_snoc, nothing, ite_self, Int.add_zero,
      if_neg]
    · exact windowed.kept dim known second upTo near
    · exact (mod_apart (by omega) (by omega)).symm
  · rw [frame.1, frame.2]
    intro _ dim known
    rw [Tracker.timer_counter ready _ known (Nat.mod_lt _ positive), if_pos rfl]

theorem windowed_apply (ready : tracker.Ready) (aimed : Aimed tracker [event])
    (windowed : Windowed history event.time tracker) :
    Windowed (history ++ [event]) event.time (tracker.apply event) := by
  rcases event with ⟨time, call⟩
  cases call with
  | inc key v =>
      apply windowed_change ready (aimed _ List.mem_cons_self key v (Or.inl rfl)) windowed
      · intro same
        cases same
      · intro dim value
        rw [TrackerCall.amount]
        split
        · rw [Int64.ofInt_add, Int64.ofInt_toInt]
        · rw [Int.add_zero]
  | dec key v =>
      apply windowed_change ready (aimed _ List.mem_cons_self key v (Or.inr rfl)) windowed
      · intro same
        cases same
      · intro dim value
        rw [TrackerCall.amount]
        split
        · rw [← Int.sub_eq_add_neg, Int64.ofInt_sub, Int64.ofInt_toInt]
        · rw [Int.add_zero]
  | onTimer => exact windowed_timer ready windowed rfl

theorem apply_frame (tracker : Tracker) (event : TrackerEvent) :
    (tracker.apply event).dims = tracker.dims ∧
      (tracker.apply event).interval = tracker.interval := by
  rcases event with ⟨time, call⟩
  cases call with
  | inc key v => exact Tracker.change_frame time key _
  | dec key v => exact Tracker.change_frame time key _
  | onTimer => exact ⟨rfl, rfl⟩

theorem apply_ready (ready : tracker.Ready) (event : TrackerEvent) :
    (tracker.apply event).Ready := by
  rcases event with ⟨time, call⟩
  cases call with
  | inc key v => exact Tracker.change_ready ready time key _
  | dec key v => exact Tracker.change_ready ready time key _
  | onTimer => exact Tracker.timer_ready ready time

theorem run_snoc (history : History) (event : TrackerEvent) (tracker : Tracker) :
    run (history ++ [event]) tracker = (history.run tracker).apply event := by
  rw [run, List.foldl_append]
  rfl

theorem run_frame (history : History) (tracker : Tracker) :
    (history.run tracker).dims = tracker.dims ∧
      (history.run tracker).interval = tracker.interval := by
  induction history using List.reverseRecOn with
  | nil => exact ⟨rfl, rfl⟩
  | append_singleton history event induction =>
      rw [run_snoc]
      rcases apply_frame (run history tracker) event with ⟨dims, interval⟩
      exact ⟨dims.trans induction.1, interval.trans induction.2⟩

theorem run_ready (ready : tracker.Ready) (history : History) : (history.run tracker).Ready := by
  induction history using List.reverseRecOn with
  | nil => exact ready
  | append_singleton history event induction =>
      rw [run_snoc]
      exact apply_ready induction event

theorem windowed_run {dims : List Str} {interval : UInt32} {start now : Nat}
    (ready : (Tracker.init { dims, interval }).Ready) (timed : Timed start now history)
    (aimed : Aimed (Tracker.init { dims, interval }) history) :
    Windowed history now (history.run (Tracker.init { dims, interval })) := by
  induction history using List.reverseRecOn generalizing now with
  | nil => exact windowed_init now
  | append_singleton history event induction =>
      rcases timed_front timed with ⟨front, upTo, -⟩
      have before := induction front fun other member =>
        aimed other (List.mem_append_left _ member)
      rcases run_frame history (Tracker.init { dims, interval }) with ⟨sameDims, sameInterval⟩
      have own : Aimed (run history (Tracker.init { dims, interval })) [event] := by
        intro other member key v call
        rw [Tracker.Aimed, sameDims, sameInterval]
        exact aimed other (List.mem_append_right history member) key v call
      have here := windowed_apply (run_ready ready history) own before
      rw [run_snoc]
      have past : ∀ other ∈ history ++ [event], other.time ≤ event.time := by
        intro other member
        rcases List.mem_append.mp member with earlier | last
        · exact (front.inside other earlier).2
        · rw [List.mem_singleton.mp last]
      by_cases same : now = event.time
      · rw [same]
        exact here
      · have first := (timed_front timed).2.2
        have next : now = event.time + 1 := by
          by_contra further
          rcases timed.served (event.time + 1) (by omega) (by omega) with
            ⟨other, member, time, -⟩
          have latest := past other member
          omega
        have wide := (apply_ready (run_ready ready history) event).wide
        rw [next]
        exact windowed_advance wide here past (timed.served event.time first (by omega))

/-- All that is counted in the seconds `now - d` to `now - 1`. -/
def recentWeight (history : History) (now d : Nat) : Nat :=
  TaskPool.total (fun event => if event.time < now ∧ now ≤ event.time + d then
    event.call.weight else 0) history

theorem recent_weight_succ (history : History) {now d : Nat} (late : d < now) :
    history.recentWeight now (d + 1) =
      history.recentWeight now d + history.weightAt (now - 1 - d) := by
  rw [recentWeight, recentWeight, weightAt, ← TaskPool.total_add]
  congr 1
  funext event
  by_cases here : event.time = now - 1 - d
  · rw [if_pos here, if_pos (by omega), if_neg (by omega), Nat.zero_add]
  · rw [if_neg here]
    by_cases before : event.time < now ∧ now ≤ event.time + d
    · rw [if_pos before, if_pos (by omega), Nat.add_zero]
    · rw [if_neg before, if_neg (by omega)]

theorem recent_weight_le (history : History) (now d : Nat) :
    history.recentWeight now d + history.weightAt now ≤ history.weight := by
  rw [recentWeight, weightAt, ← TaskPool.total_add, weight]
  apply TaskPool.total_le_total
  intro event
  by_cases here : event.time = now
  · rw [if_pos here, if_neg (by omega), Nat.zero_add]
  · rw [if_neg here, Nat.add_zero]
    split
    · exact Nat.le_refl _
    · exact Nat.zero_le _

theorem weight_at_le (history : History) (second : Nat) :
    history.weightAt second ≤ history.weight :=
  (Nat.le_add_left _ _).trans (history.recent_weight_le second 0)

/-- The counter that a report reads in the round `m`. -/
def shownAt (history : History) (n dim now m : Nat) : Int :=
  if m + 2 < n then history.net dim (now - 1 - m)
  else if m + 2 = n then
    if history.Served now then 0 else history.net dim (now - 1 - m)
  else history.net dim now

theorem counter_shown {now dim m : Nat} (windowed : Windowed history now tracker)
    (wide : 3 ≤ tracker.interval.toNat) (known : dim < tracker.dims.length)
    (late : tracker.interval.toNat ≤ now) (within : m < tracker.interval.toNat) :
    tracker.counter dim ((now - 1 - m) % tracker.interval.toNat) =
      Int64.ofInt (history.shownAt tracker.interval.toNat dim now m) := by
  rw [shownAt]
  by_cases inside : m + 2 < tracker.interval.toNat
  · rw [if_pos inside]
    exact windowed.kept dim known _ (by omega) (by omega)
  · rw [if_neg inside]
    by_cases oldest : m + 2 = tracker.interval.toNat
    · rw [if_pos oldest]
      have turn : now - 1 - m + tracker.interval.toNat = now + 1 := by omega
      by_cases served : history.Served now
      · have cleared := windowed.next served dim known
        rw [← turn, Nat.add_mod_right] at cleared
        rw [if_pos served]
        exact cleared
      · rw [if_neg served]
        exact windowed.oldest served dim known _ turn
    · have turn : now - 1 - m + tracker.interval.toNat = now := by omega
      have current := windowed.kept dim known now (Nat.le_refl _) (by omega)
      rw [← turn, Nat.add_mod_right, turn] at current
      rw [if_neg oldest]
      exact current

theorem shown_at_le (history : History) (n dim now m : Nat) :
    (history.shownAt n dim now m).natAbs ≤
      if m + 2 ≤ n then history.weightAt (now - 1 - m) else history.weightAt now := by
  rw [shownAt]
  by_cases inside : m + 2 < n
  · rw [if_pos inside, if_pos (by omega)]
    exact net_le_weight _ _ _
  · rw [if_neg inside]
    by_cases oldest : m + 2 = n
    · rw [if_pos oldest, if_pos (Nat.le_of_eq oldest)]
      by_cases served : history.Served now
      · rw [if_pos served]
        exact Nat.zero_le _
      · rw [if_neg served]
        exact net_le_weight _ _ _
    · rw [if_neg oldest, if_neg (by omega)]
      exact net_le_weight _ _ _

theorem shown_sum {now dim : Nat} (windowed : Windowed history now tracker)
    (wide : 3 ≤ tracker.interval.toNat) (known : dim < tracker.dims.length)
    (late : tracker.interval.toNat ≤ now) (modest : history.weight < 2 ^ 63) : ∀ d : Nat,
    d ≤ tracker.interval.toNat →
    (∀ m, d = m + 1 → tracker.shownSum now dim d =
      tracker.shownSum now dim m + history.shownAt tracker.interval.toNat dim now m) ∧
      (tracker.shownSum now dim d).natAbs ≤
        if d < tracker.interval.toNat then history.recentWeight now d
        else history.recentWeight now (d - 1) + history.weightAt now := by
  intro d
  induction d with
  | zero =>
      intro _
      exact ⟨fun m same => absurd same (by omega), Nat.zero_le _⟩
  | succ d induction =>
      intro within
      have bound := shown_at_le history tracker.interval.toNat dim now d
      have value : (tracker.counter dim ((now - 1 - d) % tracker.interval.toNat)).toInt =
          history.shownAt tracker.interval.toNat dim now d := by
        have small : (history.shownAt tracker.interval.toNat dim now d).natAbs < 2 ^ 63 := by
          refine Nat.lt_of_le_of_lt (bound.trans ?_) modest
          split
          · exact weight_at_le _ _
          · exact weight_at_le _ _
        rw [counter_shown windowed wide known late (by omega)]
        exact Int64.toInt_ofInt_of_le (by omega) (by omega)
      rcases induction (by omega) with ⟨-, before⟩
      rw [if_pos (by omega)] at before
      have step : tracker.shownSum now dim (d + 1) =
          tracker.shownSum now dim d + history.shownAt tracker.interval.toNat dim now d := by
        rw [Tracker.shownSum, value]
      refine ⟨fun m same => ?_, ?_⟩
      · injection same with same
        rw [← same]
        exact step
      · rw [step]
        refine (Int.natAbs_add_le _ _).trans ?_
        by_cases last : d + 1 < tracker.interval.toNat
        · rw [if_pos last, recent_weight_succ history (by omega)]
          rw [if_pos (by omega)] at bound
          exact Nat.add_le_add before bound
        · rw [if_neg last, Nat.add_sub_cancel]
          rw [if_neg (by omega)] at bound
          exact Nat.add_le_add before bound

theorem fits_of_modest {now : Nat} (windowed : Windowed history now tracker)
    (wide : 3 ≤ tracker.interval.toNat) (late : tracker.interval.toNat ≤ now)
    (modest : history.weight < 2 ^ 63) : tracker.Fits now := by
  intro dim known d within
  have bound := (shown_sum windowed wide known late modest d within).2
  have total : (tracker.shownSum now dim d).natAbs ≤ history.weight := by
    refine bound.trans ?_
    split
    · exact (Nat.le_add_right _ _).trans (history.recent_weight_le now d)
    · exact history.recent_weight_le now (d - 1)
  omega

theorem shown_recent {now dim : Nat} (windowed : Windowed history now tracker)
    (wide : 3 ≤ tracker.interval.toNat) (known : dim < tracker.dims.length)
    (late : tracker.interval.toNat ≤ now) (modest : history.weight < 2 ^ 63) : ∀ d : Nat,
    d + 2 ≤ tracker.interval.toNat → tracker.shownSum now dim d = history.recent dim now d := by
  intro d
  induction d with
  | zero => exact fun _ => rfl
  | succ d induction =>
      intro inside
      have step := (shown_sum windowed wide known late modest (d + 1) (by omega)).1 d rfl
      rw [step, induction (by omega), shownAt, if_pos (by omega)]
      rfl

/-- When the sum of the last `d` seconds is the one that is shown: for all but the two longest
durations always, for the next to longest if the timer has not cleared something yet, and for
the longest if the counts of three seconds happen to make up for each other. -/
def Covered (history : History) (n dim now d : Nat) : Prop :=
  (d + 1 = n → history.Served now → history.net dim (now - d) = 0) ∧
    (d = n → (if history.Served now then 0 else history.net dim (now + 1 - d)) +
      history.net dim now = history.net dim (now + 1 - d) + history.net dim (now - d))

theorem shown_iff {now dim d : Nat} (windowed : Windowed history now tracker)
    (wide : 3 ≤ tracker.interval.toNat) (known : dim < tracker.dims.length)
    (late : tracker.interval.toNat ≤ now) (modest : history.weight < 2 ^ 63)
    (within : d ≤ tracker.interval.toNat) :
    tracker.shownSum now dim d = history.recent dim now d ↔
      history.Covered tracker.interval.toNat dim now d := by
  have shown := shown_sum windowed wide known late modest
  have same := shown_recent windowed wide known late modest
  rw [Covered]
  by_cases inside : d + 2 ≤ tracker.interval.toNat
  · rw [same d inside]
    exact iff_of_true rfl ⟨fun oldest => by omega, fun longest => by omega⟩
  · by_cases oldest : d + 1 = tracker.interval.toNat
    · cases d with
      | zero => omega
      | succ e =>
          have place : now - 1 - e = now - (e + 1) := by omega
          rw [(shown (e + 1) within).1 e rfl, same e (by omega), shownAt, if_neg (by omega),
            if_pos oldest, recent, place]
          by_cases served : history.Served now
          · rw [if_pos served]
            constructor
            · intro equal
              exact ⟨fun _ _ => by omega, fun longest => by omega⟩
            · rintro ⟨cleared, -⟩
              rw [cleared oldest served]
          · rw [if_neg served]
            exact iff_of_true rfl ⟨fun _ here => absurd here served, fun longest => by omega⟩
    · have longest : d = tracker.interval.toNat := by omega
      match d, longest with
      | 0, longest => omega
      | 1, longest => omega
      | e + 2, longest =>
          have place : now - 1 - e = now + 1 - (e + 2) := by omega
          have before : now - 1 - (e + 1) = now - (e + 2) := by omega
          have first : history.shownAt tracker.interval.toNat dim now e =
              if history.Served now then 0 else history.net dim (now + 1 - (e + 2)) := by
            rw [shownAt, if_neg (by omega), if_pos longest, place]
          have second : history.shownAt tracker.interval.toNat dim now (e + 1) =
              history.net dim now := by
            rw [shownAt, if_neg (by omega), if_neg (by omega)]
          rw [(shown (e + 2) within).1 (e + 1) rfl, (shown (e + 1) (by omega)).1 e rfl,
            same e (by omega), first, second, recent, recent, place, before]
          constructor
          · intro equal
            exact ⟨fun oldest => by omega, fun _ => by omega⟩
          · rintro ⟨-, equal⟩
            have made := equal longest
            omega

/-- Beside the timer, what the reports of a dimension rest on. -/
structure Regular (dims : List Str) (interval : UInt32) (history : History) (now key : Nat)
    (name : Str) : Prop where
  sized : dims.length * interval.toNat < 2 ^ 31
  late : interval.toNat ≤ now
  aimed : Aimed (Tracker.init { dims, interval }) history
  modest : history.weight < 2 ^ 63
  named : Tracker.Named dims key name

theorem aimed_of_own (own : ∀ event ∈ history, event.call.ofDims tracker.dims.length = true) :
    Aimed tracker history := by
  intro event member key v call
  have here := own event member
  left
  rcases call with inc | dec
  · rw [inc] at here
    exact of_decide_eq_true here
  · rw [dec] at here
    exact of_decide_eq_true here

theorem named_only {name : Str} (nonempty : name ≠ []) : Tracker.Named [name] 0 name := by
  refine ⟨rfl, nonempty, fun later behind found => ?_⟩
  have inside := (List.getElem?_eq_some_iff.mp found).1
  rw [List.length_singleton] at inside
  omega

/-- A history with the timer in every second is reported right where the counters of the oldest
seconds are not used for something else. -/
theorem tracker_reports_iff {dims : List Str} {interval d : UInt32} {history : History}
    {start now key : Nat} {name : Str} (wide : 3 ≤ interval.toNat)
    (timed : Timed start now history) (positive : 1 ≤ d.toNat) (within : d.toNat ≤ interval.toNat)
    (regular : Regular dims interval history now key name) :
    (history.run (Tracker.init { dims, interval })).Reports now d name
        (history.recent key now d.toNat) ↔
      history.Covered interval.toNat key now d.toNat := by
  have ready := Tracker.init_ready wide regular.sized
  have windowed := windowed_run ready timed regular.aimed
  have behind := run_ready ready history
  rcases run_frame history (Tracker.init { dims, interval }) with ⟨sameDims, sameInterval⟩
  have interval_eq : (history.run (Tracker.init { dims, interval })).interval = interval :=
    sameInterval
  have dims_eq : (history.run (Tracker.init { dims, interval })).dims = dims := sameDims
  have late := regular.late
  have named := regular.named
  have known : key < dims.length := (List.getElem?_eq_some_iff.mp named.1).1
  rw [← interval_eq] at late within
  rw [← dims_eq] at named known
  have fits := fits_of_modest windowed behind.wide late regular.modest
  rw [Tracker.reports_iff behind fits late named positive within,
    shown_iff windowed behind.wide known late regular.modest within, interval_eq]

/-- A history that meets all the conditions, and what it is reported as. -/
theorem tracker_reports_last :
    let history : History := [⟨10, .inc 0 5⟩, ⟨10, .onTimer⟩, ⟨11, .dec 0 2⟩, ⟨11, .onTimer⟩]
    (history.run (Tracker.init { dims := [ascii "a"], interval := 3 })).Reports 12 1 (ascii "a")
      (history.recent 0 12 1) := by
  intro history
  have served : ∀ second < 12, 10 ≤ second → history.Served second := by decide
  have timed : Timed 10 12 history :=
    ⟨by decide, by decide, fun second first before => served second before first⟩
  have regular : Regular [ascii "a"] 3 history 12 0 (ascii "a") :=
    ⟨by decide, by decide, aimed_of_own (by decide), by decide, named_only (by decide)⟩
  exact (tracker_reports_iff (d := 1) (by decide) timed (by decide) (by decide) regular).mpr
    ⟨fun oldest => absurd oldest (by decide), fun longest => absurd longest (by decide)⟩

/-- The timer of the current second has cleared the second before the last one. -/
theorem oldest_second_lost :
    let history : History := [⟨10, .inc 0 5⟩, ⟨10, .onTimer⟩, ⟨11, .onTimer⟩, ⟨12, .onTimer⟩]
    Timed 10 12 history ∧
      ¬(history.run (Tracker.init { dims := [ascii "a"], interval := 3 })).Reports 12 2
        (ascii "a") (history.recent 0 12 2) := by
  intro history
  have served : ∀ second < 12, 10 ≤ second → history.Served second := by decide
  have timed : Timed 10 12 history :=
    ⟨by decide, by decide, fun second first before => served second before first⟩
  have ready := @Tracker.init_ready [ascii "a"] 3 (by decide) (by decide)
  have windowed := windowed_run ready timed (aimed_of_own (by decide))
  have behind := run_ready ready history
  have fits := fits_of_modest windowed behind.wide (by decide) (by decide)
  refine ⟨timed, fun reports => ?_⟩
  rw [Tracker.reports_iff behind fits (by decide) (named_only (by decide)) (by decide)
    (by decide)] at reports
  exact absurd reports (by decide)

end History

end ChatServer.Util
