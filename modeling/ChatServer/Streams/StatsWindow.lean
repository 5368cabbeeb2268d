import ChatServer.Streams.HolderStats

/-!
# What the slots of a backend add up to

The calls of `get` on a `HolderStatsSet`, second by second, with the increments on the slot that
each returned. A slot is used for every n-th second, so `getTotal` counts the last n of them.
-/

namespace ChatServer.Streams

set_option autoImplicit false

/-- A member of `HolderStats`. -/
inductive Counter where
  | usedTime
  | total
  | doing
  | timeouts
  | oks
  | errs
  deriving DecidableEq

structure Increment where
  counter : Counter
  amount : UInt32
  deriving DecidableEq

/-- A call of `get`, with the increments that follow it. -/
structure Round where
  time : UInt32
  increments : List Increment

namespace Counter

def read : Counter → HolderStats → UInt32
  | .usedTime => HolderStats.usedTime
  | .total => HolderStats.total
  | .doing => HolderStats.doing
  | .timeouts => HolderStats.timeouts
  | .oks => HolderStats.oks
  | .errs => HolderStats.errs

theorem read_zero (counter : Counter) : counter.read HolderStats.zero = 0 := by
  cases counter <;> rfl

theorem read_add (counter : Counter) (rt stats : HolderStats) :
    counter.read (rt.add stats) = counter.read rt + counter.read stats := by
  cases counter <;> rfl

end Counter

namespace Increment

def apply (increment : Increment) (stats : HolderStats) : HolderStats :=
  match increment.counter with
  | .usedTime => stats.incUsedTime increment.amount
  | .total => stats.incTotal increment.amount
  | .doing => stats.incDoing increment.amount
  | .timeouts => stats.incTimeouts increment.amount
  | .oks => stats.incOks increment.amount
  | .errs => stats.incErrs increment.amount

def of (counter : Counter) (increment : Increment) : Nat :=
  if increment.counter = counter then increment.amount.toNat else 0

theorem read_apply (counter : Counter) (increment : Increment) (stats : HolderStats) :
    counter.read (increment.apply stats) =
      counter.read stats + UInt32.ofNat (increment.of counter) := by
  rcases increment with ⟨counted, amount⟩
  by_cases same : counted = counter
  · rw [of, if_pos same, UInt32.ofNat_toNat, ← same]
    cases counted <;> rfl
  · rw [of, if_neg same]
    have kept : counter.read (apply ⟨counted, amount⟩ stats) = counter.read stats := by
      cases counted <;> cases counter <;> first | rfl | exact absurd rfl same
    rw [kept]
    exact (UInt32.add_zero _).symm

theorem read_applied (counter : Counter) (increments : List Increment) (stats : HolderStats) :
    counter.read (increments.foldl (fun stats increment => increment.apply stats) stats) =
      counter.read stats + UInt32.ofNat (TaskPool.total (of counter) increments) := by
  induction increments generalizing stats with
  | nil => exact (UInt32.add_zero _).symm
  | cons first rest induction =>
      rw [List.foldl_cons, induction, read_apply, TaskPool.total_cons, UInt32.ofNat_add,
        UInt32.add_assoc]

end Increment

namespace Round

def amount (counter : Counter) (round : Round) : Nat :=
  TaskPool.total (Increment.of counter) round.increments

/-- What the rounds of some seconds add to a counter. -/
def recorded (counter : Counter) (kept : Nat → Bool) (rounds : List Round) : Nat :=
  TaskPool.total (fun round => if kept round.time.toNat then round.amount counter else 0) rounds

theorem recorded_append (counter : Counter) (kept : Nat → Bool) (first second : List Round) :
    recorded counter kept (first ++ second) =
      recorded counter kept first + recorded counter kept second :=
  TaskPool.total_append _ _ _

theorem recorded_congr {counter : Counter} {kept other : Nat → Bool} {rounds : List Round}
    (same : ∀ round ∈ rounds, kept round.time.toNat = other round.time.toNat) :
    recorded counter kept rounds = recorded counter other rounds := by
  induction rounds with
  | nil => rfl
  | cons round rounds induction =>
      have rest := induction fun round member => same round (List.mem_cons_of_mem _ member)
      rw [recorded] at rest
      rw [recorded, TaskPool.total_cons, same round List.mem_cons_self, rest]
      rfl

theorem recorded_none {counter : Counter} {kept : Nat → Bool} {rounds : List Round}
    (none : ∀ round ∈ rounds, kept round.time.toNat = false) :
    recorded counter kept rounds = 0 := by
  induction rounds with
  | nil => rfl
  | cons round rounds induction =>
      have rest := induction fun round member => none round (List.mem_cons_of_mem _ member)
      rw [recorded] at rest
      rw [recorded, TaskPool.total_cons, none round List.mem_cons_self, rest]
      rfl

end Round

namespace HolderStatsSet

/-- `get`, and the increments on the slot that it returns. -/
def record (set : HolderStatsSet) (round : Round) : HolderStatsSet :=
  let (set, slot) := set.get round.time
  Backend.update set slot fun stats =>
    round.increments.foldl (fun stats increment => increment.apply stats) stats

def inWindow (n now t : Nat) : Bool := decide (t ≤ now) && decide (now < t + n)

/-- The one of the last n seconds to which a slot belongs. -/
def inSlot (n now slot t : Nat) : Bool := decide (t % n = slot) && inWindow n now t

variable {set : HolderStatsSet} {rounds : List Round} {now : UInt32} {n : Nat}

theorem mem_expiredFrom {slot : Nat} (set : HolderStatsSet) (below : now.toNat + 1 < 2 ^ 32)
    (left : Nat) : ∀ t : UInt32, slot ∈ set.expiredFrom now left t ↔
      ∃ u, t.toNat ≤ u ∧ u < t.toNat + left ∧ u ≤ now.toNat ∧ u % set.stats.length = slot := by
  induction left with
  | zero =>
      intro t
      constructor
      · intro member
        cases member
      · intro found
        rcases found with ⟨u, first, last, _⟩
        omega
  | succ left induction =>
      intro t
      rw [expiredFrom]
      by_cases reached : t ≤ now
      · have bound := UInt32.le_iff_toNat_le.mp reached
        have next : (t + 1).toNat = t.toNat + 1 := by
          rw [UInt32.toNat_add]
          apply Nat.mod_eq_of_lt
          have one : (1 : UInt32).toNat = 1 := rfl
          omega
        rw [if_pos reached, List.mem_cons, induction (t + 1), next, HolderStatsSet.slot]
        constructor
        · intro either
          rcases either with here | later
          · exact ⟨t.toNat, Nat.le_refl _, by omega, bound, here.symm⟩
          · rcases later with ⟨u, first, last, inside⟩
            exact ⟨u, by omega, by omega, inside⟩
        · intro found
          rcases found with ⟨u, first, last, inside, same⟩
          by_cases here : u = t.toNat
          · rw [here] at same
            exact Or.inl same.symm
          · exact Or.inr ⟨u, by omega, by omega, inside, same⟩
      · rw [if_neg reached]
        have beyond : now.toNat < t.toNat := by
          rw [UInt32.le_iff_toNat_le] at reached
          omega
        constructor
        · intro member
          cases member
        · intro found
          rcases found with ⟨u, first, _, inside, _⟩
          omega

/-- The slots that are cleared belong to the seconds behind the last call. -/
theorem mem_expired (slot : Nat) (set : HolderStatsSet) (below : now.toNat + 1 < 2 ^ 32) :
    slot ∈ set.expired now ↔ ∃ u, set.lastUpdateTime.toNat < u ∧
      u ≤ set.lastUpdateTime.toNat + set.stats.length ∧ u ≤ now.toNat ∧
      u % set.stats.length = slot := by
  rw [expired]
  by_cases later : set.lastUpdateTime < now
  · have less := UInt32.lt_iff_toNat_lt.mp later
    have next : (set.lastUpdateTime + 1).toNat = set.lastUpdateTime.toNat + 1 := by
      rw [UInt32.toNat_add]
      apply Nat.mod_eq_of_lt
      have one : (1 : UInt32).toNat = 1 := rfl
      omega
    rw [if_pos later, mem_expiredFrom set below, next]
    constructor
    · intro found
      rcases found with ⟨u, first, last, inside, same⟩
      exact ⟨u, by omega, by omega, inside, same⟩
    · intro found
      rcases found with ⟨u, first, last, inside, same⟩
      exact ⟨u, by omega, by omega, inside, same⟩
  · rw [if_neg later]
    have notLess : now.toNat ≤ set.lastUpdateTime.toNat := by
      rw [UInt32.lt_iff_toNat_lt] at later
      omega
    constructor
    · intro member
      cases member
    · intro found
      rcases found with ⟨u, first, _, inside, _⟩
      omega

structure Windowed (n : Nat) (rounds : List Round) (set : HolderStatsSet) : Prop where
  sized : set.stats.length = n
  slots : ∀ counter slot holder, set.stats[slot]? = some holder →
    counter.read holder = UInt32.ofNat
      (Round.recorded counter (inSlot n set.lastUpdateTime.toNat slot) rounds)
  past : ∀ round ∈ rounds, round.time ≤ set.lastUpdateTime

theorem new_windowed (n : Nat) : Windowed n [] (new n) where
  sized := List.length_replicate
  slots := by
    intro counter slot holder found
    have zero := List.mem_of_getElem? found
    rw [new] at zero
    rw [List.eq_of_mem_replicate zero, Counter.read_zero]
    rfl
  past := by
    intro round member
    cases member

theorem lastUpdateTime_init (onward : set.lastUpdateTime ≤ now) :
    (set.init now).lastUpdateTime = now := by
  rw [init]
  by_cases later : set.lastUpdateTime < now
  · rw [if_pos later]
  · rw [if_neg later]
    exact UInt32.le_antisymm onward (UInt32.not_lt.mp later)

/-- A second of a slot that is cleared has left the window, and one of a slot that is kept is
still in it. -/
theorem inSlot_init {slot t : Nat} (sized : set.stats.length = n) (positive : 0 < n)
    (below : now.toNat + 1 < 2 ^ 32) (onward : set.lastUpdateTime ≤ now)
    (past : t ≤ set.lastUpdateTime.toNat) :
    inSlot n now.toNat slot t =
      (!decide (slot ∈ set.expired now) && inSlot n set.lastUpdateTime.toNat slot t) := by
  have order := UInt32.le_iff_toNat_le.mp onward
  have cleared := mem_expired slot set below
  rw [sized] at cleared
  by_cases here : t % n = slot
  · have next : (t + n) % n = slot := by rw [Nat.add_mod_right, here]
    have reached : t ≤ now.toNat := by omega
    by_cases expired : slot ∈ set.expired now
    · rcases cleared.mp expired with ⟨u, first, last, inside, same⟩
      have ahead : t + n ≤ u := by
        have congruent : u % n = t % n := by rw [here, same]
        have apart : (u - t) % n = 0 := Nat.sub_mod_eq_zero_of_mod_eq congruent
        have whole := Nat.le_of_dvd (by omega) (Nat.dvd_of_mod_eq_zero apart)
        omega
      have left : ¬now.toNat < t + n := by omega
      simp [inSlot, inWindow, expired, left]
    · have still : set.lastUpdateTime.toNat < t + n → now.toNat < t + n := by
        intro kept
        by_cases beyond : now.toNat < t + n
        · exact beyond
        · have found := cleared.mpr ⟨t + n, kept, by omega, by omega, next⟩
          exact absurd found expired
      have same : now.toNat < t + n ↔ set.lastUpdateTime.toNat < t + n :=
        ⟨fun kept => by omega, still⟩
      simp [inSlot, inWindow, expired, here, reached, past, same]
  · simp [inSlot, here]

theorem init_windowed (windowed : Windowed n rounds set) (positive : 0 < n)
    (below : now.toNat + 1 < 2 ^ 32) (onward : set.lastUpdateTime ≤ now) :
    Windowed n rounds (set.init now) where
  sized := by rw [length_init, windowed.sized]
  slots := by
    intro counter slot holder found
    rw [lastUpdateTime_init onward]
    rw [getElem_init] at found
    rcases Option.map_eq_some_iff.mp found with ⟨before, there, same⟩
    have counts := windowed.slots counter slot before there
    have moved : ∀ round ∈ rounds, inSlot n now.toNat slot round.time.toNat =
        (!decide (slot ∈ set.expired now) &&
          inSlot n set.lastUpdateTime.toNat slot round.time.toNat) := by
      intro round member
      exact inSlot_init windowed.sized positive below onward
        (UInt32.le_iff_toNat_le.mp (windowed.past round member))
    by_cases expired : slot ∈ set.expired now
    · rw [if_pos expired] at same
      have none : ∀ round ∈ rounds, inSlot n now.toNat slot round.time.toNat = false := by
        intro round member
        rw [moved round member]
        simp [expired]
      rw [Round.recorded_none none, ← same, HolderStats.clear, Counter.read_zero]
      rfl
    · rw [if_neg expired] at same
      have kept : ∀ round ∈ rounds, inSlot n now.toNat slot round.time.toNat =
          inSlot n set.lastUpdateTime.toNat slot round.time.toNat := by
        intro round member
        rw [moved round member]
        simp [expired]
      rw [Round.recorded_congr kept, ← same, counts]
  past := by
    intro round member
    rw [lastUpdateTime_init onward]
    exact UInt32.le_trans (windowed.past round member) onward

theorem recorded_inSlot_last {counter : Counter} {slot : Nat} (round : Round)
    (positive : 0 < n) :
    Round.recorded counter (inSlot n round.time.toNat slot) [round] =
      if round.time.toNat % n = slot then round.amount counter else 0 := by
  have inside : inWindow n round.time.toNat round.time.toNat = true := by
    simp [inWindow, positive]
  by_cases here : round.time.toNat % n = slot
  · simp [Round.recorded, inSlot, inside, here]
  · simp [Round.recorded, inSlot, here]

theorem stats_record (set : HolderStatsSet) (round : Round) :
    (set.record round).stats = (set.init round.time).stats.modify
      (round.time.toNat % (set.init round.time).stats.length) fun stats =>
        round.increments.foldl (fun stats increment => increment.apply stats) stats := rfl

theorem record_windowed {round : Round} (windowed : Windowed n rounds set) (positive : 0 < n)
    (below : round.time.toNat + 1 < 2 ^ 32) (onward : set.lastUpdateTime ≤ round.time) :
    Windowed n (rounds ++ [round]) (set.record round) where
  sized := by
    rw [stats_record, List.length_modify, length_init, windowed.sized]
  slots := by
    intro counter slot holder found
    have opened := init_windowed windowed positive below onward
    have last := lastUpdateTime_init onward
    rw [stats_record, List.getElem?_modify, opened.sized] at found
    rcases Option.map_eq_some_iff.mp found with ⟨before, there, same⟩
    have counts := opened.slots counter slot before there
    have updated : (set.record round).lastUpdateTime = round.time := last
    rw [last] at counts
    rw [updated, Round.recorded_append, recorded_inSlot_last round positive]
    by_cases here : round.time.toNat % n = slot
    · rw [if_pos here] at same
      rw [if_pos here, ← same, Increment.read_applied, counts, UInt32.ofNat_add]
      rfl
    · rw [if_neg here] at same
      rw [if_neg here, ← same, Nat.add_zero]
      exact counts
  past := by
    intro other member
    have updated : (set.record round).lastUpdateTime = round.time := lastUpdateTime_init onward
    rw [updated]
    rcases List.mem_append.mp member with before | this
    · exact UInt32.le_trans (windowed.past other before) onward
    · rw [List.mem_singleton.mp this]
      exact UInt32.le_refl _

/-- The calls up to a second, and no call goes back. -/
theorem run_windowed (positive : 0 < n) (below : now.toNat + 1 < 2 ^ 32) (later : List Round) :
    ∀ (rounds : List Round) (set : HolderStatsSet), Windowed n rounds set →
      (set.lastUpdateTime :: (later.map Round.time ++ [now])).Pairwise (· ≤ ·) →
      Windowed n (rounds ++ later) (later.foldl record set) ∧
        (later.foldl record set).lastUpdateTime ≤ now := by
  induction later with
  | nil =>
      intro rounds set windowed ordered
      rw [List.append_nil]
      exact ⟨windowed, List.rel_of_pairwise_cons ordered (List.mem_singleton_self now)⟩
  | cons round later induction =>
      intro rounds set windowed ordered
      have onward : set.lastUpdateTime ≤ round.time :=
        List.rel_of_pairwise_cons ordered List.mem_cons_self
      have rest := ordered.of_cons
      have until_now : round.time ≤ now :=
        List.rel_of_pairwise_cons rest (List.mem_append_right _ (List.mem_singleton_self now))
      have bound := UInt32.le_iff_toNat_le.mp until_now
      have recorded := record_windowed windowed positive (by omega) onward
      have updated : (set.record round).lastUpdateTime = round.time := lastUpdateTime_init onward
      have next := induction (rounds ++ [round]) (set.record round) recorded
      rw [updated, List.append_assoc] at next
      exact next rest

theorem read_foldl_add (counter : Counter) (stats : List HolderStats) :
    ∀ (rt : HolderStats) (sums : List Nat),
      stats.map counter.read = sums.map UInt32.ofNat →
      counter.read (stats.foldl HolderStats.add rt) =
        counter.read rt + UInt32.ofNat (TaskPool.total id sums) := by
  induction stats with
  | nil =>
      intro rt sums same
      have none : sums = [] := List.map_eq_nil_iff.mp same.symm
      rw [none]
      exact (UInt32.add_zero _).symm
  | cons first rest induction =>
      intro rt sums same
      cases sums with
      | nil => cases same
      | cons sum sums =>
          rw [List.map_cons, List.map_cons] at same
          rcases List.cons.inj same with ⟨head, tail⟩
          rw [List.foldl_cons, induction _ sums tail, Counter.read_add, head,
            TaskPool.total_cons, UInt32.ofNat_add, UInt32.add_assoc]
          rfl

theorem total_single (amount k n : Nat) :
    TaskPool.total (fun slot => if k = slot then amount else 0) (List.range n) =
      if k < n then amount else 0 := by
  induction n with
  | zero => rfl
  | succ n induction =>
      rw [List.range_succ, TaskPool.total_append, induction, TaskPool.total_cons,
        TaskPool.total_nil]
      by_cases last : k = n
      · simp [last]
      · by_cases before : k < n
        · have inside : k < n + 1 := by omega
          simp [last, before, inside]
        · have outside : ¬k < n + 1 := by omega
          simp [last, before, outside]

theorem recorded_slots (counter : Counter) (positive : 0 < n) (last : Nat)
    (rounds : List Round) :
    TaskPool.total (fun slot => Round.recorded counter (inSlot n last slot) rounds)
      (List.range n) = Round.recorded counter (inWindow n last) rounds := by
  induction rounds with
  | nil =>
      have zeros := total_single 0 n n
      simp only [ite_self] at zeros
      exact zeros
  | cons round rounds induction =>
      have inside : round.time.toNat % n < n := Nat.mod_lt _ positive
      have first : (fun slot => Round.recorded counter (inSlot n last slot) (round :: rounds)) =
          fun slot => (if round.time.toNat % n = slot then
              (if inWindow n last round.time.toNat then round.amount counter else 0) else 0) +
            Round.recorded counter (inSlot n last slot) rounds := by
        funext slot
        rw [Round.recorded, TaskPool.total_cons, ← Round.recorded]
        by_cases here : round.time.toNat % n = slot
        · simp [inSlot, here]
        · simp [inSlot, here]
      rw [first, TaskPool.total_add, total_single, if_pos inside, induction, Round.recorded,
        Round.recorded, TaskPool.total_cons]

theorem windowed_total (windowed : Windowed n rounds set) (positive : 0 < n)
    (counter : Counter) : counter.read set.getTotal =
      UInt32.ofNat (Round.recorded counter (inWindow n set.lastUpdateTime.toNat) rounds) := by
  have slots : set.stats.map counter.read = ((List.range n).map fun slot =>
      Round.recorded counter (inSlot n set.lastUpdateTime.toNat slot) rounds).map
        UInt32.ofNat := by
    apply List.ext_getElem?
    intro slot
    rw [List.map_map, List.getElem?_map, List.getElem?_map]
    by_cases inside : slot < n
    · have there := windowed.sized
      have found : set.stats[slot]? = some (set.stats[slot]) := List.getElem?_eq_getElem _
      rw [found, List.getElem?_range inside]
      exact congrArg some (windowed.slots counter slot _ found)
    · have outside := windowed.sized
      rw [List.getElem?_eq_none (by omega), List.getElem?_eq_none (by simp; omega)]
      rfl
  have sum := read_foldl_add counter set.stats HolderStats.zero _ slots
  have weights : TaskPool.total id ((List.range n).map fun slot =>
      Round.recorded counter (inSlot n set.lastUpdateTime.toNat slot) rounds) =
      TaskPool.total (fun slot =>
        Round.recorded counter (inSlot n set.lastUpdateTime.toNat slot) rounds)
        (List.range n) := by
    rw [TaskPool.total, TaskPool.total, List.map_map]
    rfl
  rw [getTotal, sum, weights, recorded_slots counter positive, Counter.read_zero,
    UInt32.zero_add]

/-- `getTotal` behind a call of `get` counts the increments of the last n seconds, and no others,
whatever calls came before. -/
theorem getTotal_window (n : Nat) (rounds : List Round) (now : UInt32) (counter : Counter)
    (positive : 0 < n) (below : now.toNat < 2 ^ 32 - 1)
    (ordered : (rounds.map Round.time ++ [now]).Pairwise (· ≤ ·)) :
    counter.read ((rounds.foldl record (new n)).get now).1.getTotal =
      UInt32.ofNat (Round.recorded counter
        (fun t => decide (t ≤ now.toNat) && decide (now.toNat < t + n)) rounds) := by
  have above : (0 :: (rounds.map Round.time ++ [now])).Pairwise (· ≤ ·) :=
    List.pairwise_cons.mpr ⟨fun time _ => UInt32.le_iff_toNat_le.mpr (Nat.zero_le _), ordered⟩
  have run := run_windowed positive (by omega) rounds [] (new n) (new_windowed n) above
  rw [List.nil_append] at run
  rcases run with ⟨windowed, onward⟩
  have opened := init_windowed windowed positive (by omega) onward
  have total := windowed_total opened positive counter
  rw [lastUpdateTime_init onward] at total
  exact total

/-- Two slots; the increments of second 7 are gone in second 9, those of second 8 are not. -/
theorem getTotal_window_two :
    (0 < 2 ∧ (9 : UInt32).toNat < 2 ^ 32 - 1) ∧
      Counter.oks.read (([⟨7, [⟨.oks, 3⟩, ⟨.doing, 1⟩]⟩, ⟨8, [⟨.oks, 4⟩]⟩, ⟨8, [⟨.oks, 1⟩]⟩].foldl
        record (new 2)).get 9).1.getTotal = 5 := by
  refine ⟨by decide, ?_⟩
  rw [getTotal_window 2 _ 9 .oks (by decide) (by decide) (by decide)]
  rfl

end HolderStatsSet
end ChatServer.Streams
