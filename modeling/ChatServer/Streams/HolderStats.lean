import ChatServer.Lib.Transition
import ChatServer.Lib.TaskPool

/-!
# Statistics of a backend

`HolderStats` and `HolderStatsSet` of `load_balance.cc`: one slot for each of the last seconds,
cleared when it is used for a new one. A request of `grpc_loadbalance.cc` counts itself in the
slot of the second in which it began, and counts itself out of the same slot, which may have been
cleared in the meantime.
-/

namespace ChatServer.Streams

set_option autoImplicit false

structure HolderStats where
  usedTime : UInt32
  total : UInt32
  doing : UInt32
  timeouts : UInt32
  oks : UInt32
  errs : UInt32
  deriving DecidableEq

namespace HolderStats

def zero : HolderStats := ⟨0, 0, 0, 0, 0, 0⟩

def incUsedTime (stats : HolderStats) (v : UInt32) : HolderStats :=
  { stats with usedTime := stats.usedTime + v }

def incTotal (stats : HolderStats) (v : UInt32) : HolderStats :=
  { stats with total := stats.total + v }

def incDoing (stats : HolderStats) (v : UInt32) : HolderStats :=
  { stats with doing := stats.doing + v }

def incTimeouts (stats : HolderStats) (v : UInt32) : HolderStats :=
  { stats with timeouts := stats.timeouts + v }

def incOks (stats : HolderStats) (v : UInt32) : HolderStats := { stats with oks := stats.oks + v }

def incErrs (stats : HolderStats) (v : UInt32) : HolderStats :=
  { stats with errs := stats.errs + v }

def decDoing (stats : HolderStats) (v : UInt32) : HolderStats :=
  { stats with doing := stats.doing - v }

def clear (_ : HolderStats) : HolderStats := zero

/-- The body of the loop of `getTotal`. -/
def add (rt stats : HolderStats) : HolderStats :=
  ⟨rt.usedTime + stats.usedTime, rt.total + stats.total, rt.doing + stats.doing,
    rt.timeouts + stats.timeouts, rt.oks + stats.oks, rt.errs + stats.errs⟩

end HolderStats

structure HolderStatsSet where
  lastUpdateTime : UInt32
  stats : List HolderStats
  deriving DecidableEq

namespace HolderStatsSet

def new (size : Nat) : HolderStatsSet := ⟨0, List.replicate size HolderStats.zero⟩

def slot (set : HolderStatsSet) (t : UInt32) : Nat := t.toNat % set.stats.length

/-- The loop of `init` with so many rounds left: the slots that it clears. -/
def expiredFrom (set : HolderStatsSet) (now : UInt32) : Nat → UInt32 → List Nat
  | 0, _ => []
  | rounds + 1, t =>
      if t ≤ now then set.slot t :: expiredFrom set now rounds (t + 1) else []

/-- The slots that `init` clears. -/
def expired (set : HolderStatsSet) (now : UInt32) : List Nat :=
  if set.lastUpdateTime < now then
    set.expiredFrom now set.stats.length (set.lastUpdateTime + 1)
  else []

def cleared (slots : List Nat) (stats : List HolderStats) : List HolderStats :=
  slots.foldl (fun stats slot => stats.modify slot HolderStats.clear) stats

def init (set : HolderStatsSet) (now : UInt32) : HolderStatsSet :=
  if set.lastUpdateTime < now then ⟨now, cleared (set.expired now) set.stats⟩ else set

/-- What `get` does to the set; it returns a reference to the slot of `now`. -/
def get (set : HolderStatsSet) (now : UInt32) : HolderStatsSet × Nat :=
  let set := set.init now
  (set, set.slot now)

def getTotal (set : HolderStatsSet) : HolderStats :=
  set.stats.foldl HolderStats.add HolderStats.zero

variable {slots : List Nat} {stats : List HolderStats} {set : HolderStatsSet}

theorem getElem_cleared (slots : List Nat) : ∀ (stats : List HolderStats) (slot : Nat),
    (cleared slots stats)[slot]? =
      stats[slot]?.map fun holder => if slot ∈ slots then holder.clear else holder := by
  induction slots with
  | nil =>
      intro stats slot
      simp [cleared]
  | cons first rest induction =>
      intro stats slot
      have onward : cleared (first :: rest) stats =
          cleared rest (stats.modify first HolderStats.clear) := rfl
      rw [onward, induction, List.getElem?_modify]
      cases stats[slot]? with
      | none => rfl
      | some holder =>
          by_cases here : first = slot
          · simp [here, HolderStats.clear]
          · have other : slot ≠ first := fun same => here same.symm
            simp [here, other]

theorem length_cleared (slots : List Nat) (stats : List HolderStats) :
    (cleared slots stats).length = stats.length := by
  induction slots generalizing stats with
  | nil => rfl
  | cons first rest induction =>
      have onward : cleared (first :: rest) stats =
          cleared rest (stats.modify first HolderStats.clear) := rfl
      rw [onward, induction, List.length_modify]

theorem length_init (set : HolderStatsSet) (now : UInt32) :
    (set.init now).stats.length = set.stats.length := by
  rw [init]
  split
  · exact length_cleared _ _
  · rfl

theorem getElem_init (set : HolderStatsSet) (now : UInt32) (slot : Nat) :
    (set.init now).stats[slot]? =
      set.stats[slot]?.map fun holder =>
        if slot ∈ set.expired now then holder.clear else holder := by
  rw [init]
  by_cases later : set.lastUpdateTime < now
  · rw [if_pos later]
    exact getElem_cleared _ _ _
  · rw [if_neg later, expired, if_neg later]
    simp

end HolderStatsSet

/-- A request with its slot, before and behind `incDoing` and `incTotal`. -/
inductive Flight where
  | begun (slot : Nat)
  | counted (slot : Nat)
  deriving DecidableEq

namespace Flight

def slot : Flight → Nat
  | .begun slot | .counted slot => slot

def countedIn : Flight → List Nat
  | .begun _ => []
  | .counted slot => [slot]

end Flight

/-- The statistics of one item and the requests that run on it. -/
structure Backend where
  set : HolderStatsSet
  flights : List Flight
  deriving DecidableEq

inductive FlightAction where
  | get (now : UInt32)
  | count (place : Nat)
  | finish (place : Nat) (result : Int) (used : UInt32)
  | getWeight (now : UInt32)

namespace Backend

/-- An item has a set of the default size. -/
def start : Backend := ⟨.new 5, []⟩

/-- `conn->get(ts / 1000)`. -/
def get (backend : Backend) (now : UInt32) : Backend :=
  let (set, slot) := backend.set.get now
  ⟨set, backend.flights ++ [.begun slot]⟩

/-- A statement on the slot of a request. -/
def update (set : HolderStatsSet) (slot : Nat) (change : HolderStats → HolderStats) :
    HolderStatsSet :=
  { set with stats := set.stats.modify slot change }

def count (backend : Backend) (place slot : Nat) : Backend :=
  ⟨update backend.set slot fun stats => (stats.incDoing 1).incTotal 1,
    TaskPool.replace backend.flights place [.counted slot]⟩

/-- What is counted of a response; `-1` is `AsyncSocketStream::TIMEOUT`. -/
def responded (result : Int) (used : UInt32) (stats : HolderStats) : HolderStats :=
  if result = 0 then (stats.incOks 1).incUsedTime used
  else if result = -1 then stats.incTimeouts 1
  else if result < 0 then stats.incErrs 1
  else stats

def finish (backend : Backend) (place slot : Nat) (result : Int) (used : UInt32) : Backend :=
  ⟨update backend.set slot fun stats => (responded result used stats).decDoing 1,
    TaskPool.replace backend.flights place []⟩

/-- `getWeight` clears slots like `get`; the weight itself is a `float`. -/
def getWeight (backend : Backend) (now : UInt32) : Backend :=
  { backend with set := backend.set.init now }

def step (backend : Backend) : FlightAction → Option Backend
  | .get now => some (backend.get now)
  | .count place => match backend.flights[place]? with
      | some (.begun slot) => some (backend.count place slot)
      | _ => none
  | .finish place result used => match backend.flights[place]? with
      | some (.counted slot) => some (backend.finish place slot result used)
      | _ => none
  | .getWeight now => some (backend.getWeight now)

/-- The slots in which requests in flight are counted, once for each request. -/
def counted (flights : List Flight) : List Nat := TaskPool.held Flight.countedIn flights

/-- No slot is cleared in which a request in flight is counted, and there are not 2^32 requests
at a time. -/
def Spares (backend : Backend) : FlightAction → Prop
  | .get now => (∀ slot ∈ counted backend.flights, slot ∉ backend.set.expired now) ∧
      backend.flights.length + 1 < 2 ^ 32
  | .getWeight now => ∀ slot ∈ counted backend.flights, slot ∉ backend.set.expired now
  | .count _ | .finish _ _ _ => True

instance (backend : Backend) (action : FlightAction) : Decidable (backend.Spares action) :=
  match action with
  | .get _ => inferInstanceAs (Decidable ((∀ _ ∈ _, _) ∧ _))
  | .getWeight _ => inferInstanceAs (Decidable (∀ _ ∈ _, _))
  | .count _ | .finish _ _ _ => inferInstanceAs (Decidable True)

/-- No `decDoing` to come is going to wrap, and no more is counted than there is. -/
def Accounts (backend : Backend) : Prop :=
  (∀ slot ∈ counted backend.flights, ∃ stats, backend.set.stats[slot]? = some stats ∧
    stats.doing ≠ 0) ∧
  backend.set.getTotal.doing.toNat ≤ backend.flights.length

def doings (set : HolderStatsSet) : List UInt32 := set.stats.map HolderStats.doing

structure Sound (backend : Backend) : Prop where
  slots : ∀ slot doing, (doings backend.set)[slot]? = some doing →
    doing.toNat = (counted backend.flights).count slot
  summed : TaskPool.total UInt32.toNat (doings backend.set) = (counted backend.flights).length
  inside : ∀ flight ∈ backend.flights, flight.slot < backend.set.stats.length
  sized : 0 < backend.set.stats.length
  few : backend.flights.length < 2 ^ 32

variable {backend after : Backend} {place slot : Nat}

theorem start_sound : start.Sound where
  slots := by
    intro slot doing found
    have zero := List.mem_of_getElem? found
    simp only [start, doings, HolderStatsSet.new, List.map_replicate] at zero
    rw [List.eq_of_mem_replicate zero]
    rfl
  summed := by decide
  inside := by simp [start]
  sized := by decide
  few := by decide

theorem counted_le (flights : List Flight) : (counted flights).length ≤ flights.length := by
  induction flights with
  | nil => exact Nat.le_refl 0
  | cons flight flights induction =>
      rw [counted, TaskPool.held, List.flatMap_cons, List.length_append, List.length_cons]
      rw [counted, TaskPool.held] at induction
      cases flight with
      | begun slot =>
          rw [Flight.countedIn, List.length_nil]
          omega
      | counted slot =>
          rw [Flight.countedIn, List.length_singleton]
          omega

/-- Slots in which nothing is counted may be cleared. -/
theorem doings_init (sound : backend.Sound) {now : UInt32}
    (spared : ∀ slot ∈ counted backend.flights, slot ∉ backend.set.expired now) :
    doings (backend.set.init now) = doings backend.set := by
  apply List.ext_getElem?
  intro slot
  rw [doings, doings, List.getElem?_map, List.getElem?_map, HolderStatsSet.getElem_init]
  cases found : backend.set.stats[slot]? with
  | none => rfl
  | some stats =>
      by_cases expired : slot ∈ backend.set.expired now
      · have doing : (doings backend.set)[slot]? = some stats.doing := by
          rw [doings, List.getElem?_map, found]
          rfl
        have uncounted : (counted backend.flights).count slot = 0 :=
          List.count_eq_zero.mpr fun member => spared slot member expired
        have zero : stats.doing = 0 := by
          apply UInt32.toNat_inj.mp
          rw [sound.slots slot stats.doing doing, uncounted]
          rfl
        simp only [Option.map_some, if_pos expired]
        rw [zero]
        rfl
      · simp [expired]

theorem doings_update (set : HolderStatsSet) (slot : Nat) {change : HolderStats → HolderStats}
    {doing : UInt32 → UInt32} (changes : ∀ stats, (change stats).doing = doing stats.doing) :
    doings (update set slot change) = (doings set).modify slot doing := by
  apply List.ext_getElem?
  intro other
  rw [doings, update, doings, List.getElem?_map, List.getElem?_modify, List.getElem?_modify,
    List.getElem?_map]
  cases set.stats[other]? with
  | none => rfl
  | some stats =>
      by_cases here : slot = other
      · simp [here, changes]
      · simp [here]

theorem init_sound (sound : backend.Sound) {now : UInt32}
    (spared : ∀ slot ∈ counted backend.flights, slot ∉ backend.set.expired now) :
    (backend.getWeight now).Sound where
  slots := by
    rw [getWeight, doings_init sound spared]
    exact sound.slots
  summed := by
    rw [getWeight, doings_init sound spared]
    exact sound.summed
  inside := by
    rw [getWeight, HolderStatsSet.length_init]
    exact sound.inside
  sized := by
    rw [getWeight, HolderStatsSet.length_init]
    exact sound.sized
  few := sound.few

theorem counted_begun (flights : List Flight) (slot : Nat) :
    counted (flights ++ [.begun slot]) = counted flights := by
  rw [counted, TaskPool.held, List.flatMap_append, List.flatMap_singleton, Flight.countedIn,
    List.append_nil]
  rfl

theorem get_sound (sound : backend.Sound) {now : UInt32} (spares : backend.Spares (.get now)) :
    (backend.get now).Sound := by
  have cleared := init_sound sound spares.1
  constructor
  case slots =>
    simp only [get, HolderStatsSet.get, counted_begun]
    exact cleared.slots
  case summed =>
    simp only [get, HolderStatsSet.get, counted_begun]
    exact cleared.summed
  case inside =>
    intro flight member
    rcases List.mem_append.mp member with before | new
    · exact cleared.inside flight before
    · rw [List.mem_singleton.mp new]
      exact Nat.mod_lt _ cleared.sized
  case sized => exact cleared.sized
  case few =>
    simp only [get, List.length_append, List.length_singleton]
    exact spares.2

theorem doing_at (set : HolderStatsSet) {slot : Nat} (inside : slot < set.stats.length) :
    ∃ doing, (doings set)[slot]? = some doing := by
  rw [doings, List.getElem?_map, List.getElem?_eq_getElem inside]
  exact ⟨_, rfl⟩

/-- What one request adds to its slot or takes from it. -/
theorem update_sound {flights : List Flight} {change : HolderStats → HolderStats}
    {before : UInt32} (doing : UInt32 → UInt32) (sound : backend.Sound)
    (changes : ∀ stats, (change stats).doing = doing stats.doing)
    (found : (doings backend.set)[slot]? = some before)
    (slots : ∀ other, (counted flights).count other + (if other = slot then before.toNat else 0) =
      (counted backend.flights).count other + (if other = slot then (doing before).toNat else 0))
    (summed : (counted flights).length + before.toNat =
      (counted backend.flights).length + (doing before).toNat)
    (subset : ∀ flight ∈ flights, flight.slot < backend.set.stats.length)
    (few : flights.length < 2 ^ 32) : Backend.Sound ⟨update backend.set slot change, flights⟩ where
  slots := by
    intro other value there
    have kept := slots other
    rw [doings_update backend.set slot changes, List.getElem?_modify] at there
    rcases Option.map_eq_some_iff.mp there with ⟨was, present, same⟩
    have counts := sound.slots other was present
    by_cases here : slot = other
    · rw [if_pos here] at same
      rw [if_pos here.symm, if_pos here.symm] at kept
      rw [here, present] at found
      rw [← same, Option.some.inj found]
      rw [Option.some.inj found] at counts
      simp only
      omega
    · rw [if_neg here] at same
      rw [if_neg (Ne.symm here), if_neg (Ne.symm here)] at kept
      rw [← same]
      simp only
      omega
  summed := by
    have moved := TaskPool.total_modify UInt32.toNat doing found
    have total := sound.summed
    rw [doings_update backend.set slot changes]
    simp only
    omega
  inside := by
    rw [update, List.length_modify]
    exact subset
  sized := by
    rw [update, List.length_modify]
    exact sound.sized
  few := few

theorem count_sound (sound : backend.Sound) (found : backend.flights[place]? = some (.begun slot)) :
    (backend.count place slot).Sound := by
  have inside := sound.inside _ (List.mem_of_getElem? found)
  rcases doing_at backend.set inside with ⟨before, present⟩
  have moved := TaskPool.held_replace Flight.countedIn found [.counted slot]
  have same := (TaskPool.replace_perm found [.counted slot]).length_eq
  simp only [List.length_cons, List.length_append, List.length_nil] at same
  have longer := moved.length_eq
  simp only [Flight.countedIn, TaskPool.held, List.flatMap_singleton, List.nil_append,
    List.length_append, List.length_singleton] at longer
  have most := counted_le (TaskPool.replace backend.flights place [.counted slot])
  have few := sound.few
  have counts := sound.slots slot before present
  have atMost := List.count_le_length (a := slot) (l := counted backend.flights)
  have more : (before + 1).toNat = before.toNat + 1 := by
    rw [UInt32.toNat_add]
    apply Nat.mod_eq_of_lt
    simp only [counted, TaskPool.held] at most counts atMost
    have one : (1 : UInt32).toNat = 1 := rfl
    omega
  refine update_sound (· + 1) sound (fun _ => rfl) present ?_ ?_ ?_ ?_
  · intro other
    have perm := moved.count_eq other
    simp only [Flight.countedIn, TaskPool.held, List.flatMap_singleton, List.nil_append,
      List.count_append, List.count_singleton] at perm
    simp only [counted, TaskPool.held, perm, more]
    by_cases here : other = slot
    · simp only [here, beq_self_eq_true, if_true]
      omega
    · have apart : (slot == other) = false := by simpa using Ne.symm here
      simp [here, apart]
  · simp only [counted, TaskPool.held, more]
    omega
  · intro flight member
    rcases TaskPool.mem_replace member with kept | new
    · exact sound.inside flight kept
    · rw [List.mem_singleton.mp new]
      exact inside
  · omega

theorem responded_doing (result : Int) (used : UInt32) (stats : HolderStats) :
    (responded result used stats).doing = stats.doing := by
  rw [responded]
  split
  · rfl
  · split
    · rfl
    · split <;> rfl

theorem finish_sound (sound : backend.Sound)
    (found : backend.flights[place]? = some (.counted slot)) (result : Int) (used : UInt32) :
    (backend.finish place slot result used).Sound := by
  have inside := sound.inside _ (List.mem_of_getElem? found)
  rcases doing_at backend.set inside with ⟨before, present⟩
  have moved := TaskPool.held_replace Flight.countedIn found []
  have shorter := (TaskPool.replace_perm found []).length_eq
  simp only [List.length_cons, List.append_nil] at shorter
  have fewer := moved.length_eq
  simp only [Flight.countedIn, TaskPool.held, List.flatMap_nil, List.append_nil,
    List.length_append, List.length_singleton] at fewer
  have counts := sound.slots slot before present
  have one : 0 < (counted backend.flights).count slot :=
    List.count_pos_iff.mpr (TaskPool.mem_held found (List.mem_singleton_self slot))
  have less : (before - 1).toNat = before.toNat - 1 := by
    apply UInt32.toNat_sub_of_le
    rw [UInt32.le_iff_toNat_le]
    have value : (1 : UInt32).toNat = 1 := rfl
    omega
  have few := sound.few
  refine update_sound (· - 1) sound (fun stats => ?_) present ?_ ?_ ?_ ?_
  · exact congrArg (· - 1) (responded_doing result used stats)
  · intro other
    have perm := moved.count_eq other
    simp only [Flight.countedIn, TaskPool.held, List.flatMap_nil, List.append_nil,
      List.count_append, List.count_singleton] at perm
    simp only [counted, TaskPool.held, less] at counts one ⊢
    by_cases here : other = slot
    · simp only [here, beq_self_eq_true, if_true] at perm ⊢
      omega
    · have apart : (slot == other) = false := by simpa using Ne.symm here
      simp only [here, apart, if_false, Bool.false_eq_true] at perm ⊢
      omega
  · simp only [counted, TaskPool.held, less] at counts one ⊢
    omega
  · intro flight member
    rcases TaskPool.mem_replace member with kept | new
    · exact sound.inside flight kept
    · cases new
  · omega

theorem step_sound {action : FlightAction} (sound : backend.Sound)
    (spares : backend.Spares action) (taken : backend.step action = some after) :
    after.Sound := by
  cases action with
  | get now =>
      cases taken
      exact get_sound sound spares
  | count place =>
      rw [step] at taken
      split at taken
      · cases taken
        exact count_sound sound ‹_›
      · cases taken
  | finish place result used =>
      rw [step] at taken
      split at taken
      · cases taken
        exact finish_sound sound ‹_› result used
      · cases taken
  | getWeight now =>
      cases taken
      exact init_sound sound spares

theorem total_doing_le (stats : List HolderStats) : ∀ rt : HolderStats,
    (stats.foldl HolderStats.add rt).doing.toNat ≤
      rt.doing.toNat + TaskPool.total UInt32.toNat (stats.map HolderStats.doing) := by
  induction stats with
  | nil =>
      intro rt
      exact Nat.le_refl _
  | cons first rest induction =>
      intro rt
      have onward := induction (rt.add first)
      have added : (rt.add first).doing.toNat ≤ rt.doing.toNat + first.doing.toNat := by
        rw [HolderStats.add, UInt32.toNat_add]
        exact Nat.mod_le _ _
      rw [List.foldl_cons, List.map_cons, TaskPool.total_cons]
      omega

theorem sound_accounts (sound : backend.Sound) : backend.Accounts := by
  constructor
  · intro slot member
    rcases List.mem_flatMap.mp member with ⟨flight, inside, same⟩
    have there : flight.slot = slot := by
      cases flight with
      | begun other => cases same
      | counted other => exact (List.mem_singleton.mp same).symm
    have bound := sound.inside flight inside
    rw [there] at bound
    rcases List.getElem?_eq_some_iff.mpr ⟨bound, rfl⟩ with found
    refine ⟨_, found, ?_⟩
    have doing : (doings backend.set)[slot]? = some (backend.set.stats[slot]).doing := by
      rw [doings, List.getElem?_map, found]
      rfl
    have counts := sound.slots slot _ doing
    have positive := List.count_pos_iff.mpr member
    intro zero
    rw [zero] at counts
    have none : (0 : UInt32).toNat = 0 := rfl
    omega
  · have most := total_doing_le backend.set.stats HolderStats.zero
    have summed := sound.summed
    have fewer := counted_le backend.flights
    rw [doings] at summed
    have none : HolderStats.zero.doing.toNat = 0 := rfl
    rw [HolderStatsSet.getTotal]
    omega

theorem cleared_breaks {now : UInt32} (slot : Nat) (member : slot ∈ counted backend.flights)
    (expired : slot ∈ backend.set.expired now) : ¬(backend.get now).Accounts := by
  intro accounts
  have still : slot ∈ counted (backend.get now).flights := by
    rw [get, counted_begun]
    exact member
  rcases accounts.1 slot still with ⟨stats, found, doing⟩
  have there : (backend.set.init now).stats[slot]? = some stats := found
  rw [HolderStatsSet.getElem_init] at there
  rcases Option.map_eq_some_iff.mp there with ⟨before, _, same⟩
  rw [if_pos expired] at same
  apply doing
  rw [← same]
  rfl

/-- Requests are counted out of slots that still count them, as long as no slot is cleared under a
request; a `get` that clears one leaves a counter that is going to wrap. -/
theorem flights_account (reached : Transition.Reaches step Spares start backend) :
    backend.Accounts ∧ ∀ now, (∃ slot ∈ counted backend.flights, slot ∈ backend.set.expired now) →
      ∀ after, backend.step (.get now) = some after → ¬after.Accounts := by
  have sound := Transition.invariant_of_reaches start_sound
    (fun _ _ _ sound spares taken => step_sound sound spares taken) reached
  refine ⟨sound_accounts sound, ?_⟩
  intro now clears after taken
  rcases clears with ⟨slot, member, expired⟩
  cases taken
  exact cleared_breaks slot member expired

/-- Two requests in flight in neighbouring seconds, and one that is over. -/
theorem flights_account_two : ∃ backend : Backend,
    (Transition.Reaches step Spares start backend ∧ counted backend.flights = [1, 2] ∧
      backend.set.getTotal.doing = 2 ∧ backend.set.getTotal.total = 3) ∧ backend.Accounts ∧
    ∀ now, (∃ slot ∈ counted backend.flights, slot ∈ backend.set.expired now) →
      ∀ after, backend.step (.get now) = some after → ¬after.Accounts := by
  have reached : ∃ backend : Backend, Transition.Reaches step Spares start backend ∧
      counted backend.flights = [1, 2] ∧ backend.set.getTotal.doing = 2 ∧
      backend.set.getTotal.total = 3 := by
    apply Transition.exists_of_run [.get 101, .count 0, .get 101, .count 1, .finish 0 0 15,
      .get 102, .count 1]
    decide +kernel
  rcases reached with ⟨backend, reached, state⟩
  exact ⟨backend, ⟨reached, state⟩, flights_account reached⟩

/-- A request that began in second 1 is over in second 7, behind one that uses its slot anew. -/
theorem slot_cleared_in_flight : ∃ backend : Backend,
    Transition.Reaches step (fun _ _ => True) start backend ∧ ¬backend.Accounts ∧
      backend.set.getTotal.doing = -1 ∧ backend.flights.length = 1 := by
  have reached : ∃ backend : Backend, Transition.Reaches step (fun _ _ => True) start backend ∧
      backend.set.getTotal.doing = -1 ∧ backend.flights.length = 1 := by
    apply Transition.exists_of_run [.get 1, .count 0, .get 7, .finish 0 0 6000]
    decide +kernel
  rcases reached with ⟨backend, reached, doing, one⟩
  refine ⟨backend, reached, ?_, doing, one⟩
  intro accounts
  have most := accounts.2
  rw [doing, one] at most
  revert most
  decide

end Backend
end ChatServer.Streams
