import ChatServer.Lib.Shares
import ChatServer.Streams.LoadBalance

/-!
# Which item a load balancer picks

`initNolock` and `get` of `RoundRobinLoadBalance` and `WeightLoadBalance`. `getWeight` and
`isValid` of an item are virtual and change with time, so they are arguments here, as they are
when they are called. `m_datas` is listed in the order of its table.
-/

namespace ChatServer.Streams

set_option autoImplicit false

/-- The conversion of an integer to `uint64_t` or `size_t`. -/
def unsigned (value : Int) : Nat := (value % 2 ^ 64).toNat

def draw (v rand : UInt64) : Nat := if v = -1 then rand.toNat else v.toNat

/-- The loop of both `get`, from the item at `idx` on and around. -/
def scan (items : List LoadBalanceItem) (isValid : LoadBalanceItem → Bool) (idx : Int) :
    Option LoadBalanceItem :=
  (List.range items.length).findSome? fun (i : Nat) =>
    items[unsigned (idx + i) % items.length]?.filter isValid

namespace RoundRobinLoadBalance

/-- `m_items` behind `initNolock`. -/
def initNolock (isValid : LoadBalanceItem → Bool) (datas : List LoadBalanceItem) :
    List LoadBalanceItem := datas.filter isValid

def get (items : List LoadBalanceItem) (isValid : LoadBalanceItem → Bool) (v rand : UInt64) :
    Option LoadBalanceItem :=
  if items.isEmpty then none
  else scan items isValid ((draw v rand % items.length % 2 ^ 32 : Nat) : Int)

end RoundRobinLoadBalance

structure WeightLoadBalance where
  items : List LoadBalanceItem
  weights : List Int
  deriving DecidableEq

namespace WeightLoadBalance

def sums (total : Int) : List Int → Result (List Int)
  | [] => .ok []
  | weight :: weights => do
      let total ← checkedLong (total + weight)
      let rest ← sums total weights
      .ok (total :: rest)

def initNolock (isValid : LoadBalanceItem → Bool) (getWeight : LoadBalanceItem → Int)
    (datas : List LoadBalanceItem) : Result WeightLoadBalance := do
  let items := datas.filter isValid
  let weights ← sums 0 (items.map getWeight)
  .ok ⟨items, weights⟩

def getIdx (lb : WeightLoadBalance) (v rand : UInt64) : Result Int :=
  match lb.weights.getLast? with
  | none => .ok (-1)
  | some total =>
      if unsigned total = 0 then .error .aborted
      else
        let dis := draw v rand % unsigned total
        -- `upper_bound` compares as `uint64_t`
        let it := Shares.bisect
          (fun place => lb.weights[place]?.any fun sum => decide (dis < unsigned sum)) 0
          lb.weights.length
        if it = lb.weights.length then .error .aborted else .ok (int32 it)

def get (lb : WeightLoadBalance) (isValid : LoadBalanceItem → Bool) (v rand : UInt64) :
    Result (Option LoadBalanceItem) := do
  let idx ← lb.getIdx v rand
  if idx = -1 then .ok none else .ok (scan lb.items isValid idx)

end WeightLoadBalance

variable {items datas : List LoadBalanceItem} {isValid : LoadBalanceItem → Bool}

/-- A valid item whenever there is one, `nullptr` otherwise. -/
def Finds (items : List LoadBalanceItem) (isValid : LoadBalanceItem → Bool)
    (result : Option LoadBalanceItem) : Prop :=
  (∃ item ∈ items, isValid item = true ∧ result = some item) ∨
    (∀ item ∈ items, isValid item = false) ∧ result = none

theorem unsigned_of_small {value : Nat} (small : value < 2 ^ 64) :
    unsigned (value : Int) = value := by
  rw [unsigned]
  omega

theorem turn_reaches (idx : Nat) {size place : Nat} (inside : place < size) :
    ∃ i, i < size ∧ (idx + i) % size = place := by
  have start : idx % size < size := Nat.mod_lt _ (by omega)
  refine ⟨(place + (size - idx % size)) % size, Nat.mod_lt _ (by omega), ?_⟩
  have whole : idx % size + (place + (size - idx % size)) = place + size := by omega
  rw [Nat.add_mod_mod, ← Nat.mod_add_mod, whole, Nat.add_mod_right, Nat.mod_eq_of_lt inside]

theorem scan_finds {idx : Nat} (bound : idx + items.length ≤ 2 ^ 64) :
    Finds items isValid (scan items isValid idx) := by
  have visited : ∀ i, i < items.length → unsigned ((idx : Int) + (i : Int)) = idx + i := by
    intro i inside
    have small : unsigned ((idx + i : Nat) : Int) = idx + i := unsigned_of_small (by omega)
    rw [Int.natCast_add] at small
    exact small
  cases found : scan items isValid idx with
  | some item =>
      rw [scan] at found
      rcases List.exists_of_findSome?_eq_some found with ⟨i, _, there⟩
      rcases Option.filter_eq_some_iff.mp there with ⟨read, valid⟩
      exact Or.inl ⟨item, List.mem_of_getElem? read, valid, rfl⟩
  | none =>
      refine Or.inr ⟨?_, rfl⟩
      intro item member
      rcases List.mem_iff_getElem?.mp member with ⟨place, read⟩
      have inside := (List.getElem?_eq_some_iff.mp read).1
      rcases turn_reaches idx inside with ⟨i, small, same⟩
      rw [scan, List.findSome?_eq_none_iff] at found
      have skipped := found i (List.mem_range.mpr small)
      rw [visited i small, same, read] at skipped
      cases valid : isValid item with
      | false => rfl
      | true => simp [Option.filter, valid] at skipped

theorem RoundRobinLoadBalance.get_finds (bound : items.length ≤ 2 ^ 63) (v rand : UInt64) :
    Finds items isValid (RoundRobinLoadBalance.get items isValid v rand) := by
  rw [get]
  cases items with
  | nil =>
      refine Or.inr ⟨?_, rfl⟩
      intro item member
      cases member
  | cons first rest =>
      simp only [List.isEmpty_cons, Bool.false_eq_true, if_false]
      apply scan_finds
      have small : draw v rand % (first :: rest).length % 2 ^ 32 < 2 ^ 32 :=
        Nat.mod_lt _ (by decide)
      omega

namespace WeightLoadBalance

variable {getWeight : LoadBalanceItem → Int} {lb : WeightLoadBalance} {weights : List Int}

/-- What the residues of `v` give to the items, and what a later `get` returns. -/
structure Selects (getWeight : LoadBalanceItem → Int) (items : List LoadBalanceItem)
    (lb : WeightLoadBalance) : Prop where
  chosen : ∀ v rand : UInt64, v ≠ -1 → ∃ (i : Nat) (lower upper : Int),
    lb.getIdx v rand = .ok (i : Int) ∧ (0 :: lb.weights)[i]? = some lower ∧
      lb.weights[i]? = some upper ∧ lower ≤ (v.toNat : Int) % lb.weights.getLastD 0 ∧
      (v.toNat : Int) % lb.weights.getLastD 0 < upper
  shared : ∀ (i : Nat) (item : LoadBalanceItem), items[i]? = some item → ∀ rand : UInt64,
    (((List.range (lb.weights.getLastD 0).toNat).countP fun residue =>
      decide (lb.getIdx (UInt64.ofNat residue) rand = .ok (i : Int)) : Nat) : Int) =
      getWeight item
  weighted : ∀ (isValid : LoadBalanceItem → Bool) (v rand : UInt64),
    ∃ result, lb.get isValid v rand = .ok result ∧ Finds items isValid result
  roundRobin : ∀ (isValid : LoadBalanceItem → Bool) (v rand : UInt64),
    Finds items isValid (RoundRobinLoadBalance.get items isValid v rand)

theorem sums_up_to : ∀ {weights : List Int} {total : Int} {after : List Int},
    (∀ weight ∈ weights, 0 ≤ weight) → sums total weights = .ok after →
      after.length = weights.length ∧ ∀ place, place ≤ weights.length →
        (total :: after)[place]? = some (total + Shares.upTo (weights.map Int.toNat) place) := by
  intro weights
  induction weights with
  | nil =>
      intro total after _ done
      cases done
      refine ⟨rfl, ?_⟩
      intro place bound
      have first : place = 0 := Nat.le_zero.mp bound
      rw [first]
      exact congrArg some (Int.add_zero total).symm
  | cons weight weights induction =>
      intro total after positive done
      rcases bind_eq_ok done with ⟨next, added, rest⟩
      rcases bind_eq_ok rest with ⟨others, summed, same⟩
      cases same
      have exact : next = total + weight := by
        rw [checkedLong] at added
        split at added
        · exact (Except.ok.inj added).symm
        · cases added
      rcases induction (fun weight member => positive weight (List.mem_cons_of_mem _ member))
        summed with ⟨length, places⟩
      refine ⟨congrArg (· + 1) length, ?_⟩
      intro place bound
      cases place with
      | zero => exact congrArg some (Int.add_zero total).symm
      | succ place =>
          have there := places place (Nat.le_of_succ_le_succ bound)
          have some := positive weight List.mem_cons_self
          rw [List.getElem?_cons_succ, there, exact, List.map_cons, Shares.upTo, Shares.upTo,
            List.take_succ_cons, List.sum_cons, Int.natCast_add, Int.toNat_of_nonneg some,
            Int.add_assoc]

theorem sums_ok : ∀ {weights : List Int} {total : Int},
    (∀ weight ∈ weights, 0 < weight ∧ weight < 2 ^ 31) → 0 ≤ total →
      total + 2 ^ 31 * weights.length < 2 ^ 63 → ∃ after, sums total weights = .ok after := by
  intro weights
  induction weights with
  | nil =>
      intro total _ _ _
      exact ⟨[], rfl⟩
  | cons weight weights induction =>
      intro total positive start small
      have this := positive weight List.mem_cons_self
      rw [List.length_cons] at small
      have added : checkedLong (total + weight) = .ok (total + weight) := if_pos (by omega)
      have next : ∃ after, sums (total + weight) weights = .ok after := by
        apply induction
        · exact fun weight member => positive weight (List.mem_cons_of_mem _ member)
        · omega
        · omega
      rcases next with ⟨after, summed⟩
      refine ⟨(total + weight) :: after, ?_⟩
      rw [sums, added, bind_ok, summed, bind_ok]

structure Summed (shares : List Nat) (lb : WeightLoadBalance) : Prop where
  length : lb.weights.length = shares.length
  ends : ∀ place, place ≤ shares.length →
    (0 :: lb.weights)[place]? = some (Shares.upTo shares place : Int)
  some : 0 < shares.sum
  small : shares.sum < 2 ^ 63
  few : shares.length ≤ 2 ^ 31

variable {shares : List Nat} {v rand : UInt64} {place : Nat}

theorem Summed.end_at (summed : Summed shares lb) (inside : place < shares.length) :
    lb.weights[place]? = Option.some (Shares.upTo shares (place + 1) : Int) := by
  have found := summed.ends (place + 1) inside
  rw [List.getElem?_cons_succ] at found
  exact found

theorem Summed.last (summed : Summed shares lb) :
    lb.weights.getLast? = Option.some (shares.sum : Int) := by
  have length := summed.length
  cases shares with
  | nil =>
      have none := summed.some
      cases none
  | cons first rest =>
      have final : lb.weights[rest.length]? =
          Option.some (Shares.upTo (first :: rest) (rest.length + 1) : Int) :=
        summed.end_at (Nat.lt_succ_self _)
      rw [List.length_cons] at length
      rw [List.getLast?_eq_getElem?, length, Nat.add_sub_cancel, final,
        ← Shares.up_to_length]
      rfl

theorem Summed.total (summed : Summed shares lb) :
    lb.weights.getLastD 0 = (shares.sum : Int) := by
  rw [List.getLastD_eq_getLast?, summed.last]
  rfl

/-- The bisection over `m_weights` ends at the item whose share it is. -/
theorem get_idx_eq (summed : Summed shares lb) (inside : place < shares.length)
    (share : Shares.InShare shares place (draw v rand % shares.sum)) :
    lb.getIdx v rand = .ok (place : Int) := by
  have total : unsigned (shares.sum : Int) = shares.sum := by
    have small := summed.small
    exact unsigned_of_small (by omega)
  have some := summed.some
  have found : Shares.bisect (fun place => lb.weights[place]?.any fun sum =>
      decide (draw v rand % shares.sum < unsigned sum)) 0 lb.weights.length = place := by
    rw [summed.length]
    apply Shares.bisect_share
    · intro other there
      have bound := Shares.up_to_mono shares (Nat.add_one_le_of_lt there)
      rw [Shares.up_to_length] at bound
      have small := summed.small
      rw [summed.end_at there, Option.any_some, unsigned_of_small (by omega)]
    · exact inside
    · exact share
  have few := summed.few
  have notEnd : place ≠ lb.weights.length := by
    rw [summed.length]
    omega
  rw [getIdx, summed.last]
  simp only
  rw [total, if_neg (by omega), found, if_neg notEnd, int32_of_small (by omega)]

theorem get_idx_chosen (summed : Summed shares lb) (v rand : UInt64) :
    ∃ place, place < shares.length ∧ lb.getIdx v rand = .ok (place : Int) ∧
      Shares.InShare shares place (draw v rand % shares.sum) := by
  have below : draw v rand % shares.sum < Shares.upTo shares shares.length := by
    rw [Shares.up_to_length]
    exact Nat.mod_lt _ summed.some
  rcases Shares.exists_share shares.length below with ⟨place, inside, share⟩
  exact ⟨place, inside, get_idx_eq summed inside share, share⟩

theorem draw_of_small {residue : Nat} (small : residue < 2 ^ 63) (rand : UInt64) :
    draw (UInt64.ofNat residue) rand = residue := by
  have value : (UInt64.ofNat residue).toNat = residue :=
    UInt64.toNat_ofNat_of_lt (Nat.lt_trans small (by decide))
  have given : UInt64.ofNat residue ≠ -1 := by
    intro same
    rw [same] at value
    have most : (-1 : UInt64).toNat = 2 ^ 64 - 1 := by decide
    omega
  rw [draw, if_neg given, value]

theorem selected_iff (summed : Summed shares lb) {residue : Nat} (inside : residue < shares.sum)
    (rand : UInt64) (i : Nat) : lb.getIdx (UInt64.ofNat residue) rand = .ok (i : Int) ↔
      Shares.InShare shares i residue := by
  have small := summed.small
  rcases get_idx_chosen summed (UInt64.ofNat residue) rand with ⟨place, _, selected, share⟩
  rw [draw_of_small (by omega), Nat.mod_eq_of_lt inside] at share
  rw [selected]
  constructor
  · intro same
    have places : place = i := Int.ofNat_inj.mp (Except.ok.inj same)
    rw [← places]
    exact share
  · intro this
    rw [Shares.share_unique share this]

theorem count_selected (summed : Summed shares lb) {i weight : Nat}
    (found : shares[i]? = Option.some weight) (rand : UInt64) :
    ((List.range shares.sum).countP fun residue =>
      decide (lb.getIdx (UInt64.ofNat residue) rand = .ok (i : Int))) = weight := by
  have same : (List.range shares.sum).countP (fun residue =>
      decide (lb.getIdx (UInt64.ofNat residue) rand = .ok (i : Int))) =
      (List.range shares.sum).countP fun residue => decide (Shares.InShare shares i residue) := by
    apply List.countP_congr
    intro residue member
    rw [decide_eq_true_iff, decide_eq_true_iff]
    exact selected_iff summed (List.mem_range.mp member) rand i
  rw [same, Shares.count_share found]

theorem get_idx_lt {idx : Int} (returned : lb.getIdx v rand = .ok idx) : idx < 2 ^ 31 := by
  rw [getIdx] at returned
  split at returned
  · rw [← Except.ok.inj returned]
    decide
  · split at returned
    · cases returned
    · simp only at returned
      split at returned
      · cases returned
      · rw [← Except.ok.inj returned]
        exact (int32_bounds _).2

theorem sum_toNat_bounds {weights : List Int}
    (positive : ∀ weight ∈ weights, 0 < weight ∧ weight < 2 ^ 31) :
    weights.length ≤ (weights.map Int.toNat).sum ∧
      (weights.map Int.toNat).sum ≤ 2 ^ 31 * weights.length := by
  induction weights with
  | nil => exact ⟨Nat.le_refl 0, Nat.le_refl 0⟩
  | cons weight weights induction =>
      have this := positive weight List.mem_cons_self
      have rest := induction fun weight member => positive weight (List.mem_cons_of_mem _ member)
      rw [List.map_cons, List.sum_cons, List.length_cons]
      omega

theorem far_unselected {items : List LoadBalanceItem} (far : 2 ^ 31 ≤ place)
    (inside : place < items.length)
    (positive : ∀ item ∈ items, 0 < getWeight item ∧ getWeight item < 2 ^ 31) :
    ¬Selects getWeight items lb := by
  intro selects
  have found : items[place]? = Option.some (items[place]) := List.getElem?_eq_getElem inside
  have none : ∀ residue ∈ List.range (lb.weights.getLastD 0).toNat,
      ¬decide (lb.getIdx (UInt64.ofNat residue) 0 = .ok (place : Int)) = true := by
    intro residue _ selected
    have below := get_idx_lt (of_decide_eq_true selected)
    omega
  have shared := selects.shared place _ found 0
  rw [List.countP_eq_zero.mpr none] at shared
  have weight := (positive _ (List.getElem_mem inside)).1
  omega

theorem init_summed (positive : ∀ item ∈ datas.filter isValid,
      0 < getWeight item ∧ getWeight item < 2 ^ 31)
    (some : datas.filter isValid ≠ []) (few : (datas.filter isValid).length ≤ 2 ^ 31) :
    ∃ lb, initNolock isValid getWeight datas = .ok lb ∧ lb.items = datas.filter isValid ∧
      Summed (((datas.filter isValid).map getWeight).map Int.toNat) lb := by
  have weights : ∀ weight ∈ (datas.filter isValid).map getWeight,
      0 < weight ∧ weight < 2 ^ 31 := by
    intro weight member
    rcases List.mem_map.mp member with ⟨item, inside, same⟩
    rw [← same]
    exact positive item inside
  have length : ((datas.filter isValid).map getWeight).length ≤ 2 ^ 31 := by
    rw [List.length_map]
    exact few
  rcases sums_ok weights (Int.le_refl 0) (by omega) with ⟨after, summed⟩
  have places := sums_up_to (fun weight member => Int.le_of_lt (weights weight member).1) summed
  refine ⟨⟨datas.filter isValid, after⟩, ?_, rfl, ?_⟩
  · simp only [initNolock, summed]
    rfl
  · have total := sum_toNat_bounds weights
    have nonempty : 0 < ((datas.filter isValid).map getWeight).length := by
      rw [List.length_map]
      exact List.length_pos_iff.mpr some
    constructor
    case length => rw [places.1, List.length_map Int.toNat]
    case ends =>
      intro place bound
      rw [List.length_map] at bound
      have there := places.2 place bound
      rw [Int.zero_add] at there
      exact there
    case some => omega
    case small => omega
    case few =>
      rw [List.length_map]
      exact length

theorem summed_selects {weights : List Int} (summed : Summed (weights.map Int.toNat) lb)
    (same : weights = lb.items.map getWeight) (positive : ∀ weight ∈ weights, 0 < weight) :
    Selects getWeight lb.items lb := by
  have length : (weights.map Int.toNat).length = lb.items.length := by
    rw [same, List.length_map, List.length_map]
  have few := summed.few
  constructor
  case chosen =>
    intro v rand given
    rcases get_idx_chosen summed v rand with ⟨place, inside, selected, share⟩
    rw [draw, if_neg given] at share
    refine ⟨place, _, _, selected, summed.ends place (Nat.le_of_lt inside),
      summed.end_at inside, ?_, ?_⟩
    · rw [summed.total, ← Int.natCast_mod]
      exact Int.ofNat_le.mpr share.1
    · rw [summed.total, ← Int.natCast_mod]
      exact Int.ofNat_lt.mpr share.2
  case shared =>
    intro i item found rand
    have weight : (weights.map Int.toNat)[i]? = Option.some (getWeight item).toNat := by
      rw [same, List.getElem?_map, List.getElem?_map, found]
      rfl
    have member : getWeight item ∈ weights := by
      rw [same]
      exact List.mem_map_of_mem (List.mem_of_getElem? found)
    have more := positive _ member
    rw [summed.total, Int.toNat_natCast, count_selected summed weight rand]
    omega
  case weighted =>
    intro isValid v rand
    rcases get_idx_chosen summed v rand with ⟨place, inside, selected, _⟩
    have given : (place : Int) ≠ -1 := by omega
    refine ⟨scan lb.items isValid place, ?_, ?_⟩
    · rw [get, selected, bind_ok, if_neg given]
    · apply scan_finds
      omega
  case roundRobin =>
    intro isValid v rand
    apply RoundRobinLoadBalance.get_finds
    omega

/-- Selection over valid items with positive weights is correct and proportional as long as the
position of an item is an `int32_t`; the item behind 2^31 others is never selected. -/
theorem selects_iff (isValid : LoadBalanceItem → Bool) (getWeight : LoadBalanceItem → Int)
    (datas : List LoadBalanceItem) (some : datas.filter isValid ≠ [])
    (positive : ∀ item ∈ datas.filter isValid, 0 < getWeight item ∧ getWeight item < 2 ^ 31) :
    (∃ lb, initNolock isValid getWeight datas = .ok lb ∧
      Selects getWeight (RoundRobinLoadBalance.initNolock isValid datas) lb) ↔
      (datas.filter isValid).length ≤ 2 ^ 31 := by
  constructor
  · intro selects
    rcases selects with ⟨lb, _, selects⟩
    by_cases few : (datas.filter isValid).length ≤ 2 ^ 31
    · exact few
    · have many : 2 ^ 31 < (datas.filter isValid).length := by omega
      exact absurd selects (far_unselected (Nat.le_refl _) many positive)
  · intro few
    rcases init_summed positive some few with ⟨lb, initialised, items, summed⟩
    refine ⟨lb, initialised, ?_⟩
    rw [RoundRobinLoadBalance.initNolock, ← items]
    rw [← items] at summed positive
    apply summed_selects summed rfl
    intro weight member
    rcases List.mem_map.mp member with ⟨item, inside, same⟩
    rw [← same]
    exact (positive item inside).1

def crowd (count : Nat) : List LoadBalanceItem :=
  (List.range count).map fun i => ⟨UInt64.ofNat i, i, 1, false⟩

/-- Three items, the second with twice the weight, and one that is not valid. -/
theorem selects_iff_three : ∃ lb : WeightLoadBalance,
    initNolock (fun item => item.id ≠ 3) (fun item => if item.id = 1 then 2 else 1) (crowd 4) =
      .ok lb ∧ Selects (fun item => if item.id = 1 then 2 else 1)
        (RoundRobinLoadBalance.initNolock (fun item => item.id ≠ 3) (crowd 4)) lb :=
  (selects_iff (fun item => item.id ≠ 3) (fun item => if item.id = 1 then 2 else 1) (crowd 4)
    (by decide) (by decide)).mpr (by decide)

/-- The last of 2^31 + 1 items of one weight is never selected. -/
theorem last_never_selected : ¬∃ lb, initNolock (fun _ => true) LoadBalanceItem.weight
    (crowd (2 ^ 31 + 1)) = .ok lb ∧ Selects LoadBalanceItem.weight
      (RoundRobinLoadBalance.initNolock (fun _ => true) (crowd (2 ^ 31 + 1))) lb := by
  intro selects
  rcases selects with ⟨lb, _, selects⟩
  have all : RoundRobinLoadBalance.initNolock (fun _ => true) (crowd (2 ^ 31 + 1)) =
      crowd (2 ^ 31 + 1) := List.filter_true _
  rw [all] at selects
  apply far_unselected (Nat.le_refl (2 ^ 31)) _ _ selects
  · rw [crowd, List.length_map, List.length_range]
    exact Nat.lt_succ_self _
  · intro item member
    rcases List.mem_map.mp member with ⟨i, _, same⟩
    have one : (0 : Int) < 1 ∧ (1 : Int) < 2 ^ 31 := by decide
    rw [← same]
    exact one

end WeightLoadBalance
end ChatServer.Streams
