import Mathlib.Algebra.GroupWithZero.Nat
import Mathlib.Data.List.Basic

/-!
# Shares of a range

The numbers below the sum of some weights, cut into one share for each weight, and the search by
bisection for the share in which a number lies.
-/

namespace Shares

set_option autoImplicit false

/-- The position in front of which a bisection ends: the first `beyond`, where everything behind
one that is beyond is beyond too. -/
def bisect (beyond : Nat → Bool) (first length : Nat) : Nat :=
  if length = 0 then first
  else if beyond (first + length / 2) then bisect beyond first (length / 2)
  else bisect beyond (first + length / 2 + 1) (length - length / 2 - 1)
termination_by length

theorem bisect_eq {beyond : Nat → Bool} {point : Nat}
    (below : ∀ place, place < point → beyond place = false) {first length : Nat}
    (above : ∀ place, point ≤ place → place < first + length → beyond place = true)
    (lower : first ≤ point) (upper : point ≤ first + length) :
    bisect beyond first length = point := by
  induction first, length using bisect.induct beyond with
  | case1 first =>
      rw [bisect, if_pos rfl]
      omega
  | case2 first length some after induction =>
      rw [bisect, if_neg some, if_pos after]
      have reached : point ≤ first + length / 2 := by
        by_cases before : first + length / 2 < point
        · rw [below _ before] at after
          cases after
        · omega
      exact induction (fun place behind inside => above place behind (by omega)) lower reached
  | case3 first length some after induction =>
      rw [bisect, if_neg some, if_neg after]
      have passed : first + length / 2 < point := by
        by_cases behind : point ≤ first + length / 2
        · exact absurd (above _ behind (by omega)) after
        · omega
      exact induction (fun place behind inside => above place behind (by omega)) passed (by omega)

variable {weights : List Nat} {place number weight : Nat}

def upTo (weights : List Nat) (count : Nat) : Nat := (weights.take count).sum

theorem up_to_succ (found : weights[place]? = some weight) :
    upTo weights (place + 1) = upTo weights place + weight := by
  rw [upTo, upTo, List.take_add_one, List.sum_append, found, Option.toList_some,
    List.sum_singleton]

theorem up_to_mono (weights : List Nat) {other : Nat} (before : place ≤ other) :
    upTo weights place ≤ upTo weights other := by
  have split := List.take_append_drop place (weights.take other)
  rw [List.take_take, Nat.min_eq_left before] at split
  rw [upTo, upTo, ← split, List.sum_append]
  exact Nat.le_add_right _ _

theorem up_to_length (weights : List Nat) : upTo weights weights.length = weights.sum := by
  rw [upTo, List.take_length]

/-- The number lies in the share of this place. -/
def InShare (weights : List Nat) (place number : Nat) : Prop :=
  upTo weights place ≤ number ∧ number < upTo weights (place + 1)

instance (weights : List Nat) (place number : Nat) : Decidable (InShare weights place number) :=
  inferInstanceAs (Decidable (_ ∧ _))

theorem exists_share (count : Nat) (inside : number < upTo weights count) :
    ∃ place, place < count ∧ InShare weights place number := by
  induction count with
  | zero => cases inside
  | succ count induction =>
      by_cases before : number < upTo weights count
      · rcases induction before with ⟨place, lower, there⟩
        exact ⟨place, by omega, there⟩
      · exact ⟨count, Nat.lt_succ_self count, by omega, inside⟩

theorem share_unique {other : Nat} (this : InShare weights place number)
    (that : InShare weights other number) : place = other := by
  rcases Nat.lt_trichotomy place other with less | same | more
  · have order := up_to_mono weights (Nat.add_one_le_of_lt less)
    have lower := that.1
    have upper := this.2
    omega
  · exact same
  · have order := up_to_mono weights (Nat.add_one_le_of_lt more)
    have lower := this.1
    have upper := that.2
    omega

/-- A bisection over the sums finds the share. -/
theorem bisect_share {beyond : Nat → Bool} {length : Nat}
    (sums : ∀ place, place < length → beyond place = decide (number < upTo weights (place + 1)))
    (inside : place < length) (share : InShare weights place number) :
    bisect beyond 0 length = place := by
  apply bisect_eq
  · intro other before
    have order := up_to_mono weights (Nat.add_one_le_of_lt before)
    have lower := share.1
    rw [sums other (by omega)]
    exact decide_eq_false (by omega)
  · intro other behind there
    have order := up_to_mono weights (Nat.add_le_add_right behind 1)
    have upper := share.2
    rw [sums other (by omega)]
    exact decide_eq_true (by omega)
  · exact Nat.zero_le place
  · omega

theorem count_between (lower upper total : Nat) :
    (List.range total).countP (fun number => decide (lower ≤ number ∧ number < upper)) =
      min upper total - min lower total := by
  induction total with
  | zero => simp
  | succ total induction =>
      rw [List.range_succ, List.countP_append, induction, List.countP_singleton]
      by_cases inside : lower ≤ total ∧ total < upper
      · rw [if_pos (decide_eq_true inside)]
        omega
      · rw [if_neg (by simpa using inside)]
        omega

/-- A share has as many numbers as its weight says. -/
theorem count_share (found : weights[place]? = some weight) :
    (List.range weights.sum).countP (fun number => decide (InShare weights place number)) =
      weight := by
  have next := up_to_succ found
  have inside := (List.getElem?_eq_some_iff.mp found).1
  have whole := up_to_mono weights (Nat.add_one_le_of_lt inside)
  rw [up_to_length] at whole
  have counted := count_between (upTo weights place) (upTo weights (place + 1)) weights.sum
  have kept : min (upTo weights (place + 1)) weights.sum - min (upTo weights place) weights.sum =
      weight := by omega
  rw [kept] at counted
  exact counted

end Shares
