import Mathlib.Data.List.Basic
import Mathlib.Data.Nat.Bitwise

/-!
# Numbers as bit strings

`natBits width value` are the lowest `width` bits of `value`, highest first, the order in
which a bit stream carries them. Shifting, masking and joining words become
concatenation of lists.
-/

namespace BitString

set_option autoImplicit false

def natBits : Nat → Nat → List Bool
  | 0, _ => []
  | width + 1, value => value.testBit width :: natBits width value

@[simp] theorem nat_bits_length (width value : Nat) : (natBits width value).length = width := by
  induction width with
  | zero => rfl
  | succ width induction => rw [natBits, List.length_cons, induction]

/-- The high part of a word stands in front of its low part. -/
theorem nat_bits_add (high low value : Nat) :
    natBits (high + low) value = natBits high (value / 2 ^ low) ++ natBits low value := by
  induction high with
  | zero => rw [Nat.zero_add, natBits, List.nil_append]
  | succ high induction =>
      rw [show high + 1 + low = high + low + 1 by omega, natBits, natBits, induction,
        Nat.testBit_div_two_pow, Nat.add_comm high low, List.cons_append, Nat.add_comm low high]

theorem nat_bits_congr {width first second : Nat}
    (same : ∀ index, index < width → first.testBit index = second.testBit index) :
    natBits width first = natBits width second := by
  induction width with
  | zero => rfl
  | succ width induction =>
      rw [natBits, natBits, same width (Nat.lt_succ_self _),
        induction fun index below => same index (Nat.lt_succ_of_lt below)]

theorem nat_bits_mod {width bound : Nat} (value : Nat) (inside : width ≤ bound) :
    natBits width (value % 2 ^ bound) = natBits width value := by
  apply nat_bits_congr
  intro index below
  rw [Nat.testBit_mod_two_pow, decide_eq_true (Nat.lt_of_lt_of_le below inside), Bool.true_and]

theorem nat_bits_zero (width : Nat) : natBits width 0 = List.replicate width false := by
  induction width with
  | zero => rfl
  | succ width induction => rw [natBits, induction, Nat.zero_testBit, List.replicate_succ]

theorem nat_bits_shift_left (high low value : Nat) :
    natBits (high + low) (value <<< low) = natBits high value ++ List.replicate low false := by
  have quotient : value <<< low / 2 ^ low = value := by
    rw [Nat.shiftLeft_eq, Nat.mul_div_cancel _ (Nat.two_pow_pos low)]
  have remainder : natBits low (value <<< low) = natBits low 0 := by
    apply nat_bits_congr
    intro index below
    rw [Nat.testBit_shiftLeft, decide_eq_false (Nat.not_le.mpr below), Bool.false_and,
      Nat.zero_testBit]
  rw [nat_bits_add, quotient, remainder, nat_bits_zero]

theorem nat_bits_ones {width bound : Nat} (inside : width ≤ bound) :
    natBits width (2 ^ bound - 1) = List.replicate width true := by
  induction width with
  | zero => rfl
  | succ width induction =>
      rw [natBits, induction (Nat.le_of_succ_le inside), Nat.testBit_two_pow_sub_one,
        decide_eq_true (Nat.lt_of_succ_le inside), List.replicate_succ]

theorem nat_bits_or (width first second : Nat) :
    natBits width (first ||| second) =
      List.zipWith (· || ·) (natBits width first) (natBits width second) := by
  induction width with
  | zero => rfl
  | succ width induction =>
      rw [natBits, natBits, natBits, induction, Nat.testBit_or, List.zipWith_cons_cons]

/-- Joining a word whose low bits are clear with one whose high bits are. -/
theorem zip_or_disjoint (front back : List Bool) :
    List.zipWith (· || ·) (front ++ List.replicate back.length false)
      (List.replicate front.length false ++ back) = front ++ back := by
  induction front with
  | nil =>
      induction back with
      | nil => rfl
      | cons bit back induction =>
          simp only [List.nil_append, List.length_nil, List.replicate_zero] at induction ⊢
          rw [List.length_cons, List.replicate_succ, List.zipWith_cons_cons, induction,
            Bool.false_or]
  | cons bit front induction =>
      rw [List.cons_append, List.length_cons, List.replicate_succ, List.cons_append,
        List.zipWith_cons_cons, induction, Bool.or_false, List.cons_append]

/-- The number a bit string stands for. -/
def ofBits : List Bool → Nat
  | [] => 0
  | bit :: rest => bit.toNat * 2 ^ rest.length + ofBits rest

theorem of_bits_lt (bits : List Bool) : ofBits bits < 2 ^ bits.length := by
  induction bits with
  | nil => exact Nat.one_pos
  | cons bit rest induction =>
      have head : bit.toNat * 2 ^ rest.length ≤ 2 ^ rest.length := by
        cases bit <;> simp
      rw [ofBits, List.length_cons, Nat.pow_succ]
      omega

theorem nat_bits_of_bits (bits : List Bool) : natBits bits.length (ofBits bits) = bits := by
  induction bits with
  | nil => rfl
  | cons bit rest induction =>
      have bound := of_bits_lt rest
      have high : (bit.toNat * 2 ^ rest.length + ofBits rest) / 2 ^ rest.length = bit.toNat := by
        rw [Nat.mul_comm, Nat.mul_add_div (Nat.two_pow_pos _), Nat.div_eq_of_lt bound, Nat.add_zero]
      have low : natBits rest.length (bit.toNat * 2 ^ rest.length + ofBits rest) = rest := by
        rw [← nat_bits_mod _ (Nat.le_refl rest.length), Nat.mul_comm, Nat.mul_add_mod,
          Nat.mod_eq_of_lt bound, induction]
      rw [List.length_cons, Nat.add_comm, nat_bits_add, ofBits, high, low]
      cases bit <;> rfl

theorem test_bit_of_nat_bits {width first second : Nat}
    (same : natBits width first = natBits width second) :
    ∀ index, index < width → first.testBit index = second.testBit index := by
  induction width with
  | zero => exact fun index below => absurd below (Nat.not_lt_zero index)
  | succ width induction =>
      rw [natBits, natBits] at same
      obtain ⟨head, tail⟩ := List.cons.inj same
      intro index below
      rcases Nat.lt_succ_iff_lt_or_eq.mp below with inside | top
      · exact induction tail index inside
      · rw [top, head]

theorem nat_bits_inj {width first second : Nat} (firstBound : first < 2 ^ width)
    (secondBound : second < 2 ^ width) (same : natBits width first = natBits width second) :
    first = second := by
  apply Nat.eq_of_testBit_eq
  intro index
  by_cases inside : index < width
  · exact test_bit_of_nat_bits same index inside
  · have power : 2 ^ width ≤ 2 ^ index := Nat.pow_le_pow_right (by decide) (Nat.not_lt.mp inside)
    rw [Nat.testBit_lt_two_pow (Nat.lt_of_lt_of_le firstBound power),
      Nat.testBit_lt_two_pow (Nat.lt_of_lt_of_le secondBound power)]

/-- A word is a prefix of a longer one exactly when it is its high part. -/
theorem nat_bits_prefix_iff {short long first second : Nat} (bound : first < 2 ^ short)
    (limit : second < 2 ^ long) :
    natBits short first <+: natBits long second ↔
      short ≤ long ∧ second / 2 ^ (long - short) = first := by
  constructor
  · intro starts
    have shorter : short ≤ long := by
      have lengths := starts.length_le
      rwa [nat_bits_length, nat_bits_length] at lengths
    have high : second / 2 ^ (long - short) < 2 ^ short := by
      rw [Nat.div_lt_iff_lt_mul (Nat.two_pow_pos _), ← Nat.pow_add, Nat.add_sub_cancel' shorter]
      exact limit
    refine ⟨shorter, ?_⟩
    have cut := nat_bits_add short (long - short) second
    rw [Nat.add_sub_cancel' shorter] at cut
    rw [List.prefix_iff_eq_take, cut, nat_bits_length, List.take_left' (nat_bits_length _ _)]
      at starts
    exact nat_bits_inj high bound starts.symm
  · rintro ⟨shorter, rfl⟩
    have cut := nat_bits_add short (long - short) second
    rw [Nat.add_sub_cancel' shorter] at cut
    rw [cut]
    exact List.prefix_append _ _

end BitString
