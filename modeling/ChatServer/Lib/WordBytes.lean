import Mathlib.Data.List.Basic
import Mathlib.Tactic.Ring

/-!
# Machine words as bytes

Little-endian bytes of a number, the byte swap, and base-128 groups with a
continuation bit (the usual variable-length integers). Numbers are naturals with
an explicit width, so that one statement serves every word size.
-/

namespace WordBytes

set_option autoImplicit false

def toLE : Nat → Nat → List UInt8
  | 0, _ => []
  | width + 1, value => UInt8.ofNat value :: toLE width (value / 256)

def ofLE : List UInt8 → Nat
  | [] => 0
  | byte :: rest => byte.toNat + 256 * ofLE rest

@[simp] theorem to_le_length (width value : Nat) : (toLE width value).length = width := by
  induction width generalizing value with
  | zero => rfl
  | succ width induction => simp [toLE, induction]

theorem of_le_lt (bytes : List UInt8) : ofLE bytes < 256 ^ bytes.length := by
  induction bytes with
  | nil => simp [ofLE]
  | cons byte rest induction =>
      have bound : byte.toNat < 256 := byte.toNat_lt
      simp only [ofLE, List.length_cons, pow_succ]
      omega

theorem of_le_to_le (width value : Nat) (bound : value < 256 ^ width) :
    ofLE (toLE width value) = value := by
  induction width generalizing value with
  | zero =>
      have zero : value = 0 := by simpa using bound
      simp [toLE, ofLE, zero]
  | succ width induction =>
      have quotient : value / 256 < 256 ^ width := by
        rw [pow_succ] at bound
        omega
      simp only [toLE, ofLE, induction _ quotient, UInt8.toNat_ofNat']
      omega

theorem to_le_of_le (bytes : List UInt8) : toLE bytes.length (ofLE bytes) = bytes := by
  induction bytes with
  | nil => rfl
  | cons byte rest induction =>
      have bound : byte.toNat < 256 := byte.toNat_lt
      have head : UInt8.ofNat (byte.toNat + 256 * ofLE rest) = byte := by
        apply UInt8.toNat_inj.mp
        rw [UInt8.toNat_ofNat']
        omega
      have quotient : (byte.toNat + 256 * ofLE rest) / 256 = ofLE rest := by omega
      simp only [List.length_cons, ofLE, toLE, head, quotient, induction]

/-- The value whose bytes are those of `value` in the opposite order. -/
def byteswap (width value : Nat) : Nat := ofLE (toLE width value).reverse

theorem byteswap_lt (width value : Nat) : byteswap width value < 256 ^ width := by
  have bound := of_le_lt (toLE width value).reverse
  simpa [byteswap] using bound

theorem to_le_byteswap (width value : Nat) :
    toLE width (byteswap width value) = (toLE width value).reverse := by
  have same := to_le_of_le (toLE width value).reverse
  rwa [List.length_reverse, to_le_length] at same

theorem byteswap_byteswap (width value : Nat) (bound : value < 256 ^ width) :
    byteswap width (byteswap width value) = value := by
  rw [byteswap, to_le_byteswap, List.reverse_reverse, of_le_to_le width value bound]

/-- Seven bits in each byte, lowest first, the high bit set on every byte but the last.
`slots` bounds the number of bytes before the last. -/
def groups : Nat → Nat → List UInt8
  | 0, value => [UInt8.ofNat value]
  | slots + 1, value =>
      if 128 ≤ value then
        UInt8.ofNat ((value &&& 127) ||| 128) :: groups slots (value >>> 7)
      else [UInt8.ofNat value]

theorem group_byte (value : Nat) :
    (UInt8.ofNat ((value &&& 127) ||| 128)).toNat = value % 128 + 128 := by
  have low : value &&& 127 = value % 128 := Nat.and_two_pow_sub_one_eq_mod value 7
  have small : value % 128 < 2 ^ 7 := Nat.mod_lt _ (by decide)
  have joined := Nat.two_pow_add_eq_or_of_lt small 1
  rw [UInt8.toNat_ofNat', low, Nat.or_comm, ← joined]
  omega

/-- Adding one group to a number whose lower bits are already known. -/
theorem or_shifted_group (low group shift : Nat) (bound : low < 2 ^ shift) :
    low ||| group <<< shift = low + group * 2 ^ shift := by
  have joined := Nat.shiftLeft_add_eq_or_of_lt bound group
  rw [Nat.or_comm, ← joined, Nat.shiftLeft_eq, Nat.add_comm]

def zigzagEncode {width : Nat} (value : BitVec width) : BitVec width :=
  if value.msb then -value * BitVec.ofNat width 2 - BitVec.ofNat width 1
  else value * BitVec.ofNat width 2

def zigzagDecode {width : Nat} (code : BitVec width) : BitVec width :=
  (code >>> 1) ^^^ -(code &&& BitVec.ofNat width 1)

theorem zigzag_decode_even {width : Nat} (code : BitVec (width + 2)) (even : code.toNat % 2 = 0) :
    zigzagDecode code = code >>> 1 := by
  have bit : code &&& BitVec.ofNat (width + 2) 1 = BitVec.ofNat (width + 2) 0 := by
    apply BitVec.eq_of_toNat_eq
    rw [BitVec.toNat_and, BitVec.toNat_ofNat, Nat.mod_eq_of_lt (Nat.one_lt_two_pow (by omega)),
      Nat.and_one_is_mod, even]
    simp
  rw [zigzagDecode, bit, BitVec.neg_zero, BitVec.xor_zero]

theorem zigzag_decode_odd {width : Nat} (code : BitVec (width + 2)) (odd : code.toNat % 2 = 1) :
    zigzagDecode code = ~~~(code >>> 1) := by
  have bit : code &&& BitVec.ofNat (width + 2) 1 = BitVec.ofNat (width + 2) 1 := by
    apply BitVec.eq_of_toNat_eq
    rw [BitVec.toNat_and, BitVec.toNat_ofNat, Nat.mod_eq_of_lt (Nat.one_lt_two_pow (by omega)),
      Nat.and_one_is_mod, odd]
  have ones : -BitVec.ofNat (width + 2) 1 = BitVec.allOnes (width + 2) := by
    rw [← BitVec.neg_one_eq_allOnes]
  rw [zigzagDecode, bit, ones, BitVec.xor_allOnes]

theorem zigzag_decode_encode {width : Nat} (value : BitVec (width + 2)) :
    zigzagDecode (zigzagEncode value) = value := by
  have bound := value.isLt
  have double : 2 ^ (width + 2) = 2 * 2 ^ (width + 1) := by rw [pow_succ, Nat.mul_comm]
  have fourfold : 2 ^ (width + 1) = 2 * 2 ^ width := by rw [pow_succ, Nat.mul_comm]
  have positive : 0 < 2 ^ width := Nat.two_pow_pos width
  have two : (BitVec.ofNat (width + 2) 2).toNat = 2 := by
    rw [BitVec.toNat_ofNat]
    exact Nat.mod_eq_of_lt (by omega)
  have one : (BitVec.ofNat (width + 2) 1).toNat = 1 := by
    rw [BitVec.toNat_ofNat]
    exact Nat.mod_eq_of_lt (by omega)
  by_cases negative : value.msb = true
  · have large : 2 ^ (width + 1) ≤ value.toNat := by
      rw [BitVec.msb_eq_decide] at negative
      simpa using negative
    -- the code of a negative number is odd, and halving it gives the complement
    have code : (zigzagEncode value).toNat = 2 * (2 ^ (width + 2) - value.toNat) - 1 := by
      have negated : (-value).toNat = 2 ^ (width + 2) - value.toNat := by
        rw [BitVec.toNat_neg, Nat.mod_eq_of_lt (by omega)]
      rw [zigzagEncode, if_pos negative, BitVec.toNat_sub, BitVec.toNat_mul, negated, two, one]
      by_cases smallest : value.toNat = 2 ^ (width + 1)
      · rw [smallest, show (2 ^ (width + 2) - 2 ^ (width + 1)) * 2 = 2 ^ (width + 2) by omega,
          Nat.mod_self, Nat.add_zero, Nat.mod_eq_of_lt (by omega)]
        omega
      · rw [Nat.mod_eq_of_lt (show (2 ^ (width + 2) - value.toNat) * 2 < 2 ^ (width + 2) by omega),
          show 2 ^ (width + 2) - 1 + (2 ^ (width + 2) - value.toNat) * 2 =
            2 ^ (width + 2) + (2 * (2 ^ (width + 2) - value.toNat) - 1) by omega,
          Nat.add_mod_left, Nat.mod_eq_of_lt (by omega)]
    rw [zigzag_decode_odd _ (by omega)]
    apply BitVec.eq_of_toNat_eq
    rw [BitVec.toNat_not, BitVec.toNat_ushiftRight, code, Nat.shiftRight_eq_div_pow]
    omega
  · have small : value.toNat < 2 ^ (width + 1) := by
      rw [BitVec.msb_eq_decide] at negative
      simpa using negative
    have code : (zigzagEncode value).toNat = value.toNat * 2 := by
      rw [zigzagEncode, if_neg negative, BitVec.toNat_mul, two, Nat.mod_eq_of_lt (by omega)]
    rw [zigzag_decode_even _ (by omega)]
    apply BitVec.eq_of_toNat_eq
    rw [BitVec.toNat_ushiftRight, code, Nat.shiftRight_eq_div_pow]
    omega

end WordBytes
