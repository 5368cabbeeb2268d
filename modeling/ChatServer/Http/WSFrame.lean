import ChatServer.Machine
import ChatServer.Lib.WordBytes
import Mathlib.Data.BitVec

/-!
# WebSocket frames

The layout of `WSFrameHead` in `ws_session.h`, the three ways to write a length, and the mask.
-/

namespace ChatServer.Http

set_option autoImplicit false

open WordBytes

structure WSFrameHead where
  opcode : BitVec 4
  rsv3 : Bool
  rsv2 : Bool
  rsv1 : Bool
  fin : Bool
  payload : BitVec 7
  mask : Bool
  deriving DecidableEq

namespace WSFrameHead

def continueFrame : BitVec 4 := 0
def textFrame : BitVec 4 := 1
def binFrame : BitVec 4 := 2
def close : BitVec 4 := 8
def ping : BitVec 4 := 0x9
def pong : BitVec 4 := 0xA

/-- The two bytes of the packed bit-fields, each filled from its lowest bit on. -/
def bytes (head : WSFrameHead) : Str :=
  [UInt8.ofNat (head.opcode.toNat + 16 * head.rsv3.toNat + 32 * head.rsv2.toNat +
      64 * head.rsv1.toNat + 128 * head.fin.toNat),
    UInt8.ofNat (head.payload.toNat + 128 * head.mask.toNat)]

/-- The head that lies in memory as these bytes. -/
def ofBytes (bytes : Str) : WSFrameHead :=
  let first := (bytes.getD 0 0).toNat
  let second := (bytes.getD 1 0).toNat
  { opcode := BitVec.ofNat 4 first
    rsv3 := first / 16 % 2 = 1
    rsv2 := first / 32 % 2 = 1
    rsv1 := first / 64 % 2 = 1
    fin := first / 128 = 1
    payload := BitVec.ofNat 7 second
    mask := second / 128 = 1 }

@[simp] theorem bytes_length (head : WSFrameHead) : head.bytes.length = 2 := rfl

/-- A flag read back from a digit. -/
theorem decide_flag {bit : Prop} [Decidable bit] {flag : Bool} (same : bit ↔ flag.toNat = 1) :
    decide bit = flag := by
  cases flag with
  | false => simpa using same
  | true => simpa using same

theorem of_bytes_bytes (head : WSFrameHead) : ofBytes head.bytes = head := by
  rcases head with ⟨opcode, rsv3, rsv2, rsv1, fin, payload, mask⟩
  have small := opcode.isLt
  have short := payload.isLt
  have bit (flag : Bool) : flag.toNat ≤ 1 := by cases flag <;> decide
  have low := bit rsv3
  have middle := bit rsv2
  have high := bit rsv1
  have top := bit fin
  have side := bit mask
  simp only [ofBytes, bytes, List.getD_cons_zero, List.getD_cons_succ, UInt8.toNat_ofNat',
    WSFrameHead.mk.injEq]
  refine ⟨?_, ?_, ?_, ?_, ?_, ?_, ?_⟩
  · apply BitVec.eq_of_toNat_eq
    rw [BitVec.toNat_ofNat]
    omega
  · exact decide_flag (by omega)
  · exact decide_flag (by omega)
  · exact decide_flag (by omega)
  · exact decide_flag (by omega)
  · apply BitVec.eq_of_toNat_eq
    rw [BitVec.toNat_ofNat]
    omega
  · exact decide_flag (by omega)

end WSFrameHead

/-- The seven bits of the head: the size, or which wider field follows. -/
def payloadField (size : Nat) : BitVec 7 :=
  if size < 126 then BitVec.ofNat 7 size else if size < 65536 then 126 else 127

/-- `byteswapOnLittleEndian` of a `uint16_t` or `uint64_t`, as it lies in memory. -/
def lengthBytes (payload : BitVec 7) (size : Nat) : Str :=
  if payload = 126 then toLE 2 (byteswap 2 size)
  else if payload = 127 then toLE 8 (byteswap 8 size)
  else []

theorem payload_field_short {size : Nat} (short : size < 126) :
    (payloadField size).toNat = size ∧ payloadField size ≠ 126 ∧ payloadField size ≠ 127 := by
  have same : (payloadField size).toNat = size := by
    rw [payloadField, if_pos short, BitVec.toNat_ofNat]
    omega
  refine ⟨same, ?_, ?_⟩
  · intro wide
    rw [wide] at same
    simp at same
    omega
  · intro wide
    rw [wide] at same
    simp at same
    omega

theorem swapped_length (width size : Nat) (bound : size < 256 ^ width) :
    byteswap width (ofLE (toLE width (byteswap width size))) = size := by
  rw [of_le_to_le _ _ (byteswap_lt _ _), byteswap_byteswap _ _ bound]

/-- The four bytes of a `rand()` value. -/
def keyBytes (key : UInt32) : Str := toLE 4 key.toNat

@[simp] theorem key_bytes_length (key : UInt32) : (keyBytes key).length = 4 := to_le_length _ _

def xorMask (mask data : Str) : Str := data.mapIdx fun i byte => byte ^^^ mask.getD (i % 4) 0

@[simp] theorem xor_mask_length (mask data : Str) : (xorMask mask data).length = data.length := by
  simp [xorMask]

@[simp] theorem xor_mask_twice (mask data : Str) : xorMask mask (xorMask mask data) = data := by
  apply List.ext_getElem
  · simp
  · intro i _ _
    simp only [xorMask, List.getElem_mapIdx]
    rw [UInt8.xor_assoc, UInt8.xor_self, UInt8.xor_zero]

/-- Only zeros leave the data as they are. -/
theorem xor_mask_eq_self_iff (mask data : Str) :
    xorMask mask data = data ↔ ∀ i < data.length, mask.getD (i % 4) 0 = 0 := by
  constructor
  · intro same i inside
    have byte := congrArg (fun bytes : Str => bytes[i]?) same
    simp only [xorMask, List.getElem?_mapIdx, List.getElem?_eq_getElem inside, Option.map_some,
      Option.some.injEq] at byte
    have shifted : data[i] ^^^ mask.getD (i % 4) 0 = data[i] ^^^ 0 := by
      rw [byte, UInt8.xor_zero]
    exact (UInt8.xor_right_inj _).mp shifted
  · intro zeros
    apply List.ext_getElem (xor_mask_length mask data)
    intro i _ inside
    simp only [xorMask, List.getElem_mapIdx, zeros i inside, UInt8.xor_zero]

theorem xor_mask_ne_nil {mask data : Str} (filled : data ≠ []) : xorMask mask data ≠ [] := by
  intro empty
  have length := congrArg List.length empty
  rw [xor_mask_length] at length
  exact filled (List.length_eq_zero_iff.mp length)

/-- The mask in front of the data, if there is one. -/
def maskBytes : Option UInt32 → Str
  | none => []
  | some key => keyBytes key

def maskedData : Option UInt32 → Str → Str
  | none, data => data
  | some key, data => xorMask (keyBytes key) data

@[simp] theorem masked_data_length (key : Option UInt32) (data : Str) :
    (maskedData key data).length = data.length := by
  cases key <;> simp [maskedData]

theorem masked_data_ne_nil {key : Option UInt32} {data : Str} (filled : data ≠ []) :
    maskedData key data ≠ [] := by
  cases key with
  | none => exact filled
  | some key => exact xor_mask_ne_nil filled

abbrev frameHead (opcode : BitVec 4) (fin : Bool) (key : Option UInt32) (size : Nat) :
    WSFrameHead :=
  ⟨opcode, false, false, false, fin, payloadField size, key.isSome⟩

def frameBytes (opcode : BitVec 4) (fin : Bool) (key : Option UInt32) (data : Str) : Str :=
  (frameHead opcode fin key data.length).bytes ++
    (lengthBytes (payloadField data.length) data.length ++ (maskBytes key ++ maskedData key data))

/-- A frame is its head alone only without a mask and data. -/
theorem frame_bytes_bare_iff (opcode : BitVec 4) (fin : Bool) (key : Option UInt32) (data : Str) :
    (frameBytes opcode fin key data).length ≤ 2 ↔ key = none ∧ data = [] := by
  constructor
  · intro short
    cases key with
    | none =>
        simp only [frameBytes, maskBytes, maskedData, List.length_append,
          WSFrameHead.bytes_length] at short
        exact ⟨rfl, List.length_eq_zero_iff.mp (by omega)⟩
    | some key =>
        simp only [frameBytes, maskBytes, maskedData, List.length_append, WSFrameHead.bytes_length,
          key_bytes_length] at short
        omega
  · rintro ⟨rfl, rfl⟩
    simp [frameBytes, maskBytes, maskedData, payloadField, lengthBytes]

end ChatServer.Http
