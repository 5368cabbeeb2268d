import ChatServer.ByteArray.Cursor
import ChatServer.Lib.WordBytes

/-!
# Typed values in a `ByteArray`

The `writeF..`, `writeInt..`, `writeString..` families and their readers. Fixed-width
values are stored in the byte order the buffer is set to, `writeUint32/64` in groups
of seven bits, the signed ones folded by zigzag first. `float` and `double` are copied
to an integer of their size, so they are bit patterns here.
-/

namespace ChatServer.ByteArray

set_option autoImplicit false

open WordBytes

/-- `byteswap` when `m_endian` is not the order of the machine, then the bytes in memory. -/
def writeFixed (ba : ByteArray) (width value : Nat) : Result ByteArray :=
  let value := if ba.endian ≠ byteOrder then byteswap width value else value
  ba.write (toLE width value)

def readFixed (ba : ByteArray) (width : Nat) : Result (Nat × ByteArray) := do
  let (bytes, after) ← ba.read width
  let v := ofLE bytes
  .ok (if ba.endian = byteOrder then v else byteswap width v, after)

def writeFint8 (ba : ByteArray) (value : Int8) : Result ByteArray := ba.write [value.toUInt8]

def writeFuint8 (ba : ByteArray) (value : UInt8) : Result ByteArray := ba.write [value]

def writeFint16 (ba : ByteArray) (value : Int16) : Result ByteArray :=
  ba.writeFixed 2 value.toUInt16.toNat

def writeFuint16 (ba : ByteArray) (value : UInt16) : Result ByteArray :=
  ba.writeFixed 2 value.toNat

def writeFint32 (ba : ByteArray) (value : Int32) : Result ByteArray :=
  ba.writeFixed 4 value.toUInt32.toNat

def writeFuint32 (ba : ByteArray) (value : UInt32) : Result ByteArray :=
  ba.writeFixed 4 value.toNat

def writeFint64 (ba : ByteArray) (value : Int64) : Result ByteArray :=
  ba.writeFixed 8 value.toUInt64.toNat

def writeFuint64 (ba : ByteArray) (value : UInt64) : Result ByteArray :=
  ba.writeFixed 8 value.toNat

def readFuint8 (ba : ByteArray) : Result (UInt8 × ByteArray) := do
  let (bytes, after) ← ba.read 1
  .ok (UInt8.ofNat (ofLE bytes), after)

def readFint8 (ba : ByteArray) : Result (Int8 × ByteArray) := do
  let (bytes, after) ← ba.read 1
  .ok ((UInt8.ofNat (ofLE bytes)).toInt8, after)

def readFint16 (ba : ByteArray) : Result (Int16 × ByteArray) := do
  let (v, after) ← ba.readFixed 2
  .ok ((UInt16.ofNat v).toInt16, after)

def readFuint16 (ba : ByteArray) : Result (UInt16 × ByteArray) := do
  let (v, after) ← ba.readFixed 2
  .ok (UInt16.ofNat v, after)

def readFint32 (ba : ByteArray) : Result (Int32 × ByteArray) := do
  let (v, after) ← ba.readFixed 4
  .ok ((UInt32.ofNat v).toInt32, after)

def readFuint32 (ba : ByteArray) : Result (UInt32 × ByteArray) := do
  let (v, after) ← ba.readFixed 4
  .ok (UInt32.ofNat v, after)

def readFint64 (ba : ByteArray) : Result (Int64 × ByteArray) := do
  let (v, after) ← ba.readFixed 8
  .ok ((UInt64.ofNat v).toInt64, after)

def readFuint64 (ba : ByteArray) : Result (UInt64 × ByteArray) := do
  let (v, after) ← ba.readFixed 8
  .ok (UInt64.ofNat v, after)

def encodeZigzag32 (v : Int32) : UInt32 :=
  if v < 0 then (-v).toUInt32 * 2 - 1 else (v * 2).toUInt32

def encodeZigzag64 (v : Int64) : UInt64 :=
  if v < 0 then (-v).toUInt64 * 2 - 1 else (v * 2).toUInt64

def decodeZigzag32 (v : UInt32) : Int32 := ((v >>> 1) ^^^ -(v &&& 1)).toInt32

def decodeZigzag64 (v : UInt64) : Int64 := ((v >>> 1) ^^^ -(v &&& 1)).toInt64

/-- The loop fills `tmp[5]`: a 32-bit value has at most four groups before its last. -/
def writeUint32 (ba : ByteArray) (value : UInt32) : Result ByteArray :=
  ba.write (groups 4 value.toNat)

def writeUint64 (ba : ByteArray) (value : UInt64) : Result ByteArray :=
  ba.write (groups 9 value.toNat)

def writeInt32 (ba : ByteArray) (value : Int32) : Result ByteArray :=
  ba.writeUint32 (encodeZigzag32 value)

def writeInt64 (ba : ByteArray) (value : Int64) : Result ByteArray :=
  ba.writeUint64 (encodeZigzag64 value)

/-- The loop of `readUint32` and `readUint64` over its shifts `i`; `result` has `bits` bits. -/
def readGroups (bits : Nat) : List Nat → Nat → ByteArray → Result (Nat × ByteArray)
  | [], result, ba => .ok (result, ba)
  | i :: next, result, ba => do
      let (b, ba) ← ba.readFuint8
      if b < 0x80 then .ok (result ||| b.toNat <<< i % 2 ^ bits, ba)
      else readGroups bits next (result ||| (b &&& 0x7f).toNat <<< i % 2 ^ bits) ba

def readUint32 (ba : ByteArray) : Result (UInt32 × ByteArray) := do
  let (result, ba) ← readGroups 32 (List.range' 0 5 7) 0 ba
  .ok (UInt32.ofNat result, ba)

def readUint64 (ba : ByteArray) : Result (UInt64 × ByteArray) := do
  let (result, ba) ← readGroups 64 (List.range' 0 10 7) 0 ba
  .ok (UInt64.ofNat result, ba)

def readInt32 (ba : ByteArray) : Result (Int32 × ByteArray) := do
  let (v, ba) ← ba.readUint32
  .ok (decodeZigzag32 v, ba)

def readInt64 (ba : ByteArray) : Result (Int64 × ByteArray) := do
  let (v, ba) ← ba.readUint64
  .ok (decodeZigzag64 v, ba)

def writeFloat (ba : ByteArray) (bits : UInt32) : Result ByteArray := ba.writeFuint32 bits

def writeDouble (ba : ByteArray) (bits : UInt64) : Result ByteArray := ba.writeFuint64 bits

def readFloat (ba : ByteArray) : Result (UInt32 × ByteArray) := ba.readFuint32

def readDouble (ba : ByteArray) : Result (UInt64 × ByteArray) := ba.readFuint64

def writeStringF32 (ba : ByteArray) (value : Str) : Result ByteArray := do
  let ba ← ba.writeFuint32 (UInt32.ofNat value.length)
  ba.write value

def writeStringF64 (ba : ByteArray) (value : Str) : Result ByteArray := do
  let ba ← ba.writeFuint64 (UInt64.ofNat value.length)
  ba.write value

def writeStringVint (ba : ByteArray) (value : Str) : Result ByteArray := do
  let ba ← ba.writeUint64 (UInt64.ofNat value.length)
  ba.write value

/-- `buff.resize(len)` refuses a length above `max_size()`, then `len` bytes are read. -/
def readStringOf (ba : ByteArray) (len : Nat) : Result (Str × ByteArray) :=
  if maxStrSize ≤ len then .error (.thrown .lengthError) else ba.read len

def readStringF32 (ba : ByteArray) : Result (Str × ByteArray) := do
  let (len, ba) ← ba.readFuint32
  ba.readStringOf len.toNat

def readStringF64 (ba : ByteArray) : Result (Str × ByteArray) := do
  let (len, ba) ← ba.readFuint64
  ba.readStringOf len.toNat

def readStringVint (ba : ByteArray) : Result (Str × ByteArray) := do
  let (len, ba) ← ba.readUint64
  ba.readStringOf len.toNat

/-- The bytes of a fixed-width value in a given byte order. -/
def fixedBytes (endian : Endian) (width value : Nat) : Str :=
  if endian = byteOrder then toLE width value else (toLE width value).reverse

theorem fixed_bytes_length (endian : Endian) (width value : Nat) :
    (fixedBytes endian width value).length = width := by
  unfold fixedBytes
  split_ifs
  · exact to_le_length width value
  · rw [List.length_reverse, to_le_length]

theorem fixed_bytes_ne_nil (endian : Endian) {width : Nat} (value : Nat) (positive : 0 < width) :
    fixedBytes endian width value ≠ [] := by
  apply List.length_pos_iff.mp
  rw [fixed_bytes_length]
  exact positive

theorem write_fixed_writes (endian : Endian) (width value : Nat) :
    Writes (fun ba => ba.writeFixed width value) endian (fixedBytes endian width value) := by
  intro ba inv order
  obtain ⟨after, returned, put⟩ := write_put inv (fixedBytes endian width value)
  refine ⟨after, ?_, put⟩
  rw [← returned]
  unfold fixedBytes
  by_cases same : endian = byteOrder
  · simp only [writeFixed, order, same, if_true, ne_eq, not_true_eq_false, if_false]
  · simp only [writeFixed, order, same, if_false, ne_eq, not_false_eq_true, if_true,
      to_le_byteswap]

theorem read_fixed_reads (endian : Endian) (width value : Nat) (positive : 0 < width)
    (bound : value < 256 ^ width) :
    Reads (fun ba => ba.readFixed width) endian (fixedBytes endian width value) value := by
  intro ba rest inv order front
  have taken := read_unread inv front (fixed_bytes_ne_nil endian value positive)
  rw [fixed_bytes_length] at taken ⊢
  simp only [readFixed, taken, bind_ok, order]
  unfold fixedBytes
  by_cases same : endian = byteOrder
  · simp only [if_pos same, of_le_to_le width value bound]
  · simp only [if_neg same]
    rw [← to_le_byteswap, of_le_to_le width _ (byteswap_lt width value),
      byteswap_byteswap width value bound]

theorem of_le_singleton (byte : UInt8) : UInt8.ofNat (ofLE [byte]) = byte := by
  simp only [ofLE, Nat.mul_zero, Nat.add_zero, UInt8.ofNat_toNat]

theorem read_fuint8_reads (endian : Endian) (byte : UInt8) : Reads readFuint8 endian [byte] byte := by
  have taken := reads_map (fun bytes => UInt8.ofNat (ofLE bytes))
    (read_reads endian [byte] (by simp))
  rwa [of_le_singleton] at taken

theorem read_fuint8_empty {ba : ByteArray} (inv : Inv ba) (empty : ba.unread = []) :
    ba.readFuint8 = .error (.thrown .outOfRange) := by
  rw [readFuint8, read_empty inv empty Nat.one_pos, bind_error]

theorem read_fint8_reads (endian : Endian) (value : Int8) :
    Reads readFint8 endian [value.toUInt8] value := by
  have taken := reads_map (fun bytes => (UInt8.ofNat (ofLE bytes)).toInt8)
    (read_reads endian [value.toUInt8] (by simp))
  rw [of_le_singleton] at taken
  exact taken

theorem read_fuint16_reads (endian : Endian) (value : UInt16) :
    Reads readFuint16 endian (fixedBytes endian 2 value.toNat) value := by
  have taken := reads_map UInt16.ofNat
    (read_fixed_reads endian 2 value.toNat (by decide) value.toNat_lt)
  rwa [UInt16.ofNat_toNat] at taken

theorem read_fint16_reads (endian : Endian) (value : Int16) :
    Reads readFint16 endian (fixedBytes endian 2 value.toUInt16.toNat) value := by
  have taken := reads_map (fun v => (UInt16.ofNat v).toInt16)
    (read_fixed_reads endian 2 value.toUInt16.toNat (by decide) value.toUInt16.toNat_lt)
  rw [UInt16.ofNat_toNat] at taken
  exact taken

theorem read_fuint32_reads (endian : Endian) (value : UInt32) :
    Reads readFuint32 endian (fixedBytes endian 4 value.toNat) value := by
  have taken := reads_map UInt32.ofNat
    (read_fixed_reads endian 4 value.toNat (by decide) value.toNat_lt)
  rwa [UInt32.ofNat_toNat] at taken

theorem read_fuint32_empty {ba : ByteArray} (inv : Inv ba) (empty : ba.unread = []) :
    ba.readFuint32 = .error (.thrown .outOfRange) := by
  rw [readFuint32, readFixed, read_empty inv empty (by decide), bind_error, bind_error]

theorem read_fint32_reads (endian : Endian) (value : Int32) :
    Reads readFint32 endian (fixedBytes endian 4 value.toUInt32.toNat) value := by
  have taken := reads_map (fun v => (UInt32.ofNat v).toInt32)
    (read_fixed_reads endian 4 value.toUInt32.toNat (by decide) value.toUInt32.toNat_lt)
  rw [UInt32.ofNat_toNat] at taken
  exact taken

theorem read_fuint64_reads (endian : Endian) (value : UInt64) :
    Reads readFuint64 endian (fixedBytes endian 8 value.toNat) value := by
  have taken := reads_map UInt64.ofNat
    (read_fixed_reads endian 8 value.toNat (by decide) value.toNat_lt)
  rwa [UInt64.ofNat_toNat] at taken

theorem read_fint64_reads (endian : Endian) (value : Int64) :
    Reads readFint64 endian (fixedBytes endian 8 value.toUInt64.toNat) value := by
  have taken := reads_map (fun v => (UInt64.ofNat v).toInt64)
    (read_fixed_reads endian 8 value.toUInt64.toNat (by decide) value.toUInt64.toNat_lt)
  rw [UInt64.ofNat_toNat] at taken
  exact taken

/-- One more group behind `low`: the shifted bits do not meet the ones already there. -/
theorem read_groups_last {bits shift low group : Nat} (below : low < 2 ^ shift)
    (fits : group * 2 ^ shift < 2 ^ bits) :
    low ||| group <<< shift % 2 ^ bits = low + group * 2 ^ shift := by
  have small : group <<< shift % 2 ^ bits = group <<< shift := by
    rw [Nat.shiftLeft_eq]
    exact Nat.mod_eq_of_lt fits
  rw [small, or_shifted_group _ _ _ below]

/-- The reader's loop meets the groups of `value` one by one: `low` is what the groups
before them gave. -/
theorem read_groups_reads (endian : Endian) (bits slots : Nat) :
    ∀ value shift low : Nat, low < 2 ^ shift → value * 2 ^ shift < 2 ^ bits →
      value < 128 ^ (slots + 1) →
      Reads (readGroups bits (List.range' shift (slots + 1) 7) low) endian (groups slots value)
        (low + value * 2 ^ shift) := by
  induction slots with
  | zero =>
      intro value shift low below fits small ba rest inv order front
      have byte : (UInt8.ofNat value).toNat = value := by
        rw [UInt8.toNat_ofNat', Nat.mod_eq_of_lt (by omega)]
      have last : UInt8.ofNat value < 0x80 := by
        rw [UInt8.lt_iff_toNat_lt, byte]
        exact small
      simp only [List.range', readGroups, read_fuint8_reads endian _ ba rest inv order front,
        bind_ok, if_pos last, byte, read_groups_last below fits]
      rfl
  | succ slots induction =>
      intro value shift low below fits small
      unfold groups
      by_cases more : 128 ≤ value
      · rw [if_pos more]
        intro ba rest inv order front
        have byte := group_byte value
        generalize UInt8.ofNat ((value &&& 127) ||| 128) = head at byte front
        have notLast : ¬head < 0x80 := by
          rw [UInt8.lt_iff_toNat_lt, byte]
          change ¬value % 128 + 128 < 128
          omega
        have group : (head &&& 0x7f).toNat = value % 128 := by
          rw [UInt8.toNat_and, byte]
          change (value % 128 + 128) &&& (2 ^ 7 - 1) = value % 128
          rw [Nat.and_two_pow_sub_one_eq_mod]
          omega
        have groupFits : value % 128 * 2 ^ shift < 2 ^ bits :=
          Nat.lt_of_le_of_lt (Nat.mul_le_mul_right _ (Nat.mod_le _ _)) fits
        have quotient : value >>> 7 = value / 128 := Nat.shiftRight_eq_div_pow value 7
        have step : 2 ^ (shift + 7) = 128 * 2 ^ shift := by rw [pow_add, Nat.mul_comm]; rfl
        have recombined : value % 128 * 2 ^ shift + value / 128 * 2 ^ (shift + 7) =
            value * 2 ^ shift := by
          rw [step, ← Nat.mul_assoc, ← Nat.add_mul, Nat.mul_comm (value / 128), Nat.mod_add_div]
        have lowNext : low + value % 128 * 2 ^ shift < 2 ^ (shift + 7) := by
          have bound : value % 128 * 2 ^ shift ≤ 127 * 2 ^ shift :=
            Nat.mul_le_mul_right _ (by omega)
          omega
        have smallNext : value / 128 < 128 ^ (slots + 1) := by
          rw [pow_succ] at small
          omega
        have next := induction (value / 128) (shift + 7) _ lowNext (by omega) smallNext
        rw [quotient] at front ⊢
        have split : ba.unread = [head] ++ (groups slots (value / 128) ++ rest) := front
        have tail := next (ba.skip 1) rest (skip_inv inv split) order (skip_unread split)
        rw [List.range'_succ]
        simp only [readGroups, read_fuint8_reads endian head ba _ inv order split, bind_ok,
          if_neg notLast, group, read_groups_last below groupFits, List.length_singleton]
        rw [tail, skip_skip, Nat.add_assoc low, recombined, List.length_cons, Nat.add_comm 1]
      · rw [if_neg more]
        intro ba rest inv order front
        have byte : (UInt8.ofNat value).toNat = value := by
          rw [UInt8.toNat_ofNat', Nat.mod_eq_of_lt (by omega)]
        have last : UInt8.ofNat value < 0x80 := by
          rw [UInt8.lt_iff_toNat_lt, byte]
          change value < 128
          omega
        rw [List.range'_succ]
        simp only [readGroups, read_fuint8_reads endian _ ba rest inv order front,
          bind_ok, if_pos last, byte, read_groups_last below fits]

theorem read_uint32_reads (endian : Endian) (value : UInt32) :
    Reads readUint32 endian (groups 4 value.toNat) value := by
  have bound : value.toNat < 2 ^ 32 := value.toNat_lt
  have taken := reads_map UInt32.ofNat
    (read_groups_reads endian 32 4 value.toNat 0 0 (by decide) (by omega) (by omega))
  rw [Nat.zero_add, pow_zero, Nat.mul_one, UInt32.ofNat_toNat] at taken
  exact taken

theorem read_uint64_reads (endian : Endian) (value : UInt64) :
    Reads readUint64 endian (groups 9 value.toNat) value := by
  have bound : value.toNat < 2 ^ 64 := value.toNat_lt
  have taken := reads_map UInt64.ofNat
    (read_groups_reads endian 64 9 value.toNat 0 0 (by decide) (by omega) (by omega))
  rw [Nat.zero_add, pow_zero, Nat.mul_one, UInt64.ofNat_toNat] at taken
  exact taken

theorem decode_encode_zigzag32 (v : Int32) : decodeZigzag32 (encodeZigzag32 v) = v := by
  have encoded : (encodeZigzag32 v).toBitVec = zigzagEncode v.toBitVec := by
    unfold encodeZigzag32 zigzagEncode
    by_cases negative : v < 0
    · have sign : v.toBitVec.msb = true := by
        rw [Int32.lt_iff_toBitVec_slt] at negative
        simpa [BitVec.slt_zero_eq_msb] using negative
      rw [if_pos negative, if_pos sign]
      rfl
    · have sign : ¬v.toBitVec.msb = true := by
        rw [Int32.lt_iff_toBitVec_slt] at negative
        simpa [BitVec.slt_zero_eq_msb] using negative
      rw [if_neg negative, if_neg sign]
      rfl
  have decoded := zigzag_decode_encode v.toBitVec
  rw [← encoded] at decoded
  apply Int32.toBitVec_inj.mp
  rw [← decoded]
  rfl

theorem decode_encode_zigzag64 (v : Int64) : decodeZigzag64 (encodeZigzag64 v) = v := by
  have encoded : (encodeZigzag64 v).toBitVec = zigzagEncode v.toBitVec := by
    unfold encodeZigzag64 zigzagEncode
    by_cases negative : v < 0
    · have sign : v.toBitVec.msb = true := by
        rw [Int64.lt_iff_toBitVec_slt] at negative
        simpa [BitVec.slt_zero_eq_msb] using negative
      rw [if_pos negative, if_pos sign]
      rfl
    · have sign : ¬v.toBitVec.msb = true := by
        rw [Int64.lt_iff_toBitVec_slt] at negative
        simpa [BitVec.slt_zero_eq_msb] using negative
      rw [if_neg negative, if_neg sign]
      rfl
  have decoded := zigzag_decode_encode v.toBitVec
  rw [← encoded] at decoded
  apply Int64.toBitVec_inj.mp
  rw [← decoded]
  rfl

theorem read_int32_reads (endian : Endian) (value : Int32) :
    Reads readInt32 endian (groups 4 (encodeZigzag32 value).toNat) value := by
  have taken := reads_map decodeZigzag32 (read_uint32_reads endian (encodeZigzag32 value))
  rwa [decode_encode_zigzag32] at taken

theorem read_int64_reads (endian : Endian) (value : Int64) :
    Reads readInt64 endian (groups 9 (encodeZigzag64 value).toNat) value := by
  have taken := reads_map decodeZigzag64 (read_uint64_reads endian (encodeZigzag64 value))
  rwa [decode_encode_zigzag64] at taken

/-- A non-empty string behind a length that its reader gets back. -/
theorem read_string_reads {Length : Type} {readLength : ByteArray → Result (Length × ByteArray)}
    {toNat : Length → Nat} {endian : Endian} {front value : Str} {length : Length}
    (reads : Reads readLength endian front length) (same : toNat length = value.length)
    (some : value ≠ []) (short : value.length < maxStrSize) :
    Reads (fun ba => readLength ba >>= fun read => read.2.readStringOf (toNat read.1)) endian
      (front ++ value) value := by
  have text : Reads (fun ba => ba.readStringOf (toNat length)) endian value value := by
    intro ba rest inv order unreadEq
    have fits : ¬maxStrSize ≤ value.length := Nat.not_le.mpr short
    simp only [readStringOf, same, if_neg fits]
    exact read_unread inv unreadEq some
  exact reads_bind (fun length ba => ba.readStringOf (toNat length)) reads text

end ChatServer.ByteArray
