import ChatServer.ByteArray.Buffers
import ChatServer.ByteArray.Typed

/-!
# Reads of nothing

`read` computes the room that is left in `m_cur` before it looks at the size. With the position at
the end of the capacity `m_cur` is null, so there a read of no bytes follows it, and the string
readers ask for no bytes whenever a string is empty.
-/

namespace ChatServer.ByteArray

set_option autoImplicit false

/-- `read(buf, size)` returns the bytes behind the position and moves the position over them. -/
def ReadsOn (ba : ByteArray) (size : Nat) : Prop :=
  ∃ after, ba.read size = .ok (ba.unread.take size, after) ∧ after.position = ba.position + size

theorem read_at_capacity {ba : ByteArray} (inv : Inv ba) (full : ba.position = ba.capacity) :
    ba.read 0 = .error (.undefined .nullDeref) := by
  rw [read, if_neg (Nat.not_lt_zero _), cur_none inv full]

theorem reads_on_iff {ba : ByteArray} (inv : Inv ba) {size : Nat} (enough : size ≤ ba.getReadSize) :
    ba.ReadsOn size ↔ 0 < size ∨ ba.position < ba.capacity := by
  have positionLe := inv.positionLe
  have sizeLe := inv.sizeLe
  constructor
  · intro reads
    rcases reads with ⟨after, returned, _⟩
    exact Or.inr (read_ok_inside inv returned).2
  · intro inside
    have block : ba.position < ba.capacity := by
      rw [getReadSize] at enough
      omega
    exact ⟨_, read_spec inv enough block, rfl⟩

theorem read_string_of_null_iff {ba : ByteArray} (inv : Inv ba) (len : Nat) :
    ba.readStringOf len = .error (.undefined .nullDeref) ↔
      len = 0 ∧ ba.position = ba.capacity := by
  have positionLe := inv.positionLe
  have sizeLe := inv.sizeLe
  constructor
  · intro null
    rw [readStringOf] at null
    split at null
    · cases null
    · by_cases enough : len ≤ ba.getReadSize
      · by_cases block : ba.position < ba.capacity
        · rw [read_spec inv enough block] at null
          cases null
        · rw [getReadSize] at enough
          omega
      · rw [read_short (Nat.not_le.mp enough)] at null
        cases null
  · intro atEnd
    rw [atEnd.1, readStringOf, if_neg (by decide)]
    exact read_at_capacity inv atEnd.2

theorem write_capacity {ba after : ByteArray} {buf : Str} (done : ba.write buf = .ok after) :
    after.capacity = (ba.addCapacity buf.length).capacity := by
  rw [write] at done
  split at done
  · rename_i nothing
    cases done
    rw [addCapacity, if_pos (Or.inl nothing)]
  · dsimp only at done
    split at done
    · cases done
    · rcases bind_eq_ok done with ⟨⟨chain, moved⟩, _, same⟩
      cases same
      rfl

theorem full_after_add_iff {ba : ByteArray} (inv : Inv ba) {size : Nat} (some : 0 < size) :
    ba.position + size = (ba.addCapacity size).capacity ↔
      ba.capacity ≤ ba.position + size ∧ ba.baseSize ∣ ba.position + size := by
  have basePos := inv.basePos
  have positionLe := inv.positionLe
  have sizeLe := inv.sizeLe
  constructor
  · intro full
    have grown := add_capacity_grown inv size
    have blocks := grown.inv.capacityEq
    rw [grown.baseSize, ← full] at blocks
    refine ⟨?_, Dvd.intro _ blocks.symm⟩
    rw [full, addCapacity]
    split
    · exact Nat.le_refl _
    · exact Nat.le_add_right _ _
  · intro both
    rcases both with ⟨beyond, whole⟩
    rw [addCapacity, getCapacity]
    by_cases enough : size ≤ ba.capacity - ba.position
    · rw [if_pos (Or.inr enough)]
      omega
    · rw [if_neg (by omega)]
      have blocks : ba.baseSize ∣ ba.capacity := Dvd.intro _ inv.capacityEq.symm
      have missing : ba.baseSize ∣ size - (ba.capacity - ba.position) := by
        have difference := Nat.dvd_sub whole blocks
        rwa [show ba.position + size - ba.capacity = size - (ba.capacity - ba.position) by omega]
          at difference
      rcases missing with ⟨count, missing⟩
      have rounded : (ba.baseSize * count + ba.baseSize - 1) / ba.baseSize = count := by
        rw [Nat.add_sub_assoc basePos, Nat.mul_add_div basePos, Nat.div_eq_of_lt (by omega),
          Nat.add_zero]
      simp only [missing, rounded]
      omega

inductive StringFormat where
  | f32
  | f64
  | vint
  deriving DecidableEq

def StringFormat.write : StringFormat → Str → ByteArray → Result ByteArray
  | .f32, value, ba => ba.writeStringF32 value
  | .f64, value, ba => ba.writeStringF64 value
  | .vint, value, ba => ba.writeStringVint value

def StringFormat.read : StringFormat → ByteArray → Result (Str × ByteArray)
  | .f32, ba => ba.readStringF32
  | .f64, ba => ba.readStringF64
  | .vint, ba => ba.readStringVint

/-- The length field of an empty string. -/
def StringFormat.lengthBytes : StringFormat → Nat
  | .f32 => 4
  | .f64 => 8
  | .vint => 1

/-- A length field and a string behind it, written and rewound. -/
structure LengthBehind (ba : ByteArray) (front value : Str) (written : ByteArray) : Prop where
  wrote : (ba.write front >>= fun middle => middle.write value) = .ok written
  rewound : written.setPosition ba.position = .ok (written.seek ba.position)
  inv : Inv (written.seek ba.position)
  endian : written.endian = ba.endian
  unread : ∃ rest, (written.seek ba.position).unread = front ++ (value ++ rest)
  last : ba.position + front.length + value.length = written.position
  room : written.position ≤ written.capacity
  full : value = [] → (ba.position + front.length = written.capacity ↔
    ba.capacity ≤ ba.position + front.length ∧ ba.baseSize ∣ ba.position + front.length)

theorem length_behind {ba : ByteArray} (inv : Inv ba) {front : Str} (some : front ≠ [])
    (value : Str) : ∃ written, LengthBehind ba front value written := by
  rcases write_put inv front with ⟨middle, wroteFront, putFront⟩
  rcases write_put putFront.inv value with ⟨written, wroteValue, putValue⟩
  have put := put_trans inv putFront putValue
  have size := put_size inv put
  have behind := put_unread inv put
  have positionLe := inv.positionLe
  have last := put.position
  rw [List.length_append] at size last
  rw [List.append_assoc] at behind
  have inside : ba.position ≤ written.size := by omega
  refine ⟨written, ?_, set_position_seek put.inv inside, seek_inv put.inv inside, put.endian,
    ⟨_, behind⟩, by omega, Nat.le_trans put.inv.positionLe put.inv.sizeLe, ?_⟩
  · rw [wroteFront, bind_ok, wroteValue]
  · intro none
    rw [none] at wroteValue
    cases wroteValue
    rw [← full_after_add_iff inv (List.length_pos_iff.mpr some), ← write_capacity wroteFront]

theorem read_back_null_iff {Length : Type} {readLength : ByteArray → Result (Length × ByteArray)}
    {toNat : Length → Nat} {length : Length} {front : Str} {ba : ByteArray} (inv : Inv ba)
    (reads : Reads readLength ba.endian front length) (some : front ≠ []) (value : Str)
    (same : value = [] → toNat length = 0) :
    ∃ written, (ba.write front >>= fun middle => middle.write value) = .ok written ∧
      written.setPosition ba.position = .ok (written.seek ba.position) ∧
      ((readLength (written.seek ba.position) >>= fun read => read.2.readStringOf (toNat read.1)) =
          .error (.undefined .nullDeref) ↔
        value = [] ∧ ba.capacity ≤ ba.position + front.length ∧
          ba.baseSize ∣ ba.position + front.length) := by
  rcases length_behind inv some value with ⟨written, put⟩
  rcases put.unread with ⟨rest, behind⟩
  have lengthRead := reads (written.seek ba.position) _ put.inv put.endian behind
  have after : Inv ((written.seek ba.position).skip front.length) := skip_inv put.inv behind
  refine ⟨written, put.wrote, put.rewound, ?_⟩
  have capacity : ((written.seek ba.position).skip front.length).capacity = written.capacity := rfl
  rw [lengthRead, bind_ok, read_string_of_null_iff after, skip_position, seek_position, capacity]
  constructor
  · intro atEnd
    have last := put.last
    have room := put.room
    have none : value = [] := by
      apply List.length_eq_zero_iff.mp
      omega
    exact ⟨none, (put.full none).mp atEnd.2⟩
  · intro atEnd
    exact ⟨same atEnd.1, (put.full atEnd.1).mpr atEnd.2⟩

theorem write_fixed_eq (ba : ByteArray) (width value : Nat) :
    ba.writeFixed width value = ba.write (fixedBytes ba.endian width value) := by
  rw [writeFixed, fixedBytes]
  by_cases same : ba.endian = byteOrder
  · simp only [same, ne_eq, not_true_eq_false, if_false, if_true]
  · simp only [same, ne_eq, not_false_eq_true, if_true, if_false, WordBytes.to_le_byteswap]

theorem fixed_back_null_iff {Length : Type} {readLength : ByteArray → Result (Length × ByteArray)}
    {toNat : Length → Nat} {length : Length} {width count : Nat} {ba : ByteArray} (inv : Inv ba)
    (positive : 0 < width) (reads : Reads readLength ba.endian (fixedBytes ba.endian width count) length)
    (value : Str) (same : value = [] → toNat length = 0) :
    ∃ written start, (ba.writeFixed width count >>= fun middle => middle.write value) = .ok written ∧
      written.setPosition ba.position = .ok start ∧
      ((readLength start >>= fun read => read.2.readStringOf (toNat read.1)) =
          .error (.undefined .nullDeref) ↔
        value = [] ∧ ba.capacity ≤ ba.position + width ∧ ba.baseSize ∣ ba.position + width) := by
  have some := fixed_bytes_ne_nil ba.endian count positive
  rcases read_back_null_iff inv reads some value same with ⟨written, wrote, moved, null⟩
  rw [fixed_bytes_length] at null
  rw [← write_fixed_eq] at wrote
  exact ⟨written, _, wrote, moved, null⟩

theorem groups_ne_nil (slots value : Nat) : WordBytes.groups slots value ≠ [] := by
  cases slots with
  | zero => exact List.cons_ne_nil _ _
  | succ slots =>
      rw [WordBytes.groups]
      split <;> exact List.cons_ne_nil _ _

theorem string_back_null_iff {ba : ByteArray} (inv : Inv ba) (format : StringFormat)
    (value : Str) :
    ∃ written start, format.write value ba = .ok written ∧
      written.setPosition ba.position = .ok start ∧
      (format.read start = .error (.undefined .nullDeref) ↔
        value = [] ∧ ba.capacity ≤ ba.position + format.lengthBytes ∧
          ba.baseSize ∣ ba.position + format.lengthBytes) := by
  cases format with
  | f32 =>
      have reads := read_fuint32_reads ba.endian (UInt32.ofNat value.length)
      apply fixed_back_null_iff inv (by decide) reads value
      intro none
      rw [none]
      rfl
  | f64 =>
      have reads := read_fuint64_reads ba.endian (UInt64.ofNat value.length)
      apply fixed_back_null_iff inv (by decide) reads value
      intro none
      rw [none]
      rfl
  | vint =>
      have reads := read_uint64_reads ba.endian (UInt64.ofNat value.length)
      have nothing : value = [] → (UInt64.ofNat value.length).toNat = 0 := by
        intro none
        rw [none]
        rfl
      rcases read_back_null_iff inv reads (groups_ne_nil _ _) value nothing with
        ⟨written, wrote, moved, null⟩
      refine ⟨written, _, wrote, moved, null.trans ?_⟩
      apply and_congr_right
      intro none
      rw [none]
      exact Iff.rfl

/-- In every state, a read of as many bytes as there are at most goes well if it is one of some
bytes or there is room behind the position. A string can be read back unless it is empty and
its length field ends where the capacity does. -/
theorem reads_total_iff (ba : ByteArray) (reachable : Reachable ba) :
    (∀ size, size ≤ ba.getReadSize →
      (ba.ReadsOn size ↔ 0 < size ∨ ba.position < ba.capacity)) ∧
      ∀ (format : StringFormat) (value : Str), ∃ written start,
        format.write value ba = .ok written ∧ written.setPosition ba.position = .ok start ∧
        (format.read start ≠ .error (.undefined .nullDeref) ↔
          ¬(value = [] ∧ ba.capacity ≤ ba.position + format.lengthBytes ∧
            ba.baseSize ∣ ba.position + format.lengthBytes)) := by
  have inv := reachable_inv reachable
  constructor
  · intro size enough
    exact reads_on_iff inv enough
  · intro format value
    rcases string_back_null_iff inv format value with ⟨written, start, wrote, moved, null⟩
    exact ⟨written, start, wrote, moved, not_congr null⟩

/-- One byte in a block of five, and an empty string behind it whose length field fills it. -/
theorem reads_total_iff_five : ∃ ba, (new 5 fun _ _ => 0).write [7] = .ok ba ∧
    (ba.ReadsOn 0 ↔ 0 < 0 ∨ ba.position < ba.capacity) ∧
    ∃ written start, ba.writeStringF32 [] = .ok written ∧ written.setPosition 1 = .ok start ∧
      (start.readStringF32 ≠ .error (.undefined .nullDeref) ↔
        ¬(([] : Str) = [] ∧ ba.capacity ≤ ba.position + 4 ∧ ba.baseSize ∣ ba.position + 4)) := by
  have wrote := reads_total_iff _ (.step (.write [7]) (.made 5 (fun _ _ => 0) (by decide)) rfl)
  exact ⟨_, rfl, wrote.1 0 (by decide), wrote.2 .f32 []⟩

/-- A read of nothing behind a full block, and an empty string whose length field fills one. -/
theorem empty_read_null : ∃ ba, Reachable ba ∧ ba.getReadSize = 0 ∧
    ba.read 0 = .error (.undefined .nullDeref) ∧
    ∃ written start, (new 4 fun _ _ => 0).writeStringF32 [] = .ok written ∧
      written.setPosition 0 = .ok start ∧
      start.readStringF32 = .error (.undefined .nullDeref) :=
  ⟨_, .step (.write [1, 2, 3, 4]) (.made 4 (fun _ _ => 0) (by decide)) rfl, rfl, rfl, _, _, rfl,
    rfl, rfl⟩

end ChatServer.ByteArray
