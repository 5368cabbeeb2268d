import ChatServer.ByteArray.EmptyReads

/-!
# Strings behind a length of 16 bits

`writeStringF16` narrows the size of the string to a `uint16_t` and then writes all of its bytes.
`readStringF16` takes as many as the length says.
-/

namespace ChatServer.ByteArray

set_option autoImplicit false

def writeStringF16 (ba : ByteArray) (value : Str) : Result ByteArray := do
  let ba ← ba.writeFuint16 (UInt16.ofNat value.length)
  ba.write value

def readStringF16 (ba : ByteArray) : Result (Str × ByteArray) := do
  let (len, ba) ← ba.readFuint16
  ba.readStringOf len.toNat

/-- The string is refused, or it is written behind its length, and reading it from the same
position gives it back and ends where writing did. -/
def TripsF16 (ba : ByteArray) (value : Str) : Prop :=
  (∃ exception, ba.writeStringF16 value = .error (.thrown exception)) ∨
  ∃ written start, ba.writeStringF16 value = .ok written ∧
    written.setPosition ba.position = .ok start ∧
    (∃ len middle, start.readFuint16 = .ok (len, middle) ∧ len.toNat = value.length ∧
      middle.position + value.length = written.position) ∧
    ∃ last, start.readStringF16 = .ok (value, last) ∧ last.position = written.position

/-- The bytes of the length field. -/
def lengthBytes16 (ba : ByteArray) (value : Str) : Str :=
  fixedBytes ba.endian 2 (UInt16.ofNat value.length).toNat

theorem length_bytes_16_length (ba : ByteArray) (value : Str) :
    (lengthBytes16 ba value).length = 2 := fixed_bytes_length _ _ _

theorem string_f16_behind {ba : ByteArray} (inv : Inv ba) (value : Str) :
    ∃ written, ba.writeStringF16 value = .ok written ∧
      LengthBehind ba (lengthBytes16 ba value) value written ∧
      (written.seek ba.position).readFuint16 =
        .ok (UInt16.ofNat value.length, (written.seek ba.position).skip 2) := by
  have some := fixed_bytes_ne_nil ba.endian (UInt16.ofNat value.length).toNat (show 0 < 2 by decide)
  rcases length_behind inv some value with ⟨written, put⟩
  rcases put.unread with ⟨rest, behind⟩
  refine ⟨written, ?_, put, ?_⟩
  · rw [writeStringF16, writeFuint16, write_fixed_eq]
    exact put.wrote
  · rw [read_fuint16_reads ba.endian (UInt16.ofNat value.length) _ _ put.inv put.endian behind,
      fixed_bytes_length]

/-- A string comes back exactly when its size is a `uint16_t`, unless it is empty and its length
field ends where the capacity does. -/
theorem string_f16_iff (ba : ByteArray) (reachable : Reachable ba) (value : Str) :
    TripsF16 ba value ↔ value.length < 65536 ∧
      ¬(value = [] ∧ ba.capacity ≤ ba.position + 2 ∧ ba.baseSize ∣ ba.position + 2) := by
  rcases string_f16_behind (reachable_inv reachable) value with
    ⟨written, wrote, put, lengthRead⟩
  rcases put.unread with ⟨rest, behind⟩
  have two := length_bytes_16_length ba value
  have inv := skip_inv put.inv behind
  have front := skip_unread behind
  have last := put.last
  have full := put.full
  rw [two] at inv front last full
  have reading : (written.seek ba.position).readStringF16 =
      ((written.seek ba.position).skip 2).readStringOf (UInt16.ofNat value.length).toNat := by
    rw [readStringF16, lengthRead, bind_ok]
  have narrowed : (UInt16.ofNat value.length).toNat = value.length % 65536 :=
    UInt16.toNat_ofNat'
  constructor
  · intro trips
    rcases trips with ⟨exception, refused⟩ | ⟨again, start, returned, rewound, length, whole⟩
    · rw [wrote] at refused
      cases refused
    · rw [wrote] at returned
      cases returned
      rw [put.rewound] at rewound
      cases rewound
      rcases length with ⟨len, after, read, agrees, _⟩
      rcases whole with ⟨_, whole, _⟩
      rw [lengthRead] at read
      cases read
      refine ⟨by omega, ?_⟩
      rintro ⟨none, atEnd⟩
      have null := (read_string_of_null_iff inv (UInt16.ofNat value.length).toNat).mpr
        ⟨by rw [none]; rfl, (full none).mpr atEnd⟩
      rw [reading, null] at whole
      cases whole
  · rintro ⟨short, room⟩
    have length : (UInt16.ofNat value.length).toNat = value.length := by omega
    have below : ¬maxStrSize ≤ value.length := by
      rw [maxStrSize]
      omega
    have whole : ((written.seek ba.position).skip 2).readStringOf value.length =
        .ok (value, ((written.seek ba.position).skip 2).skip value.length) := by
      rw [readStringOf, if_neg below]
      by_cases none : value = []
      · have positionLe := inv.positionLe
        have sizeLe := inv.sizeLe
        have notFull : ((written.seek ba.position).skip 2).position ≠
            ((written.seek ba.position).skip 2).capacity := fun same =>
          room ⟨none, (full none).mp same⟩
        rw [none, List.length_nil, read_spec inv (Nat.zero_le _) (by omega)]
        rfl
      · exact read_unread inv front none
    right
    refine ⟨written, _, wrote, put.rewound, ⟨_, _, lengthRead, length, ?_⟩,
      ((written.seek ba.position).skip 2).skip value.length, ?_, ?_⟩
    · rw [skip_position, seek_position, last]
    · rw [reading, length, whole]
    · rw [skip_position, skip_position, seek_position, last]

theorem string_f16_iff_three : TripsF16 (new 3 fun _ _ => 0) [7] ↔ ([7] : Str).length < 65536 ∧
    ¬(([7] : Str) = [] ∧ (new 3 fun _ _ => 0).capacity ≤ (new 3 fun _ _ => 0).position + 2 ∧
      (new 3 fun _ _ => 0).baseSize ∣ (new 3 fun _ _ => 0).position + 2) :=
  string_f16_iff _ (.made 3 (fun _ _ => 0) (by decide)) [7]

/-- A string of 65536 bytes is written behind the length zero. -/
theorem string_f16_length_wraps :
    ¬TripsF16 (new 4096 fun _ _ => 0) (List.replicate 65536 0) := by
  have wraps : ∀ value : Str, value.length = 65536 → ¬TripsF16 (new 4096 fun _ _ => 0) value := by
    intro value size trips
    rcases string_f16_behind (new_inv 4096 (fun _ _ => 0) (by decide)) value with
      ⟨written, wrote, put, lengthRead⟩
    rcases trips with ⟨exception, refused⟩ | ⟨again, start, returned, rewound, length, _⟩
    · rw [wrote] at refused
      cases refused
    · rw [wrote] at returned
      cases returned
      rw [put.rewound] at rewound
      cases rewound
      rcases length with ⟨len, after, read, agrees, _⟩
      rw [lengthRead] at read
      cases read
      rw [size] at agrees
      exact absurd agrees (by decide)
  exact wraps _ List.length_replicate

end ChatServer.ByteArray
