import ChatServer.ByteArray.Typed

/-!
# Typed serialisation, a whole list at a time

Values of every type written one behind the other and read back by the matching
readers. The bytes of a value do not depend on where its blocks end, so the list
round trip is the round trip of one value repeated. One writer loses information:
`writeStringF32` stores the length of the string in 32 bits.
-/

namespace ChatServer.ByteArray

set_option autoImplicit false

open WordBytes

inductive TypedValue where
  | fint8 (value : Int8)
  | fuint8 (value : UInt8)
  | fint16 (value : Int16)
  | fuint16 (value : UInt16)
  | fint32 (value : Int32)
  | fuint32 (value : UInt32)
  | fint64 (value : Int64)
  | fuint64 (value : UInt64)
  | int32 (value : Int32)
  | uint32 (value : UInt32)
  | int64 (value : Int64)
  | uint64 (value : UInt64)
  | float (bits : UInt32)
  | double (bits : UInt64)
  | stringF32 (value : Str)
  | stringF64 (value : Str)
  | stringVint (value : Str)
  deriving DecidableEq

inductive Kind where
  | fint8 | fuint8 | fint16 | fuint16 | fint32 | fuint32 | fint64 | fuint64
  | int32 | uint32 | int64 | uint64 | float | double
  | stringF32 | stringF64 | stringVint
  deriving DecidableEq, Repr

def TypedValue.kind : TypedValue → Kind
  | .fint8 _ => .fint8
  | .fuint8 _ => .fuint8
  | .fint16 _ => .fint16
  | .fuint16 _ => .fuint16
  | .fint32 _ => .fint32
  | .fuint32 _ => .fuint32
  | .fint64 _ => .fint64
  | .fuint64 _ => .fuint64
  | .int32 _ => .int32
  | .uint32 _ => .uint32
  | .int64 _ => .int64
  | .uint64 _ => .uint64
  | .float _ => .float
  | .double _ => .double
  | .stringF32 _ => .stringF32
  | .stringF64 _ => .stringF64
  | .stringVint _ => .stringVint

def writeValue (value : TypedValue) (ba : ByteArray) : Result ByteArray :=
  match value with
  | .fint8 value => ba.writeFint8 value
  | .fuint8 value => ba.writeFuint8 value
  | .fint16 value => ba.writeFint16 value
  | .fuint16 value => ba.writeFuint16 value
  | .fint32 value => ba.writeFint32 value
  | .fuint32 value => ba.writeFuint32 value
  | .fint64 value => ba.writeFint64 value
  | .fuint64 value => ba.writeFuint64 value
  | .int32 value => ba.writeInt32 value
  | .uint32 value => ba.writeUint32 value
  | .int64 value => ba.writeInt64 value
  | .uint64 value => ba.writeUint64 value
  | .float bits => ba.writeFloat bits
  | .double bits => ba.writeDouble bits
  | .stringF32 value => ba.writeStringF32 value
  | .stringF64 value => ba.writeStringF64 value
  | .stringVint value => ba.writeStringVint value

def readAs {Value : Type} (wrap : Value → TypedValue)
    (reader : ByteArray → Result (Value × ByteArray)) (ba : ByteArray) :
    Result (TypedValue × ByteArray) := do
  let read ← reader ba
  .ok (wrap read.1, read.2)

def readValue : Kind → ByteArray → Result (TypedValue × ByteArray)
  | .fint8 => readAs .fint8 readFint8
  | .fuint8 => readAs .fuint8 readFuint8
  | .fint16 => readAs .fint16 readFint16
  | .fuint16 => readAs .fuint16 readFuint16
  | .fint32 => readAs .fint32 readFint32
  | .fuint32 => readAs .fuint32 readFuint32
  | .fint64 => readAs .fint64 readFint64
  | .fuint64 => readAs .fuint64 readFuint64
  | .int32 => readAs .int32 readInt32
  | .uint32 => readAs .uint32 readUint32
  | .int64 => readAs .int64 readInt64
  | .uint64 => readAs .uint64 readUint64
  | .float => readAs .float readFloat
  | .double => readAs .double readDouble
  | .stringF32 => readAs .stringF32 readStringF32
  | .stringF64 => readAs .stringF64 readStringF64
  | .stringVint => readAs .stringVint readStringVint

def writeAll : List TypedValue → ByteArray → Result ByteArray
  | [], ba => .ok ba
  | value :: rest, ba => writeValue value ba >>= writeAll rest

def readAll : List Kind → ByteArray → Result (List TypedValue × ByteArray)
  | [], ba => .ok ([], ba)
  | kind :: rest, ba => do
      let (value, ba) ← readValue kind ba
      let (values, ba) ← readAll rest ba
      .ok (value :: values, ba)

/-- The strings of a value are not empty and no longer than a `std::string` can be. -/
def TypedValue.WellFormed : TypedValue → Prop
  | .stringF32 value | .stringF64 value | .stringVint value =>
      value ≠ [] ∧ value.length < maxStrSize
  | _ => True

/-- The length field of an F32 string can hold the length. -/
def TypedValue.LengthFits : TypedValue → Prop
  | .stringF32 value => value.length < 2 ^ 32
  | _ => True

/-- Everything written, then `setPosition(0)`, then everything read: the same values, and
nothing is left. -/
def RoundTrips (baseSize : Nat) (fresh : Nat → Nat → UInt8) (littleEndian : Bool)
    (values : List TypedValue) : Prop :=
  ∃ written start last,
    writeAll values ((new baseSize fresh).setIsLittleEndian littleEndian) = .ok written ∧
    written.setPosition 0 = .ok start ∧
    readAll (values.map TypedValue.kind) start = .ok (values, last) ∧ last.getReadSize = 0

def encode (endian : Endian) : TypedValue → Str
  | .fint8 value => [value.toUInt8]
  | .fuint8 value => [value]
  | .fint16 value => fixedBytes endian 2 value.toUInt16.toNat
  | .fuint16 value => fixedBytes endian 2 value.toNat
  | .fint32 value => fixedBytes endian 4 value.toUInt32.toNat
  | .fuint32 value => fixedBytes endian 4 value.toNat
  | .fint64 value => fixedBytes endian 8 value.toUInt64.toNat
  | .fuint64 value => fixedBytes endian 8 value.toNat
  | .int32 value => groups 4 (encodeZigzag32 value).toNat
  | .uint32 value => groups 4 value.toNat
  | .int64 value => groups 9 (encodeZigzag64 value).toNat
  | .uint64 value => groups 9 value.toNat
  | .float bits => fixedBytes endian 4 bits.toNat
  | .double bits => fixedBytes endian 8 bits.toNat
  | .stringF32 value => fixedBytes endian 4 (UInt32.ofNat value.length).toNat ++ value
  | .stringF64 value => fixedBytes endian 8 (UInt64.ofNat value.length).toNat ++ value
  | .stringVint value => groups 9 (UInt64.ofNat value.length).toNat ++ value

theorem write_value_writes (endian : Endian) (value : TypedValue) :
    Writes (writeValue value) endian (encode endian value) := by
  cases value with
  | fint8 value => exact write_writes endian [value.toUInt8]
  | fuint8 value => exact write_writes endian [value]
  | fint16 value => exact write_fixed_writes endian 2 value.toUInt16.toNat
  | fuint16 value => exact write_fixed_writes endian 2 value.toNat
  | fint32 value => exact write_fixed_writes endian 4 value.toUInt32.toNat
  | fuint32 value => exact write_fixed_writes endian 4 value.toNat
  | fint64 value => exact write_fixed_writes endian 8 value.toUInt64.toNat
  | fuint64 value => exact write_fixed_writes endian 8 value.toNat
  | int32 value => exact write_writes endian (groups 4 (encodeZigzag32 value).toNat)
  | uint32 value => exact write_writes endian (groups 4 value.toNat)
  | int64 value => exact write_writes endian (groups 9 (encodeZigzag64 value).toNat)
  | uint64 value => exact write_writes endian (groups 9 value.toNat)
  | float bits => exact write_fixed_writes endian 4 bits.toNat
  | double bits => exact write_fixed_writes endian 8 bits.toNat
  | stringF32 value =>
      exact writes_bind (write_fixed_writes endian 4 (UInt32.ofNat value.length).toNat)
        (write_writes endian value)
  | stringF64 value =>
      exact writes_bind (write_fixed_writes endian 8 (UInt64.ofNat value.length).toNat)
        (write_writes endian value)
  | stringVint value =>
      exact writes_bind (write_writes endian (groups 9 (UInt64.ofNat value.length).toNat))
        (write_writes endian value)

theorem uint64_length {value : Str} (short : value.length < maxStrSize) :
    (UInt64.ofNat value.length).toNat = value.length := by
  rw [UInt64.toNat_ofNat', Nat.mod_eq_of_lt]
  exact Nat.lt_trans short (by decide)

theorem read_value_reads (endian : Endian) (value : TypedValue) (formed : value.WellFormed)
    (fits : value.LengthFits) :
    Reads (readValue value.kind) endian (encode endian value) value := by
  cases value with
  | fint8 value => exact reads_map TypedValue.fint8 (read_fint8_reads endian value)
  | fuint8 value => exact reads_map TypedValue.fuint8 (read_fuint8_reads endian value)
  | fint16 value => exact reads_map TypedValue.fint16 (read_fint16_reads endian value)
  | fuint16 value => exact reads_map TypedValue.fuint16 (read_fuint16_reads endian value)
  | fint32 value => exact reads_map TypedValue.fint32 (read_fint32_reads endian value)
  | fuint32 value => exact reads_map TypedValue.fuint32 (read_fuint32_reads endian value)
  | fint64 value => exact reads_map TypedValue.fint64 (read_fint64_reads endian value)
  | fuint64 value => exact reads_map TypedValue.fuint64 (read_fuint64_reads endian value)
  | int32 value => exact reads_map TypedValue.int32 (read_int32_reads endian value)
  | uint32 value => exact reads_map TypedValue.uint32 (read_uint32_reads endian value)
  | int64 value => exact reads_map TypedValue.int64 (read_int64_reads endian value)
  | uint64 value => exact reads_map TypedValue.uint64 (read_uint64_reads endian value)
  | float bits => exact reads_map TypedValue.float (read_fuint32_reads endian bits)
  | double bits => exact reads_map TypedValue.double (read_fuint64_reads endian bits)
  | stringF32 value =>
      have length : (UInt32.ofNat value.length).toNat = value.length := by
        rw [UInt32.toNat_ofNat']
        exact Nat.mod_eq_of_lt fits
      exact reads_map TypedValue.stringF32
        (read_string_reads (read_fuint32_reads endian _) length formed.1 formed.2)
  | stringF64 value =>
      exact reads_map TypedValue.stringF64
        (read_string_reads (read_fuint64_reads endian _) (uint64_length formed.2) formed.1
          formed.2)
  | stringVint value =>
      exact reads_map TypedValue.stringVint
        (read_string_reads (read_uint64_reads endian _) (uint64_length formed.2) formed.1
          formed.2)

/-- A string whose length does not fit comes back shorter, when it comes back. -/
theorem read_value_truncated {endian : Endian} {value result : TypedValue}
    {ba after : ByteArray} {rest : Str} (long : ¬value.LengthFits) (inv : Inv ba)
    (order : ba.endian = endian) (front : ba.unread = encode endian value ++ rest)
    (done : readValue value.kind ba = .ok (result, after)) : result ≠ value := by
  cases value with
  | stringF32 value =>
      obtain ⟨⟨text, last⟩, returned, same⟩ := bind_eq_ok done
      obtain ⟨⟨length, middle⟩, lengthRead, textRead⟩ := bind_eq_ok returned
      rw [encode, List.append_assoc] at front
      rw [read_fuint32_reads endian _ ba _ inv order front] at lengthRead
      cases lengthRead
      intro equal
      have textEq : text = value := by
        cases same
        exact TypedValue.stringF32.inj equal
      have textLength : text.length = value.length % 2 ^ 32 := by
        simp only [readStringOf] at textRead
        split_ifs at textRead
        rw [(read_ok (skip_inv inv front) textRead).1, UInt32.toNat_ofNat']
      have below : value.length % 2 ^ 32 < 2 ^ 32 := Nat.mod_lt _ (by decide)
      have whole : ¬value.length < 2 ^ 32 := long
      rw [textEq] at textLength
      omega
  | _ => exact absurd trivial long

def encodeAll (endian : Endian) (values : List TypedValue) : Str := values.flatMap (encode endian)

theorem write_all_writes (endian : Endian) (values : List TypedValue) :
    Writes (writeAll values) endian (encodeAll endian values) := by
  induction values with
  | nil => exact fun ba inv _ => ⟨ba, rfl, put_nil inv⟩
  | cons value rest induction =>
      exact writes_bind (write_value_writes endian value) induction

theorem read_all_reads (endian : Endian) (values : List TypedValue)
    (formed : ∀ value ∈ values, value.WellFormed) (fit : ∀ value ∈ values, value.LengthFits) :
    Reads (readAll (values.map TypedValue.kind)) endian (encodeAll endian values) values := by
  induction values with
  | nil =>
      intro ba rest inv order front
      simp only [List.map_nil, readAll, encodeAll, List.flatMap_nil, List.length_nil, skip_zero inv]
  | cons value values induction =>
      have head := read_value_reads endian value (formed value (by simp)) (fit value (by simp))
      have tail := induction (fun item member => formed item (by simp [member]))
        (fun item member => fit item (by simp [member]))
      exact reads_bind (fun first ba => do
        let (values, ba) ← readAll (values.map TypedValue.kind) ba
        .ok (first :: values, ba)) head (reads_map (value :: ·) tail)

theorem read_all_fits (endian : Endian) (values : List TypedValue)
    (formed : ∀ value ∈ values, value.WellFormed) (ba after : ByteArray) (inv : Inv ba)
    (order : ba.endian = endian) (front : ba.unread = encodeAll endian values)
    (done : readAll (values.map TypedValue.kind) ba = .ok (values, after)) :
    ∀ value ∈ values, value.LengthFits := by
  induction values generalizing ba with
  | nil => simp
  | cons value values induction =>
      rw [encodeAll, List.flatMap_cons] at front
      obtain ⟨⟨first, middle⟩, headRead, tailRead⟩ := bind_eq_ok done
      obtain ⟨⟨others, last⟩, restRead, same⟩ := bind_eq_ok tailRead
      cases same
      have headFits : value.LengthFits := by
        by_contra long
        exact read_value_truncated long inv order front headRead rfl
      have head := read_value_reads endian value (formed value (by simp)) headFits
      rw [head ba _ inv order front] at headRead
      cases headRead
      have tailFits := induction (fun item member => formed item (by simp [member])) _
        (skip_inv inv front) order (skip_unread front) restRead
      intro item member
      rcases List.mem_cons.mp member with rfl | inTail
      · exact headFits
      · exact tailFits item inTail

theorem write_all_rewound (baseSize : Nat) (fresh : Nat → Nat → UInt8) (littleEndian : Bool)
    (values : List TypedValue) (basePos : 1 ≤ baseSize) :
    ∃ written, writeAll values ((new baseSize fresh).setIsLittleEndian littleEndian) =
        .ok written ∧ written.setPosition 0 = .ok (written.seek 0) ∧ Inv (written.seek 0) ∧
      (written.seek 0).unread = encodeAll written.endian values := by
  have inv : Inv ((new baseSize fresh).setIsLittleEndian littleEndian) := by
    have fields := new_inv baseSize fresh basePos
    exact ⟨fields.basePos, fields.uniform, fields.rooted, fields.capacityEq, fields.positionLe,
      fields.sizeLe, fields.curEq⟩
  have nothing : ((new baseSize fresh).setIsLittleEndian littleEndian).contents = [] := by
    simp [contents, setIsLittleEndian, new]
  obtain ⟨written, returned, order, moved, after, unread⟩ :=
    writes_rewound (write_all_writes _ values) inv rfl rfl nothing
  rw [← order] at unread
  exact ⟨written, returned, moved, after, unread⟩

theorem round_trips_of_fits (baseSize : Nat) (fresh : Nat → Nat → UInt8) (littleEndian : Bool)
    (values : List TypedValue) (basePos : 1 ≤ baseSize)
    (formed : ∀ value ∈ values, value.WellFormed) (fit : ∀ value ∈ values, value.LengthFits) :
    RoundTrips baseSize fresh littleEndian values := by
  obtain ⟨written, returned, rewound, inv, front⟩ :=
    write_all_rewound baseSize fresh littleEndian values basePos
  rw [← List.append_nil (encodeAll _ _)] at front
  have taken := read_all_reads written.endian values formed fit _ [] inv rfl front
  refine ⟨written, _, _, returned, rewound, taken, ?_⟩
  rw [← unread_length (skip_inv inv front), skip_unread front, List.length_nil]

theorem fits_of_round_trips (baseSize : Nat) (fresh : Nat → Nat → UInt8) (littleEndian : Bool)
    (values : List TypedValue) (basePos : 1 ≤ baseSize)
    (formed : ∀ value ∈ values, value.WellFormed)
    (trips : RoundTrips baseSize fresh littleEndian values) :
    ∀ value ∈ values, value.LengthFits := by
  obtain ⟨written, returned, rewound, inv, front⟩ :=
    write_all_rewound baseSize fresh littleEndian values basePos
  obtain ⟨written', start, last, returned', rewound', readBack, _⟩ := trips
  rw [returned] at returned'
  cases returned'
  rw [rewound] at rewound'
  cases rewound'
  exact read_all_fits _ values formed _ last inv rfl front readBack

/-- A list comes back exactly when each of its F32 strings has fewer than `2^32` bytes. -/
theorem round_trips_iff_lengths_fit (baseSize : Nat) (fresh : Nat → Nat → UInt8)
    (littleEndian : Bool) (values : List TypedValue) (basePos : 1 ≤ baseSize)
    (formed : ∀ value ∈ values, value.WellFormed) :
    RoundTrips baseSize fresh littleEndian values ↔
      ∀ text, .stringF32 text ∈ values → text.length < 2 ^ 32 := by
  constructor
  · intro trips text member
    exact fits_of_round_trips baseSize fresh littleEndian values basePos formed trips _ member
  · intro short
    apply round_trips_of_fits baseSize fresh littleEndian values basePos formed
    intro value member
    cases value with
    | stringF32 text => exact short text member
    | _ => trivial

theorem round_trips_mixed_list :
    RoundTrips 3 (fun _ _ => 0xAA) false
      [.fint16 (-2), .uint64 300, .int32 Int32.minValue, .stringF32 [1, 2], .stringVint [0]] := by
  apply (round_trips_iff_lengths_fit 3 (fun _ _ => 0xAA) false _ (by decide) ?_).mpr
  · simp
  · simp [TypedValue.WellFormed, maxStrSize]

/-- A string of `2^32` bytes behind a 32-bit length: the length written is zero. -/
theorem string_f32_length_wraps :
    ¬RoundTrips 4096 (fun _ _ => 0) false [.stringF32 (List.replicate (2 ^ 32) 0)] := by
  intro trips
  have length : (List.replicate (2 ^ 32) (0 : UInt8)).length = 2 ^ 32 := List.length_replicate
  have formed : ∀ value ∈ [TypedValue.stringF32 (List.replicate (2 ^ 32) 0)],
      value.WellFormed := by
    intro value member
    rw [List.mem_singleton.mp member, TypedValue.WellFormed, length]
    constructor
    · intro empty
      rw [empty] at length
      cases length
    · decide
  have fits := fits_of_round_trips 4096 _ false _ (by decide) formed trips _
    (List.mem_singleton.mpr rfl)
  rw [TypedValue.LengthFits, length] at fits
  exact absurd fits (by decide)

end ChatServer.ByteArray
