import ChatServer.Http2.HPack

/-!
# HPACK integers

`WriteVarInt` means to set the continuation bit `0x80` on every byte before the last but
sets `0x8`. A value that needs at most one byte behind the first is not affected; for any
other the readers stop after the second byte.
-/

namespace ChatServer.Http2

set_option autoImplicit false

open ChatServer.ByteArray

def tailBytes (value : Nat) : Str :=
  if 128 ≤ value then UInt8.ofNat (0x8 ||| (value &&& 0x7f)) :: tailBytes (value >>> 7)
  else [UInt8.ofNat value]
  termination_by value
  decreasing_by
    rw [Nat.shiftRight_eq_div_pow]
    omega

def varIntBytes (prefixBits value : Nat) (flags : UInt8) : Str :=
  if value < 2 ^ prefixBits - 1 then [UInt8.ofNat (value ||| flags.toNat)]
  else UInt8.ofNat (2 ^ prefixBits - 1 ||| flags.toNat) :: tailBytes (value - (2 ^ prefixBits - 1))

theorem write_fuint8_writes (endian : Endian) (byte : UInt8) :
    Writes (fun ba => ba.writeFuint8 byte) endian [byte] := write_writes endian [byte]

theorem write_var_int_tail_writes (endian : Endian) (value : Nat) :
    Writes (fun ba => writeVarIntTail ba value) endian (tailBytes value) := by
  induction value using Nat.strongRecOn with
  | ind value induction =>
      unfold tailBytes
      by_cases more : 128 ≤ value
      · have smaller : value >>> 7 < value := by
          rw [Nat.shiftRight_eq_div_pow]
          omega
        have steps : (fun ba => writeVarIntTail ba value) = fun ba =>
            ba.writeFuint8 (UInt8.ofNat (0x8 ||| (value &&& 0x7f))) >>= fun ba =>
              writeVarIntTail ba (value >>> 7) := by
          funext ba
          rw [writeVarIntTail, if_pos more]
        rw [if_pos more, steps]
        exact writes_bind (write_fuint8_writes endian _) (induction (value >>> 7) smaller)
      · have step : (fun ba => writeVarIntTail ba value) = fun ba =>
            ba.writeFuint8 (UInt8.ofNat value) := by
          funext ba
          rw [writeVarIntTail, if_neg more]
        rw [if_neg more, step]
        exact write_fuint8_writes endian _

theorem write_var_int_emits (endian : Endian) (prefixBits value : Nat) (flags : UInt8) :
    Emits (fun ba => writeVarInt ba prefixBits value flags) endian
      (varIntBytes prefixBits value flags) := by
  unfold varIntBytes
  by_cases small : value < 2 ^ prefixBits - 1
  · rw [if_pos small]
    intro ba inv order
    obtain ⟨after, returned, put⟩ :=
      write_fuint8_writes endian (UInt8.ofNat (value ||| flags.toNat)) ba inv order
    refine ⟨after, ?_, put⟩
    simp only [writeVarInt, Nat.one_shiftLeft, if_pos small, returned, bind_ok]
    rw [List.length_singleton, int32_eq (by decide) (by decide)]
    rfl
  · have steps : (fun ba => writeVarInt ba prefixBits value flags) = fun ba =>
        (ba.writeFuint8 (UInt8.ofNat (2 ^ prefixBits - 1 ||| flags.toNat)) >>= fun ba =>
          writeVarIntTail ba (value - (2 ^ prefixBits - 1))) >>= fun after =>
            .ok (int32 (after.position - ba.position : Int), after) := by
      funext ba
      simp only [writeVarInt, Nat.one_shiftLeft, if_neg small, bind_assoc]
    rw [if_neg small, steps]
    exact writes_emits (writes_bind (write_fuint8_writes endian _)
      (write_var_int_tail_writes endian _))

theorem mask_byte {prefixBits : Nat} (upper : prefixBits ≤ 8) (byte : UInt8) :
    (byte &&& UInt8.ofNat ((1 <<< prefixBits) - 1)).toNat = byte.toNat % 2 ^ prefixBits := by
  have power : 2 ^ prefixBits ≤ 2 ^ 8 := Nat.pow_le_pow_right (by decide) upper
  have positive := Nat.two_pow_pos prefixBits
  rw [UInt8.toNat_and, Nat.one_shiftLeft, UInt8.toNat_ofNat', Nat.mod_eq_of_lt (by omega),
    Nat.and_two_pow_sub_one_eq_mod]

theorem mask_to_nat {prefixBits : Nat} (upper : prefixBits ≤ 8) :
    (UInt8.ofNat ((1 <<< prefixBits) - 1)).toNat = 2 ^ prefixBits - 1 := by
  have power : 2 ^ prefixBits ≤ 2 ^ 8 := Nat.pow_le_pow_right (by decide) upper
  have positive := Nat.two_pow_pos prefixBits
  rw [Nat.one_shiftLeft, UInt8.toNat_ofNat', Nat.mod_eq_of_lt (by omega)]

theorem read_var_int_from_eq {prefixBits : Nat} (upper : prefixBits ≤ 8) (ba : ByteArray)
    (byte : UInt8) :
    readVarIntFrom ba byte prefixBits =
      if byte.toNat % 2 ^ prefixBits < 2 ^ prefixBits - 1
      then .ok (byte.toNat % 2 ^ prefixBits, ba)
      else readVarIntLoop 10 ba (byte.toNat % 2 ^ prefixBits) 0 := by
  simp only [readVarIntFrom, UInt8.lt_iff_toNat_lt, mask_byte upper, mask_to_nat upper]

theorem first_byte {prefixBits value : Nat} {flags : UInt8} (upper : prefixBits ≤ 8)
    (bound : value < 2 ^ prefixBits) (clear : flags.toNat % 2 ^ prefixBits = 0) :
    (UInt8.ofNat (value ||| flags.toNat)).toNat % 2 ^ prefixBits = value := by
  have divides : 2 ^ prefixBits ∣ 2 ^ 8 := Nat.pow_dvd_pow 2 upper
  rw [UInt8.toNat_ofNat', Nat.mod_mod_of_dvd _ divides, ← Nat.and_two_pow_sub_one_eq_mod,
    Nat.and_or_distrib_right, Nat.and_two_pow_sub_one_eq_mod, Nat.and_two_pow_sub_one_eq_mod,
    clear, Nat.or_zero, Nat.mod_eq_of_lt bound]

theorem byte_cases {property : UInt8 → Prop} (checked : ∀ n < 256, property (UInt8.ofNat n))
    (byte : UInt8) : property byte := by
  have found := checked byte.toNat byte.toNat_lt
  rwa [UInt8.ofNat_toNat] at found

theorem high_bit_iff (byte : UInt8) : byte &&& 0x80 ≠ 0 ↔ 128 ≤ byte.toNat := by
  revert byte
  apply byte_cases
  decide +kernel

theorem low_bits_to_nat (byte : UInt8) : (byte &&& 0x7f).toNat = byte.toNat % 128 := by
  rw [UInt8.toNat_and]
  exact Nat.and_two_pow_sub_one_eq_mod byte.toNat 7

theorem read_loop_last (endian : Endian) (rounds iv m : Nat) {byte : UInt8}
    (last : byte.toNat < 128) :
    Reads (fun ba => readVarIntLoop (rounds + 1) ba iv m) endian [byte]
      ((iv + byte.toNat <<< m % 2 ^ 64) % 2 ^ 64) := by
  intro ba rest inv order front
  have stop : ¬byte &&& 0x80 ≠ 0 := by
    rw [high_bit_iff]
    exact Nat.not_le.mpr last
  simp only [readVarIntLoop, read_fuint8_reads endian byte ba rest inv order front, bind_ok,
    if_neg stop, low_bits_to_nat, Nat.mod_eq_of_lt last]

theorem var_int_short {prefixBits value : Nat} (flags : UInt8)
    (short : value < 2 ^ prefixBits + 127) :
    ∃ first tail, varIntBytes prefixBits value flags = first :: tail ∧
      (value < 2 ^ prefixBits - 1 ∧ first = UInt8.ofNat (value ||| flags.toNat) ∧ tail = [] ∨
        2 ^ prefixBits - 1 ≤ value ∧ first = UInt8.ofNat (2 ^ prefixBits - 1 ||| flags.toNat) ∧
          tail = [UInt8.ofNat (value - (2 ^ prefixBits - 1))]) := by
  unfold varIntBytes
  by_cases small : value < 2 ^ prefixBits - 1
  · rw [if_pos small]
    exact ⟨_, [], rfl, .inl ⟨small, rfl, rfl⟩⟩
  · rw [if_neg small, tailBytes, if_neg (by omega)]
    exact ⟨_, _, rfl, .inr ⟨Nat.not_lt.mp small, rfl, rfl⟩⟩

/-- The reader that is given the first byte takes the rest of what was written. -/
theorem read_var_int_from_reads (endian : Endian) {prefixBits value : Nat} {flags : UInt8}
    (upper : prefixBits ≤ 8) (clear : flags.toNat % 2 ^ prefixBits = 0)
    (short : value < 2 ^ prefixBits + 127) :
    ∃ first tail, varIntBytes prefixBits value flags = first :: tail ∧
      Reads (fun ba => readVarIntFrom ba first prefixBits) endian tail value := by
  have power : 2 ^ prefixBits ≤ 2 ^ 8 := Nat.pow_le_pow_right (by decide) upper
  have positive := Nat.two_pow_pos prefixBits
  obtain ⟨first, tail, bytes, ⟨small, rfl, rfl⟩ | ⟨large, rfl, rfl⟩⟩ :=
    var_int_short flags short
  · refine ⟨_, [], bytes, ?_⟩
    intro ba rest inv order front
    have masked := first_byte upper (show value < 2 ^ prefixBits by omega) clear
    dsimp only
    rw [read_var_int_from_eq upper, masked, if_pos small, List.length_nil, skip_zero inv]
  · refine ⟨_, _, bytes, ?_⟩
    have masked := first_byte upper (show 2 ^ prefixBits - 1 < 2 ^ prefixBits by omega) clear
    have byte : (UInt8.ofNat (value - (2 ^ prefixBits - 1))).toNat =
        value - (2 ^ prefixBits - 1) := by
      rw [UInt8.toNat_ofNat', Nat.mod_eq_of_lt (by omega)]
    have taken := read_loop_last endian 9 (2 ^ prefixBits - 1) 0
      (show (UInt8.ofNat (value - (2 ^ prefixBits - 1))).toNat < 128 by omega)
    have total : (2 ^ prefixBits - 1 + (value - (2 ^ prefixBits - 1)) <<< 0 % 2 ^ 64) % 2 ^ 64 =
        value := by
      rw [Nat.shiftLeft_zero, Nat.mod_eq_of_lt (by omega), Nat.mod_eq_of_lt (by omega)]
      omega
    rw [byte, total] at taken
    intro ba rest inv order front
    dsimp only
    rw [read_var_int_from_eq upper, masked, if_neg (Nat.lt_irrefl _)]
    exact taken ba rest inv order front

theorem read_var_int_reads (endian : Endian) {prefixBits value : Nat} {flags : UInt8}
    (upper : prefixBits ≤ 8) (clear : flags.toNat % 2 ^ prefixBits = 0)
    (short : value < 2 ^ prefixBits + 127) :
    Reads (fun ba => readVarInt ba prefixBits) endian (varIntBytes prefixBits value flags)
      value := by
  obtain ⟨first, tail, bytes, taken⟩ := read_var_int_from_reads endian upper clear short
  rw [bytes]
  exact reads_bind (fun first ba => readVarIntFrom ba first prefixBits)
    (read_fuint8_reads endian first) taken

/-- Written at the cursor and read from there again, by the reader that starts with the first
byte and by the one that is given it: the value comes back and the cursor stands behind the
bytes written. -/
def VarIntRoundTrips (ba : ByteArray) (prefixBits value : Nat) (flags : UInt8) : Prop :=
  ∃ count after start, writeVarInt ba prefixBits value flags = .ok (count, after) ∧
    after.setPosition ba.position = .ok start ∧
    (∃ last, readVarInt start prefixBits = .ok (value, last) ∧ last.position = after.position) ∧
    ∃ first behind last, start.readFuint8 = .ok (first, behind) ∧
      readVarIntFrom behind first prefixBits = .ok (value, last) ∧
      last.position = after.position

theorem write_var_int_rewound {ba : ByteArray} (inv : Inv ba) (prefixBits value : Nat)
    (flags : UInt8) :
    ∃ after rest, writeVarInt ba prefixBits value flags =
        .ok (int32 (varIntBytes prefixBits value flags).length, after) ∧
      after.position = ba.position + (varIntBytes prefixBits value flags).length ∧
      after.setPosition ba.position = .ok (after.seek ba.position) ∧
      Inv (after.seek ba.position) ∧
      (after.seek ba.position).unread = varIntBytes prefixBits value flags ++ rest := by
  obtain ⟨after, returned, put⟩ := write_var_int_emits ba.endian prefixBits value flags ba inv rfl
  have inside : ba.position ≤ after.size := by
    rw [put_size inv put]
    exact Nat.le_trans inv.positionLe (Nat.le_max_left _ _)
  exact ⟨after, _, returned, put.position, set_position_seek put.inv inside,
    seek_inv put.inv inside, put_unread inv put⟩

theorem var_int_round_trips_of_short {ba : ByteArray} (inv : Inv ba) {prefixBits value : Nat}
    {flags : UInt8} (upper : prefixBits ≤ 8) (clear : flags.toNat % 2 ^ prefixBits = 0)
    (short : value < 2 ^ prefixBits + 127) : VarIntRoundTrips ba prefixBits value flags := by
  obtain ⟨after, rest, returned, position, rewound, startInv, front⟩ :=
    write_var_int_rewound inv prefixBits value flags
  refine ⟨_, after, _, returned, rewound, ?_, ?_⟩
  · have taken := read_var_int_reads _ upper clear short _ rest startInv rfl front
    exact ⟨_, taken, position.symm⟩
  · obtain ⟨first, tail, bytes, taken⟩ :=
      read_var_int_from_reads (after.seek ba.position).endian upper clear short
    rw [bytes] at front position
    have split : (after.seek ba.position).unread = [first] ++ (tail ++ rest) := front
    have firstRead := read_fuint8_reads _ first _ _ startInv rfl split
    have tailRead := taken _ rest (skip_inv startInv split) rfl (skip_unread split)
    refine ⟨first, _, _, firstRead, tailRead, ?_⟩
    rw [position, skip_skip, skip_position, seek_position, List.length_singleton,
      List.length_cons, Nat.add_comm 1]

theorem tail_bytes_ne_nil (value : Nat) : tailBytes value ≠ [] := by
  unfold tailBytes
  split_ifs <;> exact List.cons_ne_nil _ _

/-- A byte that should continue the integer does not: `0x8` is not the highest bit. -/
theorem marked_byte_lt (value : Nat) : (UInt8.ofNat (0x8 ||| (value &&& 0x7f))).toNat < 128 := by
  have low : value &&& 0x7f = value % 128 := Nat.and_two_pow_sub_one_eq_mod value 7
  have bound : 8 ||| value % 128 < 2 ^ 7 :=
    Nat.or_lt_two_pow (by decide) (Nat.mod_lt _ (by decide))
  rw [low, UInt8.toNat_ofNat', Nat.mod_eq_of_lt (by omega)]
  exact bound

theorem short_of_var_int_round_trips {ba : ByteArray} (inv : Inv ba) {prefixBits value : Nat}
    {flags : UInt8} (upper : prefixBits ≤ 8) (clear : flags.toNat % 2 ^ prefixBits = 0)
    (trips : VarIntRoundTrips ba prefixBits value flags) : value < 2 ^ prefixBits + 127 := by
  by_contra long
  have power : 2 ^ prefixBits ≤ 2 ^ 8 := Nat.pow_le_pow_right (by decide) upper
  have positive := Nat.two_pow_pos prefixBits
  obtain ⟨after, rest, returned, position, rewound, startInv, front⟩ :=
    write_var_int_rewound inv prefixBits value flags
  obtain ⟨count, other, start, written, started, ⟨last, readBack, sameEnd⟩, _⟩ := trips
  obtain ⟨_, rfl⟩ := Prod.mk.inj (Except.ok.inj (returned.symm.trans written))
  rw [rewound] at started
  cases started
  -- the second byte ends the integer for the reader, and more bytes were written
  have bytes : varIntBytes prefixBits value flags =
      [UInt8.ofNat (2 ^ prefixBits - 1 ||| flags.toNat)] ++
        ([UInt8.ofNat (0x8 ||| ((value - (2 ^ prefixBits - 1)) &&& 0x7f))] ++
          tailBytes ((value - (2 ^ prefixBits - 1)) >>> 7)) := by
    rw [varIntBytes, if_neg (by omega), tailBytes, if_pos (by omega)]
    rfl
  have more : 0 < (tailBytes ((value - (2 ^ prefixBits - 1)) >>> 7)).length :=
    List.length_pos_iff.mpr (tail_bytes_ne_nil _)
  rw [bytes, List.append_assoc] at front
  have masked := first_byte upper (show 2 ^ prefixBits - 1 < 2 ^ prefixBits by omega) clear
  have firstRead := read_fuint8_reads _ _ _ _ startInv rfl front
  rw [List.append_assoc] at front
  have nextRead := read_loop_last _ 9 (2 ^ prefixBits - 1) 0 (marked_byte_lt _) _ _
    (skip_inv startInv front) rfl (skip_unread front)
  have stopped : readVarInt (after.seek ba.position) prefixBits = readVarIntLoop 10
      ((after.seek ba.position).skip 1) (2 ^ prefixBits - 1) 0 := by
    rw [readVarInt, firstRead, bind_ok]
    dsimp only
    rw [read_var_int_from_eq upper, masked, if_neg (Nat.lt_irrefl _)]
    rfl
  rw [stopped] at readBack
  have result := Except.ok.inj (nextRead.symm.trans readBack)
  have reached : last.position = ba.position + 2 := by
    rw [← congrArg (fun read => read.2.position) result]
    rfl
  rw [bytes, List.length_append, List.length_append] at position
  simp only [List.length_singleton] at position
  omega

/-- The integers that come back are those with at most one byte behind the first. -/
theorem var_int_round_trips_iff (ba : ByteArray) (prefixBits : Nat) (value : UInt64)
    (flags : UInt8) (inv : Inv ba) (upper : prefixBits ≤ 8)
    (clear : flags.toNat % 2 ^ prefixBits = 0) :
    VarIntRoundTrips ba prefixBits value.toNat flags ↔ value.toNat < 2 ^ prefixBits + 127 := by
  constructor
  · exact short_of_var_int_round_trips inv upper clear
  · exact var_int_round_trips_of_short inv upper clear

theorem var_int_round_trips_two_bytes :
    VarIntRoundTrips (ByteArray.new 4 fun _ _ => 0xFF) 5 (UInt64.toNat 150) 0x40 :=
  (var_int_round_trips_iff (ByteArray.new 4 fun _ _ => 0xFF) 5 150 0x40
    (new_inv 4 _ (by decide)) (by decide) (by decide)).mpr (by decide)

/-- The value 1337 with a prefix of five bits, three bytes of which are written. -/
theorem var_int_three_bytes_lost :
    ¬VarIntRoundTrips (ByteArray.new 4096 fun _ _ => 0) 5 (UInt64.toNat 1337) 0 := by
  intro trips
  have short := short_of_var_int_round_trips (new_inv 4096 _ (by decide)) (by decide) (by decide)
    trips
  exact absurd short (by decide)

end ChatServer.Http2
