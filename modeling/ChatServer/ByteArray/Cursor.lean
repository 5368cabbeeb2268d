import ChatServer.ByteArray.Invariant

/-!
# Writing and reading at the cursor

What the codecs see of a `ByteArray`: `contents` and the part of it behind the
position. A writer puts bytes at the cursor, a reader takes bytes from it, and both
are described by the bytes alone, so that the codec proofs never meet a block.
-/

namespace ChatServer.ByteArray

set_option autoImplicit false

open Splice

def unread (ba : ByteArray) : Str := ba.contents.drop ba.position

theorem unread_length {ba : ByteArray} (inv : Inv ba) : ba.unread.length = ba.getReadSize := by
  rw [unread, List.length_drop, contents_length inv, getReadSize]

theorem of_data_unread (data : Str) : (ofData data).unread = data := by
  simp only [unread, contents, flat, ofData, List.flatten_cons, List.flatten_nil, List.append_nil,
    List.take_length, List.drop_zero]

structure Put (ba : ByteArray) (bytes : Str) (after : ByteArray) : Prop where
  inv : Inv after
  baseSize : after.baseSize = ba.baseSize
  endian : after.endian = ba.endian
  position : after.position = ba.position + bytes.length
  contents : after.contents = splice ba.contents ba.position bytes

theorem wrote_put {ba after : ByteArray} {buf : Str} (inv : Inv ba) (wrote : Wrote ba buf after) :
    Put ba buf after := by
  refine ⟨wrote.inv, wrote.baseSize, wrote.endian, wrote.position, ?_⟩
  obtain ⟨extra, flatEq⟩ := wrote.flat
  have sizeLe : ba.size ≤ (ba.flat ++ extra).length := by
    rw [List.length_append, flat_length inv]
    exact Nat.le_trans inv.sizeLe (Nat.le_add_right _ _)
  have front : (ba.flat ++ extra).take ba.size = ba.contents := by
    rw [contents, List.take_append_of_le_length]
    rw [flat_length inv]
    exact inv.sizeLe
  rw [contents, flatEq, wrote.size, take_splice _ _ _ _ inv.positionLe sizeLe, front]

theorem write_put {ba : ByteArray} (inv : Inv ba) (buf : Str) :
    ∃ after, ba.write buf = .ok after ∧ Put ba buf after := by
  obtain ⟨after, returned, wrote⟩ := write_spec inv buf
  exact ⟨after, returned, wrote_put inv wrote⟩

theorem put_nil {ba : ByteArray} (inv : Inv ba) : Put ba [] ba :=
  ⟨inv, rfl, rfl, rfl, by rw [splice_nil]⟩

theorem put_trans {ba middle after : ByteArray} {first second : Str} (inv : Inv ba)
    (left : Put ba first middle) (right : Put middle second after) :
    Put ba (first ++ second) after := by
  refine ⟨right.inv, right.baseSize.trans left.baseSize, right.endian.trans left.endian, ?_, ?_⟩
  · rw [right.position, left.position, List.length_append, Nat.add_assoc]
  · have bound : ba.position ≤ ba.contents.length := by
      rw [contents_length inv]
      exact inv.positionLe
    rw [right.contents, left.contents, left.position, splice_splice _ _ _ _ bound]

theorem put_size {ba after : ByteArray} {bytes : Str} (inv : Inv ba) (put : Put ba bytes after) :
    after.size = max ba.size (ba.position + bytes.length) := by
  rw [← contents_length put.inv, put.contents, splice_length, contents_length inv]
  rw [contents_length inv]
  exact inv.positionLe

/-- Writing at the end of the data appends to it and stays at its end. -/
theorem put_at_end {ba after : ByteArray} {bytes : Str} (inv : Inv ba)
    (atEnd : ba.position = ba.size) (put : Put ba bytes after) :
    after.contents = ba.contents ++ bytes ∧ after.position = after.size := by
  constructor
  · rw [put.contents, atEnd, ← contents_length inv, splice_at_end]
  · rw [put_size inv put, put.position, atEnd]
    exact (Nat.max_eq_right (Nat.le_add_right _ _)).symm

/-- A writer that puts `bytes` at the cursor of every valid buffer of one byte order. -/
def Writes (writer : ByteArray → Result ByteArray) (endian : Endian) (bytes : Str) : Prop :=
  ∀ ba, Inv ba → ba.endian = endian → ∃ after, writer ba = .ok after ∧ Put ba bytes after

theorem write_writes (endian : Endian) (buf : Str) : Writes (fun ba => ba.write buf) endian buf :=
  fun _ inv _ => write_put inv buf

theorem writes_bind {first second : ByteArray → Result ByteArray} {endian : Endian}
    {front back : Str} (left : Writes first endian front) (right : Writes second endian back) :
    Writes (fun ba => first ba >>= second) endian (front ++ back) := by
  intro ba inv order
  obtain ⟨middle, returned, put⟩ := left ba inv order
  obtain ⟨after, returnedNext, putNext⟩ := right middle put.inv (put.endian.trans order)
  refine ⟨after, ?_, put_trans inv put putNext⟩
  simp only [returned, bind_ok, returnedNext]

/-- The same for a writer that returns how many bytes it wrote, as an `int`. -/
def Emits (writer : ByteArray → Result (Int × ByteArray)) (endian : Endian) (bytes : Str) : Prop :=
  ∀ ba, Inv ba → ba.endian = endian →
    ∃ after, writer ba = .ok (int32 bytes.length, after) ∧ Put ba bytes after

/-- A writer whose count is the distance the cursor moved. -/
theorem writes_emits {writer : ByteArray → Result ByteArray} {endian : Endian} {bytes : Str}
    (writes : Writes writer endian bytes) :
    Emits (fun ba => writer ba >>= fun after =>
      .ok (int32 (after.position - ba.position : Int), after)) endian bytes := by
  intro ba inv order
  obtain ⟨after, returned, put⟩ := writes ba inv order
  have moved : (after.position - ba.position : Int) = bytes.length := by
    rw [put.position]
    omega
  refine ⟨after, ?_, put⟩
  simp only [returned, bind_ok, moved]

theorem emits_writes {writer : ByteArray → Result (Int × ByteArray)} {endian : Endian}
    {bytes : Str} (emits : Emits writer endian bytes) :
    Writes (fun ba => writer ba >>= fun written => .ok written.2) endian bytes := by
  intro ba inv order
  obtain ⟨after, returned, put⟩ := emits ba inv order
  refine ⟨after, ?_, put⟩
  simp only [returned, bind_ok]

def skip (ba : ByteArray) (count : Nat) : ByteArray := ba.seek (ba.position + count)

@[simp] theorem skip_position (ba : ByteArray) (count : Nat) :
    (ba.skip count).position = ba.position + count := rfl

@[simp] theorem skip_contents (ba : ByteArray) (count : Nat) :
    (ba.skip count).contents = ba.contents := rfl

theorem skip_skip (ba : ByteArray) (first second : Nat) :
    (ba.skip first).skip second = ba.skip (first + second) := by
  simp only [skip, seek_seek, seek_position, Nat.add_assoc]

theorem skip_zero {ba : ByteArray} (inv : Inv ba) : ba.skip 0 = ba := by
  rw [skip, Nat.add_zero, seek, ← inv.curEq]

theorem unread_bound {ba : ByteArray} {bytes rest : Str} (inv : Inv ba)
    (front : ba.unread = bytes ++ rest) : ba.position + bytes.length + rest.length = ba.size := by
  have total := unread_length inv
  have positionLe := inv.positionLe
  rw [front, List.length_append, getReadSize] at total
  omega

theorem skip_inv {ba : ByteArray} {bytes rest : Str} (inv : Inv ba)
    (front : ba.unread = bytes ++ rest) : Inv (ba.skip bytes.length) := by
  have bound := unread_bound inv front
  exact seek_inv inv (by omega)

theorem skip_unread {ba : ByteArray} {bytes rest : Str} (front : ba.unread = bytes ++ rest) :
    (ba.skip bytes.length).unread = rest := by
  rw [unread, skip_contents, skip_position, ← List.drop_drop, ← unread, front, List.drop_left]

theorem read_unread {ba : ByteArray} {bytes rest : Str} (inv : Inv ba)
    (front : ba.unread = bytes ++ rest) (some : bytes ≠ []) :
    ba.read bytes.length = .ok (bytes, ba.skip bytes.length) := by
  have bound := unread_bound inv front
  have sizeLe := inv.sizeLe
  have positive : 0 < bytes.length := List.length_pos_iff.mpr some
  rw [read_spec inv (by rw [getReadSize]; omega) (by omega), ← unread, front, List.take_left]
  rfl

theorem read_ok {ba after : ByteArray} {count : Nat} {bytes : Str} (inv : Inv ba)
    (done : ba.read count = .ok (bytes, after)) :
    bytes.length = count ∧ ba.unread = bytes ++ after.unread ∧ after = ba.skip count := by
  obtain ⟨enough, block⟩ := read_ok_inside inv done
  rw [read_spec inv enough block, ← unread] at done
  cases done
  have length : (ba.unread.take count).length = count := by
    rw [List.length_take, unread_length inv, Nat.min_eq_left enough]
  refine ⟨length, ?_, rfl⟩
  rw [unread, unread, seek_contents, seek_position, ← List.drop_drop, List.take_append_drop]

theorem read_chain_length (chain : List Str) :
    ∀ (npos size : Nat) (bytes : Str) (moved : Nat), readChain chain npos size = .ok (bytes, moved) →
      bytes.length ≤ size := by
  induction chain with
  | nil =>
      intro npos size bytes moved read
      cases size with
      | zero =>
          cases read
          exact Nat.le_refl 0
      | succ size => cases read
  | cons node next induction =>
      intro npos size bytes moved read
      cases size with
      | zero =>
          cases read
          exact Nat.le_refl 0
      | succ size =>
          rw [readChain.eq_3 _ _ _ _ (Nat.succ_ne_zero size)] at read
          dsimp only at read
          split_ifs at read with inside
          · cases read
            exact List.length_take_le _ _
          · cases read
            exact List.length_take_le _ _
          · obtain ⟨⟨rest, count⟩, restRead, last⟩ := bind_eq_ok read
            have restLength := induction _ _ _ _ restRead
            cases last
            have first := List.length_take_le (node.length - npos) (node.drop npos)
            rw [List.length_append]
            dsimp only at restLength ⊢
            omega

/-- No state lets a read return more than it was asked for. -/
theorem read_length_le {ba after : ByteArray} {size : Nat} {bytes : Str}
    (done : ba.read size = .ok (bytes, after)) : bytes.length ≤ size := by
  unfold read at done
  split_ifs at done
  split at done
  · cases done
  · obtain ⟨⟨copied, moved⟩, read, last⟩ := bind_eq_ok done
    cases last
    exact read_chain_length _ _ _ _ _ read

theorem read_short {ba : ByteArray} {count : Nat} (short : ba.getReadSize < count) :
    ba.read count = .error (.thrown .outOfRange) := if_pos short

theorem read_empty {ba : ByteArray} {count : Nat} (inv : Inv ba) (empty : ba.unread = [])
    (positive : 0 < count) : ba.read count = .error (.thrown .outOfRange) := by
  have none := unread_length inv
  rw [empty, List.length_nil] at none
  exact read_short (by omega)

/-- `toString()` copies everything behind the position. -/
theorem to_string_unread {ba : ByteArray} (inv : Inv ba) : ba.toString = .ok ba.unread := by
  have positionLe := inv.positionLe
  have sizeLe := inv.sizeLe
  have length := unread_length inv
  unfold toString
  by_cases none : ba.getReadSize = 0
  · rw [if_pos none]
    rw [none] at length
    rw [List.length_eq_zero_iff.mp length]
  · rw [if_neg none]
    have block : ba.position < ba.capacity := by
      rw [getReadSize] at none
      omega
    obtain ⟨cut, tailLength⟩ := flat_cut inv block
    have walked := read_chain_spec inv.basePos _ (ba.position % ba.baseSize) ba.getReadSize
      (uniform_drop inv.uniform (ba.position / ba.baseSize)) (Nat.mod_lt _ inv.basePos)
      (by rw [getReadSize]; omega)
    rw [flat_drop_position inv block] at walked
    have available : ¬ba.getReadSize >
        if ba.position ≤ ba.size then ba.size - ba.position
        else 2 ^ 64 - (ba.position - ba.size) := by
      rw [if_pos positionLe, getReadSize]
      exact Nat.lt_irrefl _
    simp only [readAt, if_neg available, cur_some inv block, walked, bind_ok]
    rw [unread, contents, List.drop_take, getReadSize]

/-- A reader that takes exactly `bytes` from the cursor and returns `value`. -/
def Reads {Value : Type} (reader : ByteArray → Result (Value × ByteArray)) (endian : Endian)
    (bytes : Str) (value : Value) : Prop :=
  ∀ ba rest, Inv ba → ba.endian = endian → ba.unread = bytes ++ rest →
    reader ba = .ok (value, ba.skip bytes.length)

theorem read_reads (endian : Endian) (bytes : Str) (some : bytes ≠ []) :
    Reads (fun ba => ba.read bytes.length) endian bytes bytes :=
  fun _ _ inv _ front => read_unread inv front some

theorem reads_bind {First Second : Type} {first : ByteArray → Result (First × ByteArray)}
    {endian : Endian} {front back : Str} {value : First} {result : Second}
    (second : First → ByteArray → Result (Second × ByteArray))
    (left : Reads first endian front value)
    (right : Reads (second value) endian back result) :
    Reads (fun ba => first ba >>= fun read => second read.1 read.2) endian (front ++ back)
      result := by
  intro ba rest inv order unreadEq
  rw [List.append_assoc] at unreadEq
  simp only [left ba _ inv order unreadEq, bind_ok]
  rw [right _ rest (skip_inv inv unreadEq) order (skip_unread unreadEq), skip_skip,
    List.length_append]

theorem reads_map {First Second : Type} {first : ByteArray → Result (First × ByteArray)}
    {endian : Endian} {bytes : Str} {value : First} (change : First → Second)
    (reads : Reads first endian bytes value) :
    Reads (fun ba => first ba >>= fun read => .ok (change read.1, read.2)) endian bytes
      (change value) := by
  intro ba rest inv order unreadEq
  simp only [reads ba rest inv order unreadEq, bind_ok]

/-- Going back to where a writer started leaves what it wrote in front of the cursor. -/
theorem put_unread {ba after : ByteArray} {bytes : Str} (inv : Inv ba) (put : Put ba bytes after) :
    (after.seek ba.position).unread = bytes ++ ba.contents.drop (ba.position + bytes.length) := by
  rw [unread, seek_contents, seek_position, put.contents, splice_drop]
  rw [contents_length inv]
  exact inv.positionLe

/-- A writer into an empty buffer that is then rewound leaves its bytes to be read. -/
theorem writes_rewound {writer : ByteArray → Result ByteArray} {endian : Endian} {bytes : Str}
    {ba : ByteArray} (writes : Writes writer endian bytes) (inv : Inv ba) (order : ba.endian = endian)
    (start : ba.position = 0) (nothing : ba.contents = []) :
    ∃ written, writer ba = .ok written ∧ written.endian = endian ∧
      written.setPosition 0 = .ok (written.seek 0) ∧ Inv (written.seek 0) ∧
      (written.seek 0).unread = bytes := by
  obtain ⟨written, returned, put⟩ := writes ba inv order
  refine ⟨written, returned, put.endian.trans order, set_position_seek put.inv (Nat.zero_le _),
    seek_inv put.inv (Nat.zero_le _), ?_⟩
  have behind := put_unread inv put
  rw [start, nothing, List.drop_nil, List.append_nil] at behind
  exact behind

end ChatServer.ByteArray
