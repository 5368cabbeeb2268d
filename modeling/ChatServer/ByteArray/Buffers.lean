import ChatServer.ByteArray.Cursor
import ChatServer.ByteArray.Runs

/-!
# Buffers instead of copies

Sockets read and write through the buffers of `getWriteBuffers` and `getReadBuffers`. In every
state a `ByteArray` can be in, filling the former and moving the position is a `write`, and
the latter hold what a `read` would copy out.
-/

namespace ChatServer.ByteArray

set_option autoImplicit false

open Splice

def missingBlocks (ba : ByteArray) (size : Nat) : Nat :=
  if size = 0 ∨ size ≤ ba.getCapacity then 0
  else (size - ba.getCapacity + ba.baseSize - 1) / ba.baseSize

theorem missing_blocks_mono (ba : ByteArray) {size larger : Nat} (le : size ≤ larger) :
    ba.missingBlocks size ≤ ba.missingBlocks larger := by
  unfold missingBlocks
  split_ifs with enough both both
  · exact Nat.le_refl 0
  · exact Nat.zero_le _
  · omega
  · exact Nat.div_le_div_right (by omega)

theorem add_capacity_nodes (ba : ByteArray) (size : Nat) :
    (ba.addCapacity size).nodes = ba.nodes ++ (List.range (ba.missingBlocks size)).map
      fun index => newBlock ba.fresh (ba.allocated + index) ba.baseSize := by
  unfold addCapacity missingBlocks
  by_cases enough : size = 0 ∨ size ≤ ba.getCapacity
  · simp [if_pos enough]
  · simp [if_neg enough]

theorem add_capacity_extends (ba : ByteArray) {size larger : Nat} (le : size ≤ larger) :
    ∃ extra, (ba.addCapacity larger).flat = (ba.addCapacity size).flat ++ extra := by
  have more := missing_blocks_mono ba le
  rw [flat, flat, add_capacity_nodes, add_capacity_nodes,
    ← Nat.add_sub_cancel' more, List.range_add, List.map_append, ← List.append_assoc,
    List.flatten_append]
  exact ⟨_, rfl⟩

/-- The states of a `ByteArray` whose blocks are not empty, through any use of its public
operations and of the buffers they return. -/
inductive Reachable : ByteArray → Prop where
  | made (baseSize : Nat) (fresh : Nat → Nat → UInt8) (some : 1 ≤ baseSize) :
      Reachable (new baseSize fresh)
  | wrapped (data : Str) (some : data ≠ []) : Reachable (ofData data)
  | step {ba after : ByteArray} (op : Op) (before : Reachable ba) (done : op.apply ba = .ok after) :
      Reachable after
  | setIsLittleEndian {ba : ByteArray} (val : Bool) (before : Reachable ba) :
      Reachable (ba.setIsLittleEndian val)
  | fill {ba after : ByteArray} {len : Nat} {buffers : List Iovec} (before : Reachable ba)
      (listed : ba.getWriteBuffers len = .ok (len, buffers, after)) (bytes : Str)
      (short : bytes.length ≤ len) : Reachable (after.fill buffers bytes)

theorem reachable_inv {ba : ByteArray} (reachable : Reachable ba) : Inv ba := by
  induction reachable with
  | made baseSize fresh some => exact new_inv baseSize fresh some
  | wrapped data some => exact of_data_inv data some
  | step op before done induction => exact (step_inv induction done).1
  | setIsLittleEndian val before induction =>
      exact ⟨induction.basePos, induction.uniform, induction.rooted, induction.capacityEq,
        induction.positionLe, induction.sizeLe, induction.curEq⟩
  | fill before listed bytes short induction => exact fill_inv induction listed short

/-- Two arrays with the same data and position, where the chain of the first may have further
blocks. -/
structure SameData (lhs rhs : ByteArray) : Prop where
  position : lhs.position = rhs.position
  size : lhs.size = rhs.size
  contents : lhs.contents = rhs.contents
  chain : ∃ extra, lhs.flat = rhs.flat ++ extra

theorem fill_same_as_write {ba : ByteArray} (inv : Inv ba) {len : Nat} {bytes : Str}
    (short : bytes.length ≤ len) :
    ∃ buffers grown filled written,
      ba.getWriteBuffers len = .ok (len, buffers, grown) ∧
      (grown.fill buffers bytes).setPosition (ba.position + bytes.length) = .ok filled ∧
      ba.write bytes = .ok written ∧ SameData filled written := by
  obtain ⟨buffers, listed, _⟩ := get_write_buffers_spec inv len
  obtain ⟨filled, moved, filledWrote, _, filledFlat⟩ := fill_wrote inv listed short
  obtain ⟨written, returned, wrote, writtenFlat⟩ := write_grown_spec inv bytes
  have position := (add_capacity_grown inv len).position
  rw [position] at moved
  have chain : ∃ extra, filled.flat = written.flat ++ extra := by
    obtain ⟨extra, extended⟩ := add_capacity_extends ba short
    have grown := add_capacity_grown inv bytes.length
    have room := grown.room
    have flatLength := flat_length grown.inv
    exact ⟨extra, by rw [filledFlat, writtenFlat, extended, splice_append_left _ _ _ _ (by omega)]⟩
  have sameSize : filled.size = written.size := filledWrote.size.trans wrote.size.symm
  refine ⟨buffers, _, filled, written, listed, moved, returned, ?_, sameSize, ?_, chain⟩
  · exact filledWrote.position.trans wrote.position.symm
  · obtain ⟨extra, extended⟩ := chain
    have sizeLe := wrote.inv.sizeLe
    have flatLength := flat_length wrote.inv
    rw [contents, contents, extended, sameSize, List.take_append_of_le_length (by omega)]

theorem read_buffers_same_as_read {ba : ByteArray} (inv : Inv ba) (len : Nat) :
    ∃ buffers, ba.getReadBuffers len = .ok (min len ba.getReadSize, buffers) ∧
      gather ba.nodes buffers = ba.unread.take (min len ba.getReadSize) ∧
      (0 < min len ba.getReadSize → ∃ after,
        ba.read (min len ba.getReadSize) = .ok (gather ba.nodes buffers, after)) := by
  obtain ⟨buffers, listed, covered⟩ := get_read_buffers_spec inv len
  refine ⟨buffers, listed, covered, ?_⟩
  intro some
  have sizeLe := inv.sizeLe
  have block : ba.position < ba.capacity := by
    unfold getReadSize at some
    omega
  rw [covered]
  exact ⟨_, read_spec inv (Nat.min_le_right _ _) block⟩

/-- Scatter/gather is equivalent to copying in every reachable state, for every length and
every partial fill. -/
theorem buffers_same_as_copies (ba : ByteArray) (reachable : Reachable ba) :
    (∀ (len : Nat) (bytes : Str), bytes.length ≤ len →
      ∃ buffers grown filled written,
        ba.getWriteBuffers len = .ok (len, buffers, grown) ∧
        (grown.fill buffers bytes).setPosition (ba.position + bytes.length) = .ok filled ∧
        ba.write bytes = .ok written ∧ SameData filled written) ∧
      ∀ len : Nat, ∃ buffers,
        ba.getReadBuffers len = .ok (min len ba.getReadSize, buffers) ∧
        gather ba.nodes buffers = ba.unread.take (min len ba.getReadSize) ∧
        (0 < min len ba.getReadSize → ∃ after,
          ba.read (min len ba.getReadSize) = .ok (gather ba.nodes buffers, after)) := by
  have inv := reachable_inv reachable
  constructor
  · intro len bytes short
    exact fill_same_as_write inv short
  · intro len
    exact read_buffers_same_as_read inv len

/-- Two bytes of five, across the end of a block of three. -/
theorem buffers_same_as_copies_across :
    ∃ ba, (ofData [1, 2, 3]).setPosition 2 = .ok ba ∧
      ∃ buffers grown filled written,
        ba.getWriteBuffers 5 = .ok (5, buffers, grown) ∧
        (grown.fill buffers [7, 8]).setPosition 4 = .ok filled ∧
        ba.write [7, 8] = .ok written ∧ SameData filled written :=
  ⟨_, rfl, (buffers_same_as_copies _ (.step (.setPosition 2) (.wrapped [1, 2, 3] (by decide))
    rfl)).1 5 [7, 8] (by decide)⟩

end ChatServer.ByteArray
