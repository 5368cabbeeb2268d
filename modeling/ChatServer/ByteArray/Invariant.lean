import ChatServer.ByteArray.Model

/-!
# The representation invariant of `ByteArray`

`Inv` ties the five separately updated fields together: the capacity counts the
blocks, the size lies between position and capacity, and `m_cur` is the block the
position falls in, null when it falls behind the last one. Every walk over the
chain is described once, as an operation on the flat content, and each member
function then keeps `Inv` and acts on the flat content alone.
-/

namespace ChatServer.ByteArray

set_option autoImplicit false

open Splice

def flat (ba : ByteArray) : Str := ba.nodes.flatten

structure Inv (ba : ByteArray) : Prop where
  basePos : 0 < ba.baseSize
  uniform : Uniform ba.baseSize ba.nodes
  rooted : 0 < ba.nodes.length
  capacityEq : ba.capacity = ba.baseSize * ba.nodes.length
  positionLe : ba.position ≤ ba.size
  sizeLe : ba.size ≤ ba.capacity
  curEq : ba.cur = nodeAt ba.nodes (ba.position / ba.baseSize)

theorem flat_length {ba : ByteArray} (inv : Inv ba) : ba.flat.length = ba.capacity := by
  rw [flat, uniform_flatten_length inv.uniform, inv.capacityEq]

theorem block_index_lt {ba : ByteArray} (inv : Inv ba) {position : Nat}
    (bound : position < ba.capacity) : position / ba.baseSize < ba.nodes.length := by
  rw [Nat.div_lt_iff_lt_mul inv.basePos, Nat.mul_comm, ← inv.capacityEq]
  exact bound

theorem cur_some {ba : ByteArray} (inv : Inv ba) (bound : ba.position < ba.capacity) :
    ba.cur = some (ba.position / ba.baseSize) := by
  rw [inv.curEq, nodeAt, if_pos (block_index_lt inv bound)]

theorem cur_none {ba : ByteArray} (inv : Inv ba) (full : ba.position = ba.capacity) :
    ba.cur = none := by
  have index : ba.position / ba.baseSize = ba.nodes.length := by
    rw [full, inv.capacityEq, Nat.mul_div_cancel_left _ inv.basePos]
  rw [inv.curEq, nodeAt, index, if_neg (Nat.lt_irrefl _)]

theorem cur_none_iff {ba : ByteArray} (inv : Inv ba) :
    ba.cur = none ↔ ba.position = ba.capacity := by
  constructor
  · intro null
    by_contra different
    have inside : ba.position < ba.capacity := by
      have lower := inv.positionLe
      have upper := inv.sizeLe
      omega
    rw [cur_some inv inside] at null
    cases null
  · exact cur_none inv

/-- The current block cuts the flat content at a block boundary, and the position lies
`m_position % m_baseSize` bytes behind that cut. -/
theorem flat_cut {ba : ByteArray} (inv : Inv ba) (block : ba.position < ba.capacity) :
    (ba.nodes.take (ba.position / ba.baseSize)).flatten.length + ba.position % ba.baseSize =
        ba.position ∧
      (ba.nodes.drop (ba.position / ba.baseSize)).flatten.length =
        ba.position % ba.baseSize + (ba.capacity - ba.position) := by
  have indexLt := block_index_lt inv block
  have frontLength := uniform_flatten_take inv.uniform _ (Nat.le_of_lt indexLt)
  have cut := Nat.div_add_mod ba.position ba.baseSize
  have total := congrArg List.length (flatten_take_drop ba.nodes (ba.position / ba.baseSize))
  rw [← flat, flat_length inv, List.length_append, frontLength] at total
  constructor <;> omega

/-- The flat content behind the position, seen from the current block. -/
theorem flat_drop_position {ba : ByteArray} (inv : Inv ba) (block : ba.position < ba.capacity) :
    (ba.nodes.drop (ba.position / ba.baseSize)).flatten.drop (ba.position % ba.baseSize) =
      ba.flat.drop ba.position := by
  have skipped : (ba.nodes.drop (ba.position / ba.baseSize)).flatten.drop
      (ba.position % ba.baseSize) =
        ((ba.nodes.take (ba.position / ba.baseSize)).flatten ++
          (ba.nodes.drop (ba.position / ba.baseSize)).flatten).drop
            ((ba.nodes.take (ba.position / ba.baseSize)).flatten.length +
              ba.position % ba.baseSize) := (List.drop_length_add_append _).symm
  rw [skipped, (flat_cut inv block).1, ← flatten_take_drop, flat]

/-- Moving `count` bytes from the position lands in the block `nodeAt` points to. -/
theorem block_index_add {ba : ByteArray} (inv : Inv ba) (count : Nat) :
    ba.position / ba.baseSize + (ba.position % ba.baseSize + count) / ba.baseSize =
      (ba.position + count) / ba.baseSize := by
  rw [← Nat.mul_add_div inv.basePos, ← Nat.add_assoc, Nat.div_add_mod]

/-- One block filled to its end and the next ones written from their start. -/
theorem splice_across (front back first second : Str) (pos : Nat)
    (exact : pos + first.length = front.length) :
    splice front pos first ++ splice back 0 second =
      splice (front ++ back) pos (first ++ second) := by
  have sameLength := splice_length_inside front first pos (by omega)
  rw [← splice_splice (front ++ back) first second pos (by rw [List.length_append]; omega),
    splice_append_left front back first pos (by omega), exact, ← sameLength,
    ← Nat.add_zero (splice front pos first).length, splice_append_right]

theorem write_chain_spec {size : Nat} (sizePos : 0 < size) (chain : List Str) (npos : Nat)
    (buf : Str) (uniform : Uniform size chain) (start : npos < size) (some : buf ≠ [])
    (fits : npos + buf.length ≤ chain.flatten.length) :
    ∃ written, writeChain chain npos buf = .ok (written, (npos + buf.length) / size) ∧
      written.flatten = splice chain.flatten npos buf ∧ Uniform size written ∧
      written.length = chain.length := by
  induction chain generalizing npos buf with
  | nil =>
      cases buf with
      | nil => exact absurd rfl some
      | cons byte rest => simp at fits
  | cons node next induction =>
      have nodeSize : node.length = size := uniform node (by simp)
      have nextUniform : Uniform size next := fun block member => uniform block (by simp [member])
      obtain ⟨byte, rest, rfl⟩ := List.exists_cons_of_ne_nil some
      simp only [writeChain]
      by_cases inside : (byte :: rest).length ≤ node.length - npos
      · have insideNode : npos + (byte :: rest).length ≤ node.length := by omega
        rw [if_pos inside]
        refine ⟨splice node npos (byte :: rest) :: next, ?_, ?_, ?_, by simp⟩
        · by_cases atEnd : node.length = npos + (byte :: rest).length
          · rw [if_pos atEnd, ← atEnd, nodeSize, Nat.div_self sizePos]
          · rw [if_neg atEnd, Nat.div_eq_of_lt (by omega)]
        · rw [List.flatten_cons, List.flatten_cons, splice_append_left _ _ _ _ insideNode]
        · intro block member
          rcases List.mem_cons.mp member with head | tail
          · rw [head, splice_length_inside _ _ _ insideNode, nodeSize]
          · exact nextUniform block tail
      · rw [if_neg inside]
        have room : ((byte :: rest).take (node.length - npos)).length = node.length - npos := by
          rw [List.length_take]
          omega
        have left : ((byte :: rest).drop (node.length - npos)).length =
            (byte :: rest).length - (node.length - npos) := List.length_drop
        have leftSome : (byte :: rest).drop (node.length - npos) ≠ [] := by
          intro empty
          rw [empty, List.length_nil] at left
          omega
        have leftFits : 0 + ((byte :: rest).drop (node.length - npos)).length ≤
            next.flatten.length := by
          rw [List.flatten_cons, List.length_append] at fits
          omega
        obtain ⟨written, walked, content, writtenUniform, sameLength⟩ :=
          induction 0 _ nextUniform sizePos leftSome leftFits
        rw [walked, bind_ok]
        have moved : (0 + ((byte :: rest).drop (node.length - npos)).length) / size + 1 =
            (npos + (byte :: rest).length) / size := by
          rw [left, ← Nat.add_div_right _ sizePos]
          congr 1
          omega
        have filled : npos + ((byte :: rest).take (node.length - npos)).length = node.length := by
          omega
        refine ⟨splice node npos ((byte :: rest).take (node.length - npos)) :: written, ?_, ?_, ?_,
          by simp [sameLength]⟩
        · rw [moved]
        · rw [List.flatten_cons, List.flatten_cons, content, splice_across _ _ _ _ _ filled,
            List.take_append_drop]
        · intro block member
          rcases List.mem_cons.mp member with head | tail
          · rw [head, splice_length_inside _ _ _ (by omega), nodeSize]
          · exact writtenUniform block tail

theorem read_chain_spec {size : Nat} (sizePos : 0 < size) (chain : List Str) (npos count : Nat)
    (uniform : Uniform size chain) (start : npos < size)
    (fits : npos + count ≤ chain.flatten.length) :
    readChain chain npos count =
      .ok ((chain.flatten.drop npos).take count, (npos + count) / size) := by
  induction chain generalizing npos count with
  | nil =>
      have none : count = 0 := by
        simp at fits
        omega
      subst none
      simp [readChain, Nat.div_eq_of_lt start]
  | cons node next induction =>
      have nodeSize : node.length = size := uniform node (by simp)
      have nextUniform : Uniform size next := fun block member => uniform block (by simp [member])
      cases count with
      | zero => simp [readChain, Nat.div_eq_of_lt start]
      | succ count =>
          have dropped : (node ++ next.flatten).drop npos = node.drop npos ++ next.flatten :=
            List.drop_append_of_le_length (by omega)
          simp only [readChain, List.flatten_cons, dropped]
          by_cases inside : count + 1 ≤ node.length - npos
          · rw [if_pos inside, List.take_append_of_le_length (by rw [List.length_drop]; omega)]
            by_cases atEnd : node.length = npos + (count + 1)
            · rw [if_pos atEnd, ← atEnd, nodeSize, Nat.div_self sizePos]
            · rw [if_neg atEnd, Nat.div_eq_of_lt (by omega)]
          · rw [if_neg inside]
            have nextFits : 0 + (count + 1 - (node.length - npos)) ≤ next.flatten.length := by
              rw [List.flatten_cons, List.length_append] at fits
              omega
            rw [induction 0 _ nextUniform sizePos nextFits, bind_ok]
            have moved : (0 + (count + 1 - (node.length - npos))) / size + 1 =
                (npos + (count + 1)) / size := by
              rw [← Nat.add_div_right _ sizePos]
              congr 1
              omega
            have headLength : (node.drop npos).length = node.length - npos := List.length_drop
            have whole (limit : Nat) (enough : node.length - npos ≤ limit) :
                (node.drop npos).take limit = node.drop npos :=
              List.take_of_length_le (by omega)
            rw [moved, List.take_append, headLength, whole _ (Nat.le_refl _),
              whole (count + 1) (by omega), List.drop_zero]

theorem seek_chain_spec {size : Nat} (sizePos : 0 < size) (chain : List Str) (v : Nat)
    (uniform : Uniform size chain) (rooted : chain ≠ []) (fits : v ≤ chain.flatten.length) :
    seekChain chain v = .ok (v / size) := by
  induction chain generalizing v with
  | nil => exact absurd rfl rooted
  | cons node next induction =>
      have nodeSize : node.length = size := uniform node (by simp)
      have nextUniform : Uniform size next := fun block member => uniform block (by simp [member])
      rw [List.flatten_cons, List.length_append] at fits
      simp only [seekChain]
      by_cases beyond : v > node.length
      · have nextRooted : next ≠ [] := by
          rintro rfl
          simp at fits
          omega
        rw [if_pos beyond, induction (v - node.length) nextUniform nextRooted (by omega), bind_ok]
        have moved : (v - node.length) / size + 1 = v / size := by
          rw [← Nat.add_div_right _ sizePos]
          congr 1
          omega
        rw [moved]
      · rw [if_neg beyond]
        by_cases atEnd : v = node.length
        · rw [if_pos atEnd, atEnd, nodeSize, Nat.div_self sizePos]
        · rw [if_neg atEnd, Nat.div_eq_of_lt (by omega)]

/-- The part of the flat content that holds data: `m_size` bytes. -/
def contents (ba : ByteArray) : Str := ba.flat.take ba.size

theorem contents_length {ba : ByteArray} (inv : Inv ba) : ba.contents.length = ba.size := by
  rw [contents, List.length_take, flat_length inv, Nat.min_eq_left inv.sizeLe]

theorem new_block_length (fresh : Nat → Nat → UInt8) (index size : Nat) :
    (newBlock fresh index size).length = size := by simp [newBlock]

theorem new_inv (baseSize : Nat) (fresh : Nat → Nat → UInt8) (basePos : 0 < baseSize) :
    Inv (new baseSize fresh) where
  basePos := basePos
  uniform := by simp [new, Uniform, new_block_length]
  rooted := by simp [new]
  capacityEq := by simp [new]
  positionLe := by simp [new]
  sizeLe := by simp [new]
  curEq := by simp [new, nodeAt]

theorem of_data_inv (data : Str) (some : data ≠ []) : Inv (ofData data) where
  basePos := List.length_pos_iff.mpr some
  uniform := by simp [ofData, Uniform]
  rooted := by simp [ofData]
  capacityEq := by simp [ofData]
  positionLe := by simp [ofData]
  sizeLe := by simp [ofData]
  curEq := by simp [ofData, nodeAt]

theorem clear_inv {ba : ByteArray} (inv : Inv ba) : Inv ba.clear where
  basePos := inv.basePos
  uniform := uniform_take inv.uniform 1
  rooted := by
    have rooted := inv.rooted
    simp only [clear, List.length_take]
    omega
  capacityEq := by
    have rooted := inv.rooted
    have one : min 1 ba.nodes.length = 1 := by omega
    simp [clear, List.length_take, one]
  positionLe := Nat.le_refl _
  sizeLe := Nat.zero_le _
  curEq := by
    have rooted : ba.nodes ≠ [] := List.length_pos_iff.mp inv.rooted
    simp [clear, nodeAt, rooted]

/-- Everything `addCapacity(size)` does: blocks are appended until `size` bytes fit behind
the position, and `m_cur` becomes valid again when it was null. -/
structure Grown (ba : ByteArray) (size : Nat) (after : ByteArray) : Prop where
  inv : Inv after
  room : ba.position + size ≤ after.capacity
  baseSize : after.baseSize = ba.baseSize
  position : after.position = ba.position
  size : after.size = ba.size
  endian : after.endian = ba.endian
  flat : ∃ extra, after.flat = ba.flat ++ extra

theorem add_capacity_grown {ba : ByteArray} (inv : Inv ba) (size : Nat) :
    Grown ba size (ba.addCapacity size) := by
  have positionLe : ba.position ≤ ba.capacity := Nat.le_trans inv.positionLe inv.sizeLe
  unfold addCapacity getCapacity
  by_cases enough : size = 0 ∨ size ≤ ba.capacity - ba.position
  · rw [if_pos enough]
    exact ⟨inv, by omega, rfl, rfl, rfl, rfl, [], by simp⟩
  · rw [if_neg enough]
    have basePos := inv.basePos
    generalize missingEq : size - (ba.capacity - ba.position) = missing
    generalize countEq : (missing + ba.baseSize - 1) / ba.baseSize = count
    have countPos : 0 < count := by
      rw [← countEq]
      exact Nat.div_pos (by omega) basePos
    have covers : missing ≤ ba.baseSize * count := by
      have split := Nat.div_add_mod (missing + ba.baseSize - 1) ba.baseSize
      have below := Nat.mod_lt (missing + ba.baseSize - 1) basePos
      rw [countEq] at split
      omega
    have blocksUniform : Uniform ba.baseSize ((List.range count).map fun index =>
        newBlock ba.fresh (ba.allocated + index) ba.baseSize) := by
      intro block member
      obtain ⟨index, _, rfl⟩ := List.mem_map.mp member
      exact new_block_length _ _ _
    refine ⟨⟨basePos, uniform_append inv.uniform blocksUniform, ?_, ?_, inv.positionLe, ?_, ?_⟩,
      ?_, rfl, rfl, rfl, rfl, _, List.flatten_append⟩
    · rw [List.length_append]
      exact Nat.lt_of_lt_of_le inv.rooted (Nat.le_add_right _ _)
    · simp only [List.length_append, List.length_map, List.length_range]
      rw [inv.capacityEq, Nat.mul_add]
    · exact Nat.le_trans inv.sizeLe (Nat.le_add_right _ _)
    · dsimp only
      by_cases full : ba.capacity - ba.position = 0
      · have index : ba.position / ba.baseSize = ba.nodes.length := by
          rw [show ba.position = ba.capacity by omega, inv.capacityEq,
            Nat.mul_div_cancel_left _ basePos]
        rw [if_pos full, index]
      · have indexLt := block_index_lt inv (show ba.position < ba.capacity by omega)
        rw [if_neg full, inv.curEq, nodeAt, nodeAt, if_pos indexLt, if_pos]
        rw [List.length_append]
        omega
    · simp only
      omega

theorem grown_block {ba after : ByteArray} {size : Nat} (grown : Grown ba size after)
    (asked : 0 < size) : after.position < after.capacity := by
  have room := grown.room
  have position := grown.position
  omega

structure Wrote (ba : ByteArray) (buf : Str) (after : ByteArray) : Prop where
  inv : Inv after
  baseSize : after.baseSize = ba.baseSize
  endian : after.endian = ba.endian
  position : after.position = ba.position + buf.length
  size : after.size = max ba.size (ba.position + buf.length)
  flat : ∃ extra, after.flat = splice (ba.flat ++ extra) ba.position buf

theorem write_grown_spec {ba : ByteArray} (inv : Inv ba) (buf : Str) :
    ∃ after, ba.write buf = .ok after ∧ Wrote ba buf after ∧
      after.flat = splice (ba.addCapacity buf.length).flat ba.position buf := by
  unfold write
  by_cases empty : buf.length = 0
  · have none : buf = [] := List.length_eq_zero_iff.mp empty
    rw [if_pos empty]
    refine ⟨ba, rfl, ⟨inv, rfl, rfl, by omega, ?_, [], ?_⟩, ?_⟩
    · have positionLe := inv.positionLe
      omega
    · rw [none, List.append_nil, splice_nil]
    · rw [addCapacity, if_pos (Or.inl empty), none, splice_nil]
  · rw [if_neg empty]
    have some : buf ≠ [] := fun none => empty (by simp [none])
    have grown := add_capacity_grown inv buf.length
    generalize ba.addCapacity buf.length = grownBa at grown
    have room : grownBa.position + buf.length ≤ grownBa.capacity := by
      rw [grown.position]
      exact grown.room
    have basePos := grown.inv.basePos
    have inside : grownBa.position < grownBa.capacity := by omega
    have indexLt := block_index_lt grown.inv inside
    obtain ⟨cut, tailLength⟩ := flat_cut grown.inv inside
    have newIndex := block_index_add grown.inv buf.length
    have pointer := cur_some grown.inv inside
    obtain ⟨written, walked, content, writtenUniform, sameLength⟩ :=
      write_chain_spec basePos _ (grownBa.position % grownBa.baseSize) buf
        (uniform_drop grown.inv.uniform (grownBa.position / grownBa.baseSize))
        (Nat.mod_lt _ basePos) some (by omega)
    generalize grownBa.position / grownBa.baseSize = index at *
    simp only [pointer, walked, bind_ok]
    have nodesLength : (grownBa.nodes.take index ++ written).length = grownBa.nodes.length := by
      rw [List.length_append, List.length_take, sameLength, List.length_drop]
      omega
    have newFlat : (grownBa.nodes.take index ++ written).flatten =
        splice grownBa.flat grownBa.position buf := by
      rw [List.flatten_append, content, flat, flatten_take_drop grownBa.nodes index,
        ← splice_append_right, cut]
    have sizeLe := grown.inv.sizeLe
    have positionLe := grown.inv.positionLe
    have finalSize : (if grownBa.position + buf.length > grownBa.size
        then grownBa.position + buf.length else grownBa.size) =
          max grownBa.size (grownBa.position + buf.length) := by
      split_ifs <;> omega
    rw [newIndex, finalSize]
    refine ⟨_, rfl, ⟨⟨basePos, ?_, ?_, ?_, ?_, ?_, rfl⟩, grown.baseSize, grown.endian, ?_, ?_, ?_⟩, ?_⟩
    · exact uniform_append (uniform_take grown.inv.uniform index) writtenUniform
    · rw [nodesLength]
      exact grown.inv.rooted
    · rw [nodesLength]
      exact grown.inv.capacityEq
    · exact Nat.le_max_right _ _
    · exact Nat.max_le.mpr ⟨sizeLe, room⟩
    · rw [grown.position]
    · rw [grown.position, grown.size]
    · obtain ⟨extra, extended⟩ := grown.flat
      exact ⟨extra, newFlat.trans (by rw [extended, grown.position])⟩
    · exact newFlat.trans (by rw [grown.position])

theorem write_spec {ba : ByteArray} (inv : Inv ba) (buf : Str) :
    ∃ after, ba.write buf = .ok after ∧ Wrote ba buf after := by
  obtain ⟨after, returned, wrote, _⟩ := write_grown_spec inv buf
  exact ⟨after, returned, wrote⟩

/-- `m_position` and `m_cur` moved to `position`, the rest as it was. -/
def seek (ba : ByteArray) (position : Nat) : ByteArray :=
  { ba with position := position, cur := nodeAt ba.nodes (position / ba.baseSize) }

@[simp] theorem seek_position (ba : ByteArray) (position : Nat) :
    (ba.seek position).position = position := rfl

@[simp] theorem seek_size (ba : ByteArray) (position : Nat) :
    (ba.seek position).size = ba.size := rfl

@[simp] theorem seek_contents (ba : ByteArray) (position : Nat) :
    (ba.seek position).contents = ba.contents := rfl

@[simp] theorem seek_seek (ba : ByteArray) (first second : Nat) :
    (ba.seek first).seek second = ba.seek second := rfl

theorem seek_inv {ba : ByteArray} (inv : Inv ba) {position : Nat} (bound : position ≤ ba.size) :
    Inv (ba.seek position) where
  basePos := inv.basePos
  uniform := inv.uniform
  rooted := inv.rooted
  capacityEq := inv.capacityEq
  positionLe := bound
  sizeLe := inv.sizeLe
  curEq := rfl

/-- A read that neither throws nor follows a null `m_cur` returns the bytes behind the
position and moves the position over them. -/
theorem read_spec {ba : ByteArray} (inv : Inv ba) {count : Nat} (enough : count ≤ ba.getReadSize)
    (block : ba.position < ba.capacity) :
    ba.read count =
      .ok ((ba.contents.drop ba.position).take count, ba.seek (ba.position + count)) := by
  unfold getReadSize at enough
  have sizeLe := inv.sizeLe
  obtain ⟨cut, tailLength⟩ := flat_cut inv block
  have walked := read_chain_spec inv.basePos _ (ba.position % ba.baseSize) count
    (uniform_drop inv.uniform (ba.position / ba.baseSize)) (Nat.mod_lt _ inv.basePos) (by omega)
  have bytes : ((ba.nodes.drop (ba.position / ba.baseSize)).flatten.drop
      (ba.position % ba.baseSize)).take count = (ba.contents.drop ba.position).take count := by
    rw [flat_drop_position inv block, contents, List.drop_take, List.take_take, Nat.min_eq_left enough]
  unfold read getReadSize
  rw [if_neg (by omega), cur_some inv block]
  simp only [walked, bind_ok, block_index_add inv, bytes]
  rfl

/-- A read that returned asked for no more than there was and had a block to read from. -/
theorem read_ok_inside {ba : ByteArray} (inv : Inv ba) {count : Nat} {result : Str × ByteArray}
    (done : ba.read count = .ok result) : count ≤ ba.getReadSize ∧ ba.position < ba.capacity := by
  unfold read at done
  by_cases enough : count > ba.getReadSize
  · rw [if_pos enough] at done
    cases done
  · refine ⟨Nat.not_lt.mp enough, ?_⟩
    by_contra full
    have lower := inv.positionLe
    have upper := inv.sizeLe
    rw [if_neg enough, cur_none inv (by omega)] at done
    cases done

theorem set_position_walk {ba : ByteArray} (inv : Inv ba) {v : Nat} (bound : v ≤ ba.capacity) :
    ba.setPosition v = .ok { ba with
      position := v
      size := max ba.size v
      cur := nodeAt ba.nodes (v / ba.baseSize) } := by
  have rooted : ba.nodes ≠ [] := List.length_pos_iff.mp inv.rooted
  have walked := seek_chain_spec inv.basePos ba.nodes v inv.uniform rooted
    (by rw [← flat, flat_length inv]; exact bound)
  have newSize : (if v > ba.size then v else ba.size) = max ba.size v := by
    split_ifs <;> omega
  unfold setPosition
  rw [if_neg (by omega), walked, bind_ok, newSize]

theorem set_position_inv {ba : ByteArray} (inv : Inv ba) {v : Nat} (bound : v ≤ ba.capacity)
    {after : ByteArray} (done : ba.setPosition v = .ok after) : Inv after := by
  rw [set_position_walk inv bound] at done
  cases done
  exact ⟨inv.basePos, inv.uniform, inv.rooted, inv.capacityEq, Nat.le_max_right _ _,
    Nat.max_le.mpr ⟨inv.sizeLe, bound⟩, rfl⟩

theorem set_position_seek {ba : ByteArray} (inv : Inv ba) {v : Nat} (bound : v ≤ ba.size) :
    ba.setPosition v = .ok (ba.seek v) := by
  rw [set_position_walk inv (Nat.le_trans bound inv.sizeLe), Nat.max_eq_left bound]
  rfl

end ChatServer.ByteArray
