import ChatServer.ByteArray.Invariant

/-!
# Buffers into the chain

`getReadBuffers` and `getWriteBuffers` describe a stretch of the flat content as
a list of `iovec`s, one for each block it touches. A gathering send then takes
exactly the bytes of the stretch, and a scattering receive of at most as many
bytes is a `splice` of the flat content.
-/

namespace ChatServer.ByteArray

set_option autoImplicit false

open Splice

theorem getD_middle (front next : List Str) (node : Str) :
    (front ++ node :: next).getD front.length [] = node := by
  rw [List.getD_eq_getElem?_getD, List.getElem?_append_right (Nat.le_refl _), Nat.sub_self]
  rfl

theorem set_middle (front next : List Str) (node after : Str) :
    (front ++ node :: next).set front.length after = front ++ after :: next := by
  rw [List.set_append_right _ _ (Nat.le_refl _), Nat.sub_self, List.set_cons_zero]

/-- The buffers for `len` bytes from `npos` of the first block on, which is block `index`. -/
inductive Walk : List Str → Nat → Nat → Nat → List Iovec → Prop where
  | done (chain : List Str) (index npos : Nat) : Walk chain index npos 0 []
  | inside {node : Str} {npos len : Nat} (next : List Str) (index : Nat)
      (fits : npos + len ≤ node.length) : Walk (node :: next) index npos len [⟨index, npos, len⟩]
  | across {node : Str} {next : List Str} {index npos len : Nat} {buffers : List Iovec}
      (start : npos ≤ node.length) (rest : Walk next (index + 1) 0 len buffers) :
      Walk (node :: next) index npos (node.length - npos + len)
        (⟨index, npos, node.length - npos⟩ :: buffers)

theorem buffer_chain_walk {size : Nat} (sizePos : 0 < size) (chain : List Str)
    (index npos len : Nat) (uniform : Uniform size chain) (start : npos < size)
    (fits : npos + len ≤ chain.flatten.length) :
    ∃ buffers, bufferChain chain index npos len = .ok buffers ∧
      Walk chain index npos len buffers := by
  induction chain generalizing index npos len with
  | nil =>
      have none : len = 0 := by
        simp at fits
        omega
      subst none
      exact ⟨[], by simp [bufferChain], .done [] index npos⟩
  | cons node next induction =>
      have nodeSize : node.length = size := uniform node (by simp)
      rw [List.flatten_cons, List.length_append] at fits
      cases len with
      | zero => exact ⟨[], by simp [bufferChain], .done _ index npos⟩
      | succ len =>
          simp only [bufferChain]
          by_cases inside : len + 1 ≤ node.length - npos
          · rw [if_pos inside]
            exact ⟨_, rfl, .inside next index (by omega)⟩
          · rw [if_neg inside]
            obtain ⟨buffers, walked, walk⟩ := induction (index + 1) 0
              (len + 1 - (node.length - npos)) (fun block member => uniform block (by simp [member]))
              sizePos (by omega)
            rw [walked, bind_ok]
            have across := Walk.across (show npos ≤ node.length by omega) walk
            rw [show node.length - npos + (len + 1 - (node.length - npos)) = len + 1 by omega]
              at across
            exact ⟨_, rfl, across⟩

theorem walk_gather {chain : List Str} {index npos len : Nat} {buffers : List Iovec}
    (walk : Walk chain index npos len buffers) (front : List Str) (behind : index = front.length) :
    gather (front ++ chain) buffers = (chain.flatten.drop npos).take len := by
  induction walk generalizing front with
  | done chain index npos => simp [gather]
  | @inside node npos len next index fits =>
      have dropped : (node ++ next.flatten).drop npos = node.drop npos ++ next.flatten :=
        List.drop_append_of_le_length (by omega)
      have short : len ≤ (node.drop npos).length := by
        rw [List.length_drop]
        omega
      simp only [gather, List.flatMap_cons, List.flatMap_nil, List.append_nil, behind, getD_middle,
        List.flatten_cons, dropped]
      rw [List.take_append_of_le_length short]
  | @across node next index npos len buffers start _ induction =>
      have dropped : (node ++ next.flatten).drop npos = node.drop npos ++ next.flatten :=
        List.drop_append_of_le_length start
      have headLength : (node.drop npos).length = node.length - npos := List.length_drop
      have covered := induction (front ++ [node]) (by simp [behind])
      rw [List.append_assoc, List.singleton_append, List.drop_zero] at covered
      rw [gather, List.flatMap_cons, ← gather, covered]
      simp only [behind, getD_middle, List.flatten_cons, dropped]
      rw [← headLength, List.take_length, List.take_length_add_append]

theorem walk_scatter {size : Nat} {chain : List Str} {index npos len : Nat} {buffers : List Iovec}
    (walk : Walk chain index npos len buffers) (uniform : Uniform size chain) (front : List Str)
    (behind : index = front.length) (bytes : Str) (short : bytes.length ≤ len) :
    ∃ filled, scatter (front ++ chain) buffers bytes = front ++ filled ∧
      filled.flatten = splice chain.flatten npos bytes ∧ Uniform size filled ∧
      filled.length = chain.length := by
  induction walk generalizing front bytes with
  | done chain index npos =>
      have empty : bytes = [] := List.length_eq_zero_iff.mp (by omega)
      exact ⟨chain, rfl, by rw [empty, splice_nil], uniform, rfl⟩
  | @inside node npos len next index fits =>
      have whole : bytes.take len = bytes := List.take_of_length_le short
      refine ⟨splice node npos bytes :: next, ?_, ?_, ?_, by simp⟩
      · simp only [scatter, behind, getD_middle, set_middle, whole]
      · rw [List.flatten_cons, List.flatten_cons, splice_append_left _ _ _ _ (by omega)]
      · intro block member
        rcases List.mem_cons.mp member with head | tail
        · rw [head, splice_length_inside _ _ _ (by omega)]
          exact uniform node List.mem_cons_self
        · exact uniform block (List.mem_cons_of_mem _ tail)
  | @across node next index npos len buffers start _ induction =>
      -- the block after this one sees what is left of the bytes, possibly nothing
      have leftLength : (bytes.drop (node.length - npos)).length =
          bytes.length - (node.length - npos) := List.length_drop
      have takenLength : (bytes.take (node.length - npos)).length =
          min (node.length - npos) bytes.length := List.length_take
      let head := splice node npos (bytes.take (node.length - npos))
      obtain ⟨filled, scattered, content, filledUniform, sameLength⟩ :=
        induction (fun block member => uniform block (List.mem_cons_of_mem _ member))
          (front ++ [head]) (by simp [behind]) (bytes.drop (node.length - npos)) (by omega)
      refine ⟨head :: filled, ?_, ?_, ?_, by simp [sameLength]⟩
      · simp only [scatter, behind, getD_middle, set_middle]
        rw [List.append_assoc, List.singleton_append, List.append_assoc,
          List.singleton_append] at scattered
        exact scattered
      · rw [List.flatten_cons, List.flatten_cons, content]
        by_cases reaches : node.length - npos ≤ bytes.length
        · rw [splice_across _ _ _ _ _ (by omega), List.take_append_drop]
        · have rest : bytes.drop (node.length - npos) = [] := List.drop_eq_nil_of_le (by omega)
          have taken : bytes.take (node.length - npos) = bytes :=
            List.take_of_length_le (by omega)
          rw [rest, splice_nil, splice_append_left _ _ _ _ (by omega)]
          simp only [head, taken]
      · intro block member
        rcases List.mem_cons.mp member with first | tail
        · rw [first, splice_length_inside _ _ _ (by omega)]
          exact uniform node List.mem_cons_self
        · exact filledUniform block tail

theorem buffers_from_spec {ba : ByteArray} (inv : Inv ba) {len : Nat}
    (block : ba.position < ba.capacity) (fits : ba.position + len ≤ ba.capacity) :
    ∃ buffers, ba.buffersFrom len = .ok buffers ∧
      gather ba.nodes buffers = (ba.flat.drop ba.position).take len ∧
      ∀ bytes : Str, bytes.length ≤ len →
        (scatter ba.nodes buffers bytes).flatten = splice ba.flat ba.position bytes ∧
        Uniform ba.baseSize (scatter ba.nodes buffers bytes) ∧
        (scatter ba.nodes buffers bytes).length = ba.nodes.length := by
  obtain ⟨cut, tailLength⟩ := flat_cut inv block
  have indexLt := block_index_lt inv block
  have pointer := cur_some inv block
  have tail := uniform_drop inv.uniform (ba.position / ba.baseSize)
  have frontLength : (ba.nodes.take (ba.position / ba.baseSize)).length =
      ba.position / ba.baseSize := by
    rw [List.length_take]
    omega
  obtain ⟨buffers, walked, walk⟩ := buffer_chain_walk inv.basePos _ (ba.position / ba.baseSize)
    (ba.position % ba.baseSize) len tail (Nat.mod_lt _ inv.basePos) (by omega)
  have covered := walk_gather walk _ frontLength.symm
  have fill := walk_scatter walk tail _ frontLength.symm
  rw [List.take_append_drop] at covered fill
  refine ⟨buffers, by rw [buffersFrom, pointer]; exact walked, ?_, ?_⟩
  · rw [covered, flat_drop_position inv block]
  · intro bytes short
    obtain ⟨filled, scattered, content, filledUniform, sameLength⟩ := fill bytes short
    rw [scattered]
    refine ⟨?_, uniform_append (uniform_take inv.uniform _) filledUniform, ?_⟩
    · rw [List.flatten_append, content, flat,
        flatten_take_drop ba.nodes (ba.position / ba.baseSize), ← splice_append_right, cut]
    · rw [List.length_append, frontLength, sameLength, List.length_drop]
      omega

theorem get_write_buffers_spec {ba : ByteArray} (inv : Inv ba) (len : Nat) :
    ∃ buffers, ba.getWriteBuffers len = .ok (len, buffers, ba.addCapacity len) ∧
      ∀ bytes : Str, bytes.length ≤ len →
        (scatter (ba.addCapacity len).nodes buffers bytes).flatten =
          splice (ba.addCapacity len).flat ba.position bytes ∧
        Uniform ba.baseSize (scatter (ba.addCapacity len).nodes buffers bytes) ∧
        (scatter (ba.addCapacity len).nodes buffers bytes).length =
          (ba.addCapacity len).nodes.length := by
  unfold getWriteBuffers
  by_cases none : len = 0
  · subst none
    have same : ba.addCapacity 0 = ba := by
      rw [addCapacity, if_pos (Or.inl rfl)]
    rw [same]
    refine ⟨[], rfl, ?_⟩
    intro bytes short
    have empty : bytes = [] := List.length_eq_zero_iff.mp (by omega)
    subst empty
    exact ⟨by rw [splice_nil]; rfl, inv.uniform, rfl⟩
  · have grown := add_capacity_grown inv len
    have room := grown.room
    have position := grown.position
    obtain ⟨buffers, walked, _, fill⟩ :=
      buffers_from_spec grown.inv (grown_block grown (by omega)) (by omega : _ + len ≤ _)
    rw [grown.position, grown.baseSize] at fill
    refine ⟨buffers, ?_, fill⟩
    rw [if_neg none]
    simp only [walked, bind_ok]

def fill (ba : ByteArray) (buffers : List Iovec) (bytes : Str) : ByteArray :=
  { ba with nodes := scatter ba.nodes buffers bytes }

theorem fill_inv {ba after : ByteArray} {len : Nat} {buffers : List Iovec} (inv : Inv ba)
    (listed : ba.getWriteBuffers len = .ok (len, buffers, after)) {bytes : Str}
    (short : bytes.length ≤ len) : Inv (after.fill buffers bytes) := by
  obtain ⟨found, returned, filling⟩ := get_write_buffers_spec inv len
  cases returned.symm.trans listed
  obtain ⟨_, uniform, sameLength⟩ := filling bytes short
  have grown := add_capacity_grown inv len
  refine ⟨grown.inv.basePos, ?_, ?_, ?_, grown.inv.positionLe, grown.inv.sizeLe, ?_⟩
  · rw [fill, grown.baseSize]
    exact uniform
  · exact Nat.lt_of_lt_of_eq grown.inv.rooted sameLength.symm
  · exact grown.inv.capacityEq.trans (by rw [fill, sameLength])
  · exact grown.inv.curEq.trans (by rw [fill, nodeAt, nodeAt, sameLength])

/-- Filling the buffers and moving the position over the bytes is everything that writing them
does, in the capacity that was asked for. -/
theorem fill_wrote {ba after : ByteArray} {len : Nat} {buffers : List Iovec} (inv : Inv ba)
    (listed : ba.getWriteBuffers len = .ok (len, buffers, after)) {bytes : Str}
    (short : bytes.length ≤ len) :
    ∃ moved, (after.fill buffers bytes).setPosition (after.position + bytes.length) = .ok moved ∧
      Wrote ba bytes moved ∧ moved.capacity = after.capacity ∧
      moved.flat = splice after.flat ba.position bytes := by
  have filledInv := fill_inv inv listed short
  obtain ⟨found, returned, filling⟩ := get_write_buffers_spec inv len
  cases returned.symm.trans listed
  obtain ⟨content, _, _⟩ := filling bytes short
  have grown := add_capacity_grown inv len
  have room := grown.room
  have position := grown.position
  have bound : (ba.addCapacity len).position + bytes.length ≤
      ((ba.addCapacity len).fill buffers bytes).capacity := by
    change _ ≤ (ba.addCapacity len).capacity
    omega
  have moved := set_position_walk filledInv bound
  refine ⟨_, moved, ?_, rfl, content⟩
  refine ⟨set_position_inv filledInv bound moved, grown.baseSize, grown.endian, ?_, ?_, ?_⟩
  · rw [← grown.position]
  · rw [← grown.position, ← grown.size]
    rfl
  · obtain ⟨extra, extended⟩ := grown.flat
    exact ⟨extra, content.trans (by rw [extended])⟩

/-- `getReadBuffers` lists the bytes behind the position, as many as were asked for and are
there. -/
theorem get_read_buffers_spec {ba : ByteArray} (inv : Inv ba) (len : Nat) :
    ∃ buffers, ba.getReadBuffers len = .ok (min len ba.getReadSize, buffers) ∧
      gather ba.nodes buffers =
        (ba.contents.drop ba.position).take (min len ba.getReadSize) := by
  have cut : (if len > ba.getReadSize then ba.getReadSize else len) = min len ba.getReadSize := by
    split_ifs <;> omega
  unfold getReadBuffers
  rw [cut]
  dsimp only
  by_cases none : min len ba.getReadSize = 0
  · rw [if_pos none, none]
    exact ⟨[], rfl, rfl⟩
  · have sizeLe := inv.sizeLe
    have positionLe := inv.positionLe
    have readSize : ba.getReadSize = ba.size - ba.position := rfl
    obtain ⟨buffers, walked, covered, _⟩ := buffers_from_spec inv
      (show ba.position < ba.capacity by omega)
      (show ba.position + min len ba.getReadSize ≤ ba.capacity by omega)
    refine ⟨buffers, ?_, ?_⟩
    · rw [if_neg none, walked, bind_ok]
    · rw [covered, contents, List.drop_take, List.take_take]
      congr 1
      omega

end ChatServer.ByteArray
