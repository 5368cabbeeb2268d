import ChatServer.ByteArray.Buffers

/-!
# Reading at a position

The accessors that are given a position of their own. `read(buf, size, position)` takes the offset
in a block from it, but goes on from `m_cur`; `getReadBuffers(buffers, len, position)` finds its
block, but cuts `len` to what is left behind the current position. `size_t` arguments are 64 bits
wide, so `m_size - position` may wrap.
-/

namespace ChatServer.ByteArray

set_option autoImplicit false

open Splice

def walk : List Str → Nat → Result (List Str)
  | chain, 0 => .ok chain
  | [], _ + 1 => .error (.undefined .nullDeref)
  | _ :: next, count + 1 => walk next count

/-- `getReadBuffers(buffers, len, position) const`. -/
def getReadBuffersAt (ba : ByteArray) (len position : Nat) : Result (Nat × List Iovec) :=
  let len := if len > ba.getReadSize then ba.getReadSize else len
  if len = 0 then .ok (0, [])
  else do
    let count := position / ba.baseSize
    let chain ← walk ba.nodes count
    let buffers ← bufferChain chain count (position % ba.baseSize) len
    .ok (len, buffers)

theorem read_chain_fits {size : Nat} (chain : List Str) : ∀ {npos count : Nat}
    {result : Str × Nat}, Uniform size chain → npos ≤ size →
    readChain chain npos count = .ok result → count = 0 ∨ npos + count ≤ chain.flatten.length := by
  induction chain with
  | nil =>
      intro npos count result uniform start done
      cases count with
      | zero => exact Or.inl rfl
      | succ count => cases done
  | cons node next induction =>
      intro npos count result uniform start done
      have nodeSize : node.length = size := uniform node List.mem_cons_self
      cases count with
      | zero => exact Or.inl rfl
      | succ count =>
          right
          rw [List.flatten_cons, List.length_append]
          simp only [readChain] at done
          split at done
          · omega
          · rcases bind_eq_ok done with ⟨rest, restDone, _⟩
            have fits := induction (fun block member => uniform block
              (List.mem_cons_of_mem _ member)) (Nat.zero_le _) restDone
            omega

theorem buffer_chain_fits {size : Nat} (chain : List Str) : ∀ {index npos len : Nat}
    {buffers : List Iovec}, Uniform size chain → npos ≤ size →
    bufferChain chain index npos len = .ok buffers →
      len = 0 ∨ npos + len ≤ chain.flatten.length := by
  induction chain with
  | nil =>
      intro index npos len buffers uniform start done
      cases len with
      | zero => exact Or.inl rfl
      | succ len => cases done
  | cons node next induction =>
      intro index npos len buffers uniform start done
      have nodeSize : node.length = size := uniform node List.mem_cons_self
      cases len with
      | zero => exact Or.inl rfl
      | succ len =>
          right
          rw [List.flatten_cons, List.length_append]
          simp only [bufferChain] at done
          split at done
          · omega
          · rcases bind_eq_ok done with ⟨rest, restDone, _⟩
            have fits := induction (fun block member => uniform block
              (List.mem_cons_of_mem _ member)) (Nat.zero_le _) restDone
            omega

theorem walk_drop (chain : List Str) : ∀ {count : Nat}, count ≤ chain.length →
    walk chain count = .ok (chain.drop count) := by
  induction chain with
  | nil =>
      intro count inside
      cases count with
      | zero => rfl
      | succ count => cases inside
  | cons node next induction =>
      intro count inside
      cases count with
      | zero => rfl
      | succ count => exact induction (Nat.le_of_succ_le_succ inside)

theorem walk_beyond (chain : List Str) : ∀ {count : Nat}, chain.length < count →
    walk chain count = .error (.undefined .nullDeref) := by
  induction chain with
  | nil =>
      intro count beyond
      cases count with
      | zero => cases beyond
      | succ count => rfl
  | cons node next induction =>
      intro count beyond
      cases count with
      | zero => cases beyond
      | succ count => exact induction (Nat.lt_of_succ_lt_succ beyond)

theorem read_chain_error (chain : List Str) : ∀ {npos count : Nat} {fault : Fault},
    readChain chain npos count = .error fault → fault = .undefined .nullDeref := by
  induction chain with
  | nil =>
      intro npos count fault failed
      cases count with
      | zero => cases failed
      | succ count =>
          cases failed
          rfl
  | cons node next induction =>
      intro npos count fault failed
      cases count with
      | zero => cases failed
      | succ count =>
          simp only [readChain] at failed
          split at failed
          · cases failed
          · cases rest : readChain next 0 (count + 1 - (node.length - npos)) with
            | error other =>
                rw [rest] at failed
                cases failed
                exact induction rest
            | ok result =>
                rw [rest] at failed
                cases failed

variable {ba : ByteArray}

theorem drop_blocks (inv : Inv ba) {index : Nat} (inside : index ≤ ba.nodes.length) :
    (ba.nodes.drop index).flatten = ba.flat.drop (ba.baseSize * index) := by
  rw [flat, flatten_take_drop ba.nodes index, ← uniform_flatten_take inv.uniform index inside,
    List.drop_left]

theorem drop_blocks_length (inv : Inv ba) {index : Nat} (inside : index ≤ ba.nodes.length) :
    (ba.nodes.drop index).flatten.length = ba.capacity - ba.baseSize * index := by
  rw [drop_blocks inv inside, List.length_drop, flat_length inv]

theorem take_contents (ba : ByteArray) {position count : Nat}
    (inside : position + count ≤ ba.size) :
    (ba.contents.drop position).take count = (ba.flat.drop position).take count := by
  rw [contents, List.drop_take, List.take_take, Nat.min_eq_left (by omega)]

theorem take_contents_length (inv : Inv ba) {position count : Nat}
    (inside : position + count ≤ ba.size) :
    ((ba.contents.drop position).take count).length = count := by
  rw [List.length_take, List.length_drop, contents_length inv]
  omega

def fromCurrent (ba : ByteArray) (size position : Nat) : Str :=
  (ba.flat.drop (ba.baseSize * (ba.position / ba.baseSize) + position % ba.baseSize)).take size

theorem read_at_iff (inv : Inv ba) {size position : Nat} (inside : position + size ≤ ba.size) :
    ba.readAt size position = .ok ((ba.contents.drop position).take size) ↔
      ba.position < ba.capacity ∧
        ba.fromCurrent size position = (ba.contents.drop position).take size := by
  have positionLe := inv.positionLe
  have sizeLe := inv.sizeLe
  have available : ¬size > if position ≤ ba.size then ba.size - position
      else 2 ^ 64 - (position - ba.size) := by
    rw [if_pos (by omega)]
    omega
  have length := take_contents_length inv inside
  have start := Nat.mod_lt position inv.basePos
  simp only [readAt, if_neg available]
  by_cases block : ba.position < ba.capacity
  · have index := Nat.le_of_lt (block_index_lt inv block)
    have uniform := uniform_drop inv.uniform (ba.position / ba.baseSize)
    have from_block : ((ba.nodes.drop (ba.position / ba.baseSize)).flatten.drop
        (position % ba.baseSize)).take size = ba.fromCurrent size position := by
      rw [drop_blocks inv index, List.drop_drop, fromCurrent]
    simp only [cur_some inv block]
    constructor
    · intro done
      refine ⟨block, ?_⟩
      rcases bind_eq_ok done with ⟨⟨bytes, moved⟩, read, same⟩
      rcases read_chain_fits _ uniform (Nat.le_of_lt start) read with none | fits
      · rw [none, fromCurrent, List.take_zero, List.take_zero]
      · rw [read_chain_spec inv.basePos _ _ _ uniform start fits, from_block] at read
        cases read
        exact Except.ok.inj same
    · intro both
      have fits : position % ba.baseSize + size ≤
          (ba.nodes.drop (ba.position / ba.baseSize)).flatten.length ∨ size = 0 := by
        have full := congrArg List.length both.2
        rw [length, fromCurrent, List.length_take, List.length_drop, flat_length inv] at full
        rw [drop_blocks_length inv index]
        omega
      rcases fits with fits | none
      · rw [read_chain_spec inv.basePos _ _ _ uniform start fits, from_block, both.2]
        rfl
      · rw [none, readChain, List.take_zero]
        rfl
  · simp only [cur_none inv (by omega)]
    constructor
    · intro done
      cases done
    · intro both
      exact absurd both.1 block

/-- Another array with the same current position, size and blocks; its bytes may differ. -/
structure Refilled (ba other : ByteArray) : Prop where
  reachable : Reachable other
  baseSize : other.baseSize = ba.baseSize
  position : other.position = ba.position
  size : other.size = ba.size
  capacity : other.capacity = ba.capacity

theorem refill_byte (reachable : Reachable ba) {position : Nat} (inside : position < ba.size)
    (byte : UInt8) : ∃ other, Refilled ba other ∧ other.flat = splice ba.flat position [byte] := by
  have inv := reachable_inv reachable
  have sizeLe := inv.sizeLe
  have moved := set_position_seek inv (Nat.le_of_lt inside)
  have movedInv := seek_inv inv (Nat.le_of_lt inside)
  rcases write_grown_spec movedInv [byte] with ⟨written, returned, wrote, content⟩
  have room : (ba.seek position).addCapacity [byte].length = ba.seek position := by
    rw [addCapacity, if_pos]
    right
    change 1 ≤ ba.capacity - position
    omega
  rw [room] at content
  change written.flat = splice ba.flat position [byte] at content
  have flatLength := flat_length inv
  have capacity : written.capacity = ba.capacity := by
    rw [← flat_length wrote.inv, content, splice_length_inside _ _ _ (by simp; omega), flatLength]
  have size : written.size = ba.size := by
    rw [wrote.size, seek_size, seek_position, List.length_singleton]
    omega
  have back := set_position_seek wrote.inv (size ▸ inv.positionLe)
  have last := Reachable.step (.setPosition ba.position)
    (.step (.write [byte]) (.step (.setPosition position) reachable moved) returned) back
  exact ⟨_, ⟨last, wrote.baseSize, rfl, size, capacity⟩, content⟩

/-- Whatever the bytes are, the read is right if it stays in the block of `m_cur`; from any other
block it is wrong for some of them. -/
theorem reads_at_iff (reachable : Reachable ba) {size position : Nat}
    (inside : position + size ≤ ba.size) :
    (∀ other, Refilled ba other →
      other.readAt size position = .ok ((other.contents.drop position).take size)) ↔
      ba.position < ba.capacity ∧
        (size = 0 ∨ position / ba.baseSize = ba.position / ba.baseSize) := by
  constructor
  · intro reads
    have inv := reachable_inv reachable
    have block := ((read_at_iff inv inside).mp (reads ba ⟨reachable, rfl, rfl, rfl, rfl⟩)).1
    refine ⟨block, ?_⟩
    by_contra neither
    rw [not_or] at neither
    have sizeLe := inv.sizeLe
    have flatLength := flat_length inv
    have start := Nat.mod_lt position inv.basePos
    have index := block_index_lt inv block
    have whole := Nat.div_add_mod position ba.baseSize
    have capacityEq := inv.capacityEq
    generalize from_ : ba.baseSize * (ba.position / ba.baseSize) + position % ba.baseSize = wrong
    have differs : wrong ≠ position := by
      intro same
      apply neither.2
      have product : ba.baseSize * (ba.position / ba.baseSize) =
          ba.baseSize * (position / ba.baseSize) := by omega
      exact (Nat.eq_of_mul_eq_mul_left inv.basePos product).symm
    have bounded : wrong < ba.flat.length := by
      have next := Nat.mul_le_mul_left ba.baseSize index
      rw [Nat.mul_succ] at next
      omega
    rcases refill_byte reachable (show position < ba.size by omega) (ba.flat[wrong] + 1) with
      ⟨other, refilled, content⟩
    have read := reads other refilled
    have otherInv := reachable_inv refilled.reachable
    have both := ((read_at_iff otherInv (refilled.size.symm ▸ inside)).mp read).2
    have first := congrArg (·[0]?) both
    rw [take_contents other (refilled.size.symm ▸ inside), fromCurrent, refilled.baseSize,
      refilled.position, from_] at first
    rw [List.getElem?_take_of_lt (by omega), List.getElem?_take_of_lt (by omega),
      List.getElem?_drop, List.getElem?_drop, Nat.add_zero, Nat.add_zero, content,
      splice_get_outside _ _ _ _ (by omega) (by simp; omega),
      splice_get_inside _ _ _ _ (by omega) (Nat.le_refl _) (by simp), Nat.sub_self,
      List.getElem?_eq_getElem bounded] at first
    simp at first
  · rintro ⟨block, near⟩ other refilled
    have otherInv := reachable_inv refilled.reachable
    rw [← refilled.size] at inside
    rw [← refilled.position, ← refilled.capacity] at block
    refine (read_at_iff otherInv inside).mpr ⟨block, ?_⟩
    rw [take_contents other inside, fromCurrent]
    rcases near with none | same
    · rw [none, List.take_zero, List.take_zero]
    · rw [← refilled.baseSize, ← refilled.position] at same
      rw [← same, Nat.div_add_mod]

theorem read_at_throws_iff (ba : ByteArray) {size position : Nat}
    (outside : ba.size < position + size) :
    ba.readAt size position = .error (.thrown .outOfRange) ↔
      position ≤ ba.size ∨ 2 ^ 64 - (position - ba.size) < size := by
  rw [readAt]
  by_cases before : position ≤ ba.size
  · have refused : size > if position ≤ ba.size then ba.size - position
        else 2 ^ 64 - (position - ba.size) := by
      rw [if_pos before]
      omega
    simp only [if_pos refused]
    exact ⟨fun _ => Or.inl before, fun _ => trivial⟩
  · simp only [if_neg before]
    by_cases refused : size > 2 ^ 64 - (position - ba.size)
    · simp only [if_pos refused]
      exact ⟨fun _ => Or.inr refused, fun _ => trivial⟩
    · simp only [if_neg refused]
      constructor
      · intro thrown
        split at thrown
        · cases thrown
        · rename_i cur found
          cases read : readChain (ba.nodes.drop cur) (position % ba.baseSize) size with
          | error fault =>
              rw [read] at thrown
              cases thrown
              cases read_chain_error _ read
          | ok result =>
              rw [read] at thrown
              cases thrown
      · intro either
        rcases either with le | lt
        · exact absurd le before
        · exact absurd lt refused

theorem get_read_buffers_at_spec (inv : Inv ba) {len position : Nat}
    (fits : min len ba.getReadSize = 0 ∨ position + min len ba.getReadSize ≤ ba.capacity) :
    ∃ buffers, ba.getReadBuffersAt len position = .ok (min len ba.getReadSize, buffers) ∧
      gather ba.nodes buffers = (ba.flat.drop position).take (min len ba.getReadSize) := by
  have cut : (if len > ba.getReadSize then ba.getReadSize else len) = min len ba.getReadSize := by
    split <;> omega
  rw [getReadBuffersAt, cut]
  dsimp only
  by_cases none : min len ba.getReadSize = 0
  · rw [if_pos none, none]
    exact ⟨[], rfl, rfl⟩
  · have inside : position < ba.capacity := by omega
    have index := Nat.le_of_lt (block_index_lt inv inside)
    have start := Nat.mod_lt position inv.basePos
    have whole := Nat.div_add_mod position ba.baseSize
    have room : position % ba.baseSize + min len ba.getReadSize ≤
        (ba.nodes.drop (position / ba.baseSize)).flatten.length := by
      rw [drop_blocks_length inv index]
      omega
    rcases buffer_chain_walk inv.basePos _ (position / ba.baseSize) _ _
      (uniform_drop inv.uniform (position / ba.baseSize)) start room with ⟨buffers, walked, walk⟩
    have front : position / ba.baseSize = (ba.nodes.take (position / ba.baseSize)).length := by
      rw [List.length_take]
      omega
    have covered := walk_gather walk _ front
    rw [List.take_append_drop, drop_blocks inv index, List.drop_drop, whole] at covered
    refine ⟨buffers, ?_, covered⟩
    rw [if_neg none, walk_drop _ index, bind_ok, walked, bind_ok]

theorem get_read_buffers_at_fits (inv : Inv ba) {len position : Nat}
    {result : Nat × List Iovec} (done : ba.getReadBuffersAt len position = .ok result) :
    min len ba.getReadSize = 0 ∨ position + min len ba.getReadSize ≤ ba.capacity := by
  have cut : (if len > ba.getReadSize then ba.getReadSize else len) = min len ba.getReadSize := by
    split <;> omega
  rw [getReadBuffersAt, cut] at done
  dsimp only at done
  split at done
  · rename_i none
    exact Or.inl none
  · rename_i some
    right
    rcases bind_eq_ok done with ⟨chain, walked, listed⟩
    rcases bind_eq_ok listed with ⟨buffers, listed, _⟩
    have index : position / ba.baseSize ≤ ba.nodes.length := by
      by_contra beyond
      rw [walk_beyond _ (Nat.not_le.mp beyond)] at walked
      cases walked
    rw [walk_drop _ index] at walked
    cases walked
    have start := Nat.mod_lt position inv.basePos
    have whole := Nat.div_add_mod position ba.baseSize
    have fits := buffer_chain_fits _ (uniform_drop inv.uniform _) (Nat.le_of_lt start) listed
    rw [drop_blocks_length inv index] at fits
    omega

theorem take_flat_length (inv : Inv ba) {position count : Nat}
    (fits : count = 0 ∨ position + count ≤ ba.capacity) :
    ((ba.flat.drop position).take count).length = count := by
  rw [List.length_take, List.length_drop, flat_length inv]
  omega

theorem lists_at_iff (inv : Inv ba) {len position : Nat} (inside : position + len ≤ ba.size) :
    (∃ count buffers, ba.getReadBuffersAt len position = .ok (count, buffers) ∧
      gather ba.nodes buffers = (ba.contents.drop position).take len) ↔ len ≤ ba.getReadSize := by
  have sizeLe := inv.sizeLe
  constructor
  · intro lists
    rcases lists with ⟨count, buffers, listed, covered⟩
    have fits := get_read_buffers_at_fits inv listed
    rcases get_read_buffers_at_spec inv fits with ⟨found, returned, gathered⟩
    cases listed.symm.trans returned
    have length := congrArg List.length (gathered.symm.trans covered)
    rw [take_flat_length inv fits, take_contents_length inv inside] at length
    omega
  · intro enough
    have whole : min len ba.getReadSize = len := Nat.min_eq_left enough
    rcases get_read_buffers_at_spec inv
      (show min len ba.getReadSize = 0 ∨ position + min len ba.getReadSize ≤ ba.capacity by omega)
      with ⟨buffers, returned, gathered⟩
    rw [whole] at gathered
    rw [take_contents ba inside]
    exact ⟨_, buffers, returned, gathered⟩

theorem lists_inside_iff (inv : Inv ba) (len position : Nat) :
    (∃ count buffers, ba.getReadBuffersAt len position = .ok (count, buffers) ∧
      gather ba.nodes buffers <+: ba.contents.drop position) ↔
        min len ba.getReadSize ≤ ba.size - position := by
  have sizeLe := inv.sizeLe
  constructor
  · intro lists
    rcases lists with ⟨count, buffers, listed, inside⟩
    have fits := get_read_buffers_at_fits inv listed
    rcases get_read_buffers_at_spec inv fits with ⟨found, returned, gathered⟩
    cases listed.symm.trans returned
    have length := inside.length_le
    rw [gathered, take_flat_length inv fits, List.length_drop, contents_length inv] at length
    exact length
  · intro short
    rcases get_read_buffers_at_spec inv
      (show min len ba.getReadSize = 0 ∨ position + min len ba.getReadSize ≤ ba.capacity by omega)
      with ⟨buffers, returned, gathered⟩
    refine ⟨_, buffers, returned, ?_⟩
    by_cases none : min len ba.getReadSize = 0
    · rw [gathered, none, List.take_zero]
      exact List.nil_prefix
    · rw [gathered, ← take_contents ba (by omega)]
      exact List.take_prefix _ _

/-- What the two accessors do with `size` bytes from `position` on, whatever the current position.
Where the read goes on from the wrong block only the bytes themselves can make it right, so its
condition is the one for all of them. -/
theorem positional_reads_iff (ba : ByteArray) (reachable : Reachable ba) (size position : UInt64) :
    (position.toNat + size.toNat ≤ ba.size →
      ((∀ other, Refilled ba other → other.readAt size.toNat position.toNat =
          .ok ((other.contents.drop position.toNat).take size.toNat)) ↔
        ba.position < ba.capacity ∧ (size.toNat = 0 ∨
          position.toNat / ba.baseSize = ba.position / ba.baseSize)) ∧
      ((∃ count buffers, ba.getReadBuffersAt size.toNat position.toNat = .ok (count, buffers) ∧
          gather ba.nodes buffers = (ba.contents.drop position.toNat).take size.toNat) ↔
        size.toNat ≤ ba.getReadSize)) ∧
    (ba.size < position.toNat + size.toNat →
      (ba.readAt size.toNat position.toNat = .error (.thrown .outOfRange) ↔
        position.toNat ≤ ba.size ∨ 2 ^ 64 - (position.toNat - ba.size) < size.toNat) ∧
      ((∃ count buffers, ba.getReadBuffersAt size.toNat position.toNat = .ok (count, buffers) ∧
          gather ba.nodes buffers <+: ba.contents.drop position.toNat) ↔
        min size.toNat ba.getReadSize ≤ ba.size - position.toNat)) := by
  have inv := reachable_inv reachable
  constructor
  · intro inside
    exact ⟨reads_at_iff reachable inside, lists_at_iff inv inside⟩
  · intro outside
    exact ⟨read_at_throws_iff ba outside, lists_inside_iff inv size.toNat position.toNat⟩

/-- Six bytes in blocks of four: two of them at position 5 from the second block, and the same
asked for behind the data. -/
theorem positional_reads_iff_six : ∃ ba, run (new 4 fun _ _ => 0)
      [.write [1, 2, 3, 4, 5, 6], .setPosition 4] = .ok ba ∧
    ((∀ other, Refilled ba other → other.readAt 1 5 = .ok ((other.contents.drop 5).take 1)) ↔
      ba.position < ba.capacity ∧ (1 = 0 ∨ 5 / ba.baseSize = ba.position / ba.baseSize)) ∧
    (ba.readAt 2 5 = .error (.thrown .outOfRange) ↔ 5 ≤ ba.size ∨ 2 ^ 64 - (5 - ba.size) < 2) := by
  have reachable := Reachable.step (.setPosition 4)
    (.step (.write [1, 2, 3, 4, 5, 6]) (.made 4 (fun _ _ => 0) (by decide)) rfl) rfl
  exact ⟨_, rfl, ((positional_reads_iff _ reachable 1 5).1 (by decide)).1,
    ((positional_reads_iff _ reachable 2 5).2 (by decide)).1⟩

/-- The current position decides what is read at another one, what is listed there, and whether
bytes from behind the data are. -/
theorem position_disturbs : ∃ ba, Reachable ba ∧ ba.size = 6 ∧
    ba.contents = [1, 2, 3, 4, 5, 6] ∧ ba.readAt 2 0 = .ok [5, 6] ∧
    ba.getReadBuffersAt 3 0 = .ok (2, [⟨0, 0, 2⟩]) ∧
    ba.readAt 1 7 = .ok [0] ∧ ba.getReadBuffersAt 2 5 = .ok (2, [⟨1, 1, 2⟩]) := by
  have reachable := Reachable.step (.setPosition 4)
    (.step (.write [1, 2, 3, 4, 5, 6]) (.made 4 (fun _ _ => 0) (by decide)) rfl) rfl
  exact ⟨_, reachable, rfl, rfl, rfl, rfl, rfl, rfl⟩

end ChatServer.ByteArray
