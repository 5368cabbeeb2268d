import ChatServer.ByteArray.Positional

/-!
# Export to a file

`writeToFile` goes through the blocks from `m_cur` on, and `readFromFile` through a file in pieces
of one block. The bytes that reach the file are modelled; all calls of the stream succeed.
-/

namespace ChatServer.ByteArray

set_option autoImplicit false

open Splice

def writeBlock (node : Str) (diff len : Int) : Result Str :=
  if len ≤ 0 then .ok []
  else if 0 ≤ diff ∧ diff + len ≤ node.length then
    .ok ((node.drop diff.toNat).take len.toNat)
  else .error (.undefined .outOfBounds)

/-- The loop of `writeToFile` over the blocks from `cur` on. `diff` is an `int`, and at most as
large as what it is cut from, so that `pos` stays in range. -/
def exportChain (baseSize : Nat) : List Str → Nat → Int → Result Str
  | [], _, readSize => if readSize > 0 then .error (.undefined .nullDeref) else .ok []
  | node :: next, pos, readSize =>
      if readSize > 0 then do
        let diff := int32 (pos % baseSize : Nat)
        let len := if readSize > baseSize - diff then baseSize - diff else readSize - diff
        let bytes ← writeBlock node diff len
        let rest ← exportChain baseSize next (pos + len).toNat (readSize - len)
        .ok (bytes ++ rest)
      else .ok []

def writeToFile (ba : ByteArray) : Result Str :=
  match ba.cur with
  | none => exportChain ba.baseSize [] ba.position ba.getReadSize
  | some cur => exportChain ba.baseSize (ba.nodes.drop cur) ba.position ba.getReadSize

/-- The loop of `readFromFile`: a read that is cut short by the end of the file is the last one. -/
def importBlocks (baseSize : Nat) (ba : ByteArray) (file : Str) : Result ByteArray :=
  if baseSize = 0 then .error (.undefined .endlessLoop)
  else if file.length < baseSize then ba.write file
  else do
    let ba ← ba.write (file.take baseSize)
    importBlocks baseSize ba (file.drop baseSize)
termination_by file.length
decreasing_by
  rw [List.length_drop]
  omega

def readFromFile (ba : ByteArray) (file : Str) : Result ByteArray :=
  importBlocks ba.baseSize ba file

theorem write_block_inside {node : Str} {diff len : Nat} (inside : diff + len ≤ node.length) :
    writeBlock node diff len = .ok ((node.drop diff).take len) := by
  rw [writeBlock]
  by_cases none : len = 0
  · rw [if_pos (by omega), none, List.take_zero]
  · rw [if_neg (by omega), if_pos (by omega), Int.toNat_natCast, Int.toNat_natCast]

theorem write_block_before (node : Str) {diff len : Int} (before : diff < 0) (some : 0 < len) :
    writeBlock node diff len = .error (.undefined .outOfBounds) := by
  rw [writeBlock, if_neg (by omega), if_neg (by omega)]

theorem export_chain_done (baseSize : Nat) (chain : List Str) (pos : Nat) :
    exportChain baseSize chain pos 0 = .ok [] := by
  cases chain <;> rfl

theorem export_block {size : Nat} {node : Str} (next : List Str) {pos count : Nat}
    (nodeSize : node.length = size) (basePos : 0 < size) (narrow : pos % size < 2 ^ 31)
    (more : size - pos % size < count) :
    exportChain size (node :: next) pos count =
      exportChain size next (pos + (size - pos % size)) ((count - (size - pos % size) : Nat) : Int)
        >>= fun rest => .ok (node.drop (pos % size) ++ rest) := by
  have below := Nat.mod_lt pos basePos
  have diff : int32 (pos % size : Nat) = (pos % size : Nat) := int32_of_small narrow
  have len : (if (count : Int) > (size : Int) - (pos % size : Nat) then
      (size : Int) - (pos % size : Nat) else (count : Int) - (pos % size : Nat)) =
        ((size - pos % size : Nat) : Int) := by
    rw [if_pos (by omega)]
    omega
  have onward : ((pos : Int) + ((size - pos % size : Nat) : Int)).toNat =
      pos + (size - pos % size) := by omega
  have left : (count : Int) - ((size - pos % size : Nat) : Int) =
      ((count - (size - pos % size) : Nat) : Int) := by omega
  have whole : (node.drop (pos % size)).take (size - pos % size) = node.drop (pos % size) := by
    apply List.take_of_length_le
    rw [List.length_drop]
    omega
  rw [exportChain, if_pos (by omega), diff]
  simp only [len, onward, left, write_block_inside (show pos % size + (size - pos % size) ≤
    node.length by omega), bind_ok, whole]

theorem export_chain_spec {size : Nat} (basePos : 0 < size) (chain : List Str) :
    ∀ {pos count : Nat}, Uniform size chain → pos % size = 0 →
      count ≤ chain.flatten.length →
      exportChain size chain pos count = .ok (chain.flatten.take count) := by
  induction chain with
  | nil =>
      intro pos count uniform aligned fits
      have none : count = 0 := by
        rw [List.flatten_nil, List.length_nil] at fits
        omega
      rw [none, List.take_zero]
      exact export_chain_done size [] pos
  | cons node next induction =>
      intro pos count uniform aligned fits
      have nodeSize : node.length = size := uniform node List.mem_cons_self
      have nextUniform : Uniform size next :=
        fun block member => uniform block (List.mem_cons_of_mem _ member)
      rw [List.flatten_cons, List.length_append] at fits
      by_cases more : size < count
      · have aligned' : (pos + size) % size = 0 := by rw [Nat.add_mod_right, aligned]
        have rest := induction nextUniform aligned' (show count - size ≤ _ by omega)
        have whole : node.take count = node := List.take_of_length_le (by omega)
        rw [export_block next nodeSize basePos (by omega) (by omega), aligned, Nat.sub_zero, rest,
          bind_ok, List.drop_zero, List.flatten_cons, List.take_append, nodeSize, whole]
      · by_cases none : count = 0
        · rw [none, List.take_zero]
          exact export_chain_done size (node :: next) pos
        · have zero : int32 ((0 : Nat) : Int) = ((0 : Nat) : Int) := by decide
          have len : (if (count : Int) > (size : Int) - (0 : Nat) then (size : Int) - (0 : Nat)
              else (count : Int) - (0 : Nat)) = (count : Nat) := by
            rw [if_neg (by omega)]
            omega
          rw [exportChain, if_pos (by omega), aligned, zero]
          simp only [len, write_block_inside (show 0 + count ≤ node.length by omega), bind_ok,
            Int.sub_self, export_chain_done, List.append_nil]
          rw [List.drop_zero, List.flatten_cons, List.take_append_of_le_length (by omega)]

theorem export_chain_crossing {size : Nat} (basePos : 0 < size) (chain : List Str) {pos count : Nat}
    (uniform : Uniform size chain) (narrow : pos % size < 2 ^ 31) (more : size - pos % size < count)
    (fits : pos % size + count ≤ chain.flatten.length) :
    exportChain size chain pos count = .ok ((chain.flatten.drop (pos % size)).take count) := by
  have below := Nat.mod_lt pos basePos
  cases chain with
  | nil =>
      rw [List.flatten_nil, List.length_nil] at fits
      omega
  | cons node next =>
      rw [List.flatten_cons, List.length_append] at fits
      have nodeSize : node.length = size := uniform node List.mem_cons_self
      have nextUniform : Uniform size next :=
        fun member inside => uniform member (List.mem_cons_of_mem _ inside)
      have aligned : (pos + (size - pos % size)) % size = 0 := by
        have whole : pos + (size - pos % size) = size * (pos / size + 1) := by
          have parts := Nat.div_add_mod pos size
          rw [Nat.mul_add, Nat.mul_one]
          omega
        rw [whole, Nat.mul_mod_right]
      have front : (node.drop (pos % size)).length = size - pos % size := by
        rw [List.length_drop, nodeSize]
      have whole : (node.drop (pos % size)).take count = node.drop (pos % size) :=
        List.take_of_length_le (by omega)
      have left : count - (size - pos % size) ≤ next.flatten.length := by omega
      rw [export_block next nodeSize basePos narrow more,
        export_chain_spec basePos next nextUniform aligned left, bind_ok, List.flatten_cons,
        List.drop_append_of_le_length (by omega), List.take_append, whole, front]

theorem export_chain_wrapped {size : Nat} (narrow : size ≤ 2 ^ 32) (chain : List Str)
    {pos count : Nat} (offset : 2 ^ 31 ≤ pos % size) (basePos : 0 < size) (some : 0 < count) :
    ∃ fault, exportChain size chain pos count = .error fault := by
  cases chain with
  | nil =>
      rw [exportChain, if_pos (by omega)]
      exact ⟨_, rfl⟩
  | cons node next =>
      have below := Nat.mod_lt pos basePos
      have diff : int32 (pos % size : Nat) = (pos % size : Nat) - 2 ^ 32 :=
        int32_overflow (by omega) (by omega)
      rw [exportChain, if_pos (by omega), diff]
      dsimp only
      rw [write_block_before node (by omega) (by split <;> omega)]
      exact ⟨_, rfl⟩

/-- When what is left ends inside the block, and the block is not taken from its start, the loop
goes back and forth between two offsets until it has run out of blocks. -/
theorem export_chain_lost {size : Nat} (narrow : size ≤ 2 ^ 32) (chain : List Str) :
    ∀ {pos count : Nat}, Uniform size chain → 0 < pos % size → 0 < count →
      pos % size + count ≤ size → ∃ fault, exportChain size chain pos count = .error fault := by
  induction chain with
  | nil =>
      intro pos count uniform offset some inside
      rw [exportChain, if_pos (by omega)]
      exact ⟨_, rfl⟩
  | cons node next induction =>
      intro pos count uniform offset some inside
      have nodeSize : node.length = size := uniform node List.mem_cons_self
      have nextUniform : Uniform size next :=
        fun block member => uniform block (List.mem_cons_of_mem _ member)
      by_cases small : pos % size < 2 ^ 31
      · have cut := Nat.div_add_mod pos size
        have diff : int32 (pos % size : Nat) = (pos % size : Nat) := int32_of_small small
        have len : (if (count : Int) > (size : Int) - (pos % size : Nat) then
            (size : Int) - (pos % size : Nat) else (count : Int) - (pos % size : Nat)) =
              (count : Int) - (pos % size : Nat) := if_neg (by omega)
        have onward : ((pos : Int) + ((count : Int) - (pos % size : Nat))).toNat =
            size * (pos / size) + count := by omega
        have swapped : (size * (pos / size) + count) % size = count := by
          rw [Nat.mul_add_mod, Nat.mod_eq_of_lt (by omega)]
        have left : (count : Int) - ((count : Int) - (pos % size : Nat)) =
            ((pos % size : Nat) : Int) := by omega
        have written : ∃ bytes, writeBlock node (pos % size : Nat)
            ((count : Int) - (pos % size : Nat)) = .ok bytes := by
          rw [writeBlock]
          split
          · exact ⟨_, rfl⟩
          · rw [if_pos (by omega)]
            exact ⟨_, rfl⟩
        rcases written with ⟨bytes, written⟩
        have rest : ∃ fault, exportChain size next (size * (pos / size) + count)
            ((pos % size : Nat) : Int) = .error fault :=
          induction nextUniform (by omega) offset (by omega)
        rcases rest with ⟨fault, rest⟩
        rw [exportChain, if_pos (by omega), diff]
        simp only [len, onward, left, written, bind_ok, rest]
        exact ⟨fault, rfl⟩
      · exact export_chain_wrapped narrow (node :: next) (by omega) (by omega) some

variable {ba : ByteArray}

/-- The loop starts at a block end, or the first block is written to its end. -/
def Exportable (ba : ByteArray) : Prop :=
  ba.getReadSize = 0 ∨ ba.position % ba.baseSize = 0 ∨
    ba.position % ba.baseSize < 2 ^ 31 ∧
      ba.baseSize - ba.position % ba.baseSize < ba.getReadSize

theorem write_to_file_chain (inv : Inv ba) (block : ba.position < ba.capacity) :
    ba.writeToFile = exportChain ba.baseSize (ba.nodes.drop (ba.position / ba.baseSize))
      ba.position ba.getReadSize := by
  simp only [writeToFile, cur_some inv block]

theorem write_to_file_nothing (none : ba.getReadSize = 0) : ba.writeToFile = .ok [] := by
  rw [writeToFile, none]
  split
  · exact export_chain_done ba.baseSize [] ba.position
  · exact export_chain_done ba.baseSize _ ba.position

theorem write_to_file_spec (inv : Inv ba) (exportable : Exportable ba) :
    ba.writeToFile = .ok ba.unread := by
  have length := unread_length inv
  by_cases none : ba.getReadSize = 0
  · rw [none] at length
    rw [write_to_file_nothing none, List.length_eq_zero_iff.mp length]
  · have sizeLe := inv.sizeLe
    have basePos := inv.basePos
    have behind : ba.getReadSize = ba.size - ba.position := rfl
    have block : ba.position < ba.capacity := by omega
    have cut := (flat_cut inv block).2
    have unreadEq : ba.unread = ((ba.nodes.drop (ba.position / ba.baseSize)).flatten.drop
        (ba.position % ba.baseSize)).take ba.getReadSize := by
      rw [flat_drop_position inv block, unread, contents, List.drop_take, behind]
    rw [write_to_file_chain inv block, unreadEq]
    rcases exportable with done | aligned | crossing
    · exact absurd done none
    · rw [export_chain_spec basePos _ (uniform_drop inv.uniform _) aligned (by omega), aligned,
        List.drop_zero]
    · exact export_chain_crossing basePos _ (uniform_drop inv.uniform _) crossing.1 crossing.2
        (by omega)

theorem write_to_file_lost (inv : Inv ba) (narrow : ba.baseSize ≤ 2 ^ 32)
    (inexportable : ¬Exportable ba) : ∃ fault, ba.writeToFile = .error fault := by
  have sizeLe := inv.sizeLe
  have basePos := inv.basePos
  have behind : ba.getReadSize = ba.size - ba.position := rfl
  have below := Nat.mod_lt ba.position basePos
  simp only [Exportable, not_or, not_and, Nat.not_lt] at inexportable
  rcases inexportable with ⟨some, unaligned, short⟩
  rw [write_to_file_chain inv (by omega)]
  by_cases small : ba.position % ba.baseSize < 2 ^ 31
  · have inside := short small
    exact export_chain_lost narrow _ (uniform_drop inv.uniform _) (by omega) (by omega) (by omega)
  · exact export_chain_wrapped narrow _ (by omega) basePos (by omega)

theorem import_blocks_spec {size : Nat} (basePos : 0 < size) (length : Nat) :
    ∀ {ba : ByteArray} {file : Str}, file.length = length → Inv ba → ba.position = ba.size →
      ∃ after, importBlocks size ba file = .ok after ∧ Inv after ∧
        after.contents = ba.contents ++ file := by
  induction length using Nat.strong_induction_on with
  | h length induction =>
      intro ba file measured inv atEnd
      rw [importBlocks, if_neg (by omega)]
      by_cases last : file.length < size
      · rcases write_put inv file with ⟨after, written, put⟩
        rw [if_pos last]
        exact ⟨after, written, put.inv, (put_at_end inv atEnd put).1⟩
      · rcases write_put inv (file.take size) with ⟨middle, written, put⟩
        rcases put_at_end inv atEnd put with ⟨appended, middleEnd⟩
        have shorter : (file.drop size).length < length := by
          rw [List.length_drop]
          omega
        rcases induction _ shorter rfl put.inv middleEnd with ⟨after, done, afterInv, contents⟩
        rw [if_neg last, written, bind_ok]
        refine ⟨after, done, afterInv, ?_⟩
        rw [contents, appended, List.append_assoc, List.take_append_drop]

theorem new_contents (baseSize : Nat) (fresh : Nat → Nat → UInt8) :
    (new baseSize fresh).contents = [] := List.take_zero

theorem read_from_file_new (baseSize : Nat) (fresh : Nat → Nat → UInt8) (basePos : 1 ≤ baseSize)
    (file : Str) : ∃ after rewound, (new baseSize fresh).readFromFile file = .ok after ∧
      after.contents = file ∧ after.setPosition 0 = .ok rewound ∧ rewound.toString = .ok file := by
  have inv := new_inv baseSize fresh basePos
  have imported : ∃ after, importBlocks baseSize (new baseSize fresh) file = .ok after ∧
      Inv after ∧ after.contents = (new baseSize fresh).contents ++ file :=
    import_blocks_spec basePos file.length rfl inv rfl
  rcases imported with ⟨after, done, afterInv, contents⟩
  rw [new_contents, List.nil_append] at contents
  have rewound := set_position_seek afterInv (Nat.zero_le after.size)
  refine ⟨after, after.seek 0, done, contents, rewound, ?_⟩
  rw [to_string_unread (seek_inv afterInv (Nat.zero_le _)), unread, seek_contents, seek_position,
    contents, List.drop_zero]

/-- The file holds what `toString()` returns, and any new buffer that reads it holds it too. -/
def Exported (ba : ByteArray) : Prop :=
  ∃ bytes, ba.toString = .ok bytes ∧ ba.writeToFile = .ok bytes ∧
    ∀ (baseSize : Nat) (fresh : Nat → Nat → UInt8), 1 ≤ baseSize →
      ∃ after rewound, (new baseSize fresh).readFromFile bytes = .ok after ∧
        after.contents = bytes ∧ after.setPosition 0 = .ok rewound ∧ rewound.toString = .ok bytes

/-- Blocks of more than 4 GiB have offsets that wrap to another one inside the block; there the
bytes at the two places may happen to be the same. -/
theorem exported_iff_exportable (ba : ByteArray) (reachable : Reachable ba) :
    (Exportable ba → Exported ba) ∧ (ba.baseSize ≤ 2 ^ 32 → (Exported ba ↔ Exportable ba)) := by
  have inv := reachable_inv reachable
  have enough : Exportable ba → Exported ba := fun exportable =>
    ⟨ba.unread, to_string_unread inv, write_to_file_spec inv exportable,
      fun baseSize fresh basePos => read_from_file_new baseSize fresh basePos ba.unread⟩
  refine ⟨enough, fun narrow => ⟨?_, enough⟩⟩
  intro exported
  by_contra inexportable
  rcases exported with ⟨bytes, _, written, _⟩
  rcases write_to_file_lost inv narrow inexportable with ⟨fault, failed⟩
  cases written.symm.trans failed

/-- Six bytes in blocks of four: from position 1 the first block is written to its end, and what
is left starts a block. -/
theorem exported_from_one : ∃ ba, run (new 4 fun _ _ => 0)
      [.write [1, 2, 3, 4, 5, 6], .setPosition 1] = .ok ba ∧ Exported ba := by
  have reachable := Reachable.step (.setPosition 1)
    (.step (.write [1, 2, 3, 4, 5, 6]) (.made 4 (fun _ _ => 0) (by decide)) rfl) rfl
  exact ⟨_, rfl, (exported_iff_exportable _ reachable).1 (Or.inr (Or.inr ⟨by decide, by decide⟩))⟩

/-- Three bytes in one block of four: from position 1 the loop runs off the chain. -/
theorem export_runs_off : ∃ ba, Reachable ba ∧ ba.toString = .ok [2, 3] ∧
    ba.writeToFile = .error (.undefined .nullDeref) := by
  have reachable := Reachable.step (.setPosition 1)
    (.step (.write [1, 2, 3]) (.made 4 (fun _ _ => 0) (by decide)) rfl) rfl
  exact ⟨_, reachable, rfl, by decide⟩

end ChatServer.ByteArray
