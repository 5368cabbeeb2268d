import ChatServer.ByteArray.Buffers
import ChatServer.Http2.FieldCodec

/-!
# Encoder and decoder stay in step

Resolved against the table it was chosen from, each field names the header that was packed.
So two ends that start with equal tables keep them equal, block after block. The table must
stay small for that: its indices are written as integers too.
-/

namespace ChatServer.Http2

set_option autoImplicit false

open ChatServer.ByteArray
open DynamicTable

def literals (h : HeaderField) : List (Str × Bool) :=
  match h.type with
  | .withIndexingIndexedName | .withoutIndexingIndexedName | .nerverIndexedIndexedName =>
      [(h.value, h.hValue)]
  | .withIndexingNewName | .withoutIndexingNewName | .nerverIndexedNewName =>
      [(h.name, h.hName), (h.value, h.hValue)]
  | .indexed | .error => []

/-- Every literal of the field is shorter than 255 bytes as written. -/
def ShortLiterals (h : HeaderField) : Prop :=
  ∀ literal ∈ literals h, ∃ bytes, asWritten literal.1 literal.2 = .ok bytes ∧ bytes.length < 255

def BoundedTexts (h : HeaderField) : Prop := ∀ literal ∈ literals h, literal.1.length < 2 ^ 32

theorem get_pair_suffix {packer parser : DynamicTable}
    (suffix : packer.datas <:+ parser.datas) {idx : Nat}
    (inside : idx < 62 + packer.datas.length) : parser.getPair idx = packer.getPair idx := by
  unfold getPair
  by_cases static : idx < 62
  · rw [if_pos static, if_pos static]
  · rcases suffix with ⟨front, whole⟩
    have length : parser.datas.length = front.length + packer.datas.length := by
      rw [← whole, List.length_append]
    rw [if_neg static, if_neg static, if_pos (by omega), if_pos (by omega), ← whole,
      List.getD_append_right _ _ _ _ (by rw [List.length_append]; omega)]
    congr 1
    rw [List.length_append]
    omega

/-- A chosen field names its header in every table that ends with the packer's entries, and both
tables insert the header or neither does. -/
theorem chosen_resolves_suffix {packer parser next : DynamicTable} {name value : Str}
    {h : HeaderField} (suffix : packer.datas <:+ parser.datas)
    (chosen : chooseField packer name value = .ok (h, next)) :
    resolveField parser (received h) = ({ received h with name, value },
        if (packer.findPair name value).2 then parser else parser.update name value) ∧
      next = if (packer.findPair name value).2 then packer else packer.update name value := by
  unfold chooseField at chosen
  generalize lookup : packer.findPair name value = p at chosen
  have found := find_pair_case packer name value
  rw [lookup] at found
  cases found with
  | pair idx inside found =>
      rcases Prod.mk.inj (Except.ok.inj chosen) with ⟨rfl, rfl⟩
      rw [← get_pair_suffix suffix inside] at found
      simp only [resolveField, received, Int.toNat_natCast, if_true, found, reduceCtorEq, if_false,
        and_self]
  | named idx positive inside found =>
      dsimp only at chosen
      rw [if_neg Bool.false_ne_true, if_pos (by omega)] at chosen
      rcases bind_eq_ok chosen with ⟨hValue, _, chosen⟩
      rcases Prod.mk.inj (Except.ok.inj chosen) with ⟨rfl, rfl⟩
      rw [getName, ← get_pair_suffix suffix inside] at found
      simp only [resolveField, received, Int.toNat_natCast, reduceCtorEq, if_false, if_true,
        if_pos positive, getName, found, Bool.false_eq_true, and_self]
  | fresh i none =>
      dsimp only at chosen
      rw [if_neg Bool.false_ne_true, if_neg (by omega)] at chosen
      rcases bind_eq_ok chosen with ⟨hName, _, chosen⟩
      rcases bind_eq_ok chosen with ⟨hValue, _, chosen⟩
      rcases Prod.mk.inj (Except.ok.inj chosen) with ⟨rfl, rfl⟩
      simp only [resolveField, received, reduceCtorEq, if_false, if_true, Nat.lt_irrefl, gt_iff_lt,
        Bool.false_eq_true, and_self]

theorem chosen_sendable {table next : DynamicTable} {name value : Str} {h : HeaderField}
    (bounded : Bounded table) (chosen : chooseField table name value = .ok (h, next))
    (short : ShortLiterals h) (texts : BoundedTexts h) : Sendable h ∧ Bounded next := by
  have size := bounded_length bounded
  unfold chooseField at chosen
  generalize lookup : table.findPair name value = p at chosen
  have found := find_pair_case table name value
  rw [lookup] at found
  cases found with
  | pair idx inside found =>
      rcases Prod.mk.inj (Except.ok.inj chosen) with ⟨rfl, rfl⟩
      exact ⟨.indexed idx (by omega), bounded⟩
  | named idx positive inside found =>
      dsimp only at chosen
      rw [if_neg Bool.false_ne_true, if_pos (by omega)] at chosen
      rcases bind_eq_ok chosen with ⟨hValue, encodes, chosen⟩
      rcases Prod.mk.inj (Except.ok.inj chosen) with ⟨rfl, rfl⟩
      have member : (value, hValue) ∈ [(value, hValue)] := List.mem_cons_self
      rcases short (value, hValue) member with ⟨bytes, written, few⟩
      have readable := readable_of_short encodes written few (texts (value, hValue) member)
      have shortName : name.length < 512 := found ▸ get_name_short bounded idx
      constructor
      · exact .knownName idx name value hValue bytes positive (by omega) readable
      · exact update_bounded bounded shortName readable.textShort
  | fresh i none =>
      dsimp only at chosen
      rw [if_neg Bool.false_ne_true, if_neg (by omega)] at chosen
      rcases bind_eq_ok chosen with ⟨hName, encodesName, chosen⟩
      rcases bind_eq_ok chosen with ⟨hValue, encodesValue, chosen⟩
      rcases Prod.mk.inj (Except.ok.inj chosen) with ⟨rfl, rfl⟩
      have nameIn : (name, hName) ∈ [(name, hName), (value, hValue)] := List.mem_cons_self
      have valueIn : (value, hValue) ∈ [(name, hName), (value, hValue)] :=
        List.mem_cons_of_mem _ List.mem_cons_self
      rcases short (name, hName) nameIn with ⟨nameBytes, nameWritten, fewName⟩
      rcases short (value, hValue) valueIn with ⟨valueBytes, valueWritten, fewValue⟩
      have nameReadable := readable_of_short encodesName nameWritten fewName (texts _ nameIn)
      have valueReadable := readable_of_short encodesValue valueWritten fewValue (texts _ valueIn)
      constructor
      · exact .newName name value hName hValue nameBytes valueBytes nameReadable valueReadable
      · exact update_bounded bounded nameReadable.textShort valueReadable.textShort

/-- The fields `pack` makes of a list of headers, and the table after them. -/
def chooseAll : DynamicTable → List (Str × Str) → Result (List HeaderField × DynamicTable)
  | table, [] => .ok ([], table)
  | table, (name, value) :: rest => do
      let (h, table) ← chooseField table name value
      let (fields, table) ← chooseAll table rest
      .ok (h :: fields, table)

def resolveAll : DynamicTable → List HeaderField → List (Str × Str) × DynamicTable
  | table, [] => ([], table)
  | table, field :: rest =>
      let resolved := resolveField table field
      let others := resolveAll resolved.2 rest
      ((resolved.1.name, resolved.1.value) :: others.1, others.2)

def blockBytes (fields : List HeaderField) : Str := fields.flatMap fieldBytes

theorem choose_all_cons {table last : DynamicTable} {name value : Str} {rest : List (Str × Str)}
    {fields : List HeaderField} (chosen : chooseAll table ((name, value) :: rest) = .ok (fields, last)) :
    ∃ h next others, chooseField table name value = .ok (h, next) ∧
      chooseAll next rest = .ok (others, last) ∧ fields = h :: others := by
  obtain ⟨⟨h, next⟩, first, chosen⟩ := bind_eq_ok chosen
  obtain ⟨⟨others, final⟩, later, chosen⟩ := bind_eq_ok chosen
  obtain ⟨rfl, rfl⟩ := Prod.mk.inj (Except.ok.inj chosen)
  exact ⟨h, next, others, first, later, rfl⟩

/-- What makes a block one the decoder understands. -/
structure Transmissible (fields : List HeaderField) : Prop where
  short : ∀ h ∈ fields, ShortLiterals h
  texts : ∀ h ∈ fields, BoundedTexts h
  blockShort : (blockBytes fields).length < 2 ^ 31

theorem field_bytes_ne_nil {h : HeaderField} (sendable : Sendable h) : fieldBytes h ≠ [] := by
  have some (prefixBits value : Nat) (flags : UInt8) : varIntBytes prefixBits value flags ≠ [] := by
    unfold varIntBytes
    split_ifs <;> exact List.cons_ne_nil _ _
  cases sendable with
  | indexed => exact some _ _ _
  | knownName => exact List.append_ne_nil_of_left_ne_nil (some _ _ _) _
  | newName => exact List.append_ne_nil_of_left_ne_nil (some _ _ _) _

theorem transmissible_cons {h : HeaderField} {others : List HeaderField}
    (fit : Transmissible (h :: others)) :
    ShortLiterals h ∧ BoundedTexts h ∧ Transmissible others := by
  have total := fit.blockShort
  rw [blockBytes, List.flatMap_cons, List.length_append, ← blockBytes] at total
  refine ⟨fit.short h List.mem_cons_self, fit.texts h List.mem_cons_self, ?_, ?_, by omega⟩
  · exact fun other member => fit.short other (List.mem_cons_of_mem _ member)
  · exact fun other member => fit.texts other (List.mem_cons_of_mem _ member)

theorem choose_all_sendable {headers : List (Str × Str)} {fields : List HeaderField}
    {table last : DynamicTable} (bounded : Bounded table)
    (chosen : chooseAll table headers = .ok (fields, last)) (fit : Transmissible fields) :
    (∀ h ∈ fields, Sendable h) ∧ Bounded last := by
  induction headers generalizing fields table with
  | nil =>
      rcases Prod.mk.inj (Except.ok.inj chosen) with ⟨rfl, rfl⟩
      exact ⟨fun _ none => absurd none List.not_mem_nil, bounded⟩
  | cons header rest induction =>
      rcases choose_all_cons chosen with ⟨h, next, others, first, later, rfl⟩
      rcases transmissible_cons fit with ⟨short, texts, fitRest⟩
      rcases chosen_sendable bounded first short texts with ⟨sendable, nextBounded⟩
      rcases induction nextBounded later fitRest with ⟨others, lastBounded⟩
      exact ⟨List.forall_mem_cons.mpr ⟨sendable, others⟩, lastBounded⟩

/-- The table that the fields were chosen from names the headers again and changes as it did. -/
theorem choose_all_resolves {headers : List (Str × Str)} {fields : List HeaderField}
    {table last : DynamicTable} (chosen : chooseAll table headers = .ok (fields, last)) :
    resolveAll table (fields.map received) = (headers, last) := by
  induction headers generalizing fields table with
  | nil =>
      rcases Prod.mk.inj (Except.ok.inj chosen) with ⟨rfl, rfl⟩
      rfl
  | cons header rest induction =>
      rcases header with ⟨name, value⟩
      rcases choose_all_cons chosen with ⟨h, next, others, first, later, rfl⟩
      rcases chosen_resolves_suffix List.suffix_rfl first with ⟨resolved, updated⟩
      rw [← updated] at resolved
      rw [List.map_cons, resolveAll, resolved]
      dsimp only
      rw [induction later]

theorem block_bytes_cons (h : HeaderField) (others : List HeaderField) :
    blockBytes (h :: others) = fieldBytes h ++ blockBytes others := by
  rw [blockBytes, List.flatMap_cons, ← blockBytes]

theorem pack_loop_spec {headers : List (Str × Str)} {fields : List HeaderField}
    {table last : DynamicTable} (chosen : chooseAll table headers = .ok (fields, last))
    (sendable : ∀ h ∈ fields, Sendable h) (hp : HPack) (sameTable : hp.table = table)
    (ba : ByteArray) (inv : Inv ba) (rt : Nat) (small : rt + (blockBytes fields).length < 2 ^ 31) :
    ∃ after, packLoop hp ba rt headers = .ok (((rt + (blockBytes fields).length : Nat) : Int),
        { headers := hp.headers ++ fields, table := last }, after) ∧
      Put ba (blockBytes fields) after := by
  induction headers generalizing fields table hp ba rt with
  | nil =>
      obtain ⟨rfl, rfl⟩ := Prod.mk.inj (Except.ok.inj chosen)
      refine ⟨ba, ?_, put_nil inv⟩
      rw [packLoop, List.append_nil, ← sameTable]
      rfl
  | cons header rest induction =>
      obtain ⟨name, value⟩ := header
      obtain ⟨h, next, others, first, later, rfl⟩ := choose_all_cons chosen
      rcases List.forall_mem_cons.mp sendable with ⟨own, sendableRest⟩
      rw [block_bytes_cons, List.length_append] at small ⊢
      obtain ⟨middle, written, put⟩ := pack_field_emits ba.endian own ba inv rfl
      have count : int32 ((fieldBytes h).length : Int) = (fieldBytes h).length :=
        int32_of_small (by omega)
      obtain ⟨after, packed, putRest⟩ := induction later sendableRest
        { headers := hp.headers ++ [h], table := next } rfl middle put.inv
        (rt + (fieldBytes h).length) (by omega)
      refine ⟨after, ?_, put_trans inv put putRest⟩
      rw [packLoop, sameTable, first, bind_ok]
      dsimp only
      rw [written, count, bind_ok]
      dsimp only
      rw [checked_int_ok (by omega) (by omega), bind_ok, ← Int.natCast_add, packed,
        List.append_assoc, List.singleton_append, Nat.add_assoc]

theorem pack_string_spec (fresh : Nat → Nat → UInt8) {headers : List (Str × Str)}
    {fields : List HeaderField} {last : DynamicTable} (hp : HPack)
    (chosen : chooseAll hp.table headers = .ok (fields, last))
    (sendable : ∀ h ∈ fields, Sendable h) (small : (blockBytes fields).length < 2 ^ 31) :
    packString fresh hp headers = .ok (((blockBytes fields).length : Int), blockBytes fields,
      { headers := hp.headers ++ fields, table := last }) := by
  have inv := new_inv 4096 fresh (by decide)
  obtain ⟨after, packed, put⟩ := pack_loop_spec chosen sendable hp rfl _ inv 0
    (by rw [Nat.zero_add]; exact small)
  have front := put_unread inv put
  have nothing : (ByteArray.new 4096 fresh).contents = [] := rfl
  rw [nothing, List.drop_nil, List.append_nil] at front
  have text := to_string_unread (seek_inv put.inv (Nat.zero_le after.size))
  rw [Nat.zero_add] at packed
  rw [packString, pack]
  rw [show ((0 : Nat) : Int) = 0 from rfl] at packed
  rw [packed, bind_ok]
  dsimp only
  rw [set_position_seek put.inv (Nat.zero_le _), bind_ok, text, bind_ok]
  rw [show (after.seek 0).unread = blockBytes fields from front]

/-- The loop of `parse` over the bytes of a block: every field is resolved against the table before
it. -/
theorem parse_loop_spec {fields : List HeaderField} (sendable : ∀ h ∈ fields, Sendable h)
    (table : DynamicTable) :
    ∃ got, got.map (fun h => (h.name, h.value)) = (resolveAll table (fields.map received)).1 ∧
      ∀ (headers : List HeaderField) (ba : ByteArray) (rest : Str) (pos done rounds : Nat), Inv ba →
        ba.unread = blockBytes fields ++ rest → ba.position = pos + done →
        done + (blockBytes fields).length < 2 ^ 31 → (blockBytes fields).length ≤ rounds →
        parseLoop pos ((done + (blockBytes fields).length : Nat) : Int) rounds ⟨headers, table⟩ ba
            done = .ok (((done + (blockBytes fields).length : Nat) : Int),
          ⟨headers ++ got, (resolveAll table (fields.map received)).2⟩,
          ba.skip (blockBytes fields).length) := by
  induction fields generalizing table with
  | nil =>
      refine ⟨[], rfl, ?_⟩
      intro headers ba rest pos done rounds inv front position small enough
      have nothing : (blockBytes []).length = 0 := rfl
      rw [List.append_nil, nothing, skip_zero inv]
      cases rounds with
      | zero => exact if_neg (Int.lt_irrefl _)
      | succ rounds => exact if_neg (Int.lt_irrefl _)
  | cons h others induction =>
      rcases List.forall_mem_cons.mp sendable with ⟨own, sendableRest⟩
      generalize resolved : resolveField table (received h) = header
      obtain ⟨got, names, parsed⟩ := induction sendableRest header.2
      refine ⟨header.1 :: got, by rw [List.map_cons, List.map_cons, resolveAll, resolved, names], ?_⟩
      intro headers ba rest pos done rounds inv front position small enough
      have some := List.length_pos_iff.mpr (field_bytes_ne_nil own)
      rw [block_bytes_cons] at front small enough ⊢
      rw [List.length_append] at small enough ⊢
      rw [List.append_assoc] at front
      cases rounds with
      | zero => omega
      | succ rounds =>
          have fieldRead := read_field_reads ba.endian own ba _ inv rfl front
          have moved : int32 (((ba.skip (fieldBytes h).length).position : Int) - pos) =
              ((done + (fieldBytes h).length : Nat) : Int) := by
            rw [skip_position, position, int32_eq (by omega) (by omega)]
            omega
          have later := parsed (headers ++ [header.1]) (ba.skip (fieldBytes h).length) rest pos
            (done + (fieldBytes h).length) rounds (skip_inv inv front) (skip_unread front)
            (by rw [skip_position, position, Nat.add_assoc]) (by omega) (by omega)
          rw [parseLoop, if_pos (by omega), fieldRead, bind_ok]
          dsimp only
          rw [resolved, moved, ← Nat.add_assoc, later, List.append_assoc, List.singleton_append,
            List.map_cons, resolveAll, resolved, skip_skip]

theorem parse_spec {fields : List HeaderField} (hp : HPack) (sendable : ∀ h ∈ fields, Sendable h)
    (small : (blockBytes fields).length < 2 ^ 31) :
    ∃ got, got.map (fun h => (h.name, h.value)) = (resolveAll hp.table (fields.map received)).1 ∧
      ∀ (ba : ByteArray) (rest : Str), Inv ba → ba.unread = blockBytes fields ++ rest →
        parse hp ba (blockBytes fields).length = .ok (((blockBytes fields).length : Int),
          ⟨hp.headers ++ got, (resolveAll hp.table (fields.map received)).2⟩,
          ba.skip (blockBytes fields).length) := by
  obtain ⟨got, names, parsed⟩ := parse_loop_spec sendable hp.table
  refine ⟨got, names, fun ba rest inv front => ?_⟩
  have whole := parsed hp.headers ba rest ba.position 0 _ inv front rfl
    (by rw [Nat.zero_add]; exact small) (Nat.le_refl _)
  rw [Nat.zero_add] at whole
  rw [parse, Int.toNat_natCast]
  exact whole

/-- The blocks of a run, chosen one after the other from the encoder's table. -/
def RunAll (property : List HeaderField → Prop) :
    DynamicTable → List (List (Str × Str)) → Prop
  | _, [] => True
  | table, headers :: rest =>
      ∃ fields next, chooseAll table headers = .ok (fields, next) ∧ property fields ∧
        RunAll property next rest

/-- `parse(ba, length)` takes the whole block out of any buffer that holds it at its position,
whatever lies behind. -/
def ParsesTo (dec : HPack) (block : Str) (dec' : HPack) : Prop :=
  ∀ (ba : ByteArray) (rest : Str), Reachable ba → ba.unread = block ++ rest →
    parse dec ba block.length = .ok ((block.length : Int), dec', ba.skip block.length)

/-- Block after block, the decoder takes all the bytes, appends the headers that were packed
and ends with the encoder's table. -/
def Synced (fresh : Nat → Nat → UInt8) : HPack → HPack → List (List (Str × Str)) → Prop
  | _, _, [] => True
  | enc, dec, headers :: rest =>
      ∃ out enc' dec' got, packString fresh enc headers = .ok ((out.length : Int), out, enc') ∧
        ParsesTo dec out dec' ∧
        dec'.headers = dec.headers ++ got ∧ got.map (fun h => (h.name, h.value)) = headers ∧
        dec'.table = enc'.table ∧ Synced fresh enc' dec' rest

theorem synced_of_run (fresh : Nat → Nat → UInt8) (lists : List (List (Str × Str))) :
    ∀ enc dec : HPack, Bounded enc.table → dec.table = enc.table →
      RunAll Transmissible enc.table lists → Synced fresh enc dec lists := by
  induction lists with
  | nil => exact fun _ _ _ _ _ => trivial
  | cons headers rest induction =>
      intro enc dec bounded same run
      obtain ⟨fields, next, chosen, fit, later⟩ := run
      rcases choose_all_sendable bounded chosen fit with ⟨sendable, nextBounded⟩
      have packed := pack_string_spec fresh enc chosen sendable fit.blockShort
      rcases parse_spec dec sendable fit.blockShort with ⟨got, names, parsed⟩
      rw [same, choose_all_resolves chosen] at parsed names
      exact ⟨blockBytes fields, _, _, got, packed,
        fun ba rest reachable front => parsed ba rest (reachable_inv reachable) front, rfl, names,
        rfl, induction _ _ nextBounded rfl later⟩

/-- Two ends with fresh tables stay in step over any sequence of header lists whose literals
and blocks are short enough. -/
theorem hpack_synchronised (fresh : Nat → Nat → UInt8) (lists : List (List (Str × Str)))
    (enc dec : HPack) (encFresh : enc.table = .new) (decFresh : dec.table = .new)
    (run : RunAll Transmissible .new lists) : Synced fresh enc dec lists := by
  apply synced_of_run fresh lists enc dec
  · rw [encFresh]
    exact new_bounded
  · rw [encFresh, decFresh]
  · rw [encFresh]
    exact run

/-- Two blocks, the second of which refers to an entry that the first one made. -/
theorem hpack_synchronised_two_blocks :
    Synced (fun _ _ => 0) ⟨[], .new⟩ ⟨[], .new⟩
      [[(ascii ":method", ascii "GET"), (ascii "x", ascii "y")], [(ascii "x", ascii "y")]] := by
  have first : chooseAll .new [(ascii ":method", ascii "GET"), (ascii "x", ascii "y")] =
      .ok ([{ type := .indexed, index := 2 },
          { type := .withIndexingNewName, name := ascii "x", value := ascii "y" }],
        DynamicTable.new.update (ascii "x") (ascii "y")) := by decide +kernel
  have second : chooseAll (DynamicTable.new.update (ascii "x") (ascii "y"))
      [(ascii "x", ascii "y")] = .ok ([{ type := .indexed, index := 62 }],
        DynamicTable.new.update (ascii "x") (ascii "y")) := by decide +kernel
  apply hpack_synchronised _ _ _ _ rfl rfl
  refine ⟨_, _, first, ⟨?_, ?_, by decide +kernel⟩, _, _, second, ⟨?_, ?_, by decide +kernel⟩, trivial⟩
  all_goals simp [ShortLiterals, BoundedTexts, literals, asWritten, ascii]

theorem find_loop_absent {name value : Str} {entries : List (Str × Str)}
    (absent : ∀ entry ∈ entries, entry.1 ≠ name) (i rt : Int) :
    findLoop name value entries i rt = (rt, false) := by
  induction entries generalizing i with
  | nil => rfl
  | cons entry rest induction =>
      rw [findLoop, if_neg (absent entry List.mem_cons_self)]
      exact induction (fun other member => absent other (List.mem_cons_of_mem _ member)) (i + 1)

theorem int32_past_turn {small : Nat} (bound : small < 2 ^ 31) :
    int32 ((2 ^ 32 + small : Nat) : Int) = small := by
  rw [int32, Int.bmod_def]
  omega

theorem encode_string_wraps {text : Str} {small : Nat} (length : text.length = 2 ^ 32 + small)
    (bound : small < 2 ^ 31) : encodeString text [] 0 = encodeString (text.take small) [] 0 := by
  have cut : (text.take small).length = small := by
    rw [List.length_take, length]
    omega
  rw [encodeString, encodeString, encodeChars, encodeChars, cut, length, int32_past_turn bound,
    int32_of_small bound, Int.toNat_natCast, List.take_take, Nat.min_self]

theorem should_encode_wraps {text : Str} {small : Nat} (length : text.length = 2 ^ 32 + small)
    (bound : small < 2 ^ 31) : shouldEncode text = shouldEncode (text.take small) := by
  have cut : (text.take small).length = small := by
    rw [List.length_take, length]
    omega
  rw [shouldEncode, shouldEncode, shouldEncodeChars, shouldEncodeChars, encodeLenChars,
    encodeLenChars, cut, length, int32_past_turn bound, int32_of_small bound, Int.toNat_natCast,
    List.take_take, Nat.min_self]

def cutField (text : Str) : HeaderField :=
  { type := .withIndexingNewName, name := ascii "x", hValue := true, value := text }

theorem choose_cut {text : Str} (encoded : shouldEncode text = .ok true) :
    chooseField .new (ascii "x") text =
      .ok (cutField text, DynamicTable.new.update (ascii "x") text) := by
  have absent : ∀ entry ∈ staticHeaders, entry.1 ≠ ascii "x" := by decide +kernel
  have notFound : DynamicTable.new.findPair (ascii "x") text = (-1, false) := by
    rw [findPair, getStaticHeadersPair, find_loop_absent absent]
    rfl
  have raw : shouldEncode (ascii "x") = .ok false := by decide +kernel
  rw [chooseField, notFound]
  dsimp only
  rw [if_neg Bool.false_ne_true, if_neg (by decide), raw, bind_ok, encoded, bind_ok]
  rfl

theorem pack_cut {text other : Str} (same : encodeString text [] 0 = encodeString other [] 0) :
    packField (cutField text) = packField (cutField other) := by
  have written (ba : ByteArray) : writeString ba text true = writeString ba other true := by
    simp only [writeString, if_true, same]
  funext ba
  simp only [packField, cutField, packLiteral, written]

theorem pack_string_single (fresh : Nat → Nat → UInt8) {hp : HPack} {name value : Str}
    {h : HeaderField} {next : DynamicTable} (chosen : chooseField hp.table name value = .ok (h, next)) :
    packString fresh hp [(name, value)] =
      packField h (ByteArray.new 4096 fresh) >>= fun written =>
        checkedInt (0 + written.1) >>= fun rt => written.2.setPosition 0 >>= fun ba =>
          ba.toString >>= fun out => .ok (rt, out, ⟨hp.headers ++ [h], next⟩) := by
  simp only [packString, pack, packLoop, chosen, bind_ok, bind_assoc]

theorem pack_string_same (fresh : Nat → Nat → UInt8) (hp : HPack) {after : HPack}
    {name value otherValue out : Str} {h other : HeaderField} {next otherNext : DynamicTable}
    {rt : Int} (chosen : chooseField hp.table name value = .ok (h, next))
    (otherChosen : chooseField hp.table name otherValue = .ok (other, otherNext))
    (same : packField h = packField other)
    (packed : packString fresh hp [(name, value)] = .ok (rt, out, after)) :
    packString fresh hp [(name, otherValue)] =
      .ok (rt, out, ⟨hp.headers ++ [other], otherNext⟩) := by
  rw [pack_string_single fresh chosen] at packed
  obtain ⟨written, wrote, packed⟩ := bind_eq_ok packed
  obtain ⟨total, summed, packed⟩ := bind_eq_ok packed
  obtain ⟨ba, rewound, packed⟩ := bind_eq_ok packed
  obtain ⟨bytes, copied, packed⟩ := bind_eq_ok packed
  obtain ⟨rfl, result⟩ := Prod.mk.inj (Except.ok.inj packed)
  obtain ⟨rfl, _⟩ := Prod.mk.inj result
  rw [pack_string_single fresh otherChosen, ← same, wrote, bind_ok, summed, bind_ok, rewound,
    bind_ok, copied, bind_ok]

def sixteen : Str := List.replicate 16 97

theorem sixteen_written : asWritten sixteen true =
    .ok [0x18, 0xc6, 0x31, 0x8c, 0x63, 0x18, 0xc6, 0x31, 0x8c, 0x63] := by decide +kernel

theorem cut_short {text bytes : Str} (written : asWritten text true = .ok bytes)
    (few : bytes.length < 255) : ShortLiterals (cutField text) := by
  intro literal member
  rcases List.mem_cons.mp member with rfl | member
  · exact ⟨ascii "x", rfl, by decide⟩
  · rw [List.mem_singleton.mp member]
    exact ⟨bytes, written, few⟩

theorem sixteen_transmissible : Transmissible [cutField sixteen] := by
  refine ⟨?_, ?_, by decide +kernel⟩
  · intro h member
    rw [List.mem_singleton.mp member]
    exact cut_short sixteen_written (by decide)
  · intro h member
    rw [List.mem_singleton.mp member]
    exact (by decide +kernel : ∀ literal ∈ literals (cutField sixteen), literal.1.length < 2 ^ 32)

theorem long_value_not_synced (fresh : Nat → Nat → UInt8) {text : Str}
    (length : text.length = 2 ^ 32 + 16) (front : text.take 16 = sixteen) :
    RunAll (fun fields => ∀ h ∈ fields, ShortLiterals h) .new [[(ascii "x", text)]] ∧
      ¬Synced fresh ⟨[], .new⟩ ⟨[], .new⟩ [[(ascii "x", text)]] := by
  have sixteenEncodes : shouldEncode sixteen = .ok true := by decide +kernel
  have encodes := should_encode_wraps length (by decide : 16 < 2 ^ 31)
  have sameCode := encode_string_wraps length (by decide : 16 < 2 ^ 31)
  rw [front] at encodes sameCode
  have chosen := choose_cut (encodes.trans sixteenEncodes)
  have sixteenChosen := choose_cut sixteenEncodes
  constructor
  · have written : asWritten text true = asWritten sixteen true := by
      rw [asWritten, asWritten, if_pos rfl, if_pos rfl, sameCode]
    have all : chooseAll .new [(ascii "x", text)] =
        .ok ([cutField text], DynamicTable.new.update (ascii "x") text) := by
      rw [chooseAll, chosen, bind_ok]
      rfl
    refine ⟨_, _, all, ?_, trivial⟩
    intro h member
    rw [List.mem_singleton.mp member]
    exact cut_short (written.trans sixteen_written) (by decide)
  · intro synced
    obtain ⟨out, _, dec', got, packed, parsed, headers, names, _⟩ := synced
    have all : chooseAll .new [(ascii "x", sixteen)] =
        .ok ([cutField sixteen], DynamicTable.new.update (ascii "x") sixteen) := by
      rw [chooseAll, sixteenChosen, bind_ok]
      rfl
    have samePacked :=
      pack_string_same fresh ⟨[], .new⟩ chosen sixteenChosen (pack_cut sameCode) packed
    have fit := sixteen_transmissible
    have sendable := (choose_all_sendable new_bounded all fit).1
    have otherPacked := pack_string_spec fresh ⟨[], .new⟩ all sendable fit.blockShort
    rcases parse_spec ⟨[], .new⟩ sendable fit.blockShort with ⟨other, otherNames, otherParsed⟩
    rw [choose_all_resolves all] at otherParsed otherNames
    have sameOut := (Prod.mk.inj (Prod.mk.inj
      (Except.ok.inj (samePacked.symm.trans otherPacked))).2).1
    have some : out ≠ [] := by
      rw [sameOut]
      exact List.append_ne_nil_of_left_ne_nil
        (field_bytes_ne_nil (sendable _ List.mem_cons_self)) _
    have front : (ByteArray.ofData out).unread = out ++ [] := by
      rw [List.append_nil, of_data_unread]
    have own := parsed _ [] (.wrapped out some) front
    rw [sameOut] at own front
    rw [otherParsed _ [] (of_data_inv _ (sameOut ▸ some)) front] at own
    have sameDec := (Prod.mk.inj (Prod.mk.inj (Except.ok.inj own)).2).1
    rw [← sameDec] at headers
    rw [← List.append_cancel_left headers, otherNames] at names
    have value : sixteen = text := (Prod.mk.inj (List.cons.inj names).1).2
    rw [← value] at length
    exact absurd length (by decide)

def methodGet : HeaderField := { type := .indexed, index := 2 }

theorem choose_method_get :
    chooseField .new (ascii ":method") (ascii "GET") = .ok (methodGet, .new) := by decide +kernel

theorem choose_all_replicate {table : DynamicTable} {name value : Str} {h : HeaderField}
    (chosen : chooseField table name value = .ok (h, table)) (count : Nat) :
    chooseAll table (List.replicate count (name, value)) = .ok (List.replicate count h, table) := by
  induction count with
  | zero => rfl
  | succ count induction =>
      rw [List.replicate_succ, chooseAll, chosen, bind_ok]
      dsimp only
      rw [induction, bind_ok, List.replicate_succ]

theorem pack_loop_count {table : DynamicTable} {name value : Str} {h : HeaderField}
    (chosen : chooseField table name value = .ok (h, table)) (sendable : Sendable h)
    (one : (fieldBytes h).length = 1) {count rt : Nat} {hp : HPack} {ba : ByteArray}
    {result : Int × HPack × ByteArray} (sameTable : hp.table = table) (inv : Inv ba)
    (packed : packLoop hp ba rt (List.replicate count (name, value)) = .ok result) :
    count = 0 ∨ rt + count < 2 ^ 31 := by
  induction count generalizing rt hp ba with
  | zero => exact .inl rfl
  | succ count induction =>
      obtain ⟨middle, written, put⟩ := pack_field_emits ba.endian sendable ba inv rfl
      rw [one] at written
      rw [List.replicate_succ, packLoop, sameTable, chosen, bind_ok] at packed
      dsimp only at packed
      rw [written, int32_of_small (by decide), bind_ok] at packed
      obtain ⟨sum, summed, packed⟩ := bind_eq_ok packed
      have fits : rt + 1 < 2 ^ 31 := by
        by_contra large
        rw [checked_int_overflow (by omega)] at summed
        cases summed
      rw [checked_int_ok (by omega) (by omega)] at summed
      rw [← Except.ok.inj summed, ← Int.natCast_add] at packed
      rcases induction rfl put.inv packed with none | less
      · right
        omega
      · right
        omega

theorem long_block_not_synced (fresh : Nat → Nat → UInt8) {count : Nat} (large : 2 ^ 31 ≤ count) :
    RunAll (fun fields => ∀ h ∈ fields, ShortLiterals h) .new
        [List.replicate count (ascii ":method", ascii "GET")] ∧
      ¬Synced fresh ⟨[], .new⟩ ⟨[], .new⟩
        [List.replicate count (ascii ":method", ascii "GET")] := by
  constructor
  · refine ⟨_, _, choose_all_replicate choose_method_get count, ?_, trivial⟩
    intro h member literal inside
    rw [List.eq_of_mem_replicate member] at inside
    exact absurd inside List.not_mem_nil
  · intro synced
    obtain ⟨_, _, _, _, packed, _⟩ := synced
    obtain ⟨result, looped, _⟩ := bind_eq_ok packed
    have counted := pack_loop_count choose_method_get (.indexed 2 (by decide)) (by decide +kernel)
      rfl (new_inv 4096 fresh (by decide)) looped
    omega

/-- Short literals alone are not enough: a value whose length wraps to sixteen, and a block
whose length is no `int`. -/
theorem short_literals_not_enough :
    (RunAll (fun fields => ∀ h ∈ fields, ShortLiterals h) .new
        [[(ascii "x", List.replicate (2 ^ 32 + 16) 97)]] ∧
      ¬Synced (fun _ _ => 0) ⟨[], .new⟩ ⟨[], .new⟩
        [[(ascii "x", List.replicate (2 ^ 32 + 16) 97)]]) ∧
    (RunAll (fun fields => ∀ h ∈ fields, ShortLiterals h) .new
        [List.replicate (2 ^ 31) (ascii ":method", ascii "GET")] ∧
      ¬Synced (fun _ _ => 0) ⟨[], .new⟩ ⟨[], .new⟩
        [List.replicate (2 ^ 31) (ascii ":method", ascii "GET")]) := by
  constructor
  · apply long_value_not_synced
    · exact List.length_replicate
    · rw [List.take_replicate, Nat.min_eq_left (by omega), sixteen]
  · exact long_block_not_synced _ (Nat.le_refl _)

end ChatServer.Http2
