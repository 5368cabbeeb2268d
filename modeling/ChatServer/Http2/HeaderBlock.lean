import ChatServer.ByteArray.Buffers
import ChatServer.ByteArray.Grammar
import ChatServer.Http2.HuffmanEncode
import ChatServer.Http2.VarInt

/-!
# Header blocks from the network

What `parse` does with a block that no encoder wrote. Integers, strings and fields are
described as languages over the bytes of the block; a block is harmful when whole fields
are followed by something that makes `parse` return -1 or leave defined behaviour.
-/

namespace ChatServer.Http2

set_option autoImplicit false

open ChatServer.ByteArray
open PrefixCode

/-- The groups of seven bits behind a full prefix, added up modulo `2^64`. -/
def groupsValue : Nat → Nat → Str → Nat
  | iv, _, [] => iv
  | iv, m, b :: rest => groupsValue ((iv + (b &&& 0x7f).toNat <<< m % 2 ^ 64) % 2 ^ 64) (m + 7) rest

/-- Bytes with the continuation bit and one without it, no more than `rounds` altogether. The
byte behind `rounds` of the first kind would be shifted too far. -/
def continued (rounds iv m : Nat) : ByteLanguage Nat where
  complete text value :=
    ∃ marked last, text = marked ++ [last] ∧ marked.length < rounds ∧
      (∀ b ∈ marked, b &&& 0x80 ≠ 0) ∧ last &&& 0x80 = 0 ∧ value = groupsValue iv m text
  harmful text :=
    ∃ marked rest, text = marked ++ rest ∧ marked.length = rounds ∧
      (∀ b ∈ marked, b &&& 0x80 ≠ 0) ∧ rest ≠ []

def integer (first : UInt8) (prefixBits : Nat) : ByteLanguage Nat :=
  let v := UInt8.ofNat ((1 <<< prefixBits) - 1)
  if first &&& v < v then .done (first &&& v).toNat else continued 10 (first &&& v).toNat 0

theorem continued_zero_complete (iv m : Nat) (text : Str) (value : Nat) :
    (continued 0 iv m).complete text value ↔
      (ByteLanguage.byte.bind fun _ => (.pit : ByteLanguage Nat)).complete text value := by
  constructor
  · rintro ⟨_, _, _, impossible, _⟩
    exact absurd impossible (Nat.not_lt_zero _)
  · rintro ⟨_, _, _, _, _, impossible⟩
    exact impossible.elim

theorem continued_zero_harmful (iv m : Nat) (text : Str) :
    (continued 0 iv m).harmful text ↔
      (ByteLanguage.byte.bind fun _ => (.pit : ByteLanguage Nat)).harmful text := by
  constructor
  · rintro ⟨marked, rest, split, length, _, some⟩
    rw [List.length_eq_zero_iff.mp length, List.nil_append] at split
    cases rest with
    | nil => exact absurd rfl some
    | cons b rest => exact .inr ⟨[b], b, rest, split, rfl, trivial⟩
  · rintro (impossible | ⟨front, b, back, rfl, rfl, _⟩)
    · exact impossible.elim
    · exact ⟨[], b :: back, rfl, rfl, fun _ member => absurd member List.not_mem_nil,
        List.cons_ne_nil _ _⟩

def continuedFrom (rounds iv m : Nat) (b : UInt8) : ByteLanguage Nat :=
  let iv := (iv + (b &&& 0x7f).toNat <<< m % 2 ^ 64) % 2 ^ 64
  if b &&& 0x80 ≠ 0 then continued rounds iv (m + 7) else .done iv

theorem continued_succ_complete (rounds iv m : Nat) (text : Str) (value : Nat) :
    (continued (rounds + 1) iv m).complete text value ↔
      (ByteLanguage.byte.bind (continuedFrom rounds iv m)).complete text value := by
  constructor
  · rintro ⟨marked, last, rfl, length, all, stop, rfl⟩
    cases marked with
    | nil =>
        refine ⟨[last], last, [], rfl, rfl, ?_⟩
        rw [continuedFrom, if_neg (not_not_intro stop)]
        exact ⟨rfl, rfl⟩
    | cons b marked =>
        obtain ⟨high, all⟩ := List.forall_mem_cons.mp all
        refine ⟨[b], b, marked ++ [last], rfl, rfl, ?_⟩
        rw [continuedFrom, if_pos high]
        exact ⟨marked, last, rfl, Nat.lt_of_succ_lt_succ length, all, stop, rfl⟩
  · rintro ⟨front, b, back, rfl, rfl, complete⟩
    unfold continuedFrom at complete
    by_cases high : b &&& 0x80 ≠ 0
    · rw [if_pos high] at complete
      obtain ⟨marked, last, rfl, length, all, stop, rfl⟩ := complete
      exact ⟨b :: marked, last, rfl, Nat.succ_lt_succ length,
        List.forall_mem_cons.mpr ⟨high, all⟩, stop, rfl⟩
    · rw [if_neg high] at complete
      obtain ⟨rfl, rfl⟩ := complete
      exact ⟨[], b, rfl, Nat.zero_lt_succ _, fun _ member => absurd member List.not_mem_nil,
        not_not.mp high, rfl⟩

theorem continued_succ_harmful (rounds iv m : Nat) (text : Str) :
    (continued (rounds + 1) iv m).harmful text ↔
      (ByteLanguage.byte.bind (continuedFrom rounds iv m)).harmful text := by
  constructor
  · rintro ⟨marked, rest, rfl, length, all, some⟩
    cases marked with
    | nil => cases length
    | cons b marked =>
        obtain ⟨high, all⟩ := List.forall_mem_cons.mp all
        refine .inr ⟨[b], b, marked ++ rest, rfl, rfl, ?_⟩
        rw [continuedFrom, if_pos high]
        exact ⟨marked, rest, rfl, Nat.succ.inj length, all, some⟩
  · rintro (impossible | ⟨front, b, back, rfl, rfl, harmful⟩)
    · exact impossible.elim
    · unfold continuedFrom at harmful
      by_cases high : b &&& 0x80 ≠ 0
      · rw [if_pos high] at harmful
        obtain ⟨marked, rest, rfl, length, all, some⟩ := harmful
        exact ⟨b :: marked, rest, rfl, congrArg Nat.succ length,
          List.forall_mem_cons.mpr ⟨high, all⟩, some⟩
      · rw [if_neg high] at harmful
        exact harmful.elim

theorem continued_follows (rounds : Nat) : ∀ iv m,
    Follows (fun ba => readVarIntLoop rounds ba iv m) (continued rounds iv m) := by
  induction rounds with
  | zero =>
      intro iv m
      have follows := follows_bind (fun _ _ => .error (.undefined .shiftTooWide)) follows_byte
        (fun _ => (follows_pit .shiftTooWide : Follows _ (.pit : ByteLanguage Nat)))
      exact follows_congr follows (continued_zero_complete iv m) (continued_zero_harmful iv m)
  | succ rounds induction =>
      intro iv m
      have next (b : UInt8) : Follows (fun ba =>
          let iv := (iv + (b &&& 0x7f).toNat <<< m % 2 ^ 64) % 2 ^ 64
          if b &&& 0x80 ≠ 0 then readVarIntLoop rounds ba iv (m + 7) else .ok (iv, ba))
          (continuedFrom rounds iv m b) := by
        unfold continuedFrom
        by_cases high : b &&& 0x80 ≠ 0
        · simp only [if_pos high]
          exact induction _ _
        · simp only [if_neg high]
          exact follows_done _
      exact follows_congr (follows_bind _ follows_byte next) (continued_succ_complete rounds iv m)
        (continued_succ_harmful rounds iv m)

theorem integer_follows (first : UInt8) (prefixBits : Nat) :
    Follows (fun ba => readVarIntFrom ba first prefixBits) (integer first prefixBits) := by
  unfold readVarIntFrom integer
  dsimp only
  split_ifs
  · exact follows_done _
  · exact continued_follows 10 _ 0

def DanglingEos (data : Str) : Prop :=
  ∃ symbols tail, bitsOf data = encode codeBits symbols ++ (eosBits ++ tail) ∧ tail.length < 2

/-- The bytes of a string of `len` bytes; the first byte of its length tells how they are
coded. -/
def stringData (type : UInt8) (len : Int) : ByteLanguage Str where
  complete data text :=
    len = data.length ∧ data.length < 2 ^ 28 ∧
      if type &&& 0x80 ≠ 0 then DecodesTo data text else text = data
  harmful text :=
    type &&& 0x80 ≠ 0 ∧ ∃ data rest, text = data ++ rest ∧ len = data.length ∧ DanglingEos data

theorem dangling_eos_breaks {data : Str} (small : data.length < 2 ^ 28)
    (dangling : DanglingEos data) : decodeString data [] = .error (.undefined .nullDeref) := by
  obtain ⟨symbols, tail, split, short⟩ := dangling
  have decoded := decode_string_spec data [] small
  generalize decodeString data [] = result at decoded ⊢
  cases decoded with
  | symbols out rest other stuck noEos =>
      exact absurd ⟨symbols, tail, split⟩ (no_eos_of_symbols other stuck noEos)
  | eosInside out behind other long =>
      obtain ⟨_, same⟩ := parse_unique code_prefix_free (eos_append_stuck tail)
        (eos_append_stuck behind) (split.symm.trans other)
      rw [List.append_cancel_left same] at short
      exact absurd short (Nat.not_lt.mpr long)
  | eosAtEnd out behind other few => rfl

theorem has_eos_ne_nil {data : Str} (found : HasEos (bitsOf data)) : data ≠ [] := by
  rintro rfl
  obtain ⟨symbols, tail, split⟩ := found
  have lengths := congrArg List.length split
  have thirty : eosBits.length = 30 := List.length_replicate
  have none : (bitsOf []).length = 0 := rfl
  rw [List.length_append, List.length_append] at lengths
  omega

theorem decodes_to_nil {text : Str} (decodes : DecodesTo [] text) : text = [] := by
  obtain ⟨rest, split, _⟩ := decodes
  have lengths := congrArg List.length split
  have least := encode_length_ge text
  have none : (bitsOf []).length = 0 := rfl
  rw [List.length_append] at lengths
  exact List.length_eq_zero_iff.mp (by omega)

theorem read_string_data_eq {type : UInt8} {ba : ByteArray} {data rest : Str} (inv : Inv ba)
    (split : ba.unread = data ++ rest) (some : data ≠ []) :
    readStringData type data.length ba =
      if type &&& 0x80 ≠ 0 then
        decodeString data [] >>= fun decoded => .ok (decoded.2, ba.skip data.length)
      else .ok (data, ba.skip data.length) := by
  have positive := List.length_pos_iff.mpr some
  rw [readStringData, if_pos (by omega), resize_empty, bind_ok, Int.toNat_natCast,
    read_unread inv split some, bind_ok]

theorem string_data_follows (type : UInt8) (len : Int) :
    Follows (readStringData type len) (stringData type len) where
  takes := by
    rintro endian data text ⟨rfl, small, coded⟩ ba rest inv order split
    by_cases empty : data = []
    · subst empty
      have none : text = [] := by
        split_ifs at coded
        · exact decodes_to_nil coded
        · exact coded
      rw [none, List.length_nil, skip_zero inv]
      rfl
    · rw [read_string_data_eq inv split empty]
      by_cases huffman : type &&& 0x80 ≠ 0
      · rw [if_pos huffman] at coded ⊢
        rw [decodes_to_returns small coded [], bind_ok]
      · rw [if_neg huffman] at coded ⊢
        rw [coded]
  breaks := by
    rintro ba inv small ⟨huffman, data, rest, split, rfl, dangling⟩
    rw [split, List.length_append] at small
    have some : data ≠ [] := by
      obtain ⟨symbols, tail, bits, _⟩ := dangling
      exact has_eos_ne_nil ⟨symbols, tail, bits⟩
    refine ⟨.nullDeref, ?_⟩
    rw [read_string_data_eq inv split some, if_pos huffman,
      dangling_eos_breaks (by omega) dangling, bind_error]
  otherwise := by
    intro ba inv small
    by_cases negative : len < 0
    · right; right
      refine ⟨.lengthError, ?_⟩
      rw [readStringData, if_pos (by omega), resize, if_pos negative, bind_error]
    obtain ⟨count, rfl⟩ := Int.eq_ofNat_of_zero_le (Int.not_lt.mp negative)
    by_cases short : ba.unread.length < count
    · right; right
      refine ⟨.outOfRange, ?_⟩
      rw [unread_length inv] at short
      rw [readStringData, if_pos (by omega), resize, if_neg negative, bind_ok, Int.toNat_natCast,
        read_short short, bind_error]
    have cut := (List.take_append_drop count ba.unread).symm
    have length : (ba.unread.take count).length = count := by
      rw [List.length_take]
      omega
    generalize ba.unread.take count = data at cut length
    generalize ba.unread.drop count = rest at cut
    subst length
    rw [cut, List.length_append] at small
    by_cases huffman : type &&& 0x80 ≠ 0
    · have decoded := decode_string_spec data [] (by omega)
      generalize result : decodeString data [] = outcome at decoded
      cases decoded with
      | symbols out tail split stuck noEos =>
          left
          refine ⟨data, out, rest, cut, rfl, by omega, ?_⟩
          rw [if_pos huffman]
          exact ⟨tail, split, stuck, noEos⟩
      | eosInside out tail split long =>
          right; right
          refine ⟨.lengthError, ?_⟩
          rw [read_string_data_eq inv cut (has_eos_ne_nil ⟨out, tail, split⟩), if_pos huffman, result,
            bind_error]
      | eosAtEnd out tail split few =>
          exact .inr (.inl ⟨huffman, data, rest, cut, rfl, out, tail, split, few⟩)
    · left
      refine ⟨data, data, rest, cut, rfl, by omega, ?_⟩
      rw [if_neg huffman]

def string : ByteLanguage Str :=
  ByteLanguage.byte.bind fun type => (integer type 7).bind fun len => stringData type (int32 len)

theorem string_follows : Follows readString string :=
  follows_bind (fun type ba => readVarIntFrom ba type 7 >>= fun read =>
      readStringData type (int32 read.1) read.2) follows_byte fun type =>
    follows_bind (fun len : Nat => readStringData type (int32 len)) (integer_follows type 7)
      fun len => string_data_follows type (int32 len)

def strings (header : HeaderField) : ByteLanguage HeaderField :=
  if header.index > 0 then string.map fun value => { header with value }
  else string.bind fun name => string.map fun value => { header with name, value }

def literal (type : UInt8) (prefixBits : Nat) (knownName newName : IndexType) :
    ByteLanguage HeaderField :=
  (integer type prefixBits).bind fun idx => strings
    { type := if idx % 2 ^ 32 > 0 then knownName else newName, index := idx % 2 ^ 32 }

/-- What follows the first byte of a field; nothing does behind a byte that is refused. -/
def fieldFrom (type : UInt8) : ByteLanguage (Option HeaderField) :=
  if type &&& 0x80 ≠ 0 then
    (integer type 7).map fun idx => some { type := .indexed, index := idx % 2 ^ 32 }
  else if type &&& 0x40 ≠ 0 then
    (literal type 6 .withIndexingIndexedName .withIndexingNewName).map some
  else if type &&& 0xF0 = 0 then
    (literal type 4 .withoutIndexingIndexedName .withoutIndexingNewName).map some
  else if type &&& 0x10 ≠ 0 then
    (literal type 4 .nerverIndexedIndexedName .nerverIndexedNewName).map some
  else .done none

def field : ByteLanguage (Option HeaderField) := ByteLanguage.byte.bind fieldFrom

theorem strings_follow (header : HeaderField) : Follows (readStrings header) (strings header) := by
  unfold readStrings strings
  by_cases known : header.index > 0
  · simp only [if_pos known]
    exact follows_map (fun value : Str => { header with value }) string_follows
  · simp only [if_neg known]
    exact follows_bind (fun (name : Str) ba => readString ba >>= fun read =>
        .ok ({ header with name, value := read.1 }, read.2)) string_follows fun name =>
      follows_map (fun value : Str => { header with name, value }) string_follows

theorem literal_follows (type : UInt8) (prefixBits : Nat) (knownName newName : IndexType) :
    Follows (fun ba => readLiteral ba type prefixBits knownName newName)
      (literal type prefixBits knownName newName) :=
  follows_bind (fun idx : Nat => readStrings
      { type := if idx % 2 ^ 32 > 0 then knownName else newName, index := idx % 2 ^ 32 })
    (integer_follows type prefixBits) fun _ => strings_follow _

theorem field_from_follows (type : UInt8) : Follows (readFieldFrom type) (fieldFrom type) := by
  have literals (prefixBits : Nat) (knownName newName : IndexType) :=
    follows_map some (literal_follows type prefixBits knownName newName)
  unfold readFieldFrom fieldFrom
  split_ifs
  · exact follows_map (fun idx : Nat =>
      some ({ type := .indexed, index := idx % 2 ^ 32 } : HeaderField)) (integer_follows type 7)
  · exact literals 6 _ _
  · exact literals 4 _ _
  · exact literals 4 _ _
  · exact follows_done none

theorem field_follows : Follows readField field :=
  follows_bind readFieldFrom follows_byte field_from_follows

/-- Whole fields, and then a byte that makes `parse` return -1 or a field that breaks it. -/
inductive HarmfulBlock : Str → Prop where
  | refused (type : UInt8) (rest : Str) (lower : 0x20 ≤ type) (upper : type < 0x30) :
      HarmfulBlock (type :: rest)
  | broken (text : Str) (harmful : field.harmful text) : HarmfulBlock text
  | later (front rest : Str) (header : HeaderField) (complete : field.complete front (some header))
      (harmful : HarmfulBlock rest) : HarmfulBlock (front ++ rest)

theorem refused_iff (type : UInt8) :
    0x20 ≤ type ∧ type < 0x30 ↔ ¬type &&& 0x80 ≠ 0 ∧ ¬type &&& 0x40 ≠ 0 ∧ ¬type &&& 0xF0 = 0 ∧
      ¬type &&& 0x10 ≠ 0 := by
  revert type
  apply byte_cases
  decide +kernel

theorem field_refused {type : UInt8} (lower : 0x20 ≤ type) (upper : type < 0x30) :
    field.complete [type] none := by
  obtain ⟨notIndexed, notIndexing, notWithout, notNever⟩ := (refused_iff type).mp ⟨lower, upper⟩
  refine ⟨[type], type, [], rfl, rfl, ?_⟩
  rw [fieldFrom, if_neg notIndexed, if_neg notIndexing, if_neg notWithout, if_neg notNever]
  exact ⟨rfl, rfl⟩

theorem refused_of_field {text : Str} (complete : field.complete text none) :
    ∃ type : UInt8, text = [type] ∧ 0x20 ≤ type ∧ type < 0x30 := by
  obtain ⟨front, type, back, rfl, rfl, complete⟩ := complete
  unfold fieldFrom at complete
  split_ifs at complete with indexed indexing without never
  · obtain ⟨_, _, impossible⟩ := complete
    cases impossible
  · obtain ⟨_, _, impossible⟩ := complete
    cases impossible
  · obtain ⟨_, _, impossible⟩ := complete
    cases impossible
  · obtain ⟨_, _, impossible⟩ := complete
    cases impossible
  · obtain ⟨rfl, _⟩ := complete
    exact ⟨type, rfl, (refused_iff type).mpr ⟨indexed, indexing, without, never⟩⟩

theorem field_ne_nil {text : Str} {value : Option HeaderField}
    (complete : field.complete text value) : text ≠ [] := by
  obtain ⟨front, type, back, rfl, rfl, _⟩ := complete
  exact List.cons_ne_nil _ _

theorem harmful_ne_nil {text : Str} (harmful : HarmfulBlock text) : text ≠ [] := by
  cases harmful with
  | refused => exact List.cons_ne_nil _ _
  | broken _ harmful =>
      rcases harmful with impossible | ⟨front, type, back, rfl, rfl, _⟩
      · exact impossible.elim
      · exact List.cons_ne_nil _ _
  | later front rest header complete =>
      exact List.append_ne_nil_of_left_ne_nil (field_ne_nil complete) _

/-- What one round of `parse` meets at the start of a harmful block. -/
theorem harmful_block_round {ba : ByteArray} (inv : Inv ba) (small : ba.unread.length < 2 ^ 28)
    (harmful : HarmfulBlock ba.unread) :
    (∃ after, readField ba = .ok (none, after)) ∨
      (∃ cause, readField ba = .error (.undefined cause)) ∨
      ∃ front rest header, ba.unread = front ++ rest ∧ HarmfulBlock rest ∧
        readField ba = .ok (some header, ba.skip front.length) := by
  generalize split : ba.unread = text at harmful
  cases harmful with
  | refused type rest lower upper =>
      have taken := field_follows.takes ba.endian [type] none (field_refused lower upper)
      exact .inl ⟨_, taken ba rest inv rfl split⟩
  | broken _ harmful =>
      rw [← split] at harmful
      exact .inr (.inl (field_follows.breaks ba inv small harmful))
  | later front rest header complete harmful =>
      have taken := field_follows.takes ba.endian front (some header) complete
      exact .inr (.inr ⟨front, rest, header, rfl, harmful, taken ba rest inv rfl split⟩)

/-- The call returns something other than -1, or throws. -/
def Tolerated {Value : Type} : Result (Int × Value) → Prop
  | .ok (rt, _) => rt ≠ -1
  | .error (.thrown _) => True
  | .error (.undefined _) => False
  | .error .aborted => False

theorem parse_loop_finished {ba : ByteArray} (inv : Inv ba) (none : ba.unread = []) {pos : Nat}
    (start : pos ≤ ba.position) (rounds : Nat) (hp : HPack) :
    Tolerated (parseLoop pos (ba.size - pos : Int) rounds hp ba (ba.position - pos : Int)) ↔
      ¬HarmfulBlock ba.unread := by
  have total := unread_length inv
  rw [none, List.length_nil, getReadSize] at total
  have finished : ¬(ba.position - pos : Int) < ba.size - pos := by omega
  have returned : parseLoop pos (ba.size - pos : Int) rounds hp ba (ba.position - pos : Int) =
      .ok ((ba.position - pos : Int), hp, ba) := by
    cases rounds with
    | zero => exact if_neg finished
    | succ rounds => exact if_neg finished
  rw [returned]
  constructor
  · intro _ harmful
    exact harmful_ne_nil harmful none
  · intro _
    change (ba.position - pos : Int) ≠ -1
    omega

/-- Behind a field that was read, the block is harmful when the rest is. -/
theorem harmful_behind {ba : ByteArray} {front rest : Str} {header : HeaderField} (inv : Inv ba)
    (small : ba.unread.length < 2 ^ 28) (split : ba.unread = front ++ rest)
    (complete : field.complete front (some header)) :
    HarmfulBlock ba.unread ↔ HarmfulBlock rest := by
  have taken := field_follows.takes ba.endian front (some header) complete ba rest inv rfl split
  constructor
  · intro harmful
    rcases harmful_block_round inv small harmful with
      ⟨after, read⟩ | ⟨cause, read⟩ | ⟨other, behind, found, otherSplit, harmful, read⟩
    · cases taken.symm.trans read
    · cases taken.symm.trans read
    · have position := congrArg (fun read : Option HeaderField × ByteArray => read.2.position)
        (Except.ok.inj (taken.symm.trans read))
      have length : front.length = other.length := Nat.add_left_cancel position
      have same := List.append_inj (split.symm.trans otherSplit) length
      rw [same.2]
      exact harmful
  · intro harmful
    rw [split]
    exact .later front rest header complete harmful

/-- The induction is on the rounds left; each takes a field of at least one byte. -/
theorem parse_loop_tolerated {pos : Nat} (rounds : Nat) :
    ∀ (hp : HPack) (ba : ByteArray), Inv ba → pos ≤ ba.position → ba.size - pos < 2 ^ 28 →
      ba.unread.length ≤ rounds →
      (Tolerated (parseLoop pos (ba.size - pos : Int) rounds hp ba (ba.position - pos : Int)) ↔
        ¬HarmfulBlock ba.unread) := by
  induction rounds with
  | zero =>
      intro hp ba inv start small enough
      exact parse_loop_finished inv (List.length_eq_zero_iff.mp (Nat.le_zero.mp enough)) start 0 hp
  | succ rounds induction =>
      intro hp ba inv start small enough
      have total := unread_length inv
      rw [getReadSize] at total
      by_cases none : ba.unread = []
      · exact parse_loop_finished inv none start _ hp
      have some := List.length_pos_iff.mpr none
      rw [parseLoop, if_pos (by omega)]
      rcases field_follows.otherwise ba inv (by omega) with
        ⟨front, value, rest, split, complete⟩ | harmful | ⟨exception, threw⟩
      · have taken := field_follows.takes ba.endian front value complete ba rest inv rfl split
        rw [taken, bind_ok]
        cases value with
        | none =>
            obtain ⟨type, rfl, lower, upper⟩ := refused_of_field complete
            constructor
            · exact fun returned => absurd rfl returned
            · intro harmless
              rw [split] at harmless
              exact absurd (.refused type rest lower upper) harmless
        | some header =>
            have positive := List.length_pos_iff.mpr (field_ne_nil complete)
            have bound := unread_bound inv split
            rw [split, List.length_append] at enough
            have moved : int32 (((ba.skip front.length).position : Int) - pos) =
                (ba.skip front.length).position - pos := by
              rw [skip_position]
              exact int32_eq (by omega) (by omega)
            rw [harmful_behind inv (by omega) split complete, ← skip_unread split]
            dsimp only
            rw [moved]
            exact induction _ (ba.skip front.length) (skip_inv inv split)
              (Nat.le_trans start (Nat.le_add_right _ _)) small (by rw [skip_unread split]; omega)
      · obtain ⟨cause, broke⟩ := field_follows.breaks ba inv (by omega) harmful
        rw [broke, bind_error]
        constructor
        · exact fun impossible => impossible.elim
        · intro harmless
          exact absurd (.broken _ harmful) harmless
      · rw [threw, bind_error]
        constructor
        · intro _ harmful
          rcases harmful_block_round inv (by omega) harmful with
            ⟨_, read⟩ | ⟨_, read⟩ | ⟨_, _, _, _, _, read⟩
          all_goals
            rw [threw] at read
            cases read
        · exact fun _ => trivial

/-- `parse(ba, length)` of the whole rest of a buffer, for any state of the decoder. -/
theorem parse_tolerated_iff (hp : HPack) (ba : ByteArray) (reachable : Reachable ba)
    (small : ba.unread.length < 2 ^ 28) :
    Tolerated (parse hp ba ba.unread.length) ↔ ¬HarmfulBlock ba.unread := by
  have inv := reachable_inv reachable
  have total := unread_length inv
  have inside := inv.positionLe
  rw [getReadSize] at total
  have length : (ba.unread.length : Int) = ba.size - ba.position := by omega
  have outcome := parse_loop_tolerated ba.unread.length hp ba inv (Nat.le_refl ba.position)
    (by omega) (Nat.le_refl _)
  rw [Int.sub_self] at outcome
  rw [parse, Int.toNat_natCast, length]
  exact outcome

/-- A dynamic table size update is among what is not tolerated. -/
theorem parse_tolerated_iff_size_update :
    ¬Tolerated (parse ⟨[], .new⟩ (ofData [0x20]) 1) :=
  fun tolerated => (parse_tolerated_iff ⟨[], .new⟩ (ofData [0x20])
    (.wrapped [0x20] (List.cons_ne_nil _ _)) (by decide)).mp tolerated
    (.refused 0x20 [] (by decide) (by decide))

end ChatServer.Http2
