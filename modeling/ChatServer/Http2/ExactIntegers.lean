import ChatServer.ByteArray.Buffers
import ChatServer.ByteArray.Cuts
import ChatServer.Http2.HPackSync

/-!
# The values of HPACK integers

An integer may have any number of bytes, while `ReadVarInt` adds up in 64 bits, `ReadString`
keeps the length in an `int` and `parse` the index in 32 bits. The decoder is described twice, with
these widths and without any, and the two are compared.
-/

namespace ChatServer.Http2

set_option autoImplicit false

open ChatServer.ByteArray

/-- The groups of seven bits behind a full prefix, lowest first: their value and how many bytes
they take. -/
def hpackGroups : Str → Option (Nat × Nat)
  | [] => none
  | byte :: rest =>
      if byte.toNat < 128 then some (byte.toNat, 1)
      else (hpackGroups rest).map fun read => (byte.toNat % 128 + 128 * read.1, read.2 + 1)

/-- The integer that starts with the byte `first`, and how many of the bytes behind it belong to
it. -/
def hpackInteger (first : UInt8) (prefixBits : Nat) (rest : Str) : Option (Nat × Nat) :=
  if first.toNat % 2 ^ prefixBits < 2 ^ prefixBits - 1 then some (first.toNat % 2 ^ prefixBits, 0)
  else (hpackGroups rest).map fun read => (2 ^ prefixBits - 1 + read.1, read.2)

structure Widths where
  /-- How many bytes there may be behind the first. -/
  room : Nat → Bool
  value : Nat → Nat
  length : Nat → Int
  index : Nat → Nat

def Widths.exact : Widths where
  room _ := true
  value := id
  length value := value
  index := id

/-- A `uint64_t` that is not shifted by 64 or more, an `int` and a `uint32_t`. -/
def Widths.machine : Widths where
  room count := count ≤ 10
  value value := value % 2 ^ 64
  length value := int32 value
  index value := value % 2 ^ 32

@[simp] theorem machine_length (value : Nat) : Widths.machine.length value = int32 value := by
  simp only [Widths.machine]

@[simp] theorem machine_value (value : Nat) : Widths.machine.value value = value % 2 ^ 64 := by
  simp only [Widths.machine]

theorem exact_length (value : Nat) : Widths.exact.length (Widths.exact.value value) = value := by
  simp only [Widths.exact, id]

@[simp] theorem machine_index (value : Nat) : Widths.machine.index value = value % 2 ^ 32 := by
  simp only [Widths.machine]

def groupsOutcome (room : Nat → Bool) (value : Nat → Nat) (available : Nat) :
    Option (Nat × Nat) → Result (Nat × Nat)
  | some (found, count) =>
      if room count then .ok (value found, count) else .error (.undefined .shiftTooWide)
  | none => if room available then .error (.thrown .outOfRange) else .error (.undefined .shiftTooWide)

def integerCut (widths : Widths) (first : UInt8) (prefixBits : Nat) : Cut Nat := fun rest =>
  groupsOutcome widths.room widths.value rest.length (hpackInteger first prefixBits rest)

theorem groups_inside (bytes : Str) : ∀ {value count : Nat},
    hpackGroups bytes = some (value, count) → 0 < count ∧ count ≤ bytes.length := by
  induction bytes with
  | nil =>
      intro value count found
      cases found
  | cons byte rest induction =>
      intro value count found
      rw [hpackGroups] at found
      by_cases last : byte.toNat < 128
      · rw [if_pos last] at found
        cases found
        exact ⟨Nat.one_pos, Nat.succ_le_succ (Nat.zero_le _)⟩
      · rw [if_neg last] at found
        rcases Option.map_eq_some_iff.mp found with ⟨⟨high, others⟩, later, same⟩
        cases same
        exact ⟨Nat.succ_pos _, Nat.succ_le_succ (induction later).2⟩

theorem integer_inside {first : UInt8} {prefixBits : Nat} {rest : Str} {value count : Nat}
    (found : hpackInteger first prefixBits rest = some (value, count)) : count ≤ rest.length := by
  rw [hpackInteger] at found
  split at found
  · cases found
    exact Nat.zero_le _
  · rcases Option.map_eq_some_iff.mp found with ⟨⟨high, others⟩, groups, same⟩
    cases same
    exact (groups_inside rest groups).2

theorem groups_outcome_ok {room : Nat → Bool} {value : Nat → Nat} {available : Nat}
    {found : Option (Nat × Nat)} {result count : Nat}
    (done : groupsOutcome room value available found = .ok (result, count)) :
    ∃ exact, found = some (exact, count) ∧ room count = true ∧ result = value exact := by
  cases found with
  | none =>
      rw [groupsOutcome] at done
      split at done <;> cases done
  | some read =>
      rcases read with ⟨exact, taken⟩
      rw [groupsOutcome] at done
      split at done
      · rename_i enough
        cases done
        exact ⟨exact, rfl, enough, rfl⟩
      · cases done

/-- One more group in front, in 64 bits. -/
theorem wrapped_group (iv low high m : Nat) :
    ((iv + low <<< m % 2 ^ 64) % 2 ^ 64 + high <<< (m + 7)) % 2 ^ 64 =
      (iv + (low + 128 * high) <<< m) % 2 ^ 64 := by
  rw [Nat.add_mod_mod, Nat.mod_add_mod, Nat.shiftLeft_eq, Nat.shiftLeft_eq, Nat.shiftLeft_eq,
    Nat.pow_add, Nat.add_assoc]
  congr 2
  ring

/-- The induction is on the rounds left before a shift by 64 or more. -/
theorem read_loop_eq (rounds : Nat) : ∀ (ba : ByteArray) (iv m : Nat), Inv ba →
    readVarIntLoop rounds ba iv m =
      groupsOutcome (fun count => count ≤ rounds) (fun value => (iv + value <<< m) % 2 ^ 64)
        ba.unread.length (hpackGroups ba.unread) >>= fun read => .ok (read.1, ba.skip read.2) := by
  induction rounds with
  | zero =>
      intro ba iv m inv
      rw [readVarIntLoop]
      cases front : ba.unread with
      | nil =>
          rw [read_fuint8_empty inv front]
          rfl
      | cons byte rest =>
          rw [read_fuint8_reads ba.endian byte ba rest inv rfl front, bind_ok]
          cases groups : hpackGroups (byte :: rest) with
          | none => rfl
          | some read =>
              have some := (groups_inside _ groups).1
              rw [groupsOutcome, if_neg (by simpa using Nat.ne_of_gt some)]
              rfl
  | succ rounds induction =>
      intro ba iv m inv
      rw [readVarIntLoop]
      cases front : ba.unread with
      | nil =>
          rw [read_fuint8_empty inv front]
          rfl
      | cons byte rest =>
          have moved : ba.unread = [byte] ++ rest := front
          have next := skip_inv inv moved
          have behind := skip_unread moved
          rw [read_fuint8_reads ba.endian byte ba rest inv rfl front, bind_ok, hpackGroups]
          dsimp only
          rw [low_bits_to_nat]
          by_cases last : byte.toNat < 128
          · rw [if_neg (by rw [high_bit_iff]; exact Nat.not_le.mpr last), if_pos last,
              Nat.mod_eq_of_lt last, Nat.add_mod_mod, groupsOutcome, if_pos (by simp), bind_ok]
            rfl
          · rw [if_pos (by rw [high_bit_iff]; exact Nat.not_lt.mp last), if_neg last,
              induction _ _ _ next, behind]
            cases hpackGroups rest with
            | none =>
                simp only [groupsOutcome, Option.map_none, List.length_cons, Nat.add_le_add_iff_right]
                split <;> rfl
            | some read =>
                simp only [groupsOutcome, Option.map_some, Nat.add_le_add_iff_right, wrapped_group]
                split
                · rw [bind_ok, bind_ok, skip_skip, List.length_singleton, Nat.add_comm 1]
                · rfl

theorem integer_cuts (first : UInt8) {prefixBits : Nat} (upper : prefixBits ≤ 8) :
    Cuts (fun ba => readVarIntFrom ba first prefixBits)
      (integerCut .machine first prefixBits) where
  bounded := by
    intro bytes value count taken
    rcases groups_outcome_ok taken with ⟨exact, found, _, _⟩
    exact integer_inside found
  reads := by
    intro ba inv
    rw [read_var_int_from_eq upper, integerCut, hpackInteger]
    have positive := Nat.two_pow_pos prefixBits
    have power : 2 ^ prefixBits ≤ 2 ^ 8 := Nat.pow_le_pow_right (by decide) upper
    by_cases short : first.toNat % 2 ^ prefixBits < 2 ^ prefixBits - 1
    · have small : first.toNat % 2 ^ prefixBits % 2 ^ 64 = first.toNat % 2 ^ prefixBits :=
        Nat.mod_eq_of_lt (by omega)
      rw [if_pos short, if_pos short, groupsOutcome, if_pos (by rfl), bind_ok, skip_zero inv]
      change _ = Except.ok (first.toNat % 2 ^ prefixBits % 2 ^ 64, ba)
      rw [small]
    · have full : first.toNat % 2 ^ prefixBits = 2 ^ prefixBits - 1 := by
        have below := Nat.mod_lt first.toNat positive
        omega
      rw [if_neg short, if_neg short, read_loop_eq 10 ba _ _ inv, full]
      cases hpackGroups ba.unread with
      | none => rfl
      | some read =>
          simp only [groupsOutcome, Option.map_some, Nat.shiftLeft_zero]
          rfl

def varIntCut (widths : Widths) (prefixBits : Nat) : Cut Nat :=
  Cut.byte.bind fun first => integerCut widths first prefixBits

theorem var_int_cuts {prefixBits : Nat} (upper : prefixBits ≤ 8) :
    Cuts (fun ba => readVarInt ba prefixBits) (varIntCut .machine prefixBits) :=
  cuts_bind (fun first ba => readVarIntFrom ba first prefixBits) cuts_byte fun first =>
    integer_cuts first upper

/-- The bytes of a string of `len` bytes; the first byte of its length tells how they are
coded. -/
def textCut (type : UInt8) (len : Int) : Cut Str := fun bytes =>
  if len = 0 then .ok ([], 0)
  else if len < 0 then .error (.thrown .lengthError)
  else if bytes.length < len then .error (.thrown .outOfRange)
  else if type &&& 0x80 ≠ 0 then do
    let (_, out) ← decodeString (bytes.take len.toNat) []
    .ok (out, len.toNat)
  else .ok (bytes.take len.toNat, len.toNat)

def stringCut (widths : Widths) : Cut Str :=
  Cut.byte.bind fun type => (integerCut widths type 7).bind fun len =>
    textCut type (widths.length len)

def stringsCut (widths : Widths) (header : HeaderField) : Cut HeaderField :=
  if header.index > 0 then (stringCut widths).map fun value => { header with value }
  else (stringCut widths).bind fun name =>
    (stringCut widths).map fun value => { header with name, value }

def literalHeader (knownName newName : IndexType) (idx : Nat) : HeaderField :=
  { type := if idx > 0 then knownName else newName, index := idx }

def literalCut (widths : Widths) (type : UInt8) (prefixBits : Nat) (knownName newName : IndexType) :
    Cut HeaderField :=
  (integerCut widths type prefixBits).bind fun idx =>
    stringsCut widths (literalHeader knownName newName (widths.index idx))

def literalForm (type : UInt8) : Option (Nat × IndexType × IndexType) :=
  if type &&& 0x40 ≠ 0 then some (6, .withIndexingIndexedName, .withIndexingNewName)
  else if type &&& 0xF0 = 0 then some (4, .withoutIndexingIndexedName, .withoutIndexingNewName)
  else if type &&& 0x10 ≠ 0 then some (4, .nerverIndexedIndexedName, .nerverIndexedNewName)
  else none

def fieldFromCut (widths : Widths) (type : UInt8) : Cut (Option HeaderField) :=
  if type &&& 0x80 ≠ 0 then
    (integerCut widths type 7).map fun idx =>
      some { type := .indexed, index := widths.index idx }
  else match literalForm type with
    | some (prefixBits, knownName, newName) =>
        (literalCut widths type prefixBits knownName newName).map some
    | none => Cut.done none

def fieldCut (widths : Widths) : Cut (Option HeaderField) := Cut.byte.bind (fieldFromCut widths)

theorem text_cut_some {type : UInt8} {count : Nat} (positive : count ≠ 0) {bytes : Str}
    (enough : count ≤ bytes.length) :
    textCut type count bytes = if type &&& 0x80 ≠ 0 then do
        let (_, out) ← decodeString (bytes.take count) []
        .ok (out, count)
      else .ok (bytes.take count, count) := by
  rw [textCut, if_neg (by omega), if_neg (by omega), if_neg (by omega), Int.toNat_natCast]

theorem text_cuts (type : UInt8) (len : Int) :
    Cuts (readStringData type len) (textCut type len) where
  bounded := by
    intro bytes value count taken
    unfold textCut at taken
    split at taken
    · cases taken
      exact Nat.zero_le _
    split at taken
    · cases taken
    split at taken
    · cases taken
    split at taken
    · rcases bind_eq_ok taken with ⟨decoded, _, same⟩
      cases same
      omega
    · cases taken
      omega
  reads := by
    intro ba inv
    by_cases zero : len = 0
    · rw [readStringData, textCut, if_neg (by omega), if_pos zero, bind_ok, skip_zero inv]
    by_cases negative : len < 0
    · rw [readStringData, textCut, if_pos zero, if_neg zero, if_pos negative, resize,
        if_pos negative]
      rfl
    rcases Int.eq_ofNat_of_zero_le (Int.not_lt.mp negative) with ⟨count, same⟩
    rw [same] at zero ⊢
    rw [readStringData, if_pos zero, resize, if_neg (by omega), bind_ok, Int.toNat_natCast]
    by_cases short : ba.unread.length < count
    · rw [textCut, if_neg zero, if_neg (by omega), if_pos (by omega)]
      rw [unread_length inv] at short
      rw [read_short short]
      rfl
    · have split := (List.take_append_drop count ba.unread).symm
      have length : (ba.unread.take count).length = count := by
        rw [List.length_take]
        omega
      have some : ba.unread.take count ≠ [] := by
        apply List.ne_nil_of_length_pos
        omega
      have taken := read_unread inv split some
      rw [length] at taken
      rw [text_cut_some (by omega) (Nat.not_lt.mp short), taken, bind_ok]
      dsimp only
      split
      · cases decodeString (ba.unread.take count) [] with
        | error fault => rfl
        | ok read => rfl
      · rfl

theorem string_cuts : Cuts readString (stringCut .machine) := by
  apply cuts_bind (fun type ba => readVarIntFrom ba type 7 >>= fun read =>
    readStringData type (int32 read.1) read.2) cuts_byte
  intro type
  apply cuts_bind (fun len : Nat => readStringData type (int32 len)) (integer_cuts type (by decide))
  intro len
  rw [machine_length]
  exact text_cuts type (int32 len)

theorem strings_cut (header : HeaderField) :
    Cuts (readStrings header) (stringsCut .machine header) := by
  unfold readStrings stringsCut
  by_cases known : header.index > 0
  · simp only [if_pos known]
    exact cuts_map (fun value : Str => { header with value }) string_cuts
  · simp only [if_neg known]
    exact cuts_bind (fun (name : Str) ba => readString ba >>= fun read =>
        .ok ({ header with name, value := read.1 }, read.2)) string_cuts fun name =>
      cuts_map (fun value : Str => { header with name, value }) string_cuts

theorem literal_cuts (type : UInt8) {prefixBits : Nat} (upper : prefixBits ≤ 8)
    (knownName newName : IndexType) :
    Cuts (fun ba => readLiteral ba type prefixBits knownName newName)
      (literalCut .machine type prefixBits knownName newName) :=
  cuts_bind (fun idx : Nat => readStrings (literalHeader knownName newName (idx % 2 ^ 32)))
    (integer_cuts type upper) fun _ => strings_cut _

theorem field_from_cuts (type : UInt8) : Cuts (readFieldFrom type) (fieldFromCut .machine type) := by
  unfold readFieldFrom fieldFromCut literalForm
  split_ifs
  · exact cuts_map (fun idx : Nat =>
      some ({ type := .indexed, index := idx % 2 ^ 32 } : HeaderField))
      (integer_cuts type (by decide))
  · exact cuts_map some (literal_cuts type (by decide) _ _)
  · exact cuts_map some (literal_cuts type (by decide) _ _)
  · exact cuts_map some (literal_cuts type (by decide) _ _)
  · exact cuts_done none

theorem field_cuts : Cuts readField (fieldCut .machine) :=
  cuts_bind readFieldFrom cuts_byte field_from_cuts

/-- The outcome is not that of a shift by 64 or more. -/
def Defined {Value : Type} (outcome : Result Value) : Prop :=
  outcome ≠ .error (.undefined .shiftTooWide)

theorem defined_ok {Value : Type} (value : Value) : Defined (.ok value) := by
  intro shifted
  cases shifted

theorem defined_bind {Value Next : Type} {first : Result Value} {next : Value → Result Next}
    (left : Defined first) (right : ∀ value, Defined (next value)) : Defined (first >>= next) := by
  cases first with
  | error fault =>
      intro shifted
      cases shifted
      exact left rfl
  | ok value => exact right value

theorem checked_int_defined (value : Int) : Defined (checkedInt value) := by
  intro shifted
  unfold checkedInt at shifted
  split at shifted <;> cases shifted

theorem resize_defined (text : Str) (length : Int) : Defined (resize text length) := by
  intro shifted
  unfold resize at shifted
  split at shifted <;> cases shifted

theorem decode_whole_defined (root : Node) (outSz : Int) (fuel : Nat) :
    ∀ d, Defined (decodeWhole root outSz fuel d) := by
  induction fuel with
  | zero =>
      intro d shifted
      rw [decodeWhole] at shifted
      split at shifted <;> cases shifted
  | succ fuel induction =>
      intro d shifted
      rw [decodeWhole] at shifted
      split at shifted
      · split at shifted
        · cases shifted
        · split at shifted
          · split at shifted
            · cases shifted
            · exact induction _ shifted
          · exact induction _ shifted
      · cases shifted

theorem decode_bytes_defined (root : Node) (outSz : Int) (enc : Str) :
    ∀ d, Defined (decodeBytes root outSz enc d) := by
  induction enc with
  | nil => exact fun d => defined_ok _
  | cons byte enc induction =>
      intro d
      apply defined_bind (decode_whole_defined root outSz _ _)
      intro next
      cases next with
      | error stopped => exact defined_ok _
      | ok d => exact induction d

theorem decode_tail_defined (root : Node) (fuel : Nat) : ∀ d, Defined (decodeTail root fuel d) := by
  induction fuel with
  | zero =>
      intro d shifted
      rw [decodeTail] at shifted
      split at shifted <;> cases shifted
  | succ fuel induction =>
      intro d shifted
      rw [decodeTail] at shifted
      split at shifted
      · split at shifted
        · cases shifted
        · split at shifted
          · cases shifted
          · exact induction _ shifted
      · cases shifted

theorem decode_string_defined (input out : Str) : Defined (decodeString input out) := by
  apply defined_bind (checked_int_defined _)
  intro len
  apply defined_bind (resize_defined _ _)
  intro buffer
  apply defined_bind
  · apply defined_bind (decode_bytes_defined _ _ _ _)
    intro whole
    cases whole with
    | error stopped => exact defined_ok _
    | ok d => exact defined_bind (decode_tail_defined _ _ d) fun last => defined_ok _
  · intro decoded
    exact defined_bind (resize_defined _ _) fun text => defined_ok _

theorem text_defined (type : UInt8) (len : Int) (bytes : Str) : Defined (textCut type len bytes) := by
  unfold textCut
  split
  · exact defined_ok _
  split
  · intro shifted
    cases shifted
  split
  · intro shifted
    cases shifted
  split
  · exact defined_bind (decode_string_defined _ _) fun decoded => defined_ok _
  · exact defined_ok _

structure Exact {Value : Type} (machine exact : Cut Value) (bytes : Str) : Prop where
  defined : Defined (machine bytes)
  same : ∀ read, machine bytes = .ok read → exact bytes = .ok read

/-- The reader fails, or returns what the exact decoder finds and stands behind it. -/
structure ExactOrFails {Value : Type} (reader : ByteArray → Result (Value × ByteArray))
    (exact : Cut Value) (ba : ByteArray) : Prop where
  defined : Defined (reader ba)
  same : ∀ value after, reader ba = .ok (value, after) →
    ∃ count, exact ba.unread = .ok (value, count) ∧ after = ba.skip count

theorem exact_or_fails_iff {Value : Type} {reader : ByteArray → Result (Value × ByteArray)}
    {machine : Cut Value} (cuts : Cuts reader machine) (exact : Cut Value) {ba : ByteArray}
    (inv : Inv ba) : ExactOrFails reader exact ba ↔ Exact machine exact ba.unread := by
  have reads := cuts.reads ba inv
  cases taken : machine ba.unread with
  | error fault =>
      have failed : reader ba = .error fault := by rw [reads, taken, bind_error]
      constructor
      · intro right
        refine ⟨?_, ?_⟩
        · intro shifted
          rw [taken] at shifted
          cases shifted
          exact right.defined failed
        intro read found
        rw [taken] at found
        cases found
      · intro right
        refine ⟨?_, ?_⟩
        · intro shifted
          rw [failed] at shifted
          cases shifted
          exact right.defined taken
        intro value after found
        rw [failed] at found
        cases found
  | ok read =>
      have returned : reader ba = .ok (read.1, ba.skip read.2) := by rw [reads, taken, bind_ok]
      constructor
      · intro right
        refine ⟨by rw [taken]; exact defined_ok _, ?_⟩
        intro other found
        rw [taken] at found
        rcases right.same _ _ returned with ⟨count, agreed, moved⟩
        have position := congrArg ByteArray.position moved
        rw [skip_position, skip_position] at position
        rw [agreed, ← Nat.add_left_cancel position]
        exact found
      · intro right
        refine ⟨by rw [returned]; exact defined_ok _, ?_⟩
        intro value after found
        rw [returned] at found
        cases found
        exact ⟨read.2, right.same read taken, rfl⟩

section Composition

variable {Value Next : Type}

theorem exact_of_thrown {machine exact : Cut Value} {bytes : Str} {exception : CppException}
    (threw : machine bytes = .error (.thrown exception)) : Exact machine exact bytes where
  defined := by
    rw [threw]
    intro shifted
    cases shifted
  same := by
    intro read found
    rw [threw] at found
    cases found

theorem exact_of_same {machine exact : Cut Value} {bytes : Str} {read : Value × Nat}
    (found : machine bytes = .ok read) (agreed : exact bytes = .ok read) :
    Exact machine exact bytes where
  defined := by
    rw [found]
    exact defined_ok read
  same := by
    intro other again
    rw [agreed]
    rwa [found] at again

theorem exact_bind {first exactFirst : Cut Value} {second exactSecond : Value → Cut Next} {bytes : Str}
    (left : Exact first exactFirst bytes)
    (right : ∀ value count, first bytes = .ok (value, count) →
      Exact (second value) (exactSecond value) (bytes.drop count)) :
    Exact (first.bind second) (exactFirst.bind exactSecond) bytes := by
  cases taken : first bytes with
  | error fault =>
      have failed := Cut.bind_of_error taken second
      refine ⟨?_, ?_⟩
      · rw [failed]
        intro shifted
        cases shifted
        exact left.defined taken
      · intro read found
        rw [failed] at found
        cases found
  | ok read =>
      have next := right read.1 read.2 taken
      refine ⟨?_, ?_⟩
      · rw [Cut.bind_of_ok taken]
        exact defined_bind next.defined fun more => defined_ok _
      · intro total found
        rw [Cut.bind_of_ok taken] at found
        rcases bind_eq_ok found with ⟨more, behind, same⟩
        rw [Cut.bind_of_ok (left.same _ taken), next.same more behind, bind_ok]
        exact same

theorem byte_bind_cons (second : UInt8 → Cut Next) (first : UInt8) (rest : Str) :
    Cut.byte.bind second (first :: rest) =
      (second first rest >>= fun read => .ok (read.1, 1 + read.2)) := rfl

theorem exact_byte_nil (second exactSecond : UInt8 → Cut Next) :
    Exact (Cut.byte.bind second) (Cut.byte.bind exactSecond) [] where
  defined := by
    intro shifted
    cases shifted
  same := by
    intro read found
    cases found

theorem exact_byte_cons {second exactSecond : UInt8 → Cut Next} {first : UInt8} {rest : Str} :
    Exact (Cut.byte.bind second) (Cut.byte.bind exactSecond) (first :: rest) ↔
      Exact (second first) (exactSecond first) rest := by
  constructor
  · intro right
    have defined := right.defined
    have same := right.same
    rw [byte_bind_cons] at defined same
    constructor
    · intro shifted
      rw [shifted] at defined
      exact defined rfl
    · intro read found
      have whole := same (read.1, 1 + read.2) (by rw [found, bind_ok])
      rw [byte_bind_cons] at whole
      rcases bind_eq_ok whole with ⟨other, agreed, pair⟩
      rcases Prod.mk.inj (Except.ok.inj pair) with ⟨value, count⟩
      rw [agreed, Prod.ext value (Nat.add_left_cancel count)]
  · intro right
    exact exact_bind ⟨defined_ok _, fun _ found => found⟩ fun value count taken => by
      cases taken
      exact right

end Composition

/-- The integer has at most ten bytes behind the first and stays below the limit. -/
def IntegerBelow (limit : Nat) (first : UInt8) (prefixBits : Nat) (rest : Str) : Prop :=
  match hpackInteger first prefixBits rest with
  | some (value, count) => count ≤ 10 ∧ value < limit
  | none => rest.length ≤ 10

theorem machine_integer_none {first : UInt8} {prefixBits : Nat} {rest : Str}
    (none : hpackInteger first prefixBits rest = none) :
    integerCut .machine first prefixBits rest = if rest.length ≤ 10 then
      .error (.thrown .outOfRange) else .error (.undefined .shiftTooWide) := by
  simp only [integerCut, none, groupsOutcome, Widths.machine, decide_eq_true_eq]

theorem machine_integer_some {first : UInt8} {prefixBits : Nat} {rest : Str} {value count : Nat}
    (found : hpackInteger first prefixBits rest = some (value, count)) :
    integerCut .machine first prefixBits rest = if count ≤ 10 then
      .ok (value % 2 ^ 64, count) else .error (.undefined .shiftTooWide) := by
  simp only [integerCut, found, groupsOutcome, Widths.machine, decide_eq_true_eq]

theorem exact_integer_some {first : UInt8} {prefixBits : Nat} {rest : Str} {value count : Nat}
    (found : hpackInteger first prefixBits rest = some (value, count)) :
    integerCut .exact first prefixBits rest = .ok (value, count) := by
  simp only [integerCut, found, groupsOutcome, Widths.exact, if_true, id]

theorem integer_exact_iff (first : UInt8) (prefixBits : Nat) (rest : Str) :
    Exact (integerCut .machine first prefixBits) (integerCut .exact first prefixBits) rest ↔
      IntegerBelow (2 ^ 64) first prefixBits rest := by
  unfold IntegerBelow
  cases found : hpackInteger first prefixBits rest with
  | none =>
      have machine := machine_integer_none found
      by_cases short : rest.length ≤ 10
      · rw [if_pos short] at machine
        exact ⟨fun _ => short, fun _ => exact_of_thrown machine⟩
      · rw [if_neg short] at machine
        exact ⟨fun right => absurd machine right.defined, fun fits => absurd fits short⟩
  | some read =>
      rcases read with ⟨value, count⟩
      have machine := machine_integer_some found
      have exact := exact_integer_some found
      by_cases short : count ≤ 10
      · rw [if_pos short] at machine
        constructor
        · intro right
          have same := right.same _ machine
          rw [exact] at same
          have own : value = value % 2 ^ 64 := (Prod.mk.inj (Except.ok.inj same)).1
          refine ⟨short, ?_⟩
          rw [own]
          exact Nat.mod_lt _ (Nat.two_pow_pos 64)
        · intro fits
          rw [Nat.mod_eq_of_lt fits.2] at machine
          exact exact_of_same machine exact
      · rw [if_neg short] at machine
        exact ⟨fun right => absurd machine right.defined, fun fits => absurd fits.1 short⟩

theorem int32_mod (value : Nat) : int32 ((value % 2 ^ 64 : Nat) : Int) = int32 value := by
  have split : (value : Int) = ((value % 2 ^ 64 : Nat) : Int) + 2 ^ 32 * (2 ^ 32 * (value / 2 ^ 64)) := by
    omega
  rw [split, int32_add_turns]

/-- The length of a string is right, or what its low bits say makes the string fail. -/
def StringFits : Str → Prop
  | [] => True
  | type :: rest =>
      match hpackInteger type 7 rest with
      | some (length, count) => count ≤ 10 ∧
          (length < 2 ^ 31 ∨ (textCut type (int32 length) (rest.drop count)).isOk = false)
      | none => rest.length ≤ 10

theorem text_cut_count {type : UInt8} {len : Int} {bytes : Str} {read : Str × Nat}
    (taken : textCut type len bytes = .ok read) : (read.2 : Int) = len := by
  unfold textCut at taken
  split at taken
  · rename_i zero
    cases taken
    rw [zero]
    rfl
  split at taken
  · cases taken
  split at taken
  · cases taken
  split at taken
  · rcases bind_eq_ok taken with ⟨decoded, _, same⟩
    cases same
    omega
  · cases taken
    omega

theorem not_ok_of_refused {Value : Type} {outcome : Result Value} (refused : outcome.isOk = false)
    (read : Value) : outcome ≠ .ok read := by
  intro returned
  rw [returned] at refused
  cases refused

theorem string_exact_iff (bytes : Str) :
    Exact (stringCut .machine) (stringCut .exact) bytes ↔ StringFits bytes := by
  cases bytes with
  | nil => exact ⟨fun _ => trivial, fun _ => exact_byte_nil _ _⟩
  | cons type rest =>
      rw [stringCut, stringCut, exact_byte_cons, StringFits]
      cases found : hpackInteger type 7 rest with
      | none =>
          have machine := machine_integer_none found
          by_cases short : rest.length ≤ 10
          · rw [if_pos short] at machine
            exact ⟨fun _ => short, fun _ => exact_of_thrown (Cut.bind_of_error machine _)⟩
          · rw [if_neg short] at machine
            exact ⟨fun right => absurd (Cut.bind_of_error machine _) right.defined,
              fun fits => absurd fits short⟩
      | some read =>
          rcases read with ⟨length, count⟩
          have machine := machine_integer_some found
          by_cases short : count ≤ 10
          · rw [if_pos short] at machine
            have machineText := Cut.bind_of_ok machine fun len => textCut type (Widths.machine.length len)
            have exactText := Cut.bind_of_ok (exact_integer_some found) fun len =>
              textCut type (Widths.exact.length len)
            rw [machine_length, int32_mod] at machineText
            change _ = (textCut type length (rest.drop count) >>= _) at exactText
            constructor
            · intro right
              refine ⟨short, ?_⟩
              by_cases small : length < 2 ^ 31
              · exact Or.inl small
              · right
                cases taken : textCut type (int32 length) (rest.drop count) with
                | error fault => rfl
                | ok text =>
                    rw [taken, bind_ok] at machineText
                    have agreed := right.same _ machineText
                    rw [exactText] at agreed
                    rcases bind_eq_ok agreed with ⟨other, otherTaken, same⟩
                    have counts := (Prod.mk.inj (Except.ok.inj same)).2
                    have own := text_cut_count taken
                    have exactly := text_cut_count otherTaken
                    have bound := (int32_bounds length).2
                    omega
            · intro fits
              constructor
              · rw [machineText]
                exact defined_bind (text_defined _ _ _) fun text => defined_ok _
              · intro total taken
                rw [machineText] at taken
                rcases fits.2 with small | refused
                · rw [int32_of_small small] at taken
                  rw [exactText]
                  exact taken
                · rcases bind_eq_ok taken with ⟨text, textTaken, _⟩
                  exact absurd textTaken (not_ok_of_refused refused text)
          · rw [if_neg short] at machine
            exact ⟨fun right => absurd (Cut.bind_of_error machine _) right.defined,
              fun fits => absurd fits.1 short⟩

def fieldPrefix (type : UInt8) : Option Nat :=
  if type &&& 0x80 ≠ 0 then some 7 else (literalForm type).map Prod.fst

/-- The field that is read has the index that stands there. -/
def IndexExact (ba : ByteArray) : Prop :=
  ∀ header after, readField ba = .ok (some header, after) →
    ∃ type rest prefixBits value count, ba.unread = type :: rest ∧
      fieldPrefix type = some prefixBits ∧
      hpackInteger type prefixBits rest = some (value, count) ∧ header.index = value

/-- The index is right, or the strings behind it fail. -/
def IndexFits : Str → Prop
  | [] => True
  | type :: rest => ∀ prefixBits value count, fieldPrefix type = some prefixBits →
      hpackInteger type prefixBits rest = some (value, count) → count ≤ 10 →
        value < 2 ^ 32 ∨ type &&& 0x80 = 0 ∧
          (stringsCut .machine { index := value % 2 ^ 32 } (rest.drop count)).isOk = false

theorem strings_cut_index {widths : Widths} {header read : HeaderField} {bytes : Str} {count : Nat}
    (taken : stringsCut widths header bytes = .ok (read, count)) : read.index = header.index := by
  unfold stringsCut at taken
  split at taken
  · rcases Cut.map_taken taken with ⟨value, _, same⟩
    rw [← same]
  · rcases Cut.bind_taken taken with ⟨name, front, back, _, rest, _⟩
    rcases Cut.map_taken rest with ⟨value, _, same⟩
    rw [← same]

/-- Whether the strings can be read depends on the index alone. -/
theorem strings_cut_ok {widths : Widths} {header other : HeaderField} {bytes : Str}
    (same : header.index = other.index) :
    (stringsCut widths header bytes).isOk = (stringsCut widths other bytes).isOk := by
  unfold stringsCut
  rw [same]
  by_cases known : other.index > 0
  · rw [if_pos known, if_pos known, Cut.map, Cut.map, Cut.bind, Cut.bind]
    cases stringCut widths bytes <;> rfl
  · rw [if_neg known, if_neg known, Cut.bind, Cut.bind]
    cases stringCut widths bytes with
    | error fault => rfl
    | ok read =>
        simp only [bind_ok, Cut.map, Cut.bind]
        cases stringCut widths (bytes.drop read.2) <;> rfl

theorem machine_integer_ok {first : UInt8} {prefixBits : Nat} {rest : Str} {idx count : Nat}
    (taken : integerCut .machine first prefixBits rest = .ok (idx, count)) :
    ∃ value, hpackInteger first prefixBits rest = some (value, count) ∧ count ≤ 10 ∧
      idx % 2 ^ 32 = value % 2 ^ 32 := by
  rcases groups_outcome_ok taken with ⟨value, found, room, same⟩
  refine ⟨value, found, of_decide_eq_true room, ?_⟩
  rw [same]
  change value % 2 ^ 64 % 2 ^ 32 = _
  omega

/-- A field that is read, with its index cut to 32 bits. -/
theorem field_cut_index {type : UInt8} {rest : Str} {header : HeaderField} {total : Nat}
    (taken : fieldFromCut .machine type rest = .ok (some header, total)) :
    ∃ prefixBits value count, fieldPrefix type = some prefixBits ∧
      hpackInteger type prefixBits rest = some (value, count) ∧ count ≤ 10 ∧
      header.index = value % 2 ^ 32 ∧ (type &&& 0x80 = 0 →
        (stringsCut .machine { index := value % 2 ^ 32 } (rest.drop count)).isOk = true) := by
  unfold fieldFromCut at taken
  unfold fieldPrefix
  by_cases indexed : type &&& 0x80 ≠ 0
  · rw [if_pos indexed] at taken ⊢
    rcases Cut.map_taken taken with ⟨idx, read, same⟩
    rcases machine_integer_ok read with ⟨value, found, short, low⟩
    refine ⟨7, value, total, rfl, found, short, ?_, fun literal => absurd literal indexed⟩
    rw [← low, ← Option.some.inj same, machine_index]
  · rw [if_neg indexed] at taken ⊢
    cases form : literalForm type with
    | none =>
        rw [form] at taken
        cases taken
    | some kinds =>
        rcases kinds with ⟨prefixBits, knownName, newName⟩
        rw [form] at taken
        rcases Cut.map_taken taken with ⟨literal, read, same⟩
        rcases Cut.bind_taken read with ⟨idx, count, more, front, back, _⟩
        rcases machine_integer_ok front with ⟨value, found, short, low⟩
        rw [machine_index, low] at back
        have index := strings_cut_index back
        rw [Option.some.inj same] at index
        refine ⟨prefixBits, value, count, rfl, found, short, index, ?_⟩
        intro _
        have indexed : ({ index := value % 2 ^ 32 } : HeaderField).index =
          (literalHeader knownName newName (value % 2 ^ 32)).index := rfl
        rw [strings_cut_ok indexed, back]
        rfl

/-- A field whose index and strings can be read is read. -/
theorem field_cut_ok {type : UInt8} {rest : Str} {prefixBits value count : Nat}
    (form : fieldPrefix type = some prefixBits)
    (found : hpackInteger type prefixBits rest = some (value, count)) (short : count ≤ 10)
    (strings : type &&& 0x80 = 0 →
      (stringsCut .machine { index := value % 2 ^ 32 } (rest.drop count)).isOk = true) :
    ∃ header total, fieldFromCut .machine type rest = .ok (some header, total) ∧
      header.index = value % 2 ^ 32 := by
  have read := machine_integer_some found
  rw [if_pos short] at read
  have low : value % 2 ^ 64 % 2 ^ 32 = value % 2 ^ 32 := by omega
  unfold fieldPrefix at form
  unfold fieldFromCut
  by_cases indexed : type &&& 0x80 ≠ 0
  · rw [if_pos indexed] at form ⊢
    cases form
    refine ⟨_, count, Cut.map_of_ok read _, ?_⟩
    rw [machine_index, low]
  · rw [if_neg indexed] at form ⊢
    rcases Option.map_eq_some_iff.mp form with ⟨⟨bits, knownName, newName⟩, kinds, same⟩
    cases same
    rw [kinds]
    have index : ({ index := value % 2 ^ 32 } : HeaderField).index =
      (literalHeader knownName newName (value % 2 ^ 32)).index := rfl
    have readable := strings (not_not.mp indexed)
    rw [strings_cut_ok index] at readable
    cases taken : stringsCut .machine (literalHeader knownName newName (value % 2 ^ 32))
        (rest.drop count) with
    | error fault =>
        rw [taken] at readable
        cases readable
    | ok strings =>
        refine ⟨strings.1, count + strings.2, ?_, strings_cut_index taken⟩
        apply Cut.map_of_ok
        rw [literalCut, Cut.bind_of_ok read, machine_index, low, taken, bind_ok]

theorem inexact_index {ba : ByteArray} {type : UInt8} {rest : Str} {prefixBits value count : Nat}
    (reads : readField ba = (fieldFromCut .machine type rest >>= fun read =>
      .ok (read.1, 1 + read.2)) >>= fun read => .ok (read.1, ba.skip read.2))
    (cut : ∃ header total, fieldFromCut .machine type rest = .ok (some header, total) ∧
      header.index = value % 2 ^ 32) (form : fieldPrefix type = some prefixBits)
    (found : hpackInteger type prefixBits rest = some (value, count))
    (right : ∀ header after, readField ba = .ok (some header, after) →
      ∃ first others bits exact taken, type :: rest = first :: others ∧ fieldPrefix first = some bits ∧
        hpackInteger first bits others = some (exact, taken) ∧ header.index = exact) :
    value < 2 ^ 32 := by
  rcases cut with ⟨header, total, taken, index⟩
  rw [taken, bind_ok, bind_ok] at reads
  rcases right _ _ reads with ⟨first, others, bits, exact, some, same, otherForm, otherFound, agreed⟩
  rcases List.cons.inj same with ⟨firstSame, othersSame⟩
  rw [← firstSame, form] at otherForm
  rw [← firstSame, ← othersSame, ← Option.some.inj otherForm, found] at otherFound
  have own : value = exact := (Prod.mk.inj (Option.some.inj otherFound)).1
  rw [own, ← agreed, index]
  exact Nat.mod_lt _ (Nat.two_pow_pos 32)

theorem index_exact_iff {ba : ByteArray} (inv : Inv ba) : IndexExact ba ↔ IndexFits ba.unread := by
  have reads := field_cuts.reads ba inv
  unfold IndexExact
  cases front : ba.unread with
  | nil =>
      rw [front] at reads
      refine ⟨fun _ => trivial, fun _ => ?_⟩
      intro header after read
      rw [reads] at read
      cases read
  | cons type rest =>
      rw [front, fieldCut, byte_bind_cons] at reads
      constructor
      · intro right prefixBits value count form found short
        by_cases small : value < 2 ^ 32
        · exact Or.inl small
        · right
          by_cases literal : type &&& 0x80 = 0
          · refine ⟨literal, ?_⟩
            cases readable : (stringsCut .machine { index := value % 2 ^ 32 }
                (rest.drop count)).isOk with
            | false => rfl
            | true =>
                have cut := field_cut_ok form found short fun _ => readable
                exact absurd (inexact_index reads cut form found right) small
          · have cut := field_cut_ok form found short fun zero => absurd zero literal
            exact absurd (inexact_index reads cut form found right) small
      · intro fits header after read
        rw [reads] at read
        rcases bind_eq_ok read with ⟨⟨field, total⟩, taken, same⟩
        rcases bind_eq_ok taken with ⟨⟨own, more⟩, behind, pair⟩
        cases pair
        cases same
        rcases field_cut_index behind with ⟨prefixBits, value, count, form, found, short, index, ok⟩
        refine ⟨type, rest, prefixBits, value, count, rfl, form, found, ?_⟩
        rcases fits prefixBits value count form found short with small | refused
        · rw [index, Nat.mod_eq_of_lt small]
        · rw [ok refused.1] at refused
          cases refused.2

def StringBelow : Str → Prop
  | [] => True
  | type :: rest => IntegerBelow (2 ^ 31) type 7 rest

def StringsBelow (known : Bool) (bytes : Str) : Prop :=
  StringBelow bytes ∧ (known = false → ∀ name count, stringCut .exact bytes = .ok (name, count) →
    StringBelow (bytes.drop count))

/-- Every integer of the field at the front is within the width of what it is kept in. -/
def FieldBelow : Str → Prop
  | [] => True
  | type :: rest =>
      if type &&& 0x80 ≠ 0 then IntegerBelow (2 ^ 32) type 7 rest
      else ∀ kinds, literalForm type = some kinds → IntegerBelow (2 ^ 32) type kinds.1 rest ∧
        ∀ value count, hpackInteger type kinds.1 rest = some (value, count) →
          StringsBelow (decide (value > 0)) (rest.drop count)

/-- The text ends inside the string at the front, or what the low bits of its length ask for
cannot be read. -/
def StringFails : Str → Prop
  | [] => True
  | type :: rest =>
      match hpackInteger type 7 rest with
      | some (length, count) =>
          count ≤ 10 ∧ (textCut type (int32 length) (rest.drop count)).isOk = false
      | none => rest.length ≤ 10

def StringsFail (known : Bool) (bytes : Str) : Prop :=
  StringFails bytes ∨ known = false ∧ ∃ name count,
    stringCut .machine bytes = .ok (name, count) ∧ StringFails (bytes.drop count)

def LiteralFails : Str → Prop
  | [] => False
  | type :: rest => type &&& 0x80 = 0 ∧ ∃ kinds value count, literalForm type = some kinds ∧
      hpackInteger type kinds.1 rest = some (value, count) ∧ count ≤ 10 ∧
      StringsFail (decide (value % 2 ^ 32 > 0)) (rest.drop count)

def FieldFits (bytes : Str) : Prop := FieldBelow bytes ∨ LiteralFails bytes

theorem cut_bind_congr {Value Next : Type} {first other : Cut Value} {second next : Value → Cut Next}
    {bytes : Str} (front : first bytes = other bytes)
    (back : ∀ value count, other bytes = .ok (value, count) →
      second value (bytes.drop count) = next value (bytes.drop count)) :
    first.bind second bytes = other.bind next bytes := by
  cases taken : other bytes with
  | error fault => rw [Cut.bind_of_error (front.trans taken), Cut.bind_of_error taken]
  | ok read =>
      rw [Cut.bind_of_ok (front.trans taken), Cut.bind_of_ok taken, back read.1 read.2 taken]

theorem integer_same_of_below {limit : Nat} {first : UInt8} {prefixBits : Nat} {rest : Str}
    (small : limit ≤ 2 ^ 64) (below : IntegerBelow limit first prefixBits rest) :
    integerCut .machine first prefixBits rest = integerCut .exact first prefixBits rest := by
  unfold IntegerBelow at below
  cases found : hpackInteger first prefixBits rest with
  | none =>
      rw [found] at below
      rw [machine_integer_none found, if_pos below, integerCut, found]
      rfl
  | some read =>
      rw [found] at below
      rw [machine_integer_some found, if_pos below.1, exact_integer_some found,
        Nat.mod_eq_of_lt (Nat.lt_of_lt_of_le below.2 small)]

theorem integer_value_below {limit : Nat} {first : UInt8} {prefixBits : Nat} {rest : Str}
    {value count : Nat} (below : IntegerBelow limit first prefixBits rest)
    (taken : integerCut .exact first prefixBits rest = .ok (value, count)) :
    hpackInteger first prefixBits rest = some (value, count) ∧ value < limit := by
  rcases groups_outcome_ok taken with ⟨exact, found, _, same⟩
  rw [IntegerBelow, found] at below
  have own : value = exact := same
  rw [own]
  exact ⟨found, below.2⟩

theorem string_same_of_below {bytes : Str} (below : StringBelow bytes) :
    stringCut .machine bytes = stringCut .exact bytes := by
  apply cut_bind_congr rfl
  intro type count taken
  cases bytes with
  | nil => cases taken
  | cons first rest =>
      cases taken
      apply cut_bind_congr (integer_same_of_below (by decide) below)
      intro length size read
      have small := (integer_value_below below read).2
      rw [machine_length, int32_of_small small]
      rfl

theorem strings_same_of_below {header : HeaderField} {bytes : Str}
    (below : StringsBelow (decide (header.index > 0)) bytes) :
    stringsCut .machine header bytes = stringsCut .exact header bytes := by
  have first := string_same_of_below below.1
  unfold stringsCut
  by_cases known : header.index > 0
  · rw [if_pos known, if_pos known]
    exact cut_bind_congr first fun _ _ _ => rfl
  · rw [if_neg known, if_neg known]
    apply cut_bind_congr first
    intro name count taken
    have second := string_same_of_below (below.2 (decide_eq_false known) name count taken)
    exact cut_bind_congr second fun _ _ _ => rfl

theorem field_same_of_below {bytes : Str} (below : FieldBelow bytes) :
    fieldCut .machine bytes = fieldCut .exact bytes := by
  have limit : 2 ^ 32 ≤ 2 ^ 64 := Nat.pow_le_pow_right (by decide) (by decide)
  apply cut_bind_congr rfl
  intro type count taken
  cases bytes with
  | nil => cases taken
  | cons first rest =>
      cases taken
      change fieldFromCut .machine type rest = fieldFromCut .exact type rest
      rw [FieldBelow] at below
      unfold fieldFromCut
      by_cases indexed : type &&& 0x80 ≠ 0
      · rw [if_pos indexed] at below
        rw [if_pos indexed, if_pos indexed]
        apply cut_bind_congr (integer_same_of_below limit below)
        intro idx count taken
        have small := (integer_value_below below taken).2
        dsimp only
        rw [machine_index, Nat.mod_eq_of_lt small]
        rfl
      · rw [if_neg indexed] at below
        rw [if_neg indexed, if_neg indexed]
        cases form : literalForm type with
        | none => rfl
        | some kinds =>
            rcases below _ form with ⟨index, strings⟩
            refine cut_bind_congr ?_ fun _ _ _ => rfl
            apply cut_bind_congr (integer_same_of_below limit index)
            intro idx count taken
            rcases integer_value_below index taken with ⟨found, small⟩
            rw [machine_index, Nat.mod_eq_of_lt small]
            exact strings_same_of_below (strings idx count found)

theorem cut_bind_defined {Value Next : Type} {first : Cut Value} {second : Value → Cut Next}
    (left : ∀ bytes, Defined (first bytes)) (right : ∀ value bytes, Defined (second value bytes))
    (bytes : Str) : Defined (first.bind second bytes) :=
  defined_bind (left bytes) fun read => defined_bind (right read.1 _) fun _ => defined_ok _

theorem byte_defined (bytes : Str) : Defined (Cut.byte bytes) := by
  cases bytes with
  | nil =>
      intro shifted
      cases shifted
  | cons first rest => exact defined_ok _

theorem exact_integer_defined (first : UInt8) (prefixBits : Nat) (rest : Str) :
    Defined (integerCut .exact first prefixBits rest) := by
  intro shifted
  rw [integerCut] at shifted
  cases found : hpackInteger first prefixBits rest <;> rw [found] at shifted <;> cases shifted

theorem exact_string_defined : ∀ bytes, Defined (stringCut .exact bytes) :=
  cut_bind_defined byte_defined fun type => cut_bind_defined (exact_integer_defined type 7)
    fun _ => text_defined type _

theorem exact_strings_defined (header : HeaderField) (bytes : Str) :
    Defined (stringsCut .exact header bytes) := by
  unfold stringsCut
  split
  · exact cut_bind_defined exact_string_defined (fun _ _ => defined_ok _) bytes
  · exact cut_bind_defined exact_string_defined
      (fun _ => cut_bind_defined exact_string_defined fun _ _ => defined_ok _) bytes

theorem exact_field_defined : ∀ bytes, Defined (fieldCut .exact bytes) := by
  apply cut_bind_defined byte_defined
  intro type bytes
  unfold fieldFromCut
  split
  · exact cut_bind_defined (exact_integer_defined type 7) (fun _ _ => defined_ok _) bytes
  · cases literalForm type with
    | none => exact defined_ok _
    | some kinds =>
        exact cut_bind_defined (cut_bind_defined (exact_integer_defined type kinds.1)
          fun _ => exact_strings_defined _) (fun _ _ => defined_ok _) bytes

theorem field_exact_of_below {bytes : Str} (below : FieldBelow bytes) :
    Exact (fieldCut .machine) (fieldCut .exact) bytes where
  defined := by
    rw [field_same_of_below below]
    exact exact_field_defined bytes
  same := by
    intro read taken
    rwa [field_same_of_below below] at taken

def Fails {Value : Type} (outcome : Result Value) : Prop := outcome.isOk = false ∧ Defined outcome

theorem fails_error {Value : Type} {fault : Fault} (other : fault ≠ .undefined .shiftTooWide) :
    Fails (Except.error fault : Result Value) := by
  refine ⟨rfl, ?_⟩
  intro shifted
  cases shifted
  exact other rfl

theorem exact_of_fails {Value : Type} {machine exact : Cut Value} {bytes : Str}
    (fails : Fails (machine bytes)) : Exact machine exact bytes :=
  ⟨fails.2, fun read taken => absurd taken (not_ok_of_refused fails.1 read)⟩

/-- Each outcome is one of three. -/
theorem fails_or_shifts {Value : Type} (outcome : Result Value) :
    Fails outcome ∨ outcome = .error (.undefined .shiftTooWide) ∨ ∃ read, outcome = .ok read := by
  cases outcome with
  | ok read => exact Or.inr (Or.inr ⟨read, rfl⟩)
  | error fault =>
      by_cases shifted : fault = .undefined .shiftTooWide
      · exact Or.inr (Or.inl (by rw [shifted]))
      · exact Or.inl (fails_error shifted)

theorem fails_bind {Value Next : Type} {first : Cut Value} {second : Value → Cut Next} {bytes : Str} :
    Fails (first.bind second bytes) ↔ Fails (first bytes) ∨ ∃ value count,
      first bytes = .ok (value, count) ∧ Fails (second value (bytes.drop count)) := by
  cases taken : first bytes with
  | error fault =>
      rw [Cut.bind_of_error taken]
      constructor
      · intro fails
        exact Or.inl ⟨rfl, fun shifted => fails.2 (by cases shifted; rfl)⟩
      · rintro (fails | ⟨value, count, impossible, _⟩)
        · exact ⟨rfl, fun shifted => fails.2 (by cases shifted; rfl)⟩
        · cases impossible
  | ok read =>
      rw [Cut.bind_of_ok taken]
      constructor
      · intro fails
        refine Or.inr ⟨read.1, read.2, rfl, ?_⟩
        cases behind : second read.1 (bytes.drop read.2) with
        | error fault =>
            rw [behind] at fails
            exact ⟨rfl, fun shifted => fails.2 (by cases shifted; rfl)⟩
        | ok next =>
            rw [behind, bind_ok] at fails
            cases fails.1
      · rintro (fails | ⟨value, count, same, fails⟩)
        · cases fails.1
        · cases same
          cases behind : second value (bytes.drop count) with
          | error fault =>
              rw [behind] at fails
              exact ⟨rfl, fun shifted => fails.2 (by cases shifted; rfl)⟩
          | ok next =>
              rw [behind] at fails
              cases fails.1

theorem fails_map {Value Next : Type} {cut : Cut Value} {change : Value → Next} {bytes : Str} :
    Fails (cut.map change bytes) ↔ Fails (cut bytes) := by
  rw [Cut.map, fails_bind]
  constructor
  · rintro (fails | ⟨value, count, _, fails⟩)
    · exact fails
    · cases fails.1
  · exact Or.inl

theorem integer_fails {first : UInt8} {prefixBits : Nat} {rest : Str}
    (fails : Fails (integerCut .machine first prefixBits rest)) :
    hpackInteger first prefixBits rest = none ∧ rest.length ≤ 10 := by
  cases found : hpackInteger first prefixBits rest with
  | none =>
      rw [machine_integer_none found] at fails
      by_cases short : rest.length ≤ 10
      · exact ⟨rfl, short⟩
      · rw [if_neg short] at fails
        exact absurd rfl fails.2
  | some read =>
      rw [machine_integer_some found] at fails
      split at fails
      · cases fails.1
      · exact absurd rfl fails.2

theorem integer_fails_of_none {first : UInt8} {prefixBits : Nat} {rest : Str}
    (none : hpackInteger first prefixBits rest = none) (short : rest.length ≤ 10) :
    Fails (integerCut .machine first prefixBits rest) := by
  rw [machine_integer_none none, if_pos short]
  exact fails_error (by decide)

theorem string_fails_iff (bytes : Str) : Fails (stringCut .machine bytes) ↔ StringFails bytes := by
  cases bytes with
  | nil => exact ⟨fun _ => trivial, fun _ => fails_error (by decide)⟩
  | cons type rest =>
      rw [stringCut, fails_bind]
      have behind : (∃ value count, Cut.byte (type :: rest) = .ok (value, count) ∧
          Fails (((integerCut .machine value 7).bind fun len =>
            textCut value (Widths.machine.length len)) ((type :: rest).drop count))) ↔
          Fails (((integerCut .machine type 7).bind fun len =>
            textCut type (Widths.machine.length len)) rest) := by
        constructor
        · rintro ⟨value, count, same, fails⟩
          cases same
          exact fails
        · exact fun fails => ⟨type, 1, rfl, fails⟩
      have front : ¬Fails (Cut.byte (type :: rest)) := by
        intro fails
        cases fails.1
      rw [behind, or_iff_right front, fails_bind, StringFails]
      constructor
      · rintro (fails | ⟨len, count, taken, fails⟩)
        · rcases integer_fails fails with ⟨none, short⟩
          rw [none]
          exact short
        · rcases groups_outcome_ok taken with ⟨length, found, room, same⟩
          rw [found]
          refine ⟨of_decide_eq_true room, ?_⟩
          rw [machine_length, same] at fails
          rw [← int32_mod]
          exact fails.1
      · cases found : hpackInteger type 7 rest with
        | none => exact fun short => Or.inl (integer_fails_of_none found short)
        | some read =>
            rintro ⟨short, refused⟩
            refine Or.inr ⟨read.1 % 2 ^ 64, read.2, ?_, ?_, text_defined _ _ _⟩
            · rw [machine_integer_some found, if_pos short]
            · rw [machine_length, int32_mod]
              exact refused

theorem strings_fail_iff (header : HeaderField) (bytes : Str) :
    Fails (stringsCut .machine header bytes) ↔
      StringsFail (decide (header.index > 0)) bytes := by
  unfold stringsCut StringsFail
  by_cases known : header.index > 0
  · rw [if_pos known, fails_map, string_fails_iff, decide_eq_true known]
    exact ⟨Or.inl, fun either => either.elim id fun other => nomatch other.1⟩
  · rw [if_neg known, fails_bind, string_fails_iff, decide_eq_false known]
    simp only [fails_map, string_fails_iff, true_and]

/-- How many bytes a string takes, as the machine and the exact decoder cut it. -/
theorem string_taken {widths : Widths} {bytes text : Str} {size : Nat}
    (taken : stringCut widths bytes = .ok (text, size)) :
    ∃ type rest length count, bytes = type :: rest ∧
      hpackInteger type 7 rest = some (length, count) ∧ widths.room count = true ∧
      (size : Int) = 1 + (count + widths.length (widths.value length)) := by
  rcases Cut.bind_taken taken with ⟨type, one, more, front, back, same⟩
  cases bytes with
  | nil => cases front
  | cons first rest =>
      cases front
      rcases Cut.bind_taken back with ⟨len, count, last, integer, textTaken, total⟩
      rcases groups_outcome_ok integer with ⟨length, found, room, valueSame⟩
      refine ⟨_, rest, length, count, rfl, found, room, ?_⟩
      have own := text_cut_count textTaken
      rw [← valueSame, ← own]
      omega

/-- Where the exact decoder takes other bytes than the machine, it takes at least `2^32` more. -/
theorem string_sizes {bytes text other : Str} {size exact : Nat}
    (machineTaken : stringCut .machine bytes = .ok (text, size))
    (exactTaken : stringCut .exact bytes = .ok (other, exact)) :
    1 ≤ exact ∧ size < 2 ^ 31 + 11 ∧ (size = exact ∧ StringBelow bytes ∨ size + 2 ^ 32 ≤ exact) := by
  rcases string_taken machineTaken with ⟨type, rest, length, count, front, found, room, total⟩
  rcases string_taken exactTaken with ⟨_, _, _, _, again, alsoFound, _, whole⟩
  rw [front] at again
  cases again
  rw [found] at alsoFound
  cases alsoFound
  have short : count ≤ 10 := of_decide_eq_true room
  rw [machine_length, machine_value, int32_mod] at total
  rw [exact_length] at whole
  have bounds := int32_bounds length
  rcases int32_wraps length with ⟨turns, wraps⟩
  refine ⟨by omega, by omega, ?_⟩
  by_cases none : turns = 0
  · left
    rw [none, Int.mul_zero, Int.add_zero] at wraps
    refine ⟨by omega, ?_⟩
    rw [front, StringBelow, IntegerBelow, found]
    exact ⟨short, by omega⟩
  · right
    omega

theorem strings_below_of_same {header known read : HeaderField} {bytes : Str} {total : Nat}
    (machineTaken : stringsCut .machine header bytes = .ok (read, total))
    (exactTaken : stringsCut .exact header bytes = .ok (known, total)) :
    StringsBelow (decide (header.index > 0)) bytes := by
  unfold stringsCut at machineTaken exactTaken
  by_cases indexed : header.index > 0
  · rw [if_pos indexed] at machineTaken exactTaken
    rcases Cut.map_taken machineTaken with ⟨value, front, _⟩
    rcases Cut.map_taken exactTaken with ⟨other, again, _⟩
    rcases string_sizes front again with ⟨_, _, ⟨_, below⟩ | apart⟩
    · exact ⟨below, fun unknown => absurd indexed (of_decide_eq_false unknown)⟩
    · omega
  · rw [if_neg indexed] at machineTaken exactTaken
    rcases Cut.bind_taken machineTaken with ⟨name, front, back, first, rest, total⟩
    rcases Cut.map_taken rest with ⟨value, second, _⟩
    rcases Cut.bind_taken exactTaken with ⟨exactName, exactFront, exactBack, exactFirst, exactRest, same⟩
    rcases Cut.map_taken exactRest with ⟨exactValue, exactSecond, _⟩
    rcases string_sizes first exactFirst with ⟨_, _, ⟨sizes, below⟩ | apart⟩
    · rw [← sizes] at exactSecond
      rcases string_sizes second exactSecond with ⟨_, _, ⟨_, behind⟩ | apart⟩
      · refine ⟨below, fun _ other count taken => ?_⟩
        rw [exactFirst] at taken
        cases taken
        rw [← sizes]
        exact behind
      · omega
    · -- the second string is shorter than what the first is short of
      rcases string_taken second with ⟨type, _, length, count, _, _, room, size⟩
      have short : count ≤ 10 := of_decide_eq_true room
      have bounds := int32_bounds length
      rcases string_taken exactSecond with ⟨_, _, exactLength, exactCount, _, _, _, exactSize⟩
      rw [machine_length, machine_value, int32_mod] at size
      rw [exact_length] at exactSize
      omega

theorem field_below_of_same {bytes : Str} {read : Option HeaderField × Nat}
    (machineTaken : fieldCut .machine bytes = .ok read)
    (exactTaken : fieldCut .exact bytes = .ok read) : FieldBelow bytes := by
  cases bytes with
  | nil => trivial
  | cons type rest =>
      rw [fieldCut, byte_bind_cons] at machineTaken exactTaken
      rcases bind_eq_ok machineTaken with ⟨⟨field, more⟩, machineField, same⟩
      cases same
      rcases bind_eq_ok exactTaken with ⟨⟨other, others⟩, exactField, pair⟩
      rcases Prod.mk.inj (Except.ok.inj pair) with ⟨fieldSame, moreSame⟩
      dsimp only at fieldSame moreSame
      rw [fieldSame, Nat.add_left_cancel moreSame] at exactField
      unfold fieldFromCut at machineField exactField
      rw [FieldBelow]
      by_cases indexed : type &&& 0x80 ≠ 0
      · rw [if_pos indexed] at machineField exactField ⊢
        rcases Cut.map_taken machineField with ⟨idx, machineRead, machineSame⟩
        rcases Cut.map_taken exactField with ⟨exactIdx, exactRead, exactSame⟩
        rcases groups_outcome_ok machineRead with ⟨value, found, room, low⟩
        rcases groups_outcome_ok exactRead with ⟨exactValue, again, _, high⟩
        rw [found] at again
        cases again
        have index := congrArg (Option.map HeaderField.index) (machineSame.trans exactSame.symm)
        simp only [Option.map_some, machine_index, Option.some.injEq, low, high, machine_value,
          Widths.exact, id] at index
        rw [IntegerBelow, found]
        exact ⟨of_decide_eq_true room, by omega⟩
      · rw [if_neg indexed] at machineField exactField ⊢
        intro kinds form
        rw [form] at machineField exactField
        rcases Cut.map_taken machineField with ⟨header, machineRead, machineSame⟩
        rcases Cut.map_taken exactField with ⟨exactHeader, exactRead, exactSame⟩
        rcases Cut.bind_taken machineRead with ⟨idx, count, size, integer, strings, total⟩
        rcases Cut.bind_taken exactRead with
          ⟨exactIdx, exactCount, exactSize, exactInteger, exactStrings, exactTotal⟩
        rcases groups_outcome_ok integer with ⟨value, found, room, low⟩
        rcases groups_outcome_ok exactInteger with ⟨exactValue, again, _, high⟩
        rw [found] at again
        cases again
        have headers : header = exactHeader := Option.some.inj (machineSame.trans exactSame.symm)
        have index := (strings_cut_index strings).symm.trans
          ((congrArg HeaderField.index headers).trans (strings_cut_index exactStrings))
        simp only [literalHeader, machine_index, low, high, machine_value, Widths.exact, id] at index
        have small : value < 2 ^ 32 := by omega
        have sizes : exactSize = size := by omega
        simp only [low, machine_value, machine_index] at strings
        simp only [high, Widths.exact, id] at exactStrings
        have exactly : value % 2 ^ 64 % 2 ^ 32 = value := by omega
        rw [exactly] at strings
        rw [sizes] at exactStrings
        refine ⟨?_, ?_⟩
        · rw [IntegerBelow, found]
          exact ⟨of_decide_eq_true room, small⟩
        · intro other others again
          rw [found] at again
          cases again
          exact strings_below_of_same strings exactStrings

theorem literal_fails {bytes : Str} (refused : LiteralFails bytes) :
    Fails (fieldCut .machine bytes) := by
  cases bytes with
  | nil => exact refused.elim
  | cons type rest =>
      rcases refused with ⟨literal, kinds, value, count, form, found, short, strings⟩
      have read := machine_integer_some found
      rw [if_pos short] at read
      have low : value % 2 ^ 64 % 2 ^ 32 = value % 2 ^ 32 := by omega
      rw [fieldCut, fails_bind]
      refine Or.inr ⟨type, 1, rfl, ?_⟩
      rw [fieldFromCut, if_neg (not_not.mpr literal), form]
      rw [fails_map, literalCut, fails_bind]
      refine Or.inr ⟨_, count, read, ?_⟩
      rw [strings_fail_iff, machine_index, low]
      exact strings

theorem field_fits_of_fails {bytes : Str} (fails : Fails (fieldCut .machine bytes)) :
    FieldFits bytes := by
  cases bytes with
  | nil => exact Or.inl trivial
  | cons type rest =>
      rw [fieldCut, fails_bind] at fails
      rcases fails with fails | ⟨first, one, front, fails⟩
      · cases fails.1
      cases front
      change Fails (fieldFromCut .machine type rest) at fails
      unfold fieldFromCut at fails
      by_cases indexed : type &&& 0x80 ≠ 0
      · rw [if_pos indexed, fails_map] at fails
        rcases integer_fails fails with ⟨none, short⟩
        left
        rw [FieldBelow, if_pos indexed, IntegerBelow, none]
        exact short
      rw [if_neg indexed] at fails
      cases form : literalForm type with
      | none =>
          left
          rw [FieldBelow, if_neg indexed]
          intro kinds other
          rw [form] at other
          cases other
      | some kinds =>
          rw [form, fails_map] at fails
          rcases fails_bind.mp fails with fails | ⟨idx, count, taken, fails⟩
          · rcases integer_fails fails with ⟨none, short⟩
            left
            rw [FieldBelow, if_neg indexed]
            intro other same
            rw [form] at same
            cases same
            rw [IntegerBelow, none]
            refine ⟨short, fun value count found => ?_⟩
            cases found
          · right
            rcases machine_integer_ok taken with ⟨value, found, short, low⟩
            rw [strings_fail_iff, machine_index, low] at fails
            exact ⟨not_not.mp indexed, kinds, value, count, form, found, short, fails⟩

theorem field_exact_iff (bytes : Str) :
    Exact (fieldCut .machine) (fieldCut .exact) bytes ↔ FieldFits bytes := by
  constructor
  · intro exact
    rcases fails_or_shifts (fieldCut .machine bytes) with fails | shifts | ⟨read, taken⟩
    · exact field_fits_of_fails fails
    · exact absurd shifts exact.defined
    · exact Or.inl (field_below_of_same taken (exact.same read taken))
  · rintro (below | refused)
    · exact field_exact_of_below below
    · exact exact_of_fails (literal_fails refused)

/-- A field that fits and was read is one of integers that are below their bounds. -/
theorem field_below_of_read {bytes : Str} {read : Option HeaderField × Nat}
    (fits : FieldFits bytes) (taken : fieldCut .machine bytes = .ok read) : FieldBelow bytes := by
  rcases fits with below | refused
  · exact below
  · exact absurd taken (not_ok_of_refused (literal_fails refused).1 read)

inductive Fields : Str → List HeaderField → Str → Prop where
  | nil (bytes : Str) : Fields bytes [] bytes
  | cons {bytes tail : Str} {header : HeaderField} {count : Nat} {fields : List HeaderField}
      (taken : fieldCut .exact bytes = .ok (some header, count))
      (rest : Fields (bytes.drop count) fields tail) : Fields bytes (header :: fields) tail

def named (h : HeaderField) : Str × Str := (h.name, h.value)

/-- What `parse` appended are fields of the block, resolved against the table. -/
structure Parsed (hp : HPack) (bytes : Str) (last : HPack) (fields : List HeaderField) (tail : Str) :
    Prop where
  whole : Fields bytes fields tail
  headers : last.headers.map named = hp.headers.map named ++ (resolveAll hp.table fields).1
  table : last.table = (resolveAll hp.table fields).2

theorem parsed_nil (hp : HPack) (bytes : Str) : Parsed hp bytes hp [] bytes where
  whole := .nil bytes
  headers := (List.append_nil _).symm
  table := rfl

theorem parsed_cons {hp last : HPack} {bytes tail : Str} {header : HeaderField} {count : Nat}
    {fields : List HeaderField} (taken : fieldCut .exact bytes = .ok (some header, count))
    (later : Parsed ⟨hp.headers ++ [(resolveField hp.table header).1],
      (resolveField hp.table header).2⟩ (bytes.drop count) last fields tail) :
    Parsed hp bytes last (header :: fields) tail where
  whole := .cons taken later.whole
  headers := by
    rw [later.headers, resolveAll, List.map_append, List.append_assoc]
    rfl
  table := later.table

def ParsesExactly (hp : HPack) (bytes : Str) (result : Result (Int × HPack × ByteArray)) : Prop :=
  Defined result ∧ ∀ rt last after, result = .ok (rt, last, after) →
    ∃ fields tail, Parsed hp bytes last fields tail

theorem parses_exactly_end (hp : HPack) (bytes : Str) (rt : Int) (after : ByteArray) :
    ParsesExactly hp bytes (.ok (rt, hp, after)) := by
  refine ⟨defined_ok _, ?_⟩
  intro rt last after done
  cases done
  exact ⟨[], _, parsed_nil _ _⟩

theorem parses_exactly_error (hp : HPack) (bytes : Str) {fault : Fault}
    (other : fault ≠ .undefined .shiftTooWide) : ParsesExactly hp bytes (.error fault) := by
  constructor
  · intro shifted
    cases shifted
    exact other rfl
  · intro rt last after done
    cases done

theorem parses_exactly_cons {hp : HPack} {bytes : Str} {header : HeaderField} {count : Nat}
    {result : Result (Int × HPack × ByteArray)}
    (taken : fieldCut .exact bytes = .ok (some header, count))
    (later : ParsesExactly ⟨hp.headers ++ [(resolveField hp.table header).1],
      (resolveField hp.table header).2⟩ (bytes.drop count) result) :
    ParsesExactly hp bytes result := by
  refine ⟨later.1, ?_⟩
  intro rt last after done
  rcases later.2 rt last after done with ⟨fields, tail, parsed⟩
  exact ⟨header :: fields, tail, parsed_cons taken parsed⟩

/-- The buffer as the rounds of `parse(ba, length)` find it. -/
inductive Round (ba : ByteArray) (length : Int) : ByteArray → Prop where
  | first (goes : 0 < length) : Round ba length ba
  | next {now behind : ByteArray} {header : HeaderField} (earlier : Round ba length now)
      (read : readField now = .ok (some header, behind))
      (goes : int32 (behind.position - ba.position : Int) < length) : Round ba length behind

/-- Each field that `parse(ba, length)` comes to is the one that stands there, or fails. -/
def FieldsExact (ba : ByteArray) (length : Int) : Prop :=
  ∀ now, Round ba length now → ExactOrFails readField (fieldCut .exact) now

/-- The places in a block at which a field begins that `parse` has to read: the fields in front
are cut as they stand there, and all their integers are below the bounds. -/
inductive FieldStart (block : Str) (length : Int) : Nat → Prop where
  | first (goes : 0 < length) : FieldStart block length 0
  | next {count more : Nat} {header : HeaderField} (earlier : FieldStart block length count)
      (below : FieldBelow (block.drop count))
      (taken : fieldCut .exact (block.drop count) = .ok (some header, more))
      (goes : int32 ((count + more : Nat) : Int) < length) : FieldStart block length (count + more)

/-- Every field up to `length` fits. -/
def BlockFits (block : Str) (length : Int) : Prop :=
  ∀ count, FieldStart block length count → FieldFits (block.drop count)

theorem field_start_round {ba : ByteArray} {length : Int} (inv : Inv ba) {count : Nat}
    (start : FieldStart ba.unread length count) :
    Round ba length (ba.skip count) ∧ count ≤ ba.unread.length := by
  induction start with
  | first goes =>
      rw [skip_zero inv]
      exact ⟨.first goes, Nat.zero_le _⟩
  | @next count more header earlier below taken goes induction =>
      rcases induction with ⟨round, inside⟩
      have machine := (field_same_of_below below).trans taken
      have more := field_cuts.bounded _ _ _ machine
      rw [List.length_drop] at more
      refine ⟨?_, by omega⟩
      rw [← skip_skip]
      apply Round.next round
      · rw [field_cuts.reads _ (skip_inv_of_le inv inside), skip_unread_drop, machine, bind_ok]
      · rw [skip_position, skip_position, Nat.add_assoc, Int.natCast_add, add_sub_cancel_left]
        exact goes

theorem round_field_start {ba now : ByteArray} {length : Int} (inv : Inv ba)
    (fits : BlockFits ba.unread length) (round : Round ba length now) :
    ∃ count, now = ba.skip count ∧ FieldStart ba.unread length count ∧
      count ≤ ba.unread.length := by
  induction round with
  | first goes => exact ⟨0, (skip_zero inv).symm, .first goes, Nat.zero_le _⟩
  | @next now behind header earlier read goes induction =>
      rcases induction with ⟨count, same, start, inside⟩
      rw [same] at read
      rcases cuts_ok field_cuts (skip_inv_of_le inv inside) read with ⟨more, taken, moved, enough⟩
      rw [skip_unread_drop] at taken enough
      have below := field_below_of_read (fits count start) taken
      have exact := (field_same_of_below below).symm.trans taken
      rw [List.length_drop] at enough
      refine ⟨count + more, by rw [moved, skip_skip], .next start below exact ?_, by omega⟩
      rwa [moved, skip_position, skip_position, Nat.add_assoc, Int.natCast_add,
        add_sub_cancel_left] at goes

theorem fields_exact_iff {ba : ByteArray} (inv : Inv ba) (length : Int) :
    FieldsExact ba length ↔ BlockFits ba.unread length := by
  constructor
  · intro exact count start
    rcases field_start_round inv start with ⟨round, inside⟩
    have front := (exact_or_fails_iff field_cuts _ (skip_inv_of_le inv inside)).mp (exact _ round)
    rw [skip_unread_drop] at front
    exact (field_exact_iff _).mp front
  · intro fits now round
    rcases round_field_start inv fits round with ⟨count, same, start, inside⟩
    rw [same, exact_or_fails_iff field_cuts _ (skip_inv_of_le inv inside), skip_unread_drop]
    exact (field_exact_iff _).mpr (fits count start)

/-- The induction is on the rounds: each round appends the field that stands there. -/
theorem parse_loop_exact {start : ByteArray} {length : Int} (exact : FieldsExact start length)
    (rounds : Nat) : ∀ {hp : HPack} {ba : ByteArray} {parsed : Int}, Inv ba →
      (parsed < length → Round start length ba) →
      ParsesExactly hp ba.unread (parseLoop start.position length rounds hp ba parsed) := by
  induction rounds with
  | zero =>
      intro hp ba parsed inv reached
      rw [parseLoop]
      by_cases more : parsed < length
      · rw [if_pos more]
        exact parses_exactly_error hp _ (by decide)
      · rw [if_neg more]
        exact parses_exactly_end hp _ _ ba
  | succ rounds induction =>
      intro hp ba parsed inv reached
      rw [parseLoop]
      by_cases more : parsed < length
      · have front := exact ba (reached more)
        rw [if_pos more]
        cases read : readField ba with
        | error fault =>
            rw [bind_error]
            apply parses_exactly_error
            intro shifted
            apply front.defined
            rw [read, shifted]
        | ok found =>
            rcases found with ⟨field, behind⟩
            rw [bind_ok]
            cases field with
            | none => exact parses_exactly_end hp _ _ behind
            | some header =>
                rcases front.same _ _ read with ⟨count, taken, moved⟩
                rcases cuts_ok field_cuts inv read with ⟨other, _, again, inside⟩
                have next : Inv behind := by
                  rw [again]
                  exact skip_inv_of_le inv inside
                apply parses_exactly_cons taken
                rw [← skip_unread_drop, ← moved]
                exact induction next fun goes => .next (reached more) read goes
      · rw [if_neg more]
        exact parses_exactly_end hp _ _ ba

/-- `ReadVarInt` throws or returns the integer that stands there. -/
def IntegerExact (reader : ByteArray → Result (Nat × ByteArray)) (exact : Cut Nat) (ba : ByteArray) :
    Prop :=
  match reader ba with
  | .ok (value, after) => ∃ count, exact ba.unread = .ok (value, count) ∧ after = ba.skip count
  | .error (.thrown _) => True
  | .error (.undefined _) => False
  | .error .aborted => False

/-- The only way to fail other than to throw is the shift. -/
theorem groups_outcome_fault {room : Nat → Bool} {value : Nat → Nat} {available : Nat}
    {found : Option (Nat × Nat)} {fault : Fault}
    (failed : groupsOutcome room value available found = .error fault) :
    fault = .thrown .outOfRange ∨ fault = .undefined .shiftTooWide := by
  cases found with
  | none =>
      rw [groupsOutcome] at failed
      split at failed
      · cases failed
        exact Or.inl rfl
      · cases failed
        exact Or.inr rfl
  | some read =>
      rcases read with ⟨exact, count⟩
      rw [groupsOutcome] at failed
      split at failed
      · cases failed
      · cases failed
        exact Or.inr rfl

theorem integer_exact_of_cuts {reader : ByteArray → Result (Nat × ByteArray)} {machine exact : Cut Nat}
    (cuts : Cuts reader machine)
    (faults : ∀ bytes fault, machine bytes = .error fault →
      fault = .thrown .outOfRange ∨ fault = .undefined .shiftTooWide) {ba : ByteArray} (inv : Inv ba) :
    IntegerExact reader exact ba ↔ Exact machine exact ba.unread := by
  rw [← exact_or_fails_iff cuts exact inv]
  unfold IntegerExact
  cases read : reader ba with
  | ok found =>
      constructor
      · intro right
        refine ⟨by rw [read]; exact defined_ok _, ?_⟩
        intro value after again
        rw [read] at again
        cases again
        exact right
      · exact fun right => right.same _ _ read
  | error fault =>
      have failed : machine ba.unread = .error fault := by
        have reads := cuts.reads ba inv
        rw [read] at reads
        cases taken : machine ba.unread with
        | error other =>
            rw [taken, bind_error] at reads
            cases reads
            rfl
        | ok found =>
            rw [taken, bind_ok] at reads
            cases reads
      rcases faults _ _ failed with thrown | shifted
      · rw [thrown] at read ⊢
        refine ⟨fun _ => ⟨?_, ?_⟩, fun _ => trivial⟩
        · rw [read]
          intro shifted
          cases shifted
        · intro value after returned
          rw [read] at returned
          cases returned
      · rw [shifted] at read ⊢
        exact ⟨fun impossible => impossible.elim, fun right => right.defined read⟩

/-- The integer at the front of a text is within 64 bits. -/
def IntegerFits (prefixBits : Nat) : Str → Prop
  | [] => True
  | first :: rest => IntegerBelow (2 ^ 64) first prefixBits rest

theorem var_int_exact_iff (prefixBits : Nat) (bytes : Str) :
    Exact (varIntCut .machine prefixBits) (varIntCut .exact prefixBits) bytes ↔
      IntegerFits prefixBits bytes := by
  cases bytes with
  | nil => exact ⟨fun _ => trivial, fun _ => exact_byte_nil _ _⟩
  | cons first rest =>
      rw [varIntCut, varIntCut, exact_byte_cons]
      exact integer_exact_iff first prefixBits rest

theorem var_int_cut_fault {prefixBits : Nat} (bytes : Str) (fault : Fault)
    (failed : varIntCut .machine prefixBits bytes = .error fault) :
    fault = .thrown .outOfRange ∨ fault = .undefined .shiftTooWide := by
  cases bytes with
  | nil =>
      cases failed
      exact Or.inl rfl
  | cons first rest =>
      rw [varIntCut, byte_bind_cons] at failed
      cases taken : integerCut .machine first prefixBits rest with
      | error other =>
          rw [taken, bind_error] at failed
          cases failed
          exact groups_outcome_fault taken
      | ok read =>
          rw [taken, bind_ok] at failed
          cases failed

/-- Both readers of integers are exact when there are at most ten bytes behind the first and the
value has 64 bits; strings and indices need what they are kept in to be wide enough, unless what
is read next fails. A block all of whose integers fit is read as it stands there. -/
theorem integers_exact_iff (ba : ByteArray) (first : UInt8) (prefixBits : Nat)
    (reachable : Reachable ba) (upper : prefixBits ≤ 8) :
    (IntegerExact (fun ba => readVarInt ba prefixBits) (varIntCut .exact prefixBits) ba ↔
      IntegerFits prefixBits ba.unread) ∧
    (IntegerExact (fun ba => readVarIntFrom ba first prefixBits)
        (integerCut .exact first prefixBits) ba ↔
      IntegerBelow (2 ^ 64) first prefixBits ba.unread) ∧
    (ExactOrFails readString (stringCut .exact) ba ↔ StringFits ba.unread) ∧
    (IndexExact ba ↔ IndexFits ba.unread) ∧
    ∀ length : Int, (FieldsExact ba length ↔ BlockFits ba.unread length) ∧
      (BlockFits ba.unread length → ∀ hp : HPack, Defined (parse hp ba length) ∧
        ∀ rt last after, parse hp ba length = .ok (rt, last, after) →
          ∃ fields tail, Parsed hp ba.unread last fields tail) := by
  have inv := reachable_inv reachable
  refine ⟨?_, ?_, ?_, index_exact_iff inv, ?_⟩
  · rw [← var_int_exact_iff]
    exact integer_exact_of_cuts (var_int_cuts upper) var_int_cut_fault inv
  · rw [← integer_exact_iff]
    exact integer_exact_of_cuts (integer_cuts first upper)
      (fun bytes fault failed => groups_outcome_fault failed) inv
  · rw [← string_exact_iff]
    exact exact_or_fails_iff string_cuts _ inv
  · intro length
    refine ⟨fields_exact_iff inv length, fun fits hp => ?_⟩
    exact parse_loop_exact ((fields_exact_iff inv length).mpr fits) _ inv .first

/-- A buffer that ends inside the string of 62 bytes it begins with. -/
theorem integers_exact_short :
    let ba := ofData [0x3E, 0x3E]
    (IntegerExact (fun ba => readVarInt ba 6) (varIntCut .exact 6) ba ↔
      IntegerFits 6 ba.unread) ∧
    (IntegerExact (fun ba => readVarIntFrom ba 0x41 6) (integerCut .exact 0x41 6) ba ↔
      IntegerBelow (2 ^ 64) 0x41 6 ba.unread) ∧
    (ExactOrFails readString (stringCut .exact) ba ↔ StringFits ba.unread) ∧
    (IndexExact ba ↔ IndexFits ba.unread) ∧
    ∀ length : Int, (FieldsExact ba length ↔ BlockFits ba.unread length) ∧
      (BlockFits ba.unread length → ∀ hp : HPack, Defined (parse hp ba length) ∧
        ∀ rt last after, parse hp ba length = .ok (rt, last, after) →
          ∃ fields tail, Parsed hp ba.unread last fields tail) :=
  integers_exact_iff _ 0x41 6 (.wrapped _ (List.cons_ne_nil _ _)) (by decide)

/-- Ten bytes behind the first with a value of 70 bits; a string of one byte that claims
`2^32 + 1`; a field with the index `2^32 + 1`, for which the entry 1 is taken. -/
theorem long_integers_truncated :
    ¬IntegerExact (fun ba => readVarInt ba 7) (varIntCut .exact 7)
      (ofData (0x7F :: (List.replicate 9 0xFF ++ [0x7F]))) ∧
    ¬ExactOrFails readString (stringCut .exact)
      (ofData [0x7F, 0x82, 0xFF, 0xFF, 0xFF, 0x0F, 0x61]) ∧
    ¬IndexExact (ofData [0xFF, 0x82, 0xFF, 0xFF, 0xFF, 0x0F]) := by
  refine ⟨?_, ?_, ?_⟩
  · intro exact
    have fits := (var_int_exact_iff 7 _).mp
      ((integer_exact_of_cuts (var_int_cuts (by decide)) var_int_cut_fault
        (of_data_inv _ (List.cons_ne_nil _ _))).mp exact)
    rw [of_data_unread] at fits
    have found : hpackInteger 0x7F 7 (List.replicate 9 0xFF ++ [0x7F]) = some (2 ^ 70 + 126, 10) := by
      decide +kernel
    rw [IntegerFits, IntegerBelow, found] at fits
    exact absurd fits.2 (by decide)
  · intro exact
    have fits := (string_exact_iff _).mp
      ((exact_or_fails_iff string_cuts _ (of_data_inv _ (List.cons_ne_nil _ _))).mp exact)
    rw [of_data_unread] at fits
    have found : hpackInteger 0x7F 7 [0x82, 0xFF, 0xFF, 0xFF, 0x0F, 0x61] =
        some (2 ^ 32 + 1, 5) := by
      decide +kernel
    rw [StringFits, found] at fits
    rcases fits.2 with small | refused
    · exact absurd small (by decide)
    · exact absurd refused (by decide +kernel)
  · intro exact
    have fits := (index_exact_iff (of_data_inv _ (List.cons_ne_nil _ _))).mp exact
    rw [of_data_unread] at fits
    have found : hpackInteger 0xFF 7 [0x82, 0xFF, 0xFF, 0xFF, 0x0F] = some (2 ^ 32 + 1, 5) := by
      decide +kernel
    rcases fits 7 _ _ (by decide) found (by decide) with small | refused
    · exact absurd small (by decide)
    · exact absurd refused.1 (by decide)

end ChatServer.Http2
