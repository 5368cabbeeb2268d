import ChatServer.Http2.HuffmanEncode
import ChatServer.Http2.VarInt

/-!
# The codec of one header field

Each representation the encoder writes is read back as the same field. The bound on what is
written matters here: lengths and indices must be integers that `WriteVarInt` writes
correctly, and a Huffman literal must be one that decodes to its text.
-/

namespace ChatServer.Http2

set_option autoImplicit false

open ChatServer.ByteArray

def asWritten (text : Str) (h : Bool) : Result Str :=
  if h then do
    let (_, newStr) ← encodeString text [] 0
    .ok newStr
  else .ok text

def lengthFlags (h : Bool) : UInt8 := if h then 0x80 else 0

def literalBytes (text : Str) (h : Bool) : Str :=
  match asWritten text h with
  | .ok bytes => varIntBytes 7 bytes.length (lengthFlags h) ++ bytes
  | .error _ => []

theorem literal_bytes_eq {text bytes : Str} {h : Bool} (written : asWritten text h = .ok bytes) :
    literalBytes text h = varIntBytes 7 bytes.length (lengthFlags h) ++ bytes := by
  rw [literalBytes, written]

/-- A literal that decodes to its text: written in less than 255 bytes, and as a whole. -/
structure Readable (text : Str) (h : Bool) (bytes : Str) : Prop where
  written : asWritten text h = .ok bytes
  short : bytes.length < 255
  textShort : text.length < 512
  decoded : h = true → bytes ≠ [] ∧ decodeString bytes [] = .ok (text.length, text)
  raw : h = false → bytes = text

theorem should_encode_negative {text : Str} (lower : 2 ^ 31 ≤ text.length)
    (upper : text.length < 2 ^ 32) : shouldEncode text = .ok false := by
  have negative : int32 (text.length : Int) < 0 := by
    rw [int32, Int.bmod_def]
    omega
  rw [shouldEncode, shouldEncodeChars, encodeLenChars, Int.toNat_of_nonpos (by omega),
    List.take_zero]
  change (Except.ok (decide ((0 : Int) < int32 text.length)) : Result Bool) = .ok false
  rw [decide_eq_false (by omega)]

/-- The choice between raw and Huffman, for a literal that is short as written. -/
theorem readable_of_short {text bytes : Str} {h : Bool} (chosen : shouldEncode text = .ok h)
    (written : asWritten text h = .ok bytes) (short : bytes.length < 255)
    (bound : text.length < 2 ^ 32) : Readable text h bytes := by
  cases h with
  | false =>
      have same : text = bytes := Except.ok.inj written
      refine ⟨written, short, by rw [same]; omega, ?_, fun _ => same.symm⟩
      intro impossible
      cases impossible
  | true =>
      have fits : text.length < 2 ^ 31 := by
        by_contra large
        rw [should_encode_negative (Nat.not_lt.mp large) bound] at chosen
        cases chosen
      have inLen := int32_of_small fits
      obtain ⟨⟨rt, newStr⟩, encoded, same⟩ := bind_eq_ok (show
        (encodeString text [] 0 >>= fun result => Except.ok result.2) = .ok bytes from written)
      have same : newStr = bytes := Except.ok.inj same
      subst same
      have small : 8 * text.length + 1 < 2 ^ 31 := by
        rw [encodeString, inLen] at encoded
        obtain ⟨len, sized, _⟩ := bind_eq_ok encoded
        by_contra large
        rw [checked_int_overflow (by omega)] at sized
        cases sized
      obtain ⟨enc, pad, encodedSpec, padSmall, bits⟩ := encode_string_spec text small
      obtain ⟨_, rfl⟩ := Prod.mk.inj (Except.ok.inj (encoded.symm.trans encodedSpec))
      have length := padded_length padSmall bits
      have least := encode_length_ge text
      rw [encode_length] at least
      have some : newStr ≠ [] := by
        rintro rfl
        rw [List.length_nil] at length
        have none : text = [] := List.length_eq_zero_iff.mp (by omega)
        subst none
        exact absurd chosen (by decide +kernel)
      refine ⟨written, short, by omega, ?_, ?_⟩
      · intro _
        exact ⟨some, decode_padded (by omega) padSmall bits []⟩
      · intro impossible
        cases impossible

theorem write_string_emits (endian : Endian) {text bytes : Str} {h : Bool}
    (written : asWritten text h = .ok bytes) :
    Emits (fun ba => writeString ba text h) endian (literalBytes text h) := by
  have both := writes_emits (writes_bind
    (emits_writes (write_var_int_emits endian 7 bytes.length (lengthFlags h)))
    (write_writes endian bytes))
  have steps : (fun ba => writeString ba text h) = fun ba =>
      ((writeVarInt ba 7 bytes.length (lengthFlags h) >>= fun written => .ok written.2) >>=
        fun ba => ba.write bytes) >>= fun after =>
          .ok (int32 (after.position - ba.position : Int), after) := by
    funext ba
    cases h with
    | false =>
        have same : text = bytes := Except.ok.inj written
        simp only [writeString, lengthFlags, same, Bool.false_eq_true, if_false, bind_assoc, bind_ok]
    | true =>
        obtain ⟨⟨rt, newStr⟩, encoded, same⟩ := bind_eq_ok (show
          (encodeString text [] 0 >>= fun result => Except.ok result.2) = .ok bytes from written)
        have same : newStr = bytes := Except.ok.inj same
        simp only [writeString, lengthFlags, encoded, same, if_true, bind_assoc, bind_ok]
  rw [steps, literal_bytes_eq written]
  exact both

theorem var_int_first {prefixBits value : Nat} {flags first : UInt8} {tail : Str}
    (bytes : varIntBytes prefixBits value flags = first :: tail) :
    ∃ low, low < 2 ^ prefixBits ∧ first = UInt8.ofNat (low ||| flags.toNat) := by
  have positive := Nat.two_pow_pos prefixBits
  unfold varIntBytes at bytes
  by_cases small : value < 2 ^ prefixBits - 1
  · rw [if_pos small] at bytes
    exact ⟨value, by omega, (List.cons.inj bytes).1.symm⟩
  · rw [if_neg small] at bytes
    exact ⟨2 ^ prefixBits - 1, by omega, (List.cons.inj bytes).1.symm⟩

/-- The first byte of a length tells a Huffman literal from a raw one. -/
theorem length_first_byte {length : Nat} {h : Bool} {first : UInt8} {tail : Str}
    (bytes : varIntBytes 7 length (lengthFlags h) = first :: tail) :
    first &&& 0x80 ≠ 0 ↔ h = true := by
  obtain ⟨low, bound, rfl⟩ := var_int_first bytes
  clear bytes
  revert low
  cases h <;> decide +kernel

theorem read_string_data_reads (endian : Endian) {text bytes : Str} {h : Bool} {type : UInt8}
    (readable : Readable text h bytes) (marked : type &&& 0x80 ≠ 0 ↔ h = true) :
    Reads (readStringData type (int32 bytes.length)) endian bytes text := by
  have value : int32 (bytes.length : Int) = bytes.length :=
    int32_of_small (Nat.lt_trans readable.short (by decide))
  rw [value]
  intro ba rest inv order front
  by_cases empty : bytes = []
  · have isRaw : h = false := by
      cases h with
      | false => rfl
      | true => exact absurd empty (readable.decoded rfl).1
    have none : text = [] := by rw [← readable.raw isRaw, empty]
    rw [none, empty, List.length_nil, skip_zero inv]
    rfl
  · have positive := List.length_pos_iff.mpr empty
    rw [readStringData, if_pos (by omega), resize_empty, bind_ok, Int.toNat_natCast,
      read_unread inv front empty, bind_ok]
    dsimp only
    cases h with
    | false => rw [if_neg (fun high => Bool.false_ne_true (marked.mp high)), readable.raw rfl]
    | true => rw [if_pos (marked.mpr rfl), (readable.decoded rfl).2, bind_ok]

theorem read_string_reads_literal (endian : Endian) {text bytes : Str} {h : Bool}
    (readable : Readable text h bytes) :
    Reads readString endian (literalBytes text h) text := by
  have clear : (lengthFlags h).toNat % 2 ^ 7 = 0 := by cases h <;> rfl
  obtain ⟨first, tail, lengthBytes, lengthRead⟩ :=
    read_var_int_from_reads endian (by decide : 7 ≤ 8) clear
      (show bytes.length < 2 ^ 7 + 127 from readable.short)
  have dataRead := read_string_data_reads endian readable (length_first_byte lengthBytes)
  rw [literal_bytes_eq readable.written, lengthBytes]
  change Reads readString endian ([first] ++ (tail ++ bytes)) text
  exact reads_bind (fun type ba => readVarIntFrom ba type 7 >>= fun read =>
      readStringData type (int32 read.1) read.2) (read_fuint8_reads endian first)
    (reads_bind (fun len : Nat => readStringData first (int32 len)) lengthRead dataRead)

def fieldBytes (h : HeaderField) : Str :=
  match h.type with
  | .indexed => varIntBytes 7 h.index 0x80
  | .withIndexingIndexedName => varIntBytes 6 h.index 0x40 ++ literalBytes h.value h.hValue
  | .withIndexingNewName =>
      varIntBytes 6 h.index 0x40 ++ (literalBytes h.name h.hName ++ literalBytes h.value h.hValue)
  | _ => []

/-- The fields `pack` makes, with indices and literals that are read back. -/
inductive Sendable : HeaderField → Prop where
  | indexed (index : Nat) (bound : index < 190) : Sendable { type := .indexed, index }
  | knownName (index : Nat) (name value : Str) (hValue : Bool) (bytes : Str) (positive : 0 < index)
      (bound : index < 190) (readable : Readable value hValue bytes) :
      Sendable { type := .withIndexingIndexedName, index, hValue, name, value }
  | newName (name value : Str) (hName hValue : Bool) (nameBytes valueBytes : Str)
      (nameReadable : Readable name hName nameBytes)
      (valueReadable : Readable value hValue valueBytes) :
      Sendable { type := .withIndexingNewName, index := 0, hName, name, hValue, value }

/-- The field as the decoder reads it, before it looks into the table. -/
def received (h : HeaderField) : HeaderField :=
  match h.type with
  | .indexed => { type := .indexed, index := h.index }
  | .withIndexingIndexedName =>
      { type := .withIndexingIndexedName, index := h.index, value := h.value }
  | .withIndexingNewName => { type := .withIndexingNewName, name := h.name, value := h.value }
  | _ => {}

theorem pack_field_emits (endian : Endian) {h : HeaderField} (sendable : Sendable h) :
    Emits (packField h) endian (fieldBytes h) := by
  cases sendable with
  | indexed index bound =>
      have steps : packField { type := .indexed, index } = fun ba =>
          (writeVarInt ba 7 index 0x80 >>= fun written => .ok written.2) >>= fun after =>
            .ok (int32 (after.position - ba.position : Int), after) := by
        funext ba
        simp only [packField, bind_assoc]
      rw [steps]
      exact writes_emits (emits_writes (write_var_int_emits endian 7 index 0x80))
  | knownName index name value hValue bytes positive bound readable =>
      have steps : packField { type := .withIndexingIndexedName, index, hValue, name, value } =
          fun ba => ((writeVarInt ba 6 index 0x40 >>= fun written => .ok written.2) >>= fun ba =>
            writeString ba value hValue >>= fun written => .ok written.2) >>= fun after =>
              .ok (int32 (after.position - ba.position : Int), after) := by
        funext ba
        simp only [packField, packLiteral, bind_assoc, bind_ok, Bool.false_eq_true, if_false]
      rw [steps]
      exact writes_emits (writes_bind (emits_writes (write_var_int_emits endian 6 index 0x40))
        (emits_writes (write_string_emits endian readable.written)))
  | newName name value hName hValue nameBytes valueBytes nameReadable valueReadable =>
      have steps : packField { type := .withIndexingNewName, index := 0, hName, name, hValue, value } =
          fun ba => ((writeVarInt ba 6 0 0x40 >>= fun written => .ok written.2) >>= fun ba =>
            (writeString ba name hName >>= fun written => .ok written.2) >>= fun ba =>
              writeString ba value hValue >>= fun written => .ok written.2) >>= fun after =>
                .ok (int32 (after.position - ba.position : Int), after) := by
        funext ba
        simp only [packField, packLiteral, bind_assoc, bind_ok, if_true]
      rw [steps]
      exact writes_emits (writes_bind (emits_writes (write_var_int_emits endian 6 0 0x40))
        (writes_bind (emits_writes (write_string_emits endian nameReadable.written))
          (emits_writes (write_string_emits endian valueReadable.written))))

theorem indexing_first_byte {index : Nat} {first : UInt8} {tail : Str}
    (bytes : varIntBytes 6 index 0x40 = first :: tail) :
    ¬first &&& 0x80 ≠ 0 ∧ first &&& 0x40 ≠ 0 := by
  obtain ⟨low, below, rfl⟩ := var_int_first bytes
  clear bytes
  revert low
  decide +kernel

theorem indexed_first_byte {index : Nat} {first : UInt8} {tail : Str}
    (bytes : varIntBytes 7 index 0x80 = first :: tail) : first &&& 0x80 ≠ 0 := by
  obtain ⟨low, below, rfl⟩ := var_int_first bytes
  clear bytes
  revert low
  decide +kernel

theorem read_indexed_reads (endian : Endian) {index : Nat} (bound : index < 190) :
    Reads readField endian (varIntBytes 7 index 0x80) (some { type := .indexed, index }) := by
  obtain ⟨first, tail, bytes, taken⟩ := read_var_int_from_reads endian (by decide : 7 ≤ 8)
    (by decide : (0x80 : UInt8).toNat % 2 ^ 7 = 0) (show index < 2 ^ 7 + 127 by omega)
  have step : readFieldFrom first = fun ba => readVarIntFrom ba first 7 >>= fun read =>
      .ok (some { type := .indexed, index := read.1 % 2 ^ 32 }, read.2) := by
    funext ba
    rw [readFieldFrom, if_pos (indexed_first_byte bytes)]
  have fieldRead : Reads (readFieldFrom first) endian tail
      (some { type := .indexed, index := index % 2 ^ 32 }) := by
    rw [step]
    exact reads_map (fun idx : Nat =>
      some ({ type := .indexed, index := idx % 2 ^ 32 } : HeaderField)) taken
  rw [Nat.mod_eq_of_lt (by omega)] at fieldRead
  rw [bytes]
  exact reads_bind readFieldFrom (read_fuint8_reads endian first) fieldRead

/-- A field written with incremental indexing, once its strings are read. -/
theorem read_indexing_reads (endian : Endian) {index : Nat} {strings : Str} {header : HeaderField}
    (bound : index < 190)
    (taken : Reads (readStrings
        { type := if index > 0 then .withIndexingIndexedName else .withIndexingNewName, index })
      endian strings header) :
    Reads readField endian (varIntBytes 6 index 0x40 ++ strings) (some header) := by
  obtain ⟨first, tail, bytes, indexRead⟩ := read_var_int_from_reads endian (by decide : 6 ≤ 8)
    (by decide : (0x40 : UInt8).toNat % 2 ^ 6 = 0) (show index < 2 ^ 6 + 127 by omega)
  obtain ⟨notIndexed, indexing⟩ := indexing_first_byte bytes
  have step : readFieldFrom first = fun ba =>
      readLiteral ba first 6 .withIndexingIndexedName .withIndexingNewName >>= fun read =>
        .ok (some read.1, read.2) := by
    funext ba
    rw [readFieldFrom, if_neg notIndexed, if_pos indexing]
  have small : index % 2 ^ 32 = index := Nat.mod_eq_of_lt (by omega)
  rw [← small] at taken
  have literalRead := reads_bind (fun idx : Nat => readStrings
    { type := if idx % 2 ^ 32 > 0 then .withIndexingIndexedName else .withIndexingNewName
      index := idx % 2 ^ 32 }) indexRead taken
  have fieldRead : Reads (readFieldFrom first) endian (tail ++ strings) (some header) := by
    rw [step]
    exact reads_map some literalRead
  rw [bytes]
  change Reads readField endian ([first] ++ (tail ++ strings)) (some header)
  exact reads_bind readFieldFrom (read_fuint8_reads endian first) fieldRead

theorem read_field_reads (endian : Endian) {h : HeaderField} (sendable : Sendable h) :
    Reads readField endian (fieldBytes h) (some (received h)) := by
  cases sendable with
  | indexed index bound => exact read_indexed_reads endian bound
  | knownName index name value hValue bytes positive bound readable =>
      apply read_indexing_reads endian bound
      have step : readStrings { type := .withIndexingIndexedName, index } = fun ba =>
          readString ba >>= fun read =>
            .ok ({ type := .withIndexingIndexedName, index, value := read.1 }, read.2) := by
        funext ba
        rw [readStrings, if_pos positive]
      rw [if_pos positive, step]
      exact reads_map (fun text : Str =>
        ({ type := .withIndexingIndexedName, index, value := text } : HeaderField))
        (read_string_reads_literal endian readable)
  | newName name value hName hValue nameBytes valueBytes nameReadable valueReadable =>
      apply read_indexing_reads endian (show 0 < 190 by decide)
      exact reads_bind (fun (name : Str) ba => readString ba >>= fun read =>
          .ok (({ type := .withIndexingNewName, name, value := read.1 } : HeaderField), read.2))
        (read_string_reads_literal endian nameReadable)
        (reads_map (fun text : Str =>
          ({ type := .withIndexingNewName, name, value := text } : HeaderField))
          (read_string_reads_literal endian valueReadable))

end ChatServer.Http2
