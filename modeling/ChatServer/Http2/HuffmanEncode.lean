import ChatServer.Http2.HuffmanDecode
import Mathlib.Tactic.IntervalCases

/-!
# The Huffman round trip

The encoder keeps the codes packed in the front of its buffer: the bytes up to the
current one are the bits written so far and then `remain` zero bits. At the end the free
bits become ones, the start of EOS, which the decoder leaves alone. The lengths are
computed in `int`, and that bounds the texts for which the round trip is promised.
-/

namespace ChatServer.Http2

set_option autoImplicit false

open BitString PrefixCode

theorem bits_of_append (front back : Str) : bitsOf (front ++ back) = bitsOf front ++ bitsOf back :=
  List.flatMap_append

theorem bits_of_singleton (byte : UInt8) : bitsOf [byte] = byteBits byte := by
  rw [bitsOf, List.flatMap_cons, List.flatMap_nil, List.append_nil]

/-- The buffer up to byte `index` is `bits` and `remain` free bits. -/
structure Packed (buff : Str) (index remain : Nat) (bits : List Bool) : Prop where
  remainPos : 0 < remain
  remainLe : remain ≤ 8
  inside : index < buff.length
  filled : bitsOf (buff.take (index + 1)) = bits ++ List.replicate remain false

theorem packed_length {buff : Str} {index remain : Nat} {bits : List Bool}
    (packed : Packed buff index remain bits) : bits.length + remain = 8 * (index + 1) := by
  have lengths := congrArg List.length packed.filled
  have inside := packed.inside
  rw [bits_of_length, List.length_take, Nat.min_eq_left (by omega), List.length_append,
    List.length_replicate] at lengths
  omega

theorem packed_last {buff : Str} {index remain : Nat} {bits : List Bool}
    (packed : Packed buff index remain bits) :
    ∃ used, bits = bitsOf (buff.take index) ++ used ∧
      byteBits (buff.getD index 0) = used ++ List.replicate remain false ∧
      used.length = 8 - remain := by
  have inside := packed.inside
  have filled := packed.filled
  have length := packed_length packed
  have remainLe := packed.remainLe
  rw [List.take_succ_eq_append_getElem inside, bits_of_append, bits_of_singleton,
    ← List.getD_eq_getElem buff 0 inside] at filled
  have frontLength : (bitsOf (buff.take index)).length = 8 * index := by
    rw [bits_of_length, List.length_take, Nat.min_eq_left (by omega)]
  rcases List.append_eq_append_iff.mp filled with ⟨used, split, last⟩ | ⟨extra, split, last⟩
  · refine ⟨used, split, last, ?_⟩
    rw [split, List.length_append] at length
    omega
  · have extraNone : extra = [] := by
      have lengths := congrArg List.length split
      rw [List.length_append] at lengths
      apply List.length_eq_zero_iff.mp
      omega
    subst extraNone
    rw [List.append_nil] at split
    refine ⟨[], by rw [List.append_nil, split], by rw [List.nil_append, last, List.nil_append], ?_⟩
    rw [split] at frontLength
    rw [List.length_nil]
    omega

theorem or_into_packed {buff : Str} {index remain : Nat} {bits chunk : List Bool} {t : UInt8}
    (packed : Packed buff index remain bits) (chunkLength : chunk.length = remain)
    (value : byteBits t = List.replicate (8 - remain) false ++ chunk) :
    ∃ after, orInto buff index t = .ok after ∧ after.length = buff.length ∧
      bitsOf (after.take (index + 1)) = bits ++ chunk := by
  have inside := packed.inside
  obtain ⟨used, split, last, usedLength⟩ := packed_last packed
  refine ⟨buff.set index (buff.getD index 0 ||| t), if_pos inside, List.length_set, ?_⟩
  have joined : byteBits (buff.getD index 0 ||| t) = used ++ chunk := by
    rw [byteBits, UInt8.toNat_or, nat_bits_or, ← byteBits, ← byteBits, last, value, ← usedLength,
      ← chunkLength, zip_or_disjoint]
  have insideSet : index < (buff.set index (buff.getD index 0 ||| t)).length := by
    rwa [List.length_set]
  rw [List.take_succ_eq_append_getElem insideSet, List.getElem_set_self, bits_of_append,
    bits_of_singleton, joined, List.take_set_of_le (Nat.le_refl index), split, List.append_assoc]

theorem store_zero {buff : Str} {index : Nat} {bits : List Bool} (inside : index + 1 < buff.length)
    (filled : bitsOf (buff.take (index + 1)) = bits) :
    ∃ after, store buff (index + 1) 0 = .ok after ∧ after.length = buff.length ∧
      Packed after (index + 1) 8 bits := by
  have insideSet : index + 1 < (buff.set (index + 1) 0).length := by rwa [List.length_set]
  refine ⟨buff.set (index + 1) 0, if_pos inside, List.length_set, by decide, by decide, insideSet, ?_⟩
  rw [List.take_succ_eq_append_getElem insideSet, List.getElem_set_self, bits_of_append,
    bits_of_singleton, List.take_set_of_le (Nat.le_refl _), filled]
  rfl

/-- The part of a code that goes into one byte, when the bits above it are zero or cut off. -/
theorem chunk_bits {value width remain : Nat} (whole : remain ≤ 8) (width8 : width ≤ remain)
    (clean : remain = 8 ∨ value < 2 ^ width) :
    natBits 8 (value <<< (remain - width)) = List.replicate (8 - remain) false ++
      (natBits width value ++ List.replicate (remain - width) false) := by
  have shifted := nat_bits_shift_left (8 - (remain - width)) (remain - width) value
  rw [Nat.sub_add_cancel (by omega)] at shifted
  have parts := nat_bits_add (8 - remain) width value
  rw [show 8 - remain + width = 8 - (remain - width) by omega] at parts
  have high : natBits (8 - remain) (value / 2 ^ width) = List.replicate (8 - remain) false := by
    rcases clean with full | small
    · rw [full, Nat.sub_self]
      rfl
    · rw [Nat.div_eq_of_lt small, nat_bits_zero]
  rw [shifted, parts, high, List.append_assoc]

def nbytes (nbits remain : Nat) : Nat :=
  if nbits < remain then (remain - nbits) / 8 else (nbits - remain) / 8 + 1

theorem byte_encode_loop_spec (codes nbits : Nat) (some : 0 < nbits) :
    ∀ (remain : Nat) (buff : Str) (i : Nat) (bits : List Bool), Packed buff i remain bits →
      (remain = 8 ∨ codes < 2 ^ nbits) → (bits.length + nbits) / 8 < buff.length →
      ∃ left after, byteEncodeLoop codes nbits remain buff i = .ok (left, after) ∧
        after.length = buff.length ∧
        Packed after (i + nbytes nbits remain) left (bits ++ natBits nbits codes) := by
  induction nbits using Nat.strongRecOn with
  | ind nbits induction =>
      intro remain buff i bits packed clean room
      have remainPos := packed.remainPos
      have remainLe := packed.remainLe
      have length := packed_length packed
      rw [byteEncodeLoop]
      by_cases fits : nbits < remain
      · have value := chunk_bits remainLe (Nat.le_of_lt fits) clean
        rw [← byte_bits_of_nat] at value
        obtain ⟨after, stored, sameLength, filled⟩ := or_into_packed packed (by
          rw [List.length_append, nat_bits_length, List.length_replicate]
          omega) value
        rw [if_pos fits, stored, bind_ok]
        have stay : i + nbytes nbits remain = i := by
          rw [nbytes, if_pos fits, Nat.div_eq_of_lt (by omega), Nat.add_zero]
        refine ⟨remain - nbits, after, rfl, sameLength, ?_⟩
        rw [stay]
        refine ⟨by omega, by omega, by rw [sameLength]; exact packed.inside, ?_⟩
        rw [filled, List.append_assoc]
      · have remainNbits : remain ≤ nbits := Nat.not_lt.mp fits
        have high : remain = 8 ∨ codes / 2 ^ (nbits - remain) < 2 ^ remain := by
          apply clean.imp_right
          intro small
          rw [Nat.div_lt_iff_lt_mul (Nat.two_pow_pos _), ← Nat.pow_add,
            Nat.add_sub_cancel' remainNbits]
          exact small
        have value := chunk_bits remainLe (Nat.le_refl remain) high
        rw [Nat.sub_self, Nat.shiftLeft_zero, List.replicate_zero, List.append_nil,
          ← Nat.shiftRight_eq_div_pow, ← byte_bits_of_nat] at value
        obtain ⟨middle, stored, middleLength, filled⟩ := or_into_packed packed
          (nat_bits_length _ _) value
        have next : i + 1 < middle.length := by
          rw [middleLength]
          omega
        obtain ⟨after, cleared, afterLength, afterPacked⟩ := store_zero next filled
        have cut : natBits nbits codes =
            natBits remain (codes >>> (nbits - remain)) ++ natBits (nbits - remain) codes := by
          rw [Nat.shiftRight_eq_div_pow, ← nat_bits_add, Nat.add_sub_cancel' remainNbits]
        rw [if_neg fits, stored, bind_ok, cleared, bind_ok]
        by_cases done : nbits - remain = 0
        · rw [if_pos done]
          refine ⟨8, after, rfl, by omega, ?_⟩
          rw [nbytes, if_neg fits, cut, done, natBits, List.append_nil]
          rw [done] at afterPacked
          exact afterPacked
        · rw [if_neg done]
          obtain ⟨left, last, returned, lastLength, lastPacked⟩ :=
            induction (nbits - remain) (by omega) (by omega) 8 after (i + 1) _ afterPacked (.inl rfl)
              (by rw [List.length_append, nat_bits_length, afterLength, middleLength]
                  rwa [Nat.add_assoc, Nat.add_sub_cancel' remainNbits])
          refine ⟨left, last, returned, by omega, ?_⟩
          have index : i + 1 + nbytes (nbits - remain) 8 = i + nbytes nbits remain := by
            unfold nbytes
            rw [if_neg fits]
            split_ifs <;> omega
          rw [index, List.append_assoc, ← cut] at lastPacked
          exact lastPacked

theorem string_encode_loop_spec (input : Str) :
    ∀ (remain j : Nat) (buff : Str) (bits : List Bool), Packed buff j remain bits →
      (bits.length + (encode codeBits input).length) / 8 < buff.length →
      ∃ left index after, stringEncodeLoop input remain j buff = .ok (left, index, after) ∧
        after.length = buff.length ∧
        Packed after index left (bits ++ encode codeBits input) := by
  induction input with
  | nil =>
      intro remain j buff bits packed _
      refine ⟨remain, j, buff, rfl, rfl, ?_⟩
      rw [encode, List.flatMap_nil, List.append_nil]
      exact packed
  | cons ch rest induction =>
      intro remain j buff bits packed room
      have bounds := hf_code_bounds ch
      rw [encode_cons, List.length_append, code_bits_length] at room
      obtain ⟨left, middle, returned, middleLength, middlePacked⟩ :=
        byte_encode_loop_spec (hfCode ch) (hfCodeLen ch) (by omega) remain buff j bits packed
          (.inr bounds.2.2) (by omega)
      obtain ⟨last, index, after, finished, afterLength, afterPacked⟩ :=
        induction left _ middle _ middlePacked (by
          rw [List.length_append, nat_bits_length, middleLength]
          omega)
      refine ⟨last, index, after, ?_, by omega, ?_⟩
      · rw [stringEncodeLoop, hfByteEncode, returned, bind_ok]
        exact finished
      · rw [encode_cons, codeBits, ← List.append_assoc]
        exact afterPacked

def codeLengths (text : Str) : Nat := (text.map hfCodeLen).sum

theorem encode_length (text : Str) : (encode codeBits text).length = codeLengths text := by
  induction text with
  | nil => rfl
  | cons ch rest induction =>
      rw [encode_cons, List.length_append, code_bits_length, induction, codeLengths, codeLengths,
        List.map_cons, List.sum_cons]

theorem code_lengths_le (text : Str) : codeLengths text ≤ 30 * text.length := by
  induction text with
  | nil => exact Nat.le_refl 0
  | cons ch rest induction =>
      have bounds := hf_code_bounds ch
      have unfolded : codeLengths (ch :: rest) = hfCodeLen ch + codeLengths rest := by
        rw [codeLengths, codeLengths, List.map_cons, List.sum_cons]
      rw [unfolded, List.length_cons]
      omega

/-- The byte that fills the free bits with the first bits of EOS. -/
theorem eos_padding {remain : Nat} (short : remain < 8) :
    byteBits (UInt8.ofNat (0x3fffffff >>> (30 - remain))) =
      List.replicate (8 - remain) false ++ List.replicate remain true := by
  interval_cases remain <;> decide

theorem hf_string_encode_spec (input buff : Str) (start : Packed buff 0 8 [])
    (room : codeLengths input / 8 < buff.length) :
    ∃ size pad after, hfStringEncode input 0 buff = .ok (size, after) ∧ pad < 8 ∧
      size ≤ after.length ∧
      bitsOf (after.take size) = encode codeBits input ++ List.replicate pad true := by
  obtain ⟨remain, index, middle, returned, middleLength, packed⟩ :=
    string_encode_loop_spec input 8 0 buff [] start (by
      rw [List.length_nil, Nat.zero_add, encode_length]
      exact room)
  rw [List.nil_append] at packed
  have inside := packed.inside
  rw [hfStringEncode, returned, bind_ok]
  dsimp only
  by_cases free : remain < 8
  · obtain ⟨after, stored, afterLength, filled⟩ :=
      or_into_packed packed List.length_replicate (eos_padding free)
    rw [if_pos free, stored, bind_ok]
    exact ⟨index + 1, remain, after, rfl, free, by omega, filled⟩
  · have full : remain = 8 := Nat.le_antisymm packed.remainLe (Nat.not_lt.mp free)
    obtain ⟨used, split, _, usedLength⟩ := packed_last packed
    have none : used = [] := List.length_eq_zero_iff.mp (by omega)
    rw [if_neg free]
    refine ⟨index, 0, middle, rfl, by decide, Nat.le_of_lt inside, ?_⟩
    rw [split, none, List.append_nil, List.replicate_zero, List.append_nil]

theorem encode_string_spec (text : Str) (small : 8 * text.length + 1 < 2 ^ 31) :
    ∃ out pad, encodeString text [] 0 = .ok (0, out) ∧ pad < 8 ∧
      bitsOf out = encode codeBits text ++ List.replicate pad true := by
  have inLen : int32 (text.length : Int) = text.length := int32_of_small (by omega)
  have sized : checkedInt ((text.length : Int) * 8 + 1) = .ok ((text.length : Int) * 8 + 1) :=
    checked_int_ok (by omega) (by omega)
  have fresh : resize [] ((text.length : Int) * 8 + 1) =
      .ok (List.replicate (text.length * 8 + 1) 0) := by
    rw [resize, if_neg (by omega), List.take_nil, List.nil_append, List.length_nil, Nat.sub_zero]
    rfl
  have start : Packed (List.replicate (text.length * 8 + 1) 0) 0 8 [] := by
    refine ⟨by decide, by decide, ?_, ?_⟩
    · rw [List.length_replicate]
      omega
    · rw [List.replicate_succ]
      rfl
  have room : codeLengths text / 8 < (List.replicate (text.length * 8 + 1) (0 : UInt8)).length := by
    have bound := code_lengths_le text
    rw [List.length_replicate]
    omega
  obtain ⟨size, pad, after, returned, padSmall, sizeLe, bits⟩ :=
    hf_string_encode_spec text _ start room
  refine ⟨after.take size, pad, ?_, padSmall, bits⟩
  rw [encodeString, inLen, encodeChars, sized, bind_ok, fresh, bind_ok, Int.toNat_natCast,
    List.take_length, returned, bind_ok]
  dsimp only
  rw [resize, if_neg (by omega), Int.toNat_natCast, Nat.sub_eq_zero_of_le sizeLe,
    List.replicate_zero, List.append_nil, bind_ok]

/-- The sum of the code lengths in `int`, from a sum already there. -/
theorem encode_len_sum (enc : Str) :
    ∀ start : Nat, enc.foldlM (fun len ch => checkedInt (len + hfCodeLen ch)) (start : Int) =
      if start + codeLengths enc < 2 ^ 31 ∨ enc = [] then .ok ((start + codeLengths enc : Nat) : Int)
      else .error (.undefined .signedOverflow) := by
  induction enc with
  | nil =>
      intro start
      rw [List.foldlM_nil, if_pos (.inr rfl)]
      rfl
  | cons ch rest induction =>
      intro start
      have unfolded : codeLengths (ch :: rest) = hfCodeLen ch + codeLengths rest := by
        rw [codeLengths, codeLengths, List.map_cons, List.sum_cons]
      rw [List.foldlM_cons, unfolded]
      by_cases fits : start + hfCodeLen ch < 2 ^ 31
      · rw [checked_int_ok (by omega) (by omega), bind_ok, ← Int.natCast_add, induction,
          ← Nat.add_assoc]
        simp only [List.cons_ne_nil, or_false]
        by_cases last : rest = []
        · have none : codeLengths rest = 0 := by rw [last]; rfl
          rw [if_pos (.inr last), if_pos (by omega)]
        · simp only [last, or_false]
      · rw [checked_int_overflow (by omega), bind_error, if_neg]
        simp only [List.cons_ne_nil, or_false]
        omega

theorem encode_len_spec (text : Str) (small : text.length < 2 ^ 31) :
    encodeLen text = if codeLengths text + 7 < 2 ^ 31 then .ok ((codeLengths text + 7) / 8 : Nat)
      else .error (.undefined .signedOverflow) := by
  have summed := encode_len_sum text 0
  rw [Nat.zero_add] at summed
  rw [encodeLen, encodeLenChars, int32_of_small small, Int.toNat_natCast, List.take_length,
    hfStringEncodeLen]
  by_cases fits : codeLengths text + 7 < 2 ^ 31
  · rw [if_pos (.inl (by omega))] at summed
    have casted : ((codeLengths text : Int) + 7) / 8 = ((codeLengths text + 7) / 8 : Nat) := by
      omega
    rw [if_pos fits, ← Int.natCast_zero, summed, bind_ok, checked_int_ok (by omega) (by omega),
      bind_ok, casted]
  · rw [if_neg fits]
    by_cases sum : codeLengths text < 2 ^ 31
    · rw [if_pos (.inl sum)] at summed
      rw [← Int.natCast_zero, summed, bind_ok, checked_int_overflow (by omega), bind_error]
    · have some : text ≠ [] := by
        rintro rfl
        exact sum (by decide)
      rw [if_neg (by simp only [some, or_false]; exact sum)] at summed
      rw [← Int.natCast_zero, summed, bind_error]

theorem padding_stuck {pad : Nat} (short : pad < 8) : Stuck codeBits (List.replicate pad true) := by
  intro symbol starts
  apply eos_stuck symbol
  apply starts.trans
  rw [eosBits, show 30 = pad + (30 - pad) by omega, ← List.replicate_append_replicate]
  exact List.prefix_append _ _

theorem decode_string_spec (enc out : Str) (small : enc.length < 2 ^ 28) :
    DecodedString (bitsOf enc) (decodeString enc out) := by
  have decoded := decode_chars_spec enc out enc.length small
  rw [List.take_length] at decoded
  rw [decodeString, int32_of_small (by omega)]
  exact decoded

def DecodesTo (enc text : Str) : Prop :=
  ∃ rest, bitsOf enc = encode codeBits text ++ rest ∧ Stuck codeBits rest ∧ ¬eosBits <+: rest

theorem decodes_to_returns {enc text : Str} (small : enc.length < 2 ^ 28)
    (decodes : DecodesTo enc text) (out : Str) :
    decodeString enc out = .ok (text.length, text) := by
  obtain ⟨rest, split, stuck, noEos⟩ := decodes
  have decoded := decode_string_spec enc out small
  generalize decodeString enc out = result at decoded ⊢
  cases decoded with
  | symbols written other otherSplit otherStuck _ =>
      obtain ⟨same, _⟩ := parse_unique code_prefix_free stuck otherStuck
        (split.symm.trans otherSplit)
      rw [same]
  | eosInside written tail other _ =>
      exact absurd ⟨written, tail, other⟩ (no_eos_of_symbols split stuck noEos)
  | eosAtEnd written tail other _ =>
      exact absurd ⟨written, tail, other⟩ (no_eos_of_symbols split stuck noEos)

theorem decode_padded {enc text : Str} {pad : Nat} (small : enc.length < 2 ^ 28) (short : pad < 8)
    (bits : bitsOf enc = encode codeBits text ++ List.replicate pad true) (out : Str) :
    decodeString enc out = .ok (text.length, text) := by
  apply decodes_to_returns small
  refine ⟨_, bits, padding_stuck short, ?_⟩
  intro starts
  have lengths := starts.length_le
  rw [List.length_replicate, eosBits, List.length_replicate] at lengths
  omega

theorem padded_length {enc text : Str} {pad : Nat} (short : pad < 8)
    (bits : bitsOf enc = encode codeBits text ++ List.replicate pad true) :
    enc.length = (codeLengths text + 7) / 8 := by
  have lengths := congrArg List.length bits
  rw [bits_of_length, List.length_append, encode_length, List.length_replicate] at lengths
  omega

/-- Encoding into a fresh string and decoding gives the text back, and the encoded length is
what `EncodeLen` says: the code lengths in whole bytes. -/
def HuffmanRoundTrips (text : Str) : Prop :=
  ∃ enc, encodeString text [] 0 = .ok (0, enc) ∧
    decodeString enc [] = .ok (text.length, text) ∧
    encodeLen text = .ok enc.length ∧ enc.length = (codeLengths text + 7) / 8

theorem round_trips_of_sum {text : Str} (small : 8 * text.length + 1 < 2 ^ 31)
    (sum : codeLengths text + 7 < 2 ^ 31) : HuffmanRoundTrips text := by
  obtain ⟨enc, pad, encoded, short, bits⟩ := encode_string_spec text small
  have length := padded_length short bits
  refine ⟨enc, encoded, decode_padded (by omega) short bits [], ?_, length⟩
  rw [encode_len_spec text (by omega), if_pos sum, length]

theorem sum_of_round_trips {text : Str} (small : 8 * text.length + 1 < 2 ^ 31)
    (trips : HuffmanRoundTrips text) : codeLengths text + 7 < 2 ^ 31 := by
  obtain ⟨enc, _, _, length, _⟩ := trips
  by_contra overflow
  rw [encode_len_spec text (by omega), if_neg overflow] at length
  cases length

/-- The texts the coder takes come back exactly when the sum of their code lengths, rounded up
to bytes, is an `int`. -/
theorem huffman_round_trips_iff (text : Str) (small : 8 * text.length + 1 < 2 ^ 31) :
    HuffmanRoundTrips text ↔ codeLengths text + 7 < 2 ^ 31 := by
  constructor
  · exact sum_of_round_trips small
  · exact round_trips_of_sum small

theorem huffman_round_trips_hello : HuffmanRoundTrips [0x68, 0x65, 0x6c, 0x6c, 0x6f, 0x00, 0xff] := by
  apply (huffman_round_trips_iff _ (by decide)).mpr
  decide +kernel

/-- Line feeds, whose codes have 30 bits: enough of them and the sum leaves `int`. -/
theorem line_feeds_fail (count : Nat) (small : 8 * count + 1 < 2 ^ 31)
    (overflow : 2 ^ 31 ≤ count * 30 + 7) : ¬HuffmanRoundTrips (List.replicate count 0x0a) := by
  intro trips
  have sum := sum_of_round_trips (by rwa [List.length_replicate]) trips
  have code : hfCodeLen 0x0a = 30 := by decide +kernel
  rw [codeLengths, List.map_replicate, List.sum_replicate_nat, code] at sum
  omega

theorem line_feeds_overflow : 8 * 71582789 + 1 < 2 ^ 31 ∧
    ¬HuffmanRoundTrips (List.replicate 71582789 0x0a) :=
  ⟨by decide, line_feeds_fail 71582789 (by decide) (by decide)⟩

end ChatServer.Http2
