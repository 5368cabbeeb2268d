import ChatServer.Http2.HuffmanTrie

/-!
# What the Huffman decoder does with any input

Seen as bits, the input is the codes of some symbols followed by a rest that no code
starts. The decoder finds the symbols. It stops well when the rest does not start with
the code of EOS; otherwise it meets a missing child, which its main loop reports as `-1`
and its last loop follows.
-/

namespace ChatServer.Http2

set_option autoImplicit false

open BitString PrefixCode

def bitsOf (enc : Str) : List Bool := enc.flatMap byteBits

theorem bits_of_length (enc : Str) : (bitsOf enc).length = 8 * enc.length := by
  induction enc with
  | nil => rfl
  | cons byte rest induction =>
      rw [bitsOf, List.flatMap_cons, List.length_append, byte_bits_length, ← bitsOf, induction,
        List.length_cons]
      omega

theorem encode_length_ge (symbols : List UInt8) :
    5 * symbols.length ≤ (encode codeBits symbols).length := by
  induction symbols with
  | nil => exact Nat.le_refl 0
  | cons symbol rest induction =>
      have bounds := hf_code_bounds symbol
      rw [encode_cons, List.length_append, code_bits_length, List.length_cons]
      omega

theorem eos_append_stuck (tail : List Bool) : Stuck codeBits (eosBits ++ tail) := by
  intro symbol starts
  apply eos_stuck symbol
  have bounds := hf_code_bounds symbol
  apply List.prefix_of_prefix_length_le starts (List.prefix_append _ _)
  rw [code_bits_length, eosBits, List.length_replicate]
  exact bounds.2.1

/-- The bits seen so far: those of the symbols written, the path from the root to `n`, and
the bits of `cur` not used yet. -/
structure Walk (stream : List Bool) (d : Decoder) (path : List Bool) : Prop where
  split : stream = encode codeBits d.out ++ (path ++ natBits d.nbits d.cur)
  holds : Holds d.n (Below path)
  whole : 8 ∣ path.length
  further : ∃ bits symbol, Below path bits symbol

theorem at_root : Holds hfInit (Below []) ∧ ∃ bits symbol, Below [] bits symbol :=
  ⟨hf_init_holds, codeBits 0, 0, rfl, code_bits_ne_nil 0⟩

/-- A leaf whose bits are there: its symbol is written and the walk starts again. -/
theorem walk_leaf {stream : List Bool} {d : Decoder} {path bits : List Bool} {symbol : UInt8}
    (walk : Walk stream d path) (below : Below path bits symbol)
    (starts : bits <+: natBits d.nbits d.cur) :
    Walk stream
      { d with n := hfInit, nbits := d.nbits - bits.length, out := d.out ++ [symbol] } [] := by
  have inside : bits.length ≤ d.nbits := by
    have lengths := starts.length_le
    rwa [nat_bits_length] at lengths
  have cut : natBits d.nbits d.cur = bits ++ natBits (d.nbits - bits.length) d.cur := by
    have added := nat_bits_add bits.length (d.nbits - bits.length) d.cur
    rw [Nat.add_sub_cancel' inside] at added
    have front := List.prefix_iff_eq_take.mp starts
    rw [added, List.take_left' (nat_bits_length _ _)] at front
    rw [added, ← front]
  refine ⟨?_, at_root.1, Nat.dvd_zero 8, at_root.2⟩
  rw [walk.split, cut]
  dsimp only
  rw [encode_append, encode_singleton, below.1, List.nil_append]
  simp only [List.append_assoc]

theorem eos_tail {path bits : List Bool} (whole : 8 ∣ path.length) (index : UInt8)
    (eos : eosBits <+: path ++ byteBits index) :
    ∃ tail, path ++ byteBits index ++ bits = eosBits ++ tail ∧ 2 ≤ tail.length := by
  obtain ⟨tail, split⟩ := eos
  refine ⟨tail ++ bits, by rw [← List.append_assoc, split], ?_⟩
  have lengths := congrArg List.length split
  rw [List.length_append, List.length_append, byte_bits_length, eosBits, List.length_replicate]
    at lengths
  rw [List.length_append]
  omega

theorem decode_whole_spec {stream : List Bool} {outSz : Int} (room : stream.length ≤ outSz)
    (fuel : Nat) :
    ∀ (d : Decoder) (path : List Bool), Walk stream d path → d.nbits ≤ fuel →
      (∃ after afterPath, decodeWhole hfInit outSz fuel d = .ok (.ok after) ∧
        Walk stream after afterPath ∧ after.nbits < 8) ∨
      ∃ out tail, decodeWhole hfInit outSz fuel d = .ok (.error (-1, out)) ∧
        stream = encode codeBits out ++ (eosBits ++ tail) ∧ 2 ≤ tail.length := by
  induction fuel with
  | zero =>
      intro d path walk enough
      have few : ¬8 ≤ d.nbits := by omega
      left
      exact ⟨d, path, by rw [decodeWhole, if_neg few], walk, by omega⟩
  | succ fuel induction =>
      intro d path walk enough
      by_cases byte : 8 ≤ d.nbits
      · obtain ⟨bits, symbol, below⟩ := walk.further
        have cut : natBits d.nbits d.cur =
            byteBits (UInt8.ofNat (d.cur >>> (d.nbits - 8))) ++ natBits (d.nbits - 8) d.cur := by
          rw [byte_bits_of_nat, Nat.shiftRight_eq_div_pow, ← nat_bits_add,
            Nat.add_sub_cancel' byte]
        have child := child_case walk.holds below walk.whole
          (UInt8.ofNat (d.cur >>> (d.nbits - 8)))
        rw [decodeWhole, if_pos byte]
        generalize UInt8.ofNat (d.cur >>> (d.nbits - 8)) = index at cut child ⊢
        generalize d.n.child index = next at child ⊢
        cases child with
        | leaf symbol bits code below starts found =>
            subst found
            have positive := List.length_pos_iff.mpr below.2
            have noOverflow : ¬(0 < outSz ∧ outSz < d.out.length) := by
              have written := encode_length_ge d.out
              have total := congrArg List.length walk.split
              rw [List.length_append] at total
              omega
            dsimp only
            rw [if_pos rfl, if_neg noOverflow]
            apply induction _ _ (walk_leaf walk below (starts.trans (by
              rw [cut]
              exact List.prefix_append _ _)))
            dsimp only
            omega
        | inner children sym code codeLen size symbol bits below found counted holds =>
            subst found
            dsimp only
            rw [if_neg (Nat.ne_of_gt counted)]
            refine induction _ (path ++ byteBits index) ⟨?_, holds, ?_, bits, symbol, below⟩ ?_
            · rw [walk.split, cut]
              simp only [List.append_assoc]
            · rw [List.length_append, byte_bits_length]
              exact (Nat.dvd_add_right walk.whole).mpr (Nat.dvd_refl 8)
            · dsimp only
              omega
        | absent found eos =>
            subst found
            right
            obtain ⟨tail, split, two⟩ := eos_tail walk.whole index eos
            refine ⟨d.out, tail, rfl, ?_, two⟩
            rw [walk.split, cut, ← List.append_assoc path, split]
      · left
        exact ⟨d, path, by rw [decodeWhole, if_neg byte], walk, by omega⟩

theorem walk_byte {stream : List Bool} {d : Decoder} {path : List Bool} (walk : Walk stream d path)
    (few : d.nbits < 8) (byte : UInt8) :
    Walk (stream ++ byteBits byte)
      { d with cur := (d.cur <<< 8 ||| byte.toNat) % 2 ^ 32, nbits := d.nbits + 8 } path := by
  have bound : byte.toNat < 2 ^ 8 := byte.toNat_lt
  have joined : d.cur <<< 8 ||| byte.toNat = d.cur * 2 ^ 8 + byte.toNat := by
    rw [← Nat.shiftLeft_add_eq_or_of_lt bound, Nat.shiftLeft_eq]
  have high : (d.cur * 2 ^ 8 + byte.toNat) / 2 ^ 8 = d.cur := by omega
  have low : natBits 8 (d.cur * 2 ^ 8 + byte.toNat) = byteBits byte := by
    rw [byteBits, ← nat_bits_mod _ (Nat.le_refl 8), Nat.mul_comm, Nat.mul_add_mod,
      nat_bits_mod _ (Nat.le_refl 8)]
  refine ⟨?_, walk.holds, walk.whole, walk.further⟩
  dsimp only
  rw [nat_bits_mod _ (by omega : d.nbits + 8 ≤ 32), joined, nat_bits_add, high, low, walk.split]
  simp only [List.append_assoc]

theorem decode_bytes_spec (outSz : Int) (enc : Str) :
    ∀ (stream : List Bool) (d : Decoder) (path : List Bool), Walk stream d path → d.nbits < 8 →
      (stream ++ bitsOf enc).length ≤ outSz →
      (∃ after afterPath, decodeBytes hfInit outSz enc d = .ok (.ok after) ∧
        Walk (stream ++ bitsOf enc) after afterPath ∧ after.nbits < 8) ∨
      ∃ out tail, decodeBytes hfInit outSz enc d = .ok (.error (-1, out)) ∧
        stream ++ bitsOf enc = encode codeBits out ++ (eosBits ++ tail) ∧ 2 ≤ tail.length := by
  induction enc with
  | nil =>
      intro stream d path walk few _
      left
      refine ⟨d, path, rfl, ?_, few⟩
      rw [bitsOf, List.flatMap_nil, List.append_nil]
      exact walk
  | cons byte enc induction =>
      intro stream d path walk few room
      have regroup : stream ++ bitsOf (byte :: enc) = stream ++ byteBits byte ++ bitsOf enc := by
        rw [bitsOf, List.flatMap_cons, ← bitsOf, List.append_assoc]
      rw [regroup] at room ⊢
      have roomNow : ((stream ++ byteBits byte).length : Int) ≤ outSz := by
        rw [List.length_append] at room
        omega
      rw [decodeBytes]
      rcases decode_whole_spec roomNow (d.nbits + 8) _ path (walk_byte walk few byte)
        (Nat.le_refl _) with ⟨after, afterPath, returned, afterWalk, afterFew⟩ |
          ⟨out, tail, returned, split, two⟩
      · rw [returned, bind_ok]
        exact induction _ after afterPath afterWalk afterFew room
      · rw [returned, bind_ok]
        right
        refine ⟨out, tail ++ bitsOf enc, rfl, ?_, ?_⟩
        · rw [split]
          simp only [List.append_assoc]
        · rw [List.length_append]
          omega

/-- A rest that lies on the path of a longer code is no code itself, and not EOS. -/
theorem stuck_below {path bits rest : List Bool} {symbol : UInt8} (below : Below path bits symbol)
    (inside : rest <+: path) : Stuck codeBits rest ∧ ¬eosBits <+: rest := by
  have positive := List.length_pos_iff.mpr below.2
  have total := code_bits_length symbol
  have bounds := hf_code_bounds symbol
  rw [below.1, List.length_append] at total
  have restLength := inside.length_le
  constructor
  · intro other starts
    have same := code_prefix_free other symbol ((starts.trans inside).trans (by
      rw [below.1]
      exact List.prefix_append _ _))
    subst same
    have lengths := starts.length_le
    rw [code_bits_length] at lengths
    omega
  · intro eos
    have lengths := eos.length_le
    rw [eosBits, List.length_replicate] at lengths
    omega

theorem stuck_before_leaf {rest tail : List Bool} {symbol : UInt8}
    (starts : codeBits symbol <+: rest ++ tail) (shorter : rest.length < hfCodeLen symbol) :
    Stuck codeBits rest ∧ ¬eosBits <+: rest := by
  constructor
  · intro other otherStarts
    have same := code_eq_of_starts code_prefix_free
      (otherStarts.trans (List.prefix_append rest tail)) starts
    subst same
    have lengths := otherStarts.length_le
    rw [code_bits_length] at lengths
    omega
  · intro eos
    have lengths := eos.length_le
    rw [eosBits, List.length_replicate] at lengths
    have bounds := hf_code_bounds symbol
    omega

theorem eos_of_padded {rest : List Bool} {zeros : Nat}
    (eos : eosBits <+: rest ++ List.replicate zeros false) : eosBits <+: rest := by
  rcases List.prefix_or_prefix_of_prefix eos (List.prefix_append _ _) with inside | ⟨extra, split⟩
  · exact inside
  · rw [← split, List.prefix_append_right_inj] at eos
    cases extra with
    | nil =>
        rw [List.append_nil] at split
        exact split ▸ List.prefix_refl _
    | cons bit extra =>
        have inEos : bit ∈ eosBits := by
          rw [← split]
          exact List.mem_append_right _ List.mem_cons_self
        have inZeros := eos.subset List.mem_cons_self
        rw [eosBits, List.mem_replicate] at inEos
        rw [List.mem_replicate] at inZeros
        rw [inEos.2] at inZeros
        cases inZeros.2

inductive TailCase (stream : List Bool) : Result Decoder → Prop where
  | stopped (d : Decoder) (rest : List Bool) (split : stream = encode codeBits d.out ++ rest)
      (stuck : Stuck codeBits rest) (noEos : ¬eosBits <+: rest) : TailCase stream (.ok d)
  | fell (out : Str) (tail : List Bool)
      (split : stream = encode codeBits out ++ (eosBits ++ tail)) (short : tail.length < 2) :
      TailCase stream (.error (.undefined .nullDeref))

theorem decode_tail_spec {stream : List Bool} (fuel : Nat) :
    ∀ (d : Decoder) (path : List Bool), Walk stream d path → d.nbits < 8 → d.nbits ≤ fuel →
      TailCase stream (decodeTail hfInit fuel d) := by
  have finish (d : Decoder) (path : List Bool) (walk : Walk stream d path) (none : d.nbits = 0) :
      TailCase stream (.ok d) := by
    obtain ⟨bits, symbol, below⟩ := walk.further
    have split := walk.split
    rw [none, natBits, List.append_nil] at split
    obtain ⟨stuck, noEos⟩ := stuck_below below (List.prefix_refl path)
    exact .stopped d path split stuck noEos
  induction fuel with
  | zero =>
      intro d path walk _ enough
      rw [decodeTail, if_neg (by omega)]
      exact finish d path walk (by omega)
  | succ fuel induction =>
      intro d path walk few enough
      rw [decodeTail]
      by_cases more : 0 < d.nbits
      · obtain ⟨bits, symbol, below⟩ := walk.further
        have padded : byteBits (UInt8.ofNat (d.cur <<< (8 - d.nbits))) =
            natBits d.nbits d.cur ++ List.replicate (8 - d.nbits) false := by
          have shifted := nat_bits_shift_left d.nbits (8 - d.nbits) d.cur
          rwa [Nat.add_sub_cancel' (Nat.le_of_lt few), ← byte_bits_of_nat] at shifted
        have child := child_case walk.holds below walk.whole
          (UInt8.ofNat (d.cur <<< (8 - d.nbits)))
        rw [if_pos more]
        generalize UInt8.ofNat (d.cur <<< (8 - d.nbits)) = index at padded child ⊢
        generalize d.n.child index = next at child ⊢
        cases child with
        | leaf symbol bits code below starts found =>
            subst found
            dsimp only
            rw [padded] at starts
            by_cases long : d.nbits < bits.length
            · rw [if_pos (.inr long)]
              have whole : codeBits symbol <+: path ++ natBits d.nbits d.cur ++
                  List.replicate (8 - d.nbits) false := by
                rw [below.1, List.append_assoc, List.prefix_append_right_inj]
                exact starts
              have shorter : (path ++ natBits d.nbits d.cur).length < hfCodeLen symbol := by
                rw [← code_bits_length, below.1, List.length_append, List.length_append,
                  nat_bits_length]
                omega
              obtain ⟨stuck, noEos⟩ := stuck_before_leaf whole shorter
              exact .stopped d _ walk.split stuck noEos
            · rw [if_neg (by omega)]
              have inside : bits <+: natBits d.nbits d.cur := by
                apply List.prefix_of_prefix_length_le starts (List.prefix_append _ _)
                rw [nat_bits_length]
                omega
              have positive := List.length_pos_iff.mpr below.2
              apply induction _ _ (walk_leaf walk below inside)
              · dsimp only
                omega
              · dsimp only
                omega
        | inner children sym code codeLen size symbol bits below found counted holds =>
            subst found
            dsimp only
            rw [if_pos (.inl (Nat.ne_of_gt counted))]
            have inside : path ++ natBits d.nbits d.cur <+: path ++ byteBits index := by
              rw [padded, List.prefix_append_right_inj]
              exact List.prefix_append _ _
            obtain ⟨stuck, noEos⟩ := stuck_below below inside
            exact .stopped d _ walk.split stuck noEos
        | absent found eos =>
            subst found
            rw [padded, ← List.append_assoc] at eos
            obtain ⟨tail, split⟩ := eos_of_padded eos
            refine .fell d.out tail (by rw [walk.split, split]) ?_
            have pathShort : path.length < 30 := by
              have total := code_bits_length symbol
              have bounds := hf_code_bounds symbol
              have positive := List.length_pos_iff.mpr below.2
              rw [below.1, List.length_append] at total
              omega
            have lengths := congrArg List.length split
            rw [List.length_append, List.length_append, nat_bits_length, eosBits,
              List.length_replicate] at lengths
            have whole := walk.whole
            omega
      · rw [if_neg more]
        exact finish d path walk (by omega)

inductive Decoded (stream : List Bool) : Result (Int × Str) → Prop where
  | symbols (out : Str) (rest : List Bool) (split : stream = encode codeBits out ++ rest)
      (stuck : Stuck codeBits rest) (noEos : ¬eosBits <+: rest) :
      Decoded stream (.ok (out.length, out))
  | eosInside (out : Str) (tail : List Bool)
      (split : stream = encode codeBits out ++ (eosBits ++ tail)) (long : 2 ≤ tail.length) :
      Decoded stream (.ok (-1, out))
  | eosAtEnd (out : Str) (tail : List Bool)
      (split : stream = encode codeBits out ++ (eosBits ++ tail)) (short : tail.length < 2) :
      Decoded stream (.error (.undefined .nullDeref))

theorem hf_string_decode_spec (enc : Str) {outSz : Int} (room : 8 * enc.length ≤ outSz) :
    Decoded (bitsOf enc) (hfStringDecode hfInit enc outSz) := by
  have start : Walk [] ⟨hfInit, 0, 0, []⟩ [] := ⟨rfl, at_root.1, Nat.dvd_zero 8, at_root.2⟩
  have enough : (([] ++ bitsOf enc).length : Int) ≤ outSz := by
    rw [List.nil_append, bits_of_length]
    omega
  rw [hfStringDecode]
  rcases decode_bytes_spec outSz enc [] _ [] start (by decide) enough with
    ⟨after, path, returned, walk, few⟩ | ⟨out, tail, returned, split, long⟩
  · rw [returned, bind_ok]
    dsimp only
    rw [List.nil_append] at walk
    cases last : decodeTail hfInit after.nbits after with
    | ok d =>
        have ended := decode_tail_spec after.nbits after path walk few (Nat.le_refl _)
        rw [last] at ended
        cases ended with
        | stopped _ rest split stuck noEos => exact .symbols d.out rest split stuck noEos
    | error fault =>
        have ended := decode_tail_spec after.nbits after path walk few (Nat.le_refl _)
        rw [last] at ended
        cases ended with
        | fell out tail split short => exact .eosAtEnd out tail split short
  · rw [returned, bind_ok]
    exact .eosInside out tail split long

inductive DecodedString (stream : List Bool) : Result (Int × Str) → Prop where
  | symbols (out : Str) (rest : List Bool) (split : stream = encode codeBits out ++ rest)
      (stuck : Stuck codeBits rest) (noEos : ¬eosBits <+: rest) :
      DecodedString stream (.ok (out.length, out))
  | eosInside (out : Str) (tail : List Bool)
      (split : stream = encode codeBits out ++ (eosBits ++ tail)) (long : 2 ≤ tail.length) :
      DecodedString stream (.error (.thrown .lengthError))
  | eosAtEnd (out : Str) (tail : List Bool)
      (split : stream = encode codeBits out ++ (eosBits ++ tail)) (short : tail.length < 2) :
      DecodedString stream (.error (.undefined .nullDeref))

theorem decode_chars_spec (input out : Str) (count : Nat) (small : count < 2 ^ 28) :
    DecodedString (bitsOf (input.take count)) (decodeChars input count out) := by
  have sized : checkedInt ((count : Int) * 8 + 1) = .ok ((count : Int) * 8 + 1) :=
    checked_int_ok (by omega) (by omega)
  have buffer : resize out ((count : Int) * 8 + 1) = .ok (out.take (count * 8 + 1) ++
      List.replicate (count * 8 + 1 - out.length) 0) := by
    rw [resize, if_neg (by omega)]
    rfl
  have room : (8 * (input.take count).length : Int) ≤ (count : Int) * 8 + 1 := by
    have bound := List.length_take_le count input
    omega
  have decoded := hf_string_decode_spec (input.take count) room
  rw [decodeChars, sized, bind_ok, buffer, bind_ok, Int.toNat_natCast]
  generalize hfStringDecode hfInit (input.take count) ((count : Int) * 8 + 1) = result
    at decoded ⊢
  cases decoded with
  | symbols written rest split stuck noEos =>
      rw [bind_ok]
      dsimp only
      rw [resize, if_neg (by omega), Int.toNat_natCast, List.take_left, bind_ok]
      have full : written.length - (written ++ (out.take (count * 8 + 1) ++
          List.replicate (count * 8 + 1 - out.length) 0).drop written.length).length = 0 := by
        rw [List.length_append]
        omega
      rw [full, List.replicate_zero, List.append_nil]
      exact .symbols written rest split stuck noEos
  | eosInside written tail split long => exact .eosInside written tail split long
  | eosAtEnd written tail split short => exact .eosAtEnd written tail split short

def HasEos (stream : List Bool) : Prop :=
  ∃ symbols tail, stream = encode codeBits symbols ++ (eosBits ++ tail)

theorem no_eos_of_symbols {stream : List Bool} {out : Str} {rest : List Bool}
    (split : stream = encode codeBits out ++ rest) (stuck : Stuck codeBits rest)
    (noEos : ¬eosBits <+: rest) : ¬HasEos stream := by
  rintro ⟨symbols, tail, other⟩
  obtain ⟨_, same⟩ := parse_unique code_prefix_free stuck (eos_append_stuck tail)
    (split.symm.trans other)
  apply noEos
  rw [same]
  exact List.prefix_append _ _

/-- `hf_string_decode` returns, and `DecodeString` gives both its `resize` calls a length that
is not negative and returns. -/
def DecodesSafely (enc out : Str) : Prop :=
  (∃ result, hfStringDecode hfInit (enc.take (int32 enc.length).toNat)
      (int32 enc.length * 8 + 1) = .ok result) ∧
    ∃ rt text, decodeString enc out = .ok (rt, text) ∧ 0 ≤ rt

/-- The length as `int` is used for a buffer of eight bytes per input byte, and the input has
no EOS where a symbol could stand. -/
def Decodable (enc : Str) : Prop :=
  0 ≤ int32 enc.length ∧ int32 enc.length < 2 ^ 28 ∧
    ¬HasEos (bitsOf (enc.take (int32 enc.length).toNat))

theorem decodable_of_safe {enc out : Str} (safe : DecodesSafely enc out) : Decodable enc := by
  obtain ⟨_, rt, text, returned, _⟩ := safe
  rw [decodeString] at returned
  have notNegative : 0 ≤ int32 enc.length := by
    by_contra negative
    obtain ⟨len, sized, rest⟩ := bind_eq_ok returned
    obtain ⟨buffer, resized, _⟩ := bind_eq_ok rest
    have below : len < 0 := by
      unfold checkedInt at sized
      split_ifs at sized
      have value := Except.ok.inj sized
      omega
    rw [resize, if_pos below] at resized
    cases resized
  have small : int32 enc.length < 2 ^ 28 := by
    by_contra large
    obtain ⟨len, sized, _⟩ := bind_eq_ok returned
    rw [checked_int_overflow (by omega)] at sized
    cases sized
  refine ⟨notNegative, small, ?_⟩
  obtain ⟨count, countEq⟩ := Int.eq_ofNat_of_zero_le notNegative
  rw [countEq] at returned small ⊢
  rw [Int.toNat_natCast]
  have decoded := decode_chars_spec enc out count (by omega)
  rw [returned] at decoded
  cases decoded with
  | symbols written rest split stuck noEos => exact no_eos_of_symbols split stuck noEos

theorem safe_of_decodable {enc out : Str} (decodable : Decodable enc) : DecodesSafely enc out := by
  obtain ⟨notNegative, small, noEos⟩ := decodable
  unfold DecodesSafely decodeString
  obtain ⟨count, countEq⟩ := Int.eq_ofNat_of_zero_le notNegative
  rw [countEq] at small noEos ⊢
  rw [Int.toNat_natCast] at noEos ⊢
  have room : (8 * (enc.take count).length : Int) ≤ (count : Int) * 8 + 1 := by
    have bound := List.length_take_le count enc
    omega
  constructor
  · have decoded := hf_string_decode_spec (enc.take count) room
    generalize hfStringDecode hfInit (enc.take count) ((count : Int) * 8 + 1) = result
      at decoded ⊢
    cases decoded with
    | symbols written rest split stuck none => exact ⟨_, rfl⟩
    | eosInside written tail split long => exact absurd ⟨written, tail, split⟩ noEos
    | eosAtEnd written tail split short => exact absurd ⟨written, tail, split⟩ noEos
  · have decoded := decode_chars_spec enc out count (by omega)
    generalize decodeChars enc count out = result at decoded ⊢
    cases decoded with
    | symbols written rest split stuck none => exact ⟨_, _, rfl, Int.natCast_nonneg _⟩
    | eosInside written tail split long => exact absurd ⟨written, tail, split⟩ noEos
    | eosAtEnd written tail split short => exact absurd ⟨written, tail, split⟩ noEos

/-- The decoder is safe exactly on the inputs that fit its buffer and have no EOS where a
symbol could stand. -/
theorem decodes_safely_iff_decodable (enc out : Str) :
    DecodesSafely enc out ↔ Decodable enc := by
  constructor
  · exact decodable_of_safe
  · exact safe_of_decodable

/-- The code of `!` and then EOS: the last loop follows a null pointer. -/
theorem eos_at_end_unsafe : ¬DecodesSafely [0xFE, 0x3F, 0xFF, 0xFF, 0xFF] [] := by
  intro safe
  obtain ⟨_, _, noEos⟩ := decodable_of_safe safe
  have stream : bitsOf (List.take (int32 5).toNat [0xFE, 0x3F, 0xFF, 0xFF, 0xFF]) =
      encode codeBits [0x21] ++ (eosBits ++ []) := by decide +kernel
  exact noEos ⟨[0x21], [], stream⟩

end ChatServer.Http2
