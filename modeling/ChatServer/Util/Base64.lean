import ChatServer.Http2.DynamicTable
import ChatServer.Http2.Huffman

/-!
# Base64

`base64encode` and `base64decode`. The decoder sets its result to three quarters of the length
of the text, writes through a pointer into it and cuts it down at the end. A text fits into
the address space, so that the product does not wrap, and `packed` never has more than 24 bits.
-/

namespace ChatServer.Util

set_option autoImplicit false

open ChatServer.Http2 (ascii store)

def base64 (url : Bool) : Str :=
  if url then ascii "ABCDEFGHIJKLMNOPQRSTUVWXYZabcdefghijklmnopqrstuvwxyz0123456789-_"
  else ascii "ABCDEFGHIJKLMNOPQRSTUVWXYZabcdefghijklmnopqrstuvwxyz0123456789+/"

/-- One round of `base64encode`, for the one to three bytes that it takes. -/
def encodeGroup (url : Bool) (bytes : Str) : Str :=
  let i := bytes.length
  let padding := if i = 2 then 1 else if i = 1 then 2 else 0
  let packed : UInt32 := Nat.repeat (· <<< 8) (3 - i)
    (bytes.foldl (fun packed byte => packed <<< 8 ||| byte.toUInt32) 0)
  [(base64 url).getD (packed >>> 18).toNat 0, (base64 url).getD (packed >>> 12 &&& 0x3F).toNat 0]
    ++ (if padding ≠ 2 then [(base64 url).getD (packed >>> 6 &&& 0x3F).toNat 0] else [])
    ++ (if padding = 0 then [(base64 url).getD (packed &&& 0x3F).toNat 0] else [])
    ++ List.replicate padding 0x3D

def base64encode (url : Bool) : Str → Str
  | [] => []
  | first :: second :: third :: rest =>
      encodeGroup url [first, second, third] ++ base64encode url rest
  | bytes => encodeGroup url bytes

/-- `val`, or `none` for an invalid character. -/
def digitValue (url : Bool) (c : UInt8) : Option UInt32 :=
  if 0x41 ≤ c && c ≤ 0x5A then some (c - 0x41).toUInt32
  else if 0x61 ≤ c && c ≤ 0x7A then some ((c - 0x61).toUInt32 + 26)
  else if 0x30 ≤ c && c ≤ 0x39 then some ((c - 0x30).toUInt32 + 52)
  else if c = (if url then 0x2D else 0x2B) then some 62
  else if c = (if url then 0x5F else 0x2F) then some 63
  else none

structure Group where
  i : Nat
  padding : Nat
  packed : UInt32
  deriving DecidableEq, Repr

/-- The inner loop with `left` characters to go: `none` is the return of the empty text. -/
def readGroup (url : Bool) : Nat → Group → Str → Option (Group × Str)
  | 0, group, text => some (group, text)
  | _ + 1, group, [] => some (group, [])
  | left + 1, group, c :: text =>
      if c = 0x3D then
        readGroup url left ⟨group.i + 1, group.padding + 1, group.packed <<< 6⟩ text
      else if 0 < group.padding then none
      else
        match digitValue url c with
        | none => none
        | some val =>
            readGroup url left ⟨group.i + 1, group.padding, group.packed <<< 6 ||| val⟩ text

def groupBytes (group : Group) : Str :=
  [(group.packed >>> 16 &&& 0xFF).toUInt8]
    ++ (if group.padding ≠ 2 then [(group.packed >>> 8 &&& 0xFF).toUInt8] else [])
    ++ (if group.padding = 0 then [(group.packed &&& 0xFF).toUInt8] else [])

/-- `*writeBuf++ = byte` for each byte, with the place of `writeBuf` in the result. -/
def writeBytes : Str → Str → Nat → Result (Str × Nat)
  | [], result, writeBuf => .ok (result, writeBuf)
  | byte :: bytes, result, writeBuf => do
      let result ← store result writeBuf byte
      writeBytes bytes result (writeBuf + 1)

def base64decodeLoop (url : Bool) : Nat → Str → Str → Nat → Result (Option (Str × Nat))
  | 0, text, result, writeBuf =>
      if text = [] then .ok (some (result, writeBuf)) else .error (.undefined .endlessLoop)
  | fuel + 1, text, result, writeBuf =>
      if text = [] then .ok (some (result, writeBuf))
      else
        match readGroup url 4 ⟨0, 0, 0⟩ text with
        | none => .ok none
        | some (group, behind) =>
            if group.i ≠ 4 then .ok none
            else if 0 < group.padding ∧ behind ≠ [] then .ok none
            else if 2 < group.padding then .ok none
            else do
              let (result, writeBuf) ← writeBytes (groupBytes group) result writeBuf
              base64decodeLoop url fuel behind result writeBuf

def base64decode (src : Str) (url : Bool) : Result Str := do
  let result := List.replicate (src.length * 3 / 4) 0
  match ← base64decodeLoop url src.length src result 0 with
  | none => .ok []
  | some (result, writeBuf) => .ok (result.take writeBuf)

theorem digit_value_base64 (url : Bool) :
    ∀ number < 64, digitValue url ((base64 url).getD number 0) = some (UInt32.ofNat number) ∧
      (base64 url).getD number 0 ≠ 0x3D := by
  cases url <;> decide +kernel

theorem digit_value_mem {url : Bool} {c : UInt8} (known : digitValue url c ≠ none) :
    c ∈ base64 url := by
  have all : ∀ number < 256, digitValue url (UInt8.ofNat number) ≠ none →
      UInt8.ofNat number ∈ base64 url := by
    cases url <;> decide +kernel
  have here := all c.toNat c.toNat_lt
  rw [UInt8.ofNat_toNat] at here
  exact here known

theorem shift_or (word low bits : UInt32) (few : bits.toNat < 32)
    (small : low.toNat < 2 ^ bits.toNat) (room : word.toNat * 2 ^ bits.toNat < 2 ^ 32) :
    (word <<< bits ||| low).toNat = word.toNat * 2 ^ bits.toNat + low.toNat := by
  rw [UInt32.toNat_or, UInt32.toNat_shiftLeft, Nat.mod_eq_of_lt few, Nat.shiftLeft_eq,
    Nat.mod_eq_of_lt room, ← Nat.shiftLeft_eq, Nat.shiftLeft_add_eq_or_of_lt small]

theorem shift_or_six {word low : UInt32} (small : low.toNat < 64) (room : word.toNat < 2 ^ 18) :
    (word <<< 6 ||| low).toNat = word.toNat * 64 + low.toNat :=
  shift_or word low 6 (by decide) small (by
    change word.toNat * 64 < 4294967296
    omega)

theorem shift_or_eight {word low : UInt32} (small : low.toNat < 256)
    (room : word.toNat < 2 ^ 16) : (word <<< 8 ||| low).toNat = word.toNat * 256 + low.toNat :=
  shift_or word low 8 (by decide) small (by
    change word.toNat * 256 < 4294967296
    omega)

theorem digits_toNat (packed : UInt32) :
    (packed >>> 18).toNat = packed.toNat / 2 ^ 18 ∧
      (packed >>> 12 &&& 0x3F).toNat = packed.toNat / 2 ^ 12 % 64 ∧
      (packed >>> 6 &&& 0x3F).toNat = packed.toNat / 2 ^ 6 % 64 ∧
      (packed &&& 0x3F).toNat = packed.toNat % 64 := by
  refine ⟨?_, ?_, ?_, ?_⟩
  · rw [UInt32.toNat_shiftRight, Nat.shiftRight_eq_div_pow]
    rfl
  · rw [UInt32.toNat_and, UInt32.toNat_shiftRight, Nat.shiftRight_eq_div_pow]
    exact Nat.and_two_pow_sub_one_eq_mod _ 6
  · rw [UInt32.toNat_and, UInt32.toNat_shiftRight, Nat.shiftRight_eq_div_pow]
    exact Nat.and_two_pow_sub_one_eq_mod _ 6
  · rw [UInt32.toNat_and]
    exact Nat.and_two_pow_sub_one_eq_mod _ 6

theorem joined_digits {packed : UInt32} (bound : packed.toNat < 2 ^ 24) :
    ((((0 : UInt32) <<< 6 ||| packed >>> 18) <<< 6 ||| (packed >>> 12 &&& 0x3F)) <<< 6 |||
      (packed >>> 6 &&& 0x3F)) <<< 6 ||| (packed &&& 0x3F) = packed := by
  rcases digits_toNat packed with ⟨first, second, third, fourth⟩
  have one : ((0 : UInt32) <<< 6 ||| packed >>> 18).toNat = packed.toNat / 2 ^ 18 := by
    rw [shift_or_six (by omega) (by decide), first]
    exact Nat.zero_add _
  have two := shift_or_six (show (packed >>> 12 &&& 0x3F).toNat < 64 by omega)
    (show ((0 : UInt32) <<< 6 ||| packed >>> 18).toNat < 2 ^ 18 by omega)
  have three := shift_or_six (show (packed >>> 6 &&& 0x3F).toNat < 64 by omega)
    (show UInt32.toNat _ < _ by rw [two]; omega)
  apply UInt32.toNat.inj
  rw [shift_or_six (by omega) (by rw [three, two]; omega), three, two]
  omega

def pack (first second third : UInt8) : UInt32 :=
  (((0 : UInt32) <<< 8 ||| first.toUInt32) <<< 8 ||| second.toUInt32) <<< 8 ||| third.toUInt32

theorem pack_toNat (first second third : UInt8) :
    (pack first second third).toNat =
      first.toNat * 65536 + second.toNat * 256 + third.toNat := by
  have firstLt := first.toNat_lt
  have secondLt := second.toNat_lt
  have thirdLt := third.toNat_lt
  have one : ((0 : UInt32) <<< 8 ||| first.toUInt32).toNat = first.toNat := by
    rw [shift_or_eight (by rwa [UInt8.toNat_toUInt32]) (by decide), UInt8.toNat_toUInt32]
    exact Nat.zero_add _
  have two : (((0 : UInt32) <<< 8 ||| first.toUInt32) <<< 8 ||| second.toUInt32).toNat =
      first.toNat * 256 + second.toNat := by
    rw [shift_or_eight (by rwa [UInt8.toNat_toUInt32]) (by omega), one, UInt8.toNat_toUInt32]
  rw [pack, shift_or_eight (by rwa [UInt8.toNat_toUInt32]) (by omega), two, UInt8.toNat_toUInt32]
  omega

theorem pack_lt (first second third : UInt8) : (pack first second third).toNat < 2 ^ 24 := by
  have firstLt := first.toNat_lt
  have secondLt := second.toNat_lt
  have thirdLt := third.toNat_lt
  rw [pack_toNat]
  omega

theorem byte_toNat (word : UInt32) : (word &&& 0xFF).toUInt8.toNat = word.toNat % 256 := by
  rw [UInt32.toNat_toUInt8, UInt32.toNat_and]
  change (word.toNat &&& 2 ^ 8 - 1) % 256 = word.toNat % 256
  rw [Nat.and_two_pow_sub_one_eq_mod, Nat.mod_mod]

/-- The bytes come out of the number that they were put into. -/
theorem bytes_of_pack (first second third : UInt8) :
    (pack first second third >>> 16 &&& 0xFF).toUInt8 = first ∧
      (pack first second third >>> 8 &&& 0xFF).toUInt8 = second ∧
      (pack first second third &&& 0xFF).toUInt8 = third := by
  have firstLt := first.toNat_lt
  have secondLt := second.toNat_lt
  have thirdLt := third.toNat_lt
  have value := pack_toNat first second third
  refine ⟨?_, ?_, ?_⟩
  · apply UInt8.toNat.inj
    rw [byte_toNat, UInt32.toNat_shiftRight, Nat.shiftRight_eq_div_pow, value]
    change (_ / 65536) % 256 = _
    omega
  · apply UInt8.toNat.inj
    rw [byte_toNat, UInt32.toNat_shiftRight, Nat.shiftRight_eq_div_pow, value]
    change (_ / 256) % 256 = _
    omega
  · apply UInt8.toNat.inj
    rw [byte_toNat, value]
    omega

theorem read_digit {url : Bool} {val : UInt32} (small : val.toNat < 64) (left i : Nat)
    (packed : UInt32) (text : Str) :
    readGroup url (left + 1) ⟨i, 0, packed⟩ ((base64 url).getD val.toNat 0 :: text) =
      readGroup url left ⟨i + 1, 0, packed <<< 6 ||| val⟩ text := by
  rcases digit_value_base64 url val.toNat small with ⟨value, other⟩
  rw [readGroup, if_neg other, if_neg (Nat.lt_irrefl 0), value, UInt32.ofNat_toNat]

theorem read_padding (url : Bool) (left : Nat) (group : Group) (text : Str) :
    readGroup url (left + 1) group (0x3D :: text) =
      readGroup url left ⟨group.i + 1, group.padding + 1, group.packed <<< 6⟩ text := by
  rw [readGroup, if_pos rfl]

theorem pack_one (first : UInt8) :
    (((0 : UInt32) <<< 8 ||| first.toUInt32) <<< 8) <<< 8 = pack first 0 0 := by
  have zero : (0 : UInt8).toUInt32 = 0 := rfl
  rw [pack, zero, UInt32.or_zero, UInt32.or_zero]

theorem pack_two (first second : UInt8) :
    (((0 : UInt32) <<< 8 ||| first.toUInt32) <<< 8 ||| second.toUInt32) <<< 8 =
      pack first second 0 := by
  have zero : (0 : UInt8).toUInt32 = 0 := rfl
  rw [pack, zero, UInt32.or_zero]

theorem left_out (first second : UInt8) :
    (pack first second 0 &&& 0x3F) = 0 ∧ (pack first 0 0 >>> 6 &&& 0x3F) = 0 := by
  have secondLt := second.toNat_lt
  have zero : (0 : UInt8).toNat = 0 := rfl
  constructor
  · apply UInt32.toNat.inj
    rw [(digits_toNat _).2.2.2, pack_toNat, zero]
    change _ = 0
    omega
  · apply UInt32.toNat.inj
    rw [(digits_toNat _).2.2.1, pack_toNat, zero]
    change _ = 0
    omega

theorem encode_three (url : Bool) (first second third : UInt8) :
    encodeGroup url [first, second, third] =
      [(base64 url).getD (pack first second third >>> 18).toNat 0,
        (base64 url).getD (pack first second third >>> 12 &&& 0x3F).toNat 0,
        (base64 url).getD (pack first second third >>> 6 &&& 0x3F).toNat 0,
        (base64 url).getD (pack first second third &&& 0x3F).toNat 0] := rfl

theorem encode_two (url : Bool) (first second : UInt8) :
    encodeGroup url [first, second] =
      [(base64 url).getD (pack first second 0 >>> 18).toNat 0,
        (base64 url).getD (pack first second 0 >>> 12 &&& 0x3F).toNat 0,
        (base64 url).getD (pack first second 0 >>> 6 &&& 0x3F).toNat 0, 0x3D] := by
  rw [← pack_two]
  rfl

theorem encode_one (url : Bool) (first : UInt8) :
    encodeGroup url [first] =
      [(base64 url).getD (pack first 0 0 >>> 18).toNat 0,
        (base64 url).getD (pack first 0 0 >>> 12 &&& 0x3F).toNat 0, 0x3D, 0x3D] := by
  rw [← pack_one]
  rfl

theorem digits_small {packed : UInt32} (bound : packed.toNat < 2 ^ 24) :
    (packed >>> 18).toNat < 64 ∧ (packed >>> 12 &&& 0x3F).toNat < 64 ∧
      (packed >>> 6 &&& 0x3F).toNat < 64 ∧ (packed &&& 0x3F).toNat < 64 := by
  rcases digits_toNat packed with ⟨first, second, third, fourth⟩
  rw [first, second, third, fourth]
  omega

theorem group_bytes_of_pack (i : Nat) (first second third : UInt8) :
    groupBytes ⟨i, 0, pack first second third⟩ = [first, second, third] ∧
      groupBytes ⟨i, 1, pack first second third⟩ = [first, second] ∧
      groupBytes ⟨i, 2, pack first second third⟩ = [first] := by
  rcases bytes_of_pack first second third with ⟨one, two, three⟩
  simp only [groupBytes, one, two, three]
  exact ⟨rfl, rfl, rfl⟩

/-- The decoder reads a group as the encoder wrote it. -/
theorem read_encoded (url : Bool) (bytes rest : Str) (nonempty : bytes ≠ [])
    (short : bytes.length ≤ 3) :
    ∃ group, readGroup url 4 ⟨0, 0, 0⟩ (encodeGroup url bytes ++ rest) = some (group, rest) ∧
      group.i = 4 ∧ group.padding = 3 - bytes.length ∧ groupBytes group = bytes := by
  match bytes, nonempty, short with
  | [first], _, _ =>
      have bound := pack_lt first 0 0
      have joined := joined_digits bound
      rcases digits_small bound with ⟨one, two, -, -⟩
      rcases left_out first 0 with ⟨fourth, third⟩
      rw [fourth, third, UInt32.or_zero, UInt32.or_zero] at joined
      refine ⟨⟨4, 2, pack first 0 0⟩, ?_, rfl, rfl, (group_bytes_of_pack 4 first 0 0).2.2⟩
      rw [encode_one, List.cons_append, List.cons_append, List.cons_append, List.cons_append,
        List.nil_append, read_digit one, read_digit two, read_padding, read_padding, joined,
        readGroup]
  | [first, second], _, _ =>
      have bound := pack_lt first second 0
      have joined := joined_digits bound
      rcases digits_small bound with ⟨one, two, three, -⟩
      rw [(left_out first second).1, UInt32.or_zero] at joined
      refine ⟨⟨4, 1, pack first second 0⟩, ?_, rfl, rfl,
        (group_bytes_of_pack 4 first second 0).2.1⟩
      rw [encode_two, List.cons_append, List.cons_append, List.cons_append, List.cons_append,
        List.nil_append, read_digit one, read_digit two, read_digit three, read_padding, joined,
        readGroup]
  | [first, second, third], _, _ =>
      have bound := pack_lt first second third
      rcases digits_small bound with ⟨one, two, three, four⟩
      refine ⟨⟨4, 0, pack first second third⟩, ?_, rfl, rfl,
        (group_bytes_of_pack 4 first second third).1⟩
      rw [encode_three, List.cons_append, List.cons_append, List.cons_append, List.cons_append,
        List.nil_append, read_digit one, read_digit two, read_digit three, read_digit four,
        joined_digits bound, readGroup]

/-- The shape of what the inner loop takes: characters of the alphabet and then padding. -/
theorem read_group_shape {url : Bool} : ∀ {left : Nat} {group after : Group} {text behind : Str},
    readGroup url left group text = some (after, behind) →
    ∃ body pads, text = body ++ List.replicate pads 0x3D ++ behind ∧
      (∀ c ∈ body, c ∈ base64 url) ∧ (0 < group.padding → body = []) ∧
      after.padding = group.padding + pads ∧ after.i = group.i + body.length + pads ∧
      body.length + pads ≤ left := by
  intro left
  induction left with
  | zero =>
      intro group after text behind read
      rw [readGroup] at read
      injection read with same
      injection same with same rest
      refine ⟨[], 0, ?_, by simp, fun _ => rfl, ?_, ?_, Nat.le_refl 0⟩
      · rw [rest]
        rfl
      · rw [same, Nat.add_zero]
      · rw [same]
        rfl
  | succ left induction =>
      intro group after text behind read
      cases text with
      | nil =>
          rw [readGroup] at read
          injection read with same
          injection same with same rest
          refine ⟨[], 0, ?_, by simp, fun _ => rfl, ?_, ?_, Nat.zero_le _⟩
          · rw [← rest]
            rfl
          · rw [same, Nat.add_zero]
          · rw [same]
            rfl
      | cons c text =>
          rw [readGroup] at read
          by_cases pad : c = 0x3D
          · rw [if_pos pad] at read
            rcases induction read with ⟨body, pads, split, known, ended, padding, count, few⟩
            have empty := ended (Nat.succ_pos _)
            rw [empty, List.nil_append] at split
            rw [empty, List.length_nil] at count few
            refine ⟨[], pads + 1, ?_, by simp, fun _ => rfl, ?_, ?_, ?_⟩
            · rw [pad, split]
              rfl
            · dsimp only at padding
              omega
            · dsimp only at count
              rw [List.length_nil]
              omega
            · rw [List.length_nil]
              omega
          · rw [if_neg pad] at read
            by_cases padded : 0 < group.padding
            · rw [if_pos padded] at read
              cases read
            · rw [if_neg padded] at read
              cases value : digitValue url c with
              | none =>
                  rw [value] at read
                  cases read
              | some val =>
                  rw [value] at read
                  rcases induction read with ⟨body, pads, split, known, ended, padding, count, few⟩
                  refine ⟨c :: body, pads, ?_, ?_, fun more => absurd more padded, padding, ?_, ?_⟩
                  · rw [split]
                    rfl
                  · intro other member
                    rcases List.mem_cons.mp member with here | later
                    · rw [here]
                      apply digit_value_mem
                      rw [value]
                      exact Option.some_ne_none val
                    · exact known other later
                  · dsimp only at count
                    rw [List.length_cons]
                    omega
                  · rw [List.length_cons]
                    omega

theorem write_bytes (bytes : Str) : ∀ (result : Str) (writeBuf : Nat),
    writeBuf + bytes.length ≤ result.length →
    ∃ after, writeBytes bytes result writeBuf = .ok (after, writeBuf + bytes.length) ∧
      after.length = result.length ∧
      after.take (writeBuf + bytes.length) = result.take writeBuf ++ bytes := by
  induction bytes with
  | nil =>
      intro result writeBuf room
      exact ⟨result, rfl, rfl, (List.append_nil _).symm⟩
  | cons byte bytes induction =>
      intro result writeBuf room
      rw [List.length_cons] at room
      have inside : writeBuf < result.length := by omega
      rcases induction (result.set writeBuf byte) (writeBuf + 1)
        (by rw [List.length_set]; omega) with ⟨after, written, size, front⟩
      have next : writeBuf + (byte :: bytes).length = writeBuf + 1 + bytes.length := by
        rw [List.length_cons]
        omega
      refine ⟨after, ?_, by rw [size, List.length_set], ?_⟩
      · rw [writeBytes, store, if_pos inside, bind_ok, written, next]
      · have insideSet : writeBuf < (result.set writeBuf byte).length := by
          rwa [List.length_set]
        rw [next, front, List.take_succ_eq_append_getElem insideSet, List.getElem_set_self,
          List.take_set_of_le (Nat.le_refl _), List.append_assoc, List.singleton_append]

theorem group_bytes_length (group : Group) (few : group.padding ≤ 2) :
    (groupBytes group).length = 3 - group.padding := by
  rcases group with ⟨i, padding, packed⟩
  dsimp only at few
  match padding, few with
  | 0, _ => rfl
  | 1, _ => rfl
  | 2, _ => rfl

/-- The texts that are decoded: whole groups of the alphabet, with the padding at the end. -/
def WellFormed (url : Bool) (src : Str) : Prop :=
  4 ∣ src.length ∧ ∃ body pads, src = body ++ List.replicate pads 0x3D ∧ pads ≤ 2 ∧
    ∀ c ∈ body, c ∈ base64 url

theorem well_formed_nil (url : Bool) : WellFormed url [] :=
  ⟨Nat.dvd_zero 4, [], 0, rfl, Nat.zero_le 2, by simp⟩

theorem well_formed_group {url : Bool} {group behind : Str} (four : group.length = 4)
    (known : ∀ c ∈ group, c ∈ base64 url) (rest : WellFormed url behind) :
    WellFormed url (group ++ behind) := by
  rcases rest with ⟨whole, body, pads, split, few, all⟩
  refine ⟨?_, group ++ body, pads, by rw [split, List.append_assoc], few, ?_⟩
  · rw [List.length_append, four]
    omega
  · intro c member
    rcases List.mem_append.mp member with first | second
    · exact known c first
    · exact all c second

theorem read_group_four {url : Bool} {group : Group} {text behind : Str}
    (read : readGroup url 4 ⟨0, 0, 0⟩ text = some (group, behind)) (full : group.i = 4) :
    ∃ body, text = body ++ List.replicate group.padding 0x3D ++ behind ∧
      body.length + group.padding = 4 ∧ ∀ c ∈ body, c ∈ base64 url := by
  rcases read_group_shape read with ⟨body, pads, split, known, -, padding, count, -⟩
  dsimp only at padding count
  have same : group.padding = pads := by omega
  refine ⟨body, by rw [same]; exact split, by omega, known⟩

/-- Every write of the decoder is inside its result, and what is not given up is well formed. -/
theorem decode_loop (url : Bool) : ∀ (fuel : Nat) (text result : Str) (writeBuf : Nat),
    text.length ≤ fuel → writeBuf + text.length * 3 / 4 ≤ result.length →
    ∃ outcome, base64decodeLoop url fuel text result writeBuf = .ok outcome ∧
      (outcome ≠ none → WellFormed url text) := by
  intro fuel
  induction fuel with
  | zero =>
      intro text result writeBuf enough room
      have empty : text = [] := List.length_eq_zero_iff.mp (Nat.le_zero.mp enough)
      rw [base64decodeLoop, if_pos empty, empty]
      exact ⟨_, rfl, fun _ => well_formed_nil url⟩
  | succ fuel induction =>
      intro text result writeBuf enough room
      rw [base64decodeLoop]
      by_cases empty : text = []
      · rw [if_pos empty, empty]
        exact ⟨_, rfl, fun _ => well_formed_nil url⟩
      · rw [if_neg empty]
        cases read : readGroup url 4 ⟨0, 0, 0⟩ text with
        | none => exact ⟨none, rfl, fun done => absurd rfl done⟩
        | some pair =>
            rcases pair with ⟨group, behind⟩
            dsimp only
            by_cases full : group.i = 4
            · rw [if_neg (not_not_intro full)]
              by_cases early : 0 < group.padding ∧ behind ≠ []
              · rw [if_pos early]
                exact ⟨none, rfl, fun done => absurd rfl done⟩
              · rw [if_neg early]
                by_cases many : 2 < group.padding
                · rw [if_pos many]
                  exact ⟨none, rfl, fun done => absurd rfl done⟩
                · rw [if_neg many]
                  rcases read_group_four read full with ⟨body, split, four, known⟩
                  have lengths : text.length = 4 + behind.length := by
                    rw [split, List.length_append, List.length_append, List.length_replicate, four]
                  have bytes := group_bytes_length group (Nat.le_of_not_lt many)
                  rcases write_bytes (groupBytes group) result writeBuf
                    (by omega) with ⟨after, written, size, -⟩
                  rcases induction behind after (writeBuf + (groupBytes group).length) (by omega)
                    (by omega) with ⟨outcome, decoded, shape⟩
                  rw [written, bind_ok]
                  refine ⟨outcome, decoded, fun done => ?_⟩
                  by_cases padded : 0 < group.padding
                  · have last : behind = [] := by
                      by_contra more
                      exact early ⟨padded, more⟩
                    rw [last, List.append_nil] at split
                    refine ⟨?_, body, group.padding, split, Nat.le_of_not_lt many, known⟩
                    rw [lengths, last]
                    exact Nat.dvd_refl 4
                  · have plain : group.padding = 0 := Nat.eq_zero_of_not_pos padded
                    rw [plain, List.replicate_zero, List.append_nil] at split
                    rw [split]
                    exact well_formed_group (by omega) known (shape done)
            · rw [if_pos full]
              exact ⟨none, rfl, fun done => absurd rfl done⟩

theorem encode_length (url : Bool) (bytes : Str) (nonempty : bytes ≠ [])
    (short : bytes.length ≤ 3) :
    (encodeGroup url bytes).length = 4 := by
  match bytes, nonempty, short with
  | [_], _, _ => rfl
  | [_, _], _, _ => rfl
  | [_, _, _], _, _ => rfl

/-- One round of the decoder on what one round of the encoder wrote. -/
theorem decode_round (url : Bool) (bytes rest : Str) (nonempty : bytes ≠ [])
    (short : bytes.length ≤ 3) (last : bytes.length < 3 → rest = []) (fuel : Nat) (result : Str)
    (writeBuf : Nat) (room : writeBuf + bytes.length ≤ result.length) :
    ∃ after, base64decodeLoop url (fuel + 1) (encodeGroup url bytes ++ rest) result writeBuf =
        base64decodeLoop url fuel rest after (writeBuf + bytes.length) ∧
      after.length = result.length ∧
      after.take (writeBuf + bytes.length) = result.take writeBuf ++ bytes := by
  rcases read_encoded url bytes rest nonempty short with ⟨group, read, full, padding, same⟩
  rcases write_bytes bytes result writeBuf room with ⟨after, written, size, front⟩
  have some_text : encodeGroup url bytes ++ rest ≠ [] := by
    intro empty
    have four := encode_length url bytes nonempty short
    rw [(List.append_eq_nil_iff.mp empty).1] at four
    cases four
  have whole : ¬(0 < group.padding ∧ rest ≠ []) := by
    rintro ⟨padded, more⟩
    exact more (last (by omega))
  have some_byte := List.length_pos_of_ne_nil nonempty
  refine ⟨after, ?_, size, front⟩
  rw [base64decodeLoop, if_neg some_text, read]
  dsimp only
  rw [if_neg (not_not_intro full), if_neg whole, if_neg (by omega), same, written, bind_ok]

theorem short_length {bytes : Str}
    (short : ∀ first second third rest, bytes = first :: second :: third :: rest → False) :
    bytes.length ≤ 2 := by
  match bytes, short with
  | [], _ => exact Nat.zero_le 2
  | [_], _ => exact Nat.le_succ 1
  | [_, _], _ => exact Nat.le_refl 2
  | first :: second :: third :: rest, short => exact absurd rfl (short first second third rest)

theorem decode_encode_loop (url : Bool) (s : Str) : ∀ (fuel : Nat) (result : Str) (writeBuf : Nat),
    (base64encode url s).length ≤ fuel → writeBuf + s.length ≤ result.length →
    ∃ after, base64decodeLoop url fuel (base64encode url s) result writeBuf =
        .ok (some (after, writeBuf + s.length)) ∧
      after.take (writeBuf + s.length) = result.take writeBuf ++ s := by
  induction s using base64encode.induct with
  | case1 =>
      intro fuel result writeBuf enough room
      refine ⟨result, ?_, (List.append_nil _).symm⟩
      cases fuel <;> exact if_pos rfl
  | case2 first second third rest induction =>
      intro fuel result writeBuf enough room
      rw [base64encode] at enough ⊢
      have four := encode_length url [first, second, third] (by simp) (Nat.le_refl 3)
      have cut : first :: second :: third :: rest = [first, second, third] ++ rest := rfl
      rw [List.length_append, four] at enough
      rw [cut, List.length_append] at room
      cases fuel with
      | zero => omega
      | succ fuel =>
          rcases decode_round url [first, second, third] (base64encode url rest) (by simp)
            (Nat.le_refl 3) (fun less => absurd less (Nat.lt_irrefl 3)) fuel result
            writeBuf (by omega) with ⟨after, step, size, front⟩
          rcases induction fuel after (writeBuf + [first, second, third].length) (by omega)
            (by omega) with ⟨final, done, written⟩
          rw [cut, List.length_append, ← Nat.add_assoc, step]
          refine ⟨final, done, ?_⟩
          rw [written, front, List.append_assoc]
  | case3 bytes nonempty short =>
      intro fuel result writeBuf enough room
      have few := short_length short
      have encoded : base64encode url bytes = encodeGroup url bytes ++ [] := by
        rw [base64encode, List.append_nil]
        · exact nonempty
        · exact short
      rw [encoded] at enough ⊢
      rw [List.append_nil, encode_length url bytes nonempty (by omega)] at enough
      cases fuel with
      | zero => omega
      | succ fuel =>
          rcases decode_round url bytes [] nonempty (by omega) (fun _ => rfl) fuel result
            writeBuf room
            with ⟨after, step, size, front⟩
          refine ⟨after, ?_, front⟩
          rw [step]
          cases fuel <;> exact if_pos rfl

theorem encode_total_length (url : Bool) (s : Str) :
    s.length ≤ (base64encode url s).length * 3 / 4 := by
  induction s using base64encode.induct with
  | case1 => exact Nat.zero_le _
  | case2 first second third rest induction =>
      have four := encode_length url [first, second, third] (by simp) (Nat.le_refl 3)
      rw [base64encode, List.length_append, four, List.length_cons, List.length_cons,
        List.length_cons]
      omega
  | case3 bytes nonempty short =>
      have few := short_length short
      rw [base64encode, encode_length url bytes nonempty (by omega)]
      · omega
      · exact nonempty
      · exact short

theorem base64_decode_encode (url : Bool) (s : Str) :
    base64decode (base64encode url s) url = .ok s := by
  have long := encode_total_length url s
  rcases decode_encode_loop url s (base64encode url s).length
    (List.replicate ((base64encode url s).length * 3 / 4) 0) 0 (Nat.le_refl _)
    (by rw [List.length_replicate]; omega) with ⟨after, decoded, front⟩
  rw [base64decode, decoded, bind_ok]
  dsimp only
  rw [front]
  rfl

/-- A decoded text is well formed, unless nothing comes out of it. -/
theorem base64_decode_strict (src : Str) (url : Bool) :
    ∃ result, base64decode src url = .ok result ∧ (result ≠ [] → WellFormed url src) := by
  rcases decode_loop url src.length src (List.replicate (src.length * 3 / 4) 0) 0
    (Nat.le_refl _) (by rw [List.length_replicate]; omega) with ⟨outcome, decoded, shape⟩
  rw [base64decode, decoded, bind_ok]
  cases outcome with
  | none => exact ⟨[], rfl, fun some_byte => absurd rfl some_byte⟩
  | some pair => exact ⟨pair.1.take pair.2, rfl, fun _ => shape (Option.some_ne_none pair)⟩

/-- What the encoder writes is read back, and of other texts only the well-formed ones give
bytes. The decoder never writes outside its result. -/
theorem base64_round_trip_strict :
    (∀ (s : Str) (url : Bool), base64decode (base64encode url s) url = .ok s) ∧
      ∀ (src : Str) (url : Bool), ∃ result, base64decode src url = .ok result ∧
        (result ≠ [] → WellFormed url src) :=
  ⟨fun s url => base64_decode_encode url s, base64_decode_strict⟩

end ChatServer.Util
