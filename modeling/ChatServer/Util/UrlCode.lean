import ChatServer.Http2.DynamicTable

/-!
# Percent-encoding

`StringUtil::UrlEncode` and `StringUtil::UrlDecode`. Both copy the text only from the first byte
on that changes: until then there is no output, and a text without such a byte is returned as it
is.
-/

namespace ChatServer.Util

set_option autoImplicit false

open ChatServer.Http2 (ascii)

def uriChars : List UInt8 := [
    0, 0, 0, 0, 0, 0, 0, 0,   0, 0, 0, 0, 0, 0, 0, 0,
    0, 0, 0, 0, 0, 0, 0, 0,   0, 0, 0, 0, 0, 0, 0, 0,
    0, 0, 0, 0, 0, 0, 0, 0,   0, 0, 0, 0, 0, 1, 1, 0,
    1, 1, 1, 1, 1, 1, 1, 1,   1, 1, 0, 0, 0, 1, 0, 0,
    0, 1, 1, 1, 1, 1, 1, 1,   1, 1, 1, 1, 1, 1, 1, 1,
    1, 1, 1, 1, 1, 1, 1, 1,   1, 1, 1, 0, 0, 0, 0, 1,
    0, 1, 1, 1, 1, 1, 1, 1,   1, 1, 1, 1, 1, 1, 1, 1,
    1, 1, 1, 1, 1, 1, 1, 1,   1, 1, 1, 0, 0, 0, 1, 0,
    0, 0, 0, 0, 0, 0, 0, 0,   0, 0, 0, 0, 0, 0, 0, 0,
    0, 0, 0, 0, 0, 0, 0, 0,   0, 0, 0, 0, 0, 0, 0, 0,
    0, 0, 0, 0, 0, 0, 0, 0,   0, 0, 0, 0, 0, 0, 0, 0,
    0, 0, 0, 0, 0, 0, 0, 0,   0, 0, 0, 0, 0, 0, 0, 0,
    0, 0, 0, 0, 0, 0, 0, 0,   0, 0, 0, 0, 0, 0, 0, 0,
    0, 0, 0, 0, 0, 0, 0, 0,   0, 0, 0, 0, 0, 0, 0, 0,
    0, 0, 0, 0, 0, 0, 0, 0,   0, 0, 0, 0, 0, 0, 0, 0,
    0, 0, 0, 0, 0, 0, 0, 0,   0, 0, 0, 0, 0, 0, 0, 0]

def xdigitChars : List UInt8 := [
    0, 0, 0, 0, 0, 0, 0, 0, 0, 0, 0, 0, 0, 0, 0, 0,
    0, 0, 0, 0, 0, 0, 0, 0, 0, 0, 0, 0, 0, 0, 0, 0,
    0, 0, 0, 0, 0, 0, 0, 0, 0, 0, 0, 0, 0, 0, 0, 0,
    0, 1, 2, 3, 4, 5, 6, 7, 8, 9, 0, 0, 0, 0, 0, 0,
    0, 10, 11, 12, 13, 14, 15, 0, 0, 0, 0, 0, 0, 0, 0, 0,
    0, 0, 0, 0, 0, 0, 0, 0, 0, 0, 0, 0, 0, 0, 0, 0,
    0, 10, 11, 12, 13, 14, 15, 0, 0, 0, 0, 0, 0, 0, 0, 0,
    0, 0, 0, 0, 0, 0, 0, 0, 0, 0, 0, 0, 0, 0, 0, 0,
    0, 0, 0, 0, 0, 0, 0, 0, 0, 0, 0, 0, 0, 0, 0, 0,
    0, 0, 0, 0, 0, 0, 0, 0, 0, 0, 0, 0, 0, 0, 0, 0,
    0, 0, 0, 0, 0, 0, 0, 0, 0, 0, 0, 0, 0, 0, 0, 0,
    0, 0, 0, 0, 0, 0, 0, 0, 0, 0, 0, 0, 0, 0, 0, 0,
    0, 0, 0, 0, 0, 0, 0, 0, 0, 0, 0, 0, 0, 0, 0, 0,
    0, 0, 0, 0, 0, 0, 0, 0, 0, 0, 0, 0, 0, 0, 0, 0,
    0, 0, 0, 0, 0, 0, 0, 0, 0, 0, 0, 0, 0, 0, 0, 0,
    0, 0, 0, 0, 0, 0, 0, 0, 0, 0, 0, 0, 0, 0, 0, 0]

def charIsUnreserved (c : UInt8) : Bool := uriChars.getD c.toNat 0 ≠ 0

def hexdigits : Str := ascii "0123456789ABCDEF"

def isxdigit (c : UInt8) : Bool :=
  (48 ≤ c && c ≤ 57) || (65 ≤ c && c ≤ 70) || (97 ≤ c && c ≤ 102)

/-- What is appended for a byte that is not unreserved. -/
def escape (c : UInt8) (spaceAsPlus : Bool) : Str :=
  if c = 0x20 && spaceAsPlus then [0x2B]
  else [0x25, hexdigits.getD (c >>> 4).toNat 0, hexdigits.getD (c &&& 0x0F).toNat 0]

/-- The loop of `UrlEncode`, with the output, if there is one yet, and the bytes behind it. -/
def urlEncodeLoop (spaceAsPlus : Bool) (ss : Option Str) (seen : Str) : Str → Option Str
  | [] => ss
  | c :: rest =>
      if charIsUnreserved c then
        urlEncodeLoop spaceAsPlus (ss.map (· ++ [c])) (seen ++ [c]) rest
      else
        urlEncodeLoop spaceAsPlus (some (ss.getD seen ++ escape c spaceAsPlus)) (seen ++ [c]) rest

def urlEncode (str : Str) (spaceAsPlus : Bool) : Str :=
  (urlEncodeLoop spaceAsPlus none [] str).getD str

/-- The byte that two hexadecimal digits stand for. -/
def unescape (first second : UInt8) : UInt8 :=
  xdigitChars.getD first.toNat 0 <<< 4 ||| xdigitChars.getD second.toNat 0

def urlDecodeLoop (spaceAsPlus : Bool) (ss : Option Str) (seen : Str) : Str → Option Str
  | [] => ss
  | c :: rest =>
      if c = 0x2B && spaceAsPlus then
        urlDecodeLoop spaceAsPlus (some (ss.getD seen ++ [0x20])) (seen ++ [c]) rest
      else
        match rest with
        | first :: second :: more =>
            if c = 0x25 && isxdigit first && isxdigit second then
              urlDecodeLoop spaceAsPlus (some (ss.getD seen ++ [unescape first second]))
                (seen ++ [c, first, second]) more
            else urlDecodeLoop spaceAsPlus (ss.map (· ++ [c])) (seen ++ [c])
              (first :: second :: more)
        | rest => urlDecodeLoop spaceAsPlus (ss.map (· ++ [c])) (seen ++ [c]) rest

def urlDecode (str : Str) (spaceAsPlus : Bool) : Str :=
  (urlDecodeLoop spaceAsPlus none [] str).getD str

def encodeByte (spaceAsPlus : Bool) (c : UInt8) : Str :=
  if charIsUnreserved c then [c] else escape c spaceAsPlus

/-- What `UrlDecode` makes of the rest of a text. -/
def decodeBytes (spaceAsPlus : Bool) : Str → Str
  | [] => []
  | c :: rest =>
      if c = 0x2B && spaceAsPlus then 0x20 :: decodeBytes spaceAsPlus rest
      else
        match rest with
        | first :: second :: more =>
            if c = 0x25 && isxdigit first && isxdigit second then
              unescape first second :: decodeBytes spaceAsPlus more
            else c :: decodeBytes spaceAsPlus (first :: second :: more)
        | rest => c :: decodeBytes spaceAsPlus rest

theorem map_get_d (ss : Option Str) (seen : Str) (c : UInt8) :
    (ss.map (· ++ [c])).getD (seen ++ [c]) = ss.getD seen ++ [c] := by
  cases ss with
  | none => rfl
  | some out => rfl

theorem append_behind (seen : Str) (c : UInt8) (rest : Str) :
    seen ++ c :: rest = seen ++ [c] ++ rest := by
  rw [List.append_assoc, List.singleton_append]

theorem url_encode_loop (spaceAsPlus : Bool) (str : Str) : ∀ (ss : Option Str) (seen : Str),
    (urlEncodeLoop spaceAsPlus ss seen str).getD (seen ++ str) =
      ss.getD seen ++ str.flatMap (encodeByte spaceAsPlus) := by
  induction str with
  | nil =>
      intro ss seen
      rw [urlEncodeLoop, List.flatMap_nil, List.append_nil, List.append_nil]
  | cons c rest induction =>
      intro ss seen
      rw [urlEncodeLoop, List.flatMap_cons, encodeByte, append_behind seen c rest]
      split
      · rw [induction, map_get_d, List.append_assoc]
      · rw [induction, Option.getD_some, List.append_assoc]

theorem url_encode_eq (str : Str) (spaceAsPlus : Bool) :
    urlEncode str spaceAsPlus = str.flatMap (encodeByte spaceAsPlus) :=
  url_encode_loop spaceAsPlus str none []

theorem decode_plus {spaceAsPlus : Bool} {c : UInt8} (plus : (c = 0x2B && spaceAsPlus) = true)
    (rest : Str) :
    decodeBytes spaceAsPlus (c :: rest) = 0x20 :: decodeBytes spaceAsPlus rest := by
  conv => lhs; unfold decodeBytes
  rw [if_pos plus]

theorem decode_escaped {spaceAsPlus : Bool} {c first second : UInt8}
    (plain : ¬(c = 0x2B && spaceAsPlus) = true)
    (escaped : (c = 0x25 && isxdigit first && isxdigit second) = true) (more : Str) :
    decodeBytes spaceAsPlus (c :: first :: second :: more) =
      unescape first second :: decodeBytes spaceAsPlus more := by
  rw [decodeBytes, if_neg plain, if_pos escaped]

/-- Three bytes that are no escape, as the condition on what follows the first one. -/
theorem stands_literal {c first second : UInt8} {more : Str}
    (literal : ¬(c = 0x25 && isxdigit first && isxdigit second) = true) :
    ∀ first' second' more', first :: second :: more = first' :: second' :: more' →
      ¬(c = 0x25 && isxdigit first' && isxdigit second') = true := by
  intro first' second' more' same
  injection same with here behind
  injection behind with next behind
  rw [← here, ← next]
  exact literal

theorem stands_short {c : UInt8} {rest : Str}
    (short : ∀ first second more, rest = first :: second :: more → False) :
    ∀ first second more, rest = first :: second :: more →
      ¬(c = 0x25 && isxdigit first && isxdigit second) = true := by
  intro first second more same
  exact absurd same (short first second more)

/-- Both loops go over a byte alike when it stands for itself. -/
theorem decode_literal {spaceAsPlus : Bool} {c : UInt8} (rest : Str)
    (plain : ¬(c = 0x2B && spaceAsPlus) = true)
    (literal : ∀ first second more, rest = first :: second :: more →
      ¬(c = 0x25 && isxdigit first && isxdigit second) = true) :
    decodeBytes spaceAsPlus (c :: rest) = c :: decodeBytes spaceAsPlus rest ∧
      ∀ ss seen, urlDecodeLoop spaceAsPlus ss seen (c :: rest) =
        urlDecodeLoop spaceAsPlus (ss.map (· ++ [c])) (seen ++ [c]) rest := by
  match rest, literal with
  | [], _ =>
      exact ⟨by simp only [decodeBytes, if_neg plain],
        fun ss seen => by simp only [urlDecodeLoop, if_neg plain]⟩
  | [first], _ =>
      constructor
      · conv => lhs; unfold decodeBytes
        rw [if_neg plain]
      · intro ss seen
        conv => lhs; unfold urlDecodeLoop
        rw [if_neg plain]
  | first :: second :: more, literal =>
      constructor
      · conv => lhs; unfold decodeBytes
        rw [if_neg plain]
        exact if_neg (literal first second more rfl)
      · intro ss seen
        conv => lhs; unfold urlDecodeLoop
        rw [if_neg plain]
        exact if_neg (literal first second more rfl)

theorem url_decode_loop (spaceAsPlus : Bool) (ss : Option Str) (seen str : Str) :
    (urlDecodeLoop spaceAsPlus ss seen str).getD (seen ++ str) =
      ss.getD seen ++ decodeBytes spaceAsPlus str := by
  induction ss, seen, str using urlDecodeLoop.induct spaceAsPlus with
  | case1 ss seen => rw [urlDecodeLoop, decodeBytes, List.append_nil, List.append_nil]
  | case2 ss seen c rest plus induction =>
      rw [decode_plus plus, append_behind seen c rest]
      unfold urlDecodeLoop
      rw [if_pos plus, induction, Option.getD_some, List.append_assoc, List.singleton_append]
  | case3 ss seen c plain first second more escaped induction =>
      have behind : seen ++ c :: first :: second :: more = seen ++ [c, first, second] ++ more := by
        rw [List.append_assoc]
        rfl
      rw [urlDecodeLoop, if_neg plain, if_pos escaped, decode_escaped plain escaped, behind,
        induction, Option.getD_some, List.append_assoc, List.singleton_append]
  | case4 ss seen c plain first second more literal induction =>
      rcases decode_literal _ plain (stands_literal literal) with ⟨decoded, looped⟩
      rw [decoded, looped, append_behind seen c (first :: second :: more), induction, map_get_d,
        List.append_assoc, List.singleton_append]
  | case5 ss seen c plain rest short induction =>
      rcases decode_literal rest plain (stands_short short) with ⟨decoded, looped⟩
      rw [decoded, looped, append_behind seen c rest, induction, map_get_d, List.append_assoc,
        List.singleton_append]

theorem url_decode_eq (str : Str) (spaceAsPlus : Bool) :
    urlDecode str spaceAsPlus = decodeBytes spaceAsPlus str :=
  url_decode_loop spaceAsPlus none [] str

theorem unreserved_plain (c : UInt8) (unreserved : charIsUnreserved c = true) :
    c ≠ 0x25 ∧ c ≠ 0x2B := by
  constructor
  · intro same
    rw [same] at unreserved
    exact absurd unreserved (by decide)
  · intro same
    rw [same] at unreserved
    exact absurd unreserved (by decide)

theorem unescape_escape (c : UInt8) :
    isxdigit (hexdigits.getD (c >>> 4).toNat 0) = true ∧
      isxdigit (hexdigits.getD (c &&& 0x0F).toNat 0) = true ∧
      unescape (hexdigits.getD (c >>> 4).toNat 0) (hexdigits.getD (c &&& 0x0F).toNat 0) = c := by
  have all : ∀ number < 256, isxdigit (hexdigits.getD (UInt8.ofNat number >>> 4).toNat 0) = true ∧
      isxdigit (hexdigits.getD (UInt8.ofNat number &&& 0x0F).toNat 0) = true ∧
      unescape (hexdigits.getD (UInt8.ofNat number >>> 4).toNat 0)
        (hexdigits.getD (UInt8.ofNat number &&& 0x0F).toNat 0) = UInt8.ofNat number := by
    decide +kernel
  have here := all c.toNat c.toNat_lt
  rw [UInt8.ofNat_toNat] at here
  exact here

/-- A byte is read back, also as a plus sign by a decoder that knows of them. -/
theorem decode_encode_byte {encoder decoder : Bool} (known : encoder = true → decoder = true)
    (c : UInt8) (rest : Str) :
    decodeBytes decoder (encodeByte encoder c ++ rest) = c :: decodeBytes decoder rest := by
  rw [encodeByte]
  by_cases unreserved : charIsUnreserved c = true
  · rcases unreserved_plain c unreserved with ⟨percent, plus⟩
    rw [if_pos unreserved, List.singleton_append]
    exact (decode_literal rest (by simp [plus]) (by simp [percent])).1
  · rw [if_neg unreserved, escape]
    by_cases space : (c = 0x20 && encoder) = true
    · rw [Bool.and_eq_true, decide_eq_true_eq] at space
      rw [if_pos (by simp [space]), List.singleton_append, decode_plus (by simp [known space.2]),
        space.1]
    · rcases unescape_escape c with ⟨high, low, same⟩
      rw [if_neg space, List.cons_append, List.cons_append, List.singleton_append,
        decode_escaped (by simp) (by rw [high, low]; rfl), same]

theorem decode_encode {encoder decoder : Bool} (known : encoder = true → decoder = true)
    (str : Str) : urlDecode (urlEncode str encoder) decoder = str := by
  rw [url_decode_eq, url_encode_eq]
  induction str with
  | nil => rfl
  | cons c rest induction =>
      rw [List.flatMap_cons, decode_encode_byte known, induction]

/-- Every text is read back, and a text without plus signs for blanks by both decoders. -/
theorem url_round_trip (s : Str) :
    (∀ spaceAsPlus, urlDecode (urlEncode s spaceAsPlus) spaceAsPlus = s) ∧
      urlDecode (urlEncode s false) true = s :=
  ⟨fun _ => decode_encode id s, decode_encode (fun _ => rfl) s⟩

/-- No plus sign, and no percent sign in front of two hexadecimal digits. -/
def Unescaped (text : Str) : Prop :=
  0x2B ∉ text ∧ ∀ front first second back, text = front ++ 0x25 :: first :: second :: back →
    ¬(isxdigit first && isxdigit second) = true

theorem decode_length (spaceAsPlus : Bool) (text : Str) :
    (decodeBytes spaceAsPlus text).length ≤ text.length := by
  induction text using decodeBytes.induct spaceAsPlus with
  | case1 => exact Nat.le_refl 0
  | case2 c rest plus induction =>
      rw [decode_plus plus, List.length_cons, List.length_cons]
      omega
  | case3 c plain first second more escaped induction =>
      rw [decode_escaped plain escaped, List.length_cons, List.length_cons, List.length_cons,
        List.length_cons]
      omega
  | case4 c plain first second more literal induction =>
      rw [(decode_literal _ plain (stands_literal literal)).1, List.length_cons, List.length_cons]
      omega
  | case5 c plain rest short induction =>
      rw [(decode_literal rest plain (stands_short short)).1, List.length_cons, List.length_cons]
      omega

theorem unescaped_cons {c : UInt8} {rest : Str} (plain : ¬(c = 0x2B && true) = true)
    (literal : ∀ first second more, rest = first :: second :: more →
      ¬(c = 0x25 && isxdigit first && isxdigit second) = true) :
    Unescaped (c :: rest) ↔ Unescaped rest := by
  have other : c ≠ 0x2B := by simpa using plain
  constructor
  · rintro ⟨absent, none⟩
    rw [List.mem_cons, not_or] at absent
    refine ⟨absent.2, fun front first second back split => ?_⟩
    exact none (c :: front) first second back (by rw [split, List.cons_append])
  · rintro ⟨absent, none⟩
    refine ⟨?_, fun front first second back split => ?_⟩
    · rw [List.mem_cons, not_or]
      exact ⟨Ne.symm other, absent⟩
    · cases front with
      | nil =>
          injection split with sign behind
          have here := literal first second back behind
          rwa [sign, decide_eq_true rfl, Bool.true_and] at here
      | cons byte front =>
          injection split with same behind
          exact none front first second back behind

theorem decode_same_iff (text : Str) : urlDecode text true = text ↔ Unescaped text := by
  rw [url_decode_eq]
  induction text using decodeBytes.induct true with
  | case1 =>
      refine ⟨fun _ => ⟨List.not_mem_nil, ?_⟩, fun _ => rfl⟩
      intro front first second back split
      exact absurd (List.append_eq_nil_iff.mp split.symm).2 (List.cons_ne_nil _ _)
  | case2 c rest plus induction =>
      have sign : c = 0x2B := by simpa using plus
      rw [decode_plus plus, sign]
      constructor
      · intro same
        injection same with blank
        exact absurd blank (by decide)
      · rintro ⟨absent, -⟩
        exact absurd List.mem_cons_self absent
  | case3 c plain first second more escaped induction =>
      rw [decode_escaped plain escaped]
      rw [Bool.and_assoc, Bool.and_eq_true, decide_eq_true_eq] at escaped
      constructor
      · intro same
        have shorter := decode_length true more
        have lengths := congrArg List.length same
        rw [List.length_cons, List.length_cons, List.length_cons, List.length_cons] at lengths
        omega
      · rintro ⟨-, none⟩
        exact absurd escaped.2 (none [] first second more (by rw [escaped.1]; rfl))
  | case4 c plain first second more literal induction =>
      rw [(decode_literal _ plain (stands_literal literal)).1, List.cons.injEq, eq_self, true_and,
        induction, unescaped_cons plain (stands_literal literal)]
  | case5 c plain rest short induction =>
      rw [(decode_literal _ plain (stands_short short)).1, List.cons.injEq, eq_self, true_and,
        induction, unescaped_cons plain (stands_short short)]

end ChatServer.Util
