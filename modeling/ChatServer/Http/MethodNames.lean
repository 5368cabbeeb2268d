import ChatServer.Http.HttpParser
import Mathlib.Data.List.TakeWhile

/-!
# Method recognition

`StringToHttpMethod` compares whole texts with the names of the method table,
`CharsToHttpMethod` as many characters as a name has. The parser uses the second one and does
not tell it where the token ends.
-/

namespace ChatServer.Http

set_option autoImplicit false

open ChatServer.Http2 (ascii cString)

/-- `StringToHttpMethod`: `strcmp` with each name. -/
def stringToHttpMethod (m : Str) : HttpMethod :=
  match httpMethodMap.find? fun entry => entry.2 = cString m with
  | some entry => entry.1
  | none => .invalidMethod

structure MethodToken where
  text : Str
  sized : 1 ≤ text.length ∧ text.length ≤ 20
  plain : ∀ c ∈ text, (0x41 ≤ c ∧ c ≤ 0x5A) ∨ (0x30 ≤ c ∧ c ≤ 0x39)

/-- What the parser is to do with a token when `rest` follows it. -/
def Recognised (token : MethodToken) (rest : Str) : Prop :=
  charsToHttpMethod (token.text ++ rest) = stringToHttpMethod token.text ∧
    ∀ self : HttpRequestParser, self.onRequestMethod (token.text ++ rest) =
      if stringToHttpMethod token.text = .invalidMethod then { self with error := 1000 }
      else { self with data.method := stringToHttpMethod token.text }

theorem names_prefix_free : ∀ entry ∈ httpMethodMap, ∀ other ∈ httpMethodMap,
    entry.2.isPrefixOf other.2 = true → entry = other := by
  decide +kernel

theorem names_valid : ∀ entry ∈ httpMethodMap, entry.1 ≠ .invalidMethod := by
  decide +kernel

theorem methods_distinct : ∀ entry ∈ httpMethodMap, ∀ other ∈ httpMethodMap,
    entry.1 = other.1 → entry = other := by
  decide +kernel

theorem names_unique {entry other : HttpMethod × Str} {text : Str} (listed : entry ∈ httpMethodMap)
    (among : other ∈ httpMethodMap) (begins : entry.2 <+: text) (also : other.2 <+: text) :
    entry = other := by
  rcases List.prefix_or_prefix_of_prefix begins also with shorter | longer
  · exact names_prefix_free entry listed other among (List.isPrefixOf_iff_prefix.mpr shorter)
  · exact (names_prefix_free other among entry listed (List.isPrefixOf_iff_prefix.mpr longer)).symm

theorem chars_known {entry : HttpMethod × Str} {text : Str} (listed : entry ∈ httpMethodMap)
    (begins : entry.2 <+: text) : charsToHttpMethod text = entry.1 := by
  cases found : httpMethodMap.find? fun entry => entry.2.isPrefixOf text with
  | none =>
      have other := List.find?_eq_none.mp found entry listed
      exact absurd (List.isPrefixOf_iff_prefix.mpr begins) other
  | some first =>
      have among := List.mem_of_find?_eq_some found
      have also := List.find?_some found
      rw [List.isPrefixOf_iff_prefix] at also
      rw [charsToHttpMethod, found, names_unique listed among begins also]

theorem chars_unknown {text : Str} (other : ∀ entry ∈ httpMethodMap, ¬entry.2 <+: text) :
    charsToHttpMethod text = .invalidMethod := by
  have absent : (httpMethodMap.find? fun entry => entry.2.isPrefixOf text) = none := by
    rw [List.find?_eq_none]
    intro entry listed begins
    exact other entry listed (List.isPrefixOf_iff_prefix.mp begins)
  rw [charsToHttpMethod, absent]

theorem token_c_string (token : MethodToken) : cString token.text = token.text := by
  apply List.takeWhile_eq_self_iff.mpr
  intro c member
  apply decide_eq_true
  intro zero
  rw [zero] at member
  rcases token.plain 0 member with ⟨low, -⟩ | ⟨low, -⟩
  · exact absurd low (by decide)
  · exact absurd low (by decide)

theorem string_known {entry : HttpMethod × Str} {token : MethodToken}
    (listed : entry ∈ httpMethodMap) (same : entry.2 = token.text) :
    stringToHttpMethod token.text = entry.1 := by
  rw [stringToHttpMethod, token_c_string]
  cases found : httpMethodMap.find? fun entry => decide (entry.2 = token.text) with
  | none => exact absurd (decide_eq_true same) (List.find?_eq_none.mp found entry listed)
  | some first =>
      have among := List.mem_of_find?_eq_some found
      have also : first.2 = token.text := by simpa using List.find?_some found
      have begins : entry.2 <+: token.text := ⟨[], by rw [same, List.append_nil]⟩
      have unique := names_unique listed among begins ⟨[], by rw [also, List.append_nil]⟩
      exact congrArg Prod.fst unique.symm

theorem string_unknown {token : MethodToken}
    (other : ∀ entry ∈ httpMethodMap, entry.2 ≠ token.text) :
    stringToHttpMethod token.text = .invalidMethod := by
  have absent : (httpMethodMap.find? fun entry => decide (entry.2 = token.text)) = none := by
    rw [List.find?_eq_none]
    intro entry listed same
    exact other entry listed (of_decide_eq_true same)
  rw [stringToHttpMethod, token_c_string, absent]

/-- The look-ups agree when the only name that the characters can begin with is the token. -/
theorem look_ups_agree (token : MethodToken) (rest : Str) :
    charsToHttpMethod (token.text ++ rest) = stringToHttpMethod token.text ↔
      ∀ entry ∈ httpMethodMap, entry.2 <+: token.text ++ rest → entry.2 = token.text := by
  constructor
  · intro agree entry listed begins
    rw [chars_known listed begins] at agree
    by_contra other
    by_cases known : ∃ exact ∈ httpMethodMap, exact.2 = token.text
    · rcases known with ⟨exactly, among, same⟩
      rw [string_known among same] at agree
      rw [methods_distinct entry listed exactly among agree] at other
      exact other same
    · rw [string_unknown (by
        intro entry listed same
        exact known ⟨entry, listed, same⟩)] at agree
      exact names_valid entry listed agree
  · intro only
    by_cases known : ∃ entry ∈ httpMethodMap, entry.2 <+: token.text ++ rest
    · rcases known with ⟨entry, listed, begins⟩
      rw [chars_known listed begins, string_known listed (only entry listed begins)]
    · have unknown : ∀ entry ∈ httpMethodMap, ¬entry.2 <+: token.text ++ rest := by
        intro entry listed begins
        exact known ⟨entry, listed, begins⟩
      rw [chars_unknown unknown, string_unknown]
      intro entry listed same
      exact unknown entry listed ⟨rest, by rw [same]⟩

theorem recognised_iff (token : MethodToken) (rest : Str) :
    Recognised token rest ↔
      charsToHttpMethod (token.text ++ rest) = stringToHttpMethod token.text := by
  constructor
  · exact And.left
  · intro agree
    refine ⟨agree, fun self => ?_⟩
    rw [HttpRequestParser.onRequestMethod, agree]

theorem result_independent (token : MethodToken) :
    (∀ rest, charsToHttpMethod (token.text ++ rest) = charsToHttpMethod token.text) ↔
      ∀ entry ∈ httpMethodMap, token.text <+: entry.2 → entry.2 = token.text := by
  constructor
  · rintro same entry listed ⟨more, whole⟩
    have here := same more
    rw [whole, chars_known listed (List.prefix_refl _)] at here
    by_cases known : ∃ other ∈ httpMethodMap, other.2 <+: token.text
    · rcases known with ⟨other, among, begins⟩
      have extended : other.2 <+: entry.2 := begins.trans ⟨more, whole⟩
      have unique := names_unique among listed extended (List.prefix_refl _)
      rw [unique] at begins
      exact begins.eq_of_length_le (List.IsPrefix.length_le ⟨more, whole⟩)
    · rw [chars_unknown (by
        intro other among begins
        exact known ⟨other, among, begins⟩)] at here
      exact absurd here (names_valid entry listed)
  · intro only rest
    by_cases known : ∃ entry ∈ httpMethodMap, entry.2 <+: token.text ++ rest
    · rcases known with ⟨entry, listed, begins⟩
      have inside : entry.2 <+: token.text := by
        rcases List.prefix_or_prefix_of_prefix begins (List.prefix_append _ _) with within | beyond
        · exact within
        · exact ⟨[], by rw [only entry listed beyond, List.append_nil]⟩
      rw [chars_known listed begins, chars_known listed inside]
    · rw [chars_unknown, chars_unknown]
      · intro entry listed begins
        exact known ⟨entry, listed, begins.trans (List.prefix_append _ _)⟩
      · intro entry listed begins
        exact known ⟨entry, listed, begins⟩

/-- A token is recognised unless the characters begin with another name; behind a space only the
names that the token begins with come into question. -/
theorem method_recognition (token : MethodToken) :
    (∀ rest, Recognised token rest ↔
        ∀ entry ∈ httpMethodMap, entry.2 <+: token.text ++ rest → entry.2 = token.text) ∧
      ((∀ rest, charsToHttpMethod (token.text ++ rest) = charsToHttpMethod token.text) ↔
        ∀ entry ∈ httpMethodMap, token.text <+: entry.2 → entry.2 = token.text) ∧
      ∀ rest, Recognised token (0x20 :: rest) ↔
        ∀ entry ∈ httpMethodMap, entry.2 <+: token.text → entry.2 = token.text := by
  refine ⟨fun rest => (recognised_iff token rest).trans (look_ups_agree token rest),
    result_independent token, fun rest => ?_⟩
  rw [recognised_iff, look_ups_agree]
  apply forall₂_congr
  intro entry listed
  have before := prefix_before_space (method_names_unspaced entry listed) token.text rest
  rw [Bool.eq_iff_iff, List.isPrefixOf_iff_prefix, List.isPrefixOf_iff_prefix] at before
  rw [before]

/-- `GETX` is executed as `GET`. -/
theorem extended_method_executed :
    ¬∀ (token : MethodToken) (rest : Str), Recognised token rest := by
  intro recognised
  have plain : ∀ c ∈ ascii "GETX", (0x41 ≤ c ∧ c ≤ 0x5A) ∨ (0x30 ≤ c ∧ c ≤ 0x39) :=
    @of_decide_eq_true _ (List.decidableBAll _ (ascii "GETX")) rfl
  have agree : charsToHttpMethod (ascii "GETX / HTTP/1.1") = stringToHttpMethod (ascii "GETX") :=
    (recognised ⟨ascii "GETX", by decide, plain⟩ (ascii " / HTTP/1.1")).1
  exact absurd agree (by decide +kernel)

end ChatServer.Http
