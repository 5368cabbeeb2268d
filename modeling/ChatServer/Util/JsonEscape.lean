import ChatServer.Machine

/-!
# Escaping for JSON

`JsonUtil::NeedEscape` and `JsonUtil::Escape` of `util.cc`. The first pass of `Escape` measures
the text, the second one appends it. In between the string is resized to what was measured, so
that the text is appended to as many `NUL`s as it is long.
-/

namespace ChatServer.JsonUtil

set_option autoImplicit false

/-- The cases of `NeedEscape`: `\f`, `\t`, `\r`, `\n`, `\b`, the quote and the backslash. -/
def isSpecial (c : UInt8) : Bool :=
  c = 0x0C || c = 0x09 || c = 0x0D || c = 0x0A || c = 0x08 || c = 0x22 || c = 0x5C

def needEscape (v : Str) : Bool := v.any isSpecial

def escapeSize (c : UInt8) : Nat :=
  if c = 0x0C || c = 0x09 || c = 0x0D || c = 0x0A || c = 0x08 || c = 0x22 || c = 0x5C then 2 else 1

def escapeChar (c : UInt8) : Str :=
  if c = 0x0C then [0x5C, 0x66]
  else if c = 0x09 then [0x5C, 0x74]
  else if c = 0x0D then [0x5C, 0x72]
  else if c = 0x0A then [0x5C, 0x6E]
  else if c = 0x08 then [0x5C, 0x62]
  else if c = 0x22 then [0x5C, 0x22]
  else if c = 0x5C then [0x5C, 0x5C]
  else [c]

def measured (v : Str) : Nat := v.foldl (fun size c => size + escapeSize c) 0

def escape (v : Str) : Str :=
  let size := measured v
  if size = v.length then v
  else v.foldl (fun rt c => rt ++ escapeChar c) (List.replicate size 0)

/-- The character that a backslash and `c` stand for. -/
def unescapeChar (c : UInt8) : Option UInt8 :=
  if c = 0x66 then some 0x0C
  else if c = 0x74 then some 0x09
  else if c = 0x72 then some 0x0D
  else if c = 0x6E then some 0x0A
  else if c = 0x62 then some 0x08
  else if c = 0x22 then some 0x22
  else if c = 0x5C then some 0x5C
  else none

/-- The seven escapes undone, from the left. -/
def unescape : Str → Str
  | [] => []
  | [c] => [c]
  | first :: second :: rest =>
      match if first = 0x5C then unescapeChar second else none with
      | some c => c :: unescape rest
      | none => first :: unescape (second :: rest)

/-- What escaping is for. -/
structure EscapesWell (v : Str) : Prop where
  undone : unescape (escape v) = v
  unchanged : escape v = v ↔ needEscape v = false
  length : (escape v).length = v.length + v.countP isSpecial

variable {v : Str} {c : UInt8}

theorem escape_char_plain (plain : isSpecial c = false) : escapeChar c = [c] := by
  simp only [isSpecial, Bool.or_eq_false_iff, decide_eq_false_iff_not] at plain
  simp only [escapeChar, plain, if_false]

theorem escape_char_special (special : isSpecial c = true) :
    ∃ letter, escapeChar c = [0x5C, letter] ∧ unescapeChar letter = some c := by
  simp only [isSpecial, Bool.or_eq_true, decide_eq_true_eq] at special
  rcases special with (((((same | same) | same) | same) | same) | same) | same
  · exact ⟨0x66, by rw [same]; decide, by rw [same]; decide⟩
  · exact ⟨0x74, by rw [same]; decide, by rw [same]; decide⟩
  · exact ⟨0x72, by rw [same]; decide, by rw [same]; decide⟩
  · exact ⟨0x6E, by rw [same]; decide, by rw [same]; decide⟩
  · exact ⟨0x62, by rw [same]; decide, by rw [same]; decide⟩
  · exact ⟨0x22, by rw [same]; decide, by rw [same]; decide⟩
  · exact ⟨0x5C, by rw [same]; decide, by rw [same]; decide⟩

theorem escape_char_length (c : UInt8) : (escapeChar c).length = escapeSize c := by
  cases special : isSpecial c with
  | false =>
      rw [escape_char_plain special]
      exact (if_neg (Bool.eq_false_iff.mp special)).symm
  | true =>
      rcases escape_char_special special with ⟨letter, written, _⟩
      rw [written]
      exact (if_pos special).symm

theorem escape_size_eq (c : UInt8) : escapeSize c = 1 + if isSpecial c then 1 else 0 := by
  cases special : isSpecial c with
  | false => exact if_neg (Bool.eq_false_iff.mp special)
  | true => exact if_pos special

theorem unescape_plain (other : c ≠ 0x5C) (rest : Str) :
    unescape (c :: rest) = c :: unescape rest := by
  cases rest with
  | nil => rfl
  | cons second rest => rw [unescape, if_neg other]

theorem unescape_pair {letter : UInt8} (stands : unescapeChar letter = some c) (rest : Str) :
    unescape (0x5C :: letter :: rest) = c :: unescape rest := by
  rw [unescape, if_pos rfl, stands]

theorem fold_size (v : Str) : ∀ size : Nat,
    v.foldl (fun size c => size + escapeSize c) size = size + v.length + v.countP isSpecial := by
  induction v with
  | nil => exact fun size => rfl
  | cons c v induction =>
      intro size
      rw [List.foldl_cons, induction, escape_size_eq, List.countP_cons, List.length_cons]
      split <;> omega

theorem measured_eq (v : Str) : measured v = v.length + v.countP isSpecial := by
  rw [measured, fold_size, Nat.zero_add]

theorem fold_escaped (v : Str) : ∀ rt : Str,
    v.foldl (fun rt c => rt ++ escapeChar c) rt = rt ++ v.flatMap escapeChar := by
  induction v with
  | nil => exact fun rt => (List.append_nil rt).symm
  | cons c v induction =>
      intro rt
      rw [List.foldl_cons, induction, List.flatMap_cons, List.append_assoc]

/-- What the second pass appends is right: undoing it gives the text back. -/
theorem unescape_escaped (v : Str) : unescape (v.flatMap escapeChar) = v := by
  induction v with
  | nil => rfl
  | cons c v induction =>
      rw [List.flatMap_cons]
      cases special : isSpecial c with
      | false =>
          have other : c ≠ 0x5C := by
            intro same
            rw [same] at special
            exact absurd special (by decide)
          rw [escape_char_plain special, List.singleton_append, unescape_plain other, induction]
      | true =>
          rcases escape_char_special special with ⟨letter, written, stands⟩
          rw [written, List.cons_append, List.singleton_append, unescape_pair stands, induction]

theorem escaped_length (v : Str) : (v.flatMap escapeChar).length = measured v := by
  induction v with
  | nil => rfl
  | cons c v induction =>
      rw [List.flatMap_cons, List.length_append, induction, escape_char_length, measured_eq,
        measured_eq, escape_size_eq, List.countP_cons, List.length_cons]
      split <;> omega

theorem count_special_zero (v : Str) : v.countP isSpecial = 0 ↔ needEscape v = false := by
  rw [List.countP_eq_zero, needEscape, List.any_eq_false]

theorem escape_plain (plain : needEscape v = false) : escape v = v := by
  have none_special := (count_special_zero v).mpr plain
  apply if_pos
  rw [measured_eq, none_special, Nat.add_zero]

theorem escape_special (special : needEscape v = true) :
    escape v = List.replicate (measured v) 0 ++ v.flatMap escapeChar := by
  have some_special : v.countP isSpecial ≠ 0 := by
    intro none_special
    rw [(count_special_zero v).mp none_special] at special
    cases special
  have grown : measured v ≠ v.length := by
    rw [measured_eq]
    omega
  exact (if_neg grown).trans (fold_escaped v _)

/-- Escaping does what it is for just where there is nothing to escape. -/
theorem json_escape_iff (v : Str) : EscapesWell v ↔ needEscape v = false := by
  constructor
  · intro well
    cases special : needEscape v with
    | false => rfl
    | true =>
        have length := well.length
        rw [escape_special special, List.length_append, List.length_replicate, escaped_length,
          ← measured_eq] at length
        have empty : v.length = 0 := by
          rw [measured_eq] at length
          omega
        rw [List.length_eq_zero_iff.mp empty] at special
        cases special
  · intro plain
    have built := unescape_escaped v
    have same : v.flatMap escapeChar = v := by
      have each : ∀ c ∈ v, escapeChar c = [c] := by
        intro c member
        apply escape_char_plain
        exact Bool.eq_false_iff.mpr (List.any_eq_false.mp plain c member)
      rw [List.flatMap_congr each, List.flatMap_singleton']
    rw [same] at built
    refine ⟨by rw [escape_plain plain, built], ?_, ?_⟩
    · rw [escape_plain plain, plain]
      exact ⟨fun _ => rfl, fun _ => rfl⟩
    · rw [escape_plain plain, (count_special_zero v).mpr plain, Nat.add_zero]

/-- A single line feed comes out behind two `NUL`s. -/
theorem line_feed_escaped : escape [0x0A] = [0x00, 0x00, 0x5C, 0x6E] ∧
    unescape (escape [0x0A]) ≠ [0x0A] ∧ ¬EscapesWell [0x0A] := by
  have wrong : unescape (escape [0x0A]) ≠ [0x0A] := by decide
  exact ⟨by decide, wrong, fun well => wrong well.undone⟩

end ChatServer.JsonUtil
