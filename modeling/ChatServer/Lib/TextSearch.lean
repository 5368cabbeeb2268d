import Mathlib.Data.List.Basic

/-!
# Searching a text for a symbol

The place that a search from some place on finds, and a text cut at the first mark in it.
-/

set_option autoImplicit false

namespace TextSearch

section Several

variable {Symbol : Type*} {stops : Symbol → Bool} {stop : Symbol} {front back : List Symbol}

def findAny (stops : Symbol → Bool) (text : List Symbol) (start : Nat) : Option Nat :=
  ((text.drop start).findIdx? stops).map (start + ·)

/-- A text has no such symbol, or it is taken apart at the first one. -/
theorem stop_cases (stops : Symbol → Bool) (text : List Symbol) :
    text.any stops = false ∨ ∃ front stop back, text = front ++ stop :: back ∧
      front.any stops = false ∧ stops stop = true := by
  induction text with
  | nil => exact Or.inl rfl
  | cons symbol rest induction =>
      cases found : stops symbol with
      | true => exact Or.inr ⟨[], symbol, rest, rfl, rfl, found⟩
      | false =>
          rcases induction with absent | ⟨front, stop, back, split, absent, first⟩
          · left
            rw [List.any_cons, found, absent, Bool.or_false]
          · right
            refine ⟨symbol :: front, stop, back, ?_, ?_, first⟩
            · rw [split, List.cons_append]
            · rw [List.any_cons, found, absent, Bool.or_false]

theorem find_any_absent (skipped : List Symbol) (absent : front.any stops = false) :
    findAny stops (skipped ++ front) skipped.length = none := by
  have nowhere : front.findIdx? stops = none := by
    rw [List.findIdx?_eq_none_iff]
    intro symbol member
    exact Bool.eq_false_iff.mpr (List.any_eq_false.mp absent symbol member)
  rw [findAny, List.drop_left, nowhere, Option.map_none]

theorem find_any_idx (absent : front.any stops = false) (found : stops stop = true) :
    (front ++ stop :: back).findIdx? stops = some front.length := by
  induction front with
  | nil => rw [List.nil_append, List.findIdx?_cons, if_pos found]; rfl
  | cons other rest induction =>
      rw [List.any_cons, Bool.or_eq_false_iff] at absent
      rw [List.cons_append, List.findIdx?_cons, if_neg (Bool.eq_false_iff.mp absent.1),
        induction absent.2]
      rfl

theorem find_any_first (skipped : List Symbol) (absent : front.any stops = false)
    (found : stops stop = true) :
    findAny stops (skipped ++ (front ++ stop :: back)) skipped.length =
      some (skipped.length + front.length) := by
  rw [findAny, List.drop_left, find_any_idx absent found, Option.map_some]

end Several

variable {Symbol : Type*} [DecidableEq Symbol] {symbol mark : Symbol}
  {text front back : List Symbol}

/-- The first place of `symbol` in `text` that is not before `start`. -/
def find (text : List Symbol) (symbol : Symbol) (start : Nat) : Option Nat :=
  ((text.drop start).findIdx? fun other => decide (other = symbol)).map (start + ·)

/-- What stands in front of the first mark, and what stands behind it if there is one. -/
def cut (mark : Symbol) : List Symbol → List Symbol × Option (List Symbol)
  | [] => ([], none)
  | symbol :: rest =>
      if symbol = mark then ([], some rest) else (symbol :: (cut mark rest).1, (cut mark rest).2)

theorem cut_absent (absent : mark ∉ text) : cut mark text = (text, none) := by
  induction text with
  | nil => rfl
  | cons symbol rest induction =>
      rw [List.mem_cons, not_or] at absent
      rw [cut, if_neg (Ne.symm absent.1), induction absent.2]

theorem cut_first (absent : mark ∉ front) :
    cut mark (front ++ mark :: back) = (front, some back) := by
  induction front with
  | nil => exact if_pos rfl
  | cons symbol rest induction =>
      rw [List.mem_cons, not_or] at absent
      rw [List.cons_append, cut, if_neg (Ne.symm absent.1), induction absent.2]

/-- A text has no mark, or it is taken apart at the first one. -/
theorem mark_cases (mark : Symbol) (text : List Symbol) :
    mark ∉ text ∨ ∃ front back, text = front ++ mark :: back ∧ mark ∉ front := by
  by_cases inside : mark ∈ text
  · right
    rcases List.eq_append_cons_of_mem inside with ⟨front, back, split, absent⟩
    exact ⟨front, back, split, absent⟩
  · exact Or.inl inside

theorem cut_front_absent (mark : Symbol) (text : List Symbol) : mark ∉ (cut mark text).1 := by
  rcases mark_cases mark text with absent | ⟨front, back, split, absent⟩
  · rwa [cut_absent absent]
  · rwa [split, cut_first absent]

theorem cut_front_subset (mark : Symbol) (text : List Symbol) : (cut mark text).1 ⊆ text := by
  rcases mark_cases mark text with absent | ⟨front, back, split, absent⟩
  · rw [cut_absent absent]
    exact List.Subset.refl _
  · rw [split, cut_first absent]
    exact List.subset_append_left _ _

theorem find_absent (skipped : List Symbol) (absent : symbol ∉ front) :
    find (skipped ++ front) symbol skipped.length = none := by
  have nowhere : front.findIdx? (fun other => decide (other = symbol)) = none := by
    rw [List.findIdx?_eq_none_iff]
    intro other member
    apply decide_eq_false
    intro same
    rw [same] at member
    exact absent member
  rw [find, List.drop_left, nowhere, Option.map_none]

theorem find_idx_first (absent : symbol ∉ front) :
    (front ++ symbol :: back).findIdx? (fun other => decide (other = symbol)) =
      some front.length := by
  induction front with
  | nil => rw [List.nil_append, List.findIdx?_cons, if_pos (decide_eq_true rfl)]; rfl
  | cons other rest induction =>
      rw [List.mem_cons, not_or] at absent
      rw [List.cons_append, List.findIdx?_cons, if_neg (by simp [Ne.symm absent.1]),
        induction absent.2]
      rfl

theorem find_first (skipped : List Symbol) (absent : symbol ∉ front) :
    find (skipped ++ (front ++ symbol :: back)) symbol skipped.length =
      some (skipped.length + front.length) := by
  rw [find, List.drop_left, find_idx_first absent, Option.map_some]

theorem pieces_induction {Holds : List Symbol → Prop} (mark : Symbol)
    (single : ∀ text, mark ∉ text → Holds text)
    (next : ∀ front back, mark ∉ front → Holds back → Holds (front ++ mark :: back))
    (text : List Symbol) : Holds text := by
  have bounded : ∀ bound (text : List Symbol), text.length ≤ bound → Holds text := by
    intro bound
    induction bound with
    | zero =>
        intro text few
        rw [List.length_eq_zero_iff.mp (Nat.le_zero.mp few)]
        exact single [] List.not_mem_nil
    | succ bound induction =>
        intro text few
        rcases mark_cases mark text with absent | ⟨front, back, split, absent⟩
        · exact single text absent
        · rw [split, List.length_append, List.length_cons] at few
          rw [split]
          exact next front back absent (induction back (by omega))
  exact bounded text.length text (Nat.le_refl _)

theorem mark_not_mem_piece (mark : Symbol) (text : List Symbol) :
    ∀ piece ∈ text.splitOn mark, mark ∉ piece := by
  induction text using pieces_induction mark with
  | single text absent =>
      intro piece member
      rw [List.splitOn_eq_singleton absent, List.mem_singleton] at member
      rwa [member]
  | next front back absent induction =>
      intro piece member
      rw [List.splitOn_append_cons_self_of_not_mem absent] at member
      rcases List.mem_cons.mp member with first | later
      · rwa [first]
      · exact induction piece later

/-- Every other symbol of a text is in a piece, and in the pieces is nothing else. -/
theorem mem_pieces (other : symbol ≠ mark) (text : List Symbol) :
    symbol ∈ text ↔ ∃ piece ∈ text.splitOn mark, symbol ∈ piece := by
  induction text using pieces_induction mark with
  | single text absent => simp [List.splitOn_eq_singleton absent]
  | next front back absent induction =>
      simp [List.splitOn_append_cons_self_of_not_mem absent, induction, other]

end TextSearch
