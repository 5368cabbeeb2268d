import Mathlib.Data.List.Basic

/-!
# Lines of a text

A text in which a line ends at a feed, with or without a return in front of it, and the block of
lines that a blank line closes.
-/

set_option autoImplicit false

structure LineEnd (Symbol : Type*) where
  ret : Symbol
  feed : Symbol
  apart : ret ≠ feed

namespace LineEnd

variable {Symbol : Type*} {eol : LineEnd Symbol} {line front rest text : List Symbol}

def newline (eol : LineEnd Symbol) : List Symbol := [eol.ret, eol.feed]

/-- A text that does not end within a line. -/
def Ended (eol : LineEnd Symbol) (text : List Symbol) : Prop :=
  text = [] ∨ text.getLast? = some eol.feed

theorem ended_nil : eol.Ended [] := Or.inl rfl

theorem ended_newline (text : List Symbol) : eol.Ended (text ++ eol.newline) := by
  right
  rw [newline, List.getLast?_append_of_ne_nil _ (List.cons_ne_nil _ _)]
  rfl

theorem ended_append (first : eol.Ended front) (second : eol.Ended rest) :
    eol.Ended (front ++ rest) := by
  rcases second with bare | last
  · rw [bare, List.append_nil]
    exact first
  · right
    rw [List.getLast?_append, last]
    rfl

theorem ended_flat_map {Item : Type*} {print : Item → List Symbol}
    (each : ∀ item, eol.Ended (print item)) (items : List Item) :
    eol.Ended (items.flatMap print) := by
  induction items with
  | nil => exact ended_nil
  | cons item items induction =>
      rw [List.flatMap_cons]
      exact ended_append (each item) induction

theorem last_cons {symbol : Symbol} (last : (symbol :: front).getLast? = some eol.feed) :
    front = [] ∧ symbol = eol.feed ∨ front.getLast? = some eol.feed := by
  cases front with
  | nil =>
      left
      exact ⟨rfl, Option.some.inj last⟩
  | cons next front =>
      right
      rw [← last, List.getLast?_cons_cons]

variable [DecidableEq Symbol]

def chomp (eol : LineEnd Symbol) (line : List Symbol) : List Symbol :=
  if line.getLast? = some eol.ret then line.dropLast else line

/-- The lines that end in a text, the first of which has begun already. -/
def lines (eol : LineEnd Symbol) (line : List Symbol) : List Symbol → List (List Symbol)
  | [] => []
  | symbol :: rest =>
      if symbol = eol.feed then eol.chomp line :: eol.lines [] rest
      else eol.lines (line ++ [symbol]) rest

/-- The lines in front of the first blank one, with what is behind it. -/
def block (eol : LineEnd Symbol) (line : List Symbol) :
    List Symbol → Option (List (List Symbol) × List Symbol)
  | [] => none
  | symbol :: rest =>
      if symbol = eol.feed then
        if eol.chomp line = [] then some ([], rest)
        else (eol.block [] rest).map fun read => (eol.chomp line :: read.1, read.2)
      else eol.block (line ++ [symbol]) rest

@[simp] theorem chomp_nil : eol.chomp [] = [] := rfl

@[simp] theorem chomp_ret : eol.chomp (line ++ [eol.ret]) = line := by
  rw [chomp, List.getLast?_concat, if_pos rfl, List.dropLast_concat]

theorem lines_cut (last : front.getLast? = some eol.feed) :
    eol.lines line (front ++ rest) = eol.lines line front ++ eol.lines [] rest := by
  induction front generalizing line with
  | nil => cases last
  | cons symbol front induction =>
      rw [List.cons_append, lines, lines]
      by_cases ends : symbol = eol.feed
      · rw [if_pos ends, if_pos ends]
        rcases last_cons last with ⟨bare, same⟩ | more
        · rw [bare]
          rfl
        · rw [induction more, List.cons_append]
      · rw [if_neg ends, if_neg ends]
        rcases last_cons last with ⟨bare, same⟩ | more
        · exact absurd same ends
        · rw [induction more]

theorem lines_append (ended : eol.Ended front) (rest : List Symbol) :
    eol.lines [] (front ++ rest) = eol.lines [] front ++ eol.lines [] rest := by
  rcases ended with bare | last
  · rw [bare]
    rfl
  · exact lines_cut last

theorem lines_within (inside : eol.feed ∉ text) :
    eol.lines line (text ++ rest) = eol.lines (line ++ text) rest := by
  induction text generalizing line with
  | nil => rw [List.nil_append, List.append_nil]
  | cons symbol text induction =>
      have other : symbol ≠ eol.feed := fun same => inside (same ▸ List.mem_cons_self)
      rw [List.cons_append, lines, if_neg other, induction (List.not_mem_of_not_mem_cons inside),
        List.append_assoc, List.singleton_append]

theorem lines_newline : eol.lines line eol.newline = [line] := by
  rw [newline, lines, if_neg eol.apart, lines, if_pos rfl, chomp_ret]
  rfl

theorem lines_single (inside : eol.feed ∉ text) : eol.lines [] (text ++ eol.newline) = [text] := by
  rw [lines_within inside, lines_newline, List.nil_append]

theorem block_newline : eol.block [] (eol.newline ++ rest) = some ([], rest) := by
  have ends : eol.chomp ([] ++ [eol.ret]) = [] := chomp_ret
  rw [newline, List.cons_append, block, if_neg eol.apart, List.cons_append, block, if_pos rfl,
    if_pos ends]
  rfl

theorem block_cut (last : front.getLast? = some eol.feed) (filled : [] ∉ eol.lines line front) :
    eol.block line (front ++ rest) =
      (eol.block [] rest).map fun read => (eol.lines line front ++ read.1, read.2) := by
  induction front generalizing line with
  | nil => cases last
  | cons symbol front induction =>
      rw [List.cons_append, block]
      rw [lines] at filled ⊢
      by_cases ends : symbol = eol.feed
      · rw [if_pos ends] at filled ⊢
        have shown : eol.chomp line ≠ [] := by
          intro blank
          rw [blank] at filled
          exact filled List.mem_cons_self
        rw [if_pos ends, if_neg shown]
        rcases last_cons last with ⟨bare, same⟩ | more
        · rw [bare]
          rfl
        · rw [induction more (List.not_mem_of_not_mem_cons filled), Option.map_map]
          rfl
      · rw [if_neg ends] at filled ⊢
        rw [if_neg ends]
        rcases last_cons last with ⟨bare, same⟩ | more
        · exact absurd same ends
        · rw [induction more filled]

/-- A blank line within the text closes the block there. -/
theorem block_inside (blank : [] ∈ eol.lines line front) (rest : List Symbol) :
    ∃ before behind, eol.block line (front ++ rest) = some (before, behind ++ rest) := by
  induction front generalizing line with
  | nil => cases blank
  | cons symbol front induction =>
      rw [lines] at blank
      rw [List.cons_append, block]
      by_cases ends : symbol = eol.feed
      · rw [if_pos ends] at blank ⊢
        by_cases closes : eol.chomp line = []
        · rw [if_pos closes]
          exact ⟨[], front, rfl⟩
        · rw [if_neg closes]
          rcases List.mem_cons.mp blank with here | later
          · exact absurd here.symm closes
          · rcases induction later with ⟨before, behind, read⟩
            rw [read]
            exact ⟨eol.chomp line :: before, behind, rfl⟩
      · rw [if_neg ends] at blank ⊢
        exact induction blank

/-- What follows a block does not change it. -/
theorem block_append {head : List (List Symbol)} {behind : List Symbol}
    (read : eol.block line text = some (head, behind)) (more : List Symbol) :
    eol.block line (text ++ more) = some (head, behind ++ more) := by
  induction text generalizing line head with
  | nil => cases read
  | cons symbol text induction =>
      rw [List.cons_append, block]
      rw [block] at read
      by_cases ends : symbol = eol.feed
      · rw [if_pos ends] at read ⊢
        by_cases closes : eol.chomp line = []
        · rw [if_pos closes] at read ⊢
          cases read
          rfl
        · rw [if_neg closes] at read ⊢
          obtain ⟨⟨rest, left⟩, found, same⟩ := Option.map_eq_some_iff.mp read
          cases same
          rw [induction found]
          rfl
      · rw [if_neg ends] at read ⊢
        exact induction read

/-- Whole lines, a blank line and more: this blank line closes the block exactly when none of the
lines in front of it is blank. -/
theorem block_closed_iff (ended : eol.Ended front) {read : List (List Symbol)} :
    eol.block [] (front ++ (eol.newline ++ rest)) = some (read, rest) ↔
      [] ∉ eol.lines [] front ∧ read = eol.lines [] front := by
  by_cases blank : [] ∈ eol.lines [] front
  · rcases block_inside blank (eol.newline ++ rest) with ⟨before, behind, stops⟩
    rw [stops]
    constructor
    · intro same
      have lengths := congrArg List.length (congrArg Prod.snd (Option.some.inj same))
      simp only [List.length_append, newline, List.length_cons, List.length_nil] at lengths
      omega
    · intro closed
      exact absurd blank closed.1
  · have whole : eol.block [] (front ++ (eol.newline ++ rest)) =
        some (eol.lines [] front, rest) := by
      rcases ended with bare | last
      · rw [bare, List.nil_append, block_newline]
        rfl
      · rw [block_cut last blank, block_newline, Option.map_some, List.append_nil]
    rw [whole]
    constructor
    · intro same
      exact ⟨blank, (congrArg Prod.fst (Option.some.inj same)).symm⟩
    · intro closed
      rw [closed.2]

end LineEnd
