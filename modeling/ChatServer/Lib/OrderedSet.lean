import Mathlib.Data.List.Basic

/-!
# Ordered sets

A `std::set` as the sequence of its elements, with positions for iterators and the length for
`end()`. Every operation looks its place up with the comparator, so it finds what it should only
while the comparator orders the sequence strictly.
-/

namespace OrderedSet

set_option autoImplicit false

universe u

variable {Element : Type u} (less : Element → Element → Prop) [DecidableRel less]

def lowerBound (key : Element) : List Element → Nat
  | [] => 0
  | element :: rest => if less element key then lowerBound key rest + 1 else 0

/-- The position of an element equivalent to the key, or `end()`. -/
def find (key : Element) (elements : List Element) : Nat :=
  let position := lowerBound less key elements
  match elements[position]? with
  | some found => if less key found then elements.length else position
  | none => elements.length

/-- The set with the key, and the position of the key or of the element equivalent to it. -/
def insert (key : Element) (elements : List Element) : List Element × Nat :=
  let position := lowerBound less key elements
  match elements[position]? with
  | some found =>
      if less key found then (elements.insertIdx position key, position)
      else (elements, position)
  | none => (elements ++ [key], position)

variable {less}

/-- What stands in front of the lower bound is less than the key, what stands at it is not. -/
theorem lower_bound_split (key : Element) (elements : List Element) :
    ∃ front rest, elements = front ++ rest ∧ lowerBound less key elements = front.length ∧
      (∀ element ∈ front, less element key) ∧ ∀ element ∈ rest.head?, ¬ less element key := by
  induction elements with
  | nil => exact ⟨[], [], rfl, rfl, by simp, by simp⟩
  | cons element elements induction =>
      by_cases smaller : less element key
      · rcases induction with ⟨front, rest, split, position, below, above⟩
        refine ⟨element :: front, rest, ?_, ?_, ?_, above⟩
        · rw [split, List.cons_append]
        · rw [lowerBound, if_pos smaller, position, List.length_cons]
        · simpa [smaller] using below
      · exact ⟨[], element :: elements, rfl, if_neg smaller, by simp, by simpa using smaller⟩

theorem lower_bound_append {key : Element} {front rest : List Element}
    (below : ∀ element ∈ front, less element key)
    (above : ∀ element ∈ rest.head?, ¬ less element key) :
    lowerBound less key (front ++ rest) = front.length := by
  induction front with
  | nil =>
      cases rest with
      | nil => rfl
      | cons element rest => exact if_neg (above element rfl)
  | cons element front induction =>
      rw [List.cons_append, lowerBound, if_pos (below element (by simp)), List.length_cons]
      rw [induction (fun later member => below later (by simp [member]))]

theorem find_member {key : Element} {elements : List Element} (ordered : elements.Pairwise less)
    (irreflexive : ¬ less key key) (member : key ∈ elements) :
    ∃ front rest, elements = front ++ key :: rest ∧ find less key elements = front.length := by
  rcases List.append_of_mem member with ⟨front, rest, split⟩
  rw [split] at ordered
  have below : ∀ element ∈ front, less element key := by
    intro element before
    exact (List.pairwise_append.mp ordered).2.2 element before key (by simp)
  have position : lowerBound less key elements = front.length := by
    rw [split]
    exact lower_bound_append below (by simpa using irreflexive)
  refine ⟨front, rest, split, ?_⟩
  rw [find, position]
  simp [split, irreflexive]

theorem find_lt_length {key : Element} {elements : List Element} (ordered : elements.Pairwise less)
    (irreflexive : ¬ less key key) (member : key ∈ elements) :
    find less key elements < elements.length := by
  rcases find_member ordered irreflexive member with ⟨front, rest, split, position⟩
  rw [position, split]
  simp

theorem find_le (key : Element) (elements : List Element) :
    find less key elements ≤ elements.length := by
  have parts := @lower_bound_split Element less _ key elements
  rcases parts with ⟨front, rest, split, position, _⟩
  rw [find, position]
  have inside : front.length ≤ elements.length := by simp [split]
  split
  · split
    · exact Nat.le_refl _
    · exact inside
  · exact Nat.le_refl _

/-- What is found is the key itself, where only the key is equivalent to it. -/
theorem find_split {key : Element} {elements : List Element}
    (separates : ∀ element ∈ elements, ¬ less element key → ¬ less key element → element = key)
    (inside : find less key elements < elements.length) :
    ∃ front rest, elements = front ++ key :: rest ∧ find less key elements = front.length := by
  have parts := @lower_bound_split Element less _ key elements
  rcases parts with ⟨front, rest, split, position, below, above⟩
  rw [find, position] at inside ⊢
  cases rest with
  | nil => simp [split] at inside
  | cons found rest =>
      have here : elements[front.length]? = some found := by simp [split]
      simp only [here] at inside ⊢
      by_cases greater : less key found
      · simp [greater] at inside
      · have same := separates found (by simp [split]) (above found rfl) greater
        refine ⟨front, rest, ?_, if_neg greater⟩
        rw [split, same]

theorem insert_idx_append (key : Element) (front rest : List Element) :
    (front ++ rest).insertIdx front.length key = front ++ key :: rest := by
  induction front with
  | nil => cases rest <;> rfl
  | cons element front induction =>
      rw [List.cons_append, List.length_cons, List.insertIdx_succ_cons, induction]
      rfl

/-- An element is put behind the smaller ones, unless an equivalent one stands there. -/
theorem insert_cases (key : Element) (elements : List Element) :
    ∃ front rest, elements = front ++ rest ∧ (∀ element ∈ front, less element key) ∧
      ((∀ element ∈ rest.head?, less key element) ∧
          insert less key elements = (front ++ key :: rest, front.length) ∨
        (∃ found ∈ rest.head?, ¬ less found key ∧ ¬ less key found) ∧
          insert less key elements = (elements, front.length)) := by
  have parts := @lower_bound_split Element less _ key elements
  rcases parts with ⟨front, rest, split, position, below, above⟩
  refine ⟨front, rest, split, below, ?_⟩
  rw [insert, position]
  cases rest with
  | nil =>
      left
      exact ⟨by simp, by simp [split]⟩
  | cons found rest =>
      have here : elements[front.length]? = some found := by simp [split]
      rw [here]
      by_cases greater : less key found
      · left
        refine ⟨by simpa using greater, ?_⟩
        simp [split, greater, insert_idx_append]
      · right
        refine ⟨⟨found, rfl, above found rfl, greater⟩, ?_⟩
        simp [greater]

theorem insert_ordered (transitive : ∀ first second third, less first second →
      less second third → less first third) {key : Element} {elements : List Element}
    (ordered : elements.Pairwise less) : (insert less key elements).1.Pairwise less := by
  have parts := @insert_cases Element less _ key elements
  rcases parts with ⟨front, rest, split, below, ⟨above, inserted⟩ | ⟨-, inserted⟩⟩
  · rw [inserted]
    rw [split] at ordered
    rcases List.pairwise_append.mp ordered with ⟨frontOrdered, restOrdered, across⟩
    have behind : ∀ element ∈ rest, less key element := by
      cases rest with
      | nil => simp
      | cons found rest =>
          have greater := above found rfl
          intro element member
          rcases List.mem_cons.mp member with same | later
          · rw [same]
            exact greater
          · exact transitive key found element greater (List.rel_of_pairwise_cons restOrdered later)
    refine List.pairwise_append.mpr
      ⟨frontOrdered, List.pairwise_cons.mpr ⟨behind, restOrdered⟩, ?_⟩
    intro element before other member
    rcases List.mem_cons.mp member with same | later
    · rw [same]
      exact below element before
    · exact across element before other later
  · rw [inserted]
    exact ordered

theorem mem_insert (key : Element) (elements : List Element) :
    (∀ element ∈ (insert less key elements).1, element = key ∨ element ∈ elements) ∧
      ∀ element ∈ elements, element ∈ (insert less key elements).1 := by
  have parts := @insert_cases Element less _ key elements
  rcases parts with ⟨front, rest, split, -, ⟨-, inserted⟩ | ⟨-, inserted⟩⟩
  · rw [inserted, split]
    constructor
    · intro element member
      rcases List.mem_append.mp member with before | behind
      · exact Or.inr (List.mem_append_left rest before)
      · rcases List.mem_cons.mp behind with same | later
        · exact Or.inl same
        · exact Or.inr (List.mem_append_right front later)
    · intro element member
      rcases List.mem_append.mp member with before | behind
      · exact List.mem_append_left _ before
      · exact List.mem_append_right _ (List.mem_cons_of_mem key behind)
  · rw [inserted]
    exact ⟨fun element member => Or.inr member, fun element member => member⟩

theorem insert_last {key : Element} {elements : List Element}
    (below : ∀ element ∈ elements, less element key) :
    insert less key elements = (elements ++ [key], elements.length) := by
  have position : lowerBound less key (elements ++ []) = elements.length :=
    lower_bound_append below (by simp)
  rw [List.append_nil] at position
  rw [insert, position]
  simp

theorem insert_new (transitive : ∀ first second third, less first second → less second third →
      less first third) {key : Element} {elements : List Element}
    (ordered : elements.Pairwise less)
    (comparable : ∀ element ∈ elements, less element key ∨ less key element) :
    ∃ front rest, elements = front ++ rest ∧
      insert less key elements = (front ++ key :: rest, front.length) ∧
      (front ++ key :: rest).Pairwise less := by
  have parts := @insert_cases Element less _ key elements
  have placed : (insert less key elements).1.Pairwise less := insert_ordered transitive ordered
  rcases parts with ⟨front, rest, split, -,
    ⟨-, inserted⟩ | ⟨⟨found, first, notLess, notGreater⟩, -⟩⟩
  · rw [inserted] at placed
    exact ⟨front, rest, split, inserted, placed⟩
  · have member : found ∈ elements := by
      rw [split]
      exact List.mem_append_right front (List.mem_of_mem_head? first)
    rcases comparable found member with smaller | greater
    · exact absurd smaller notLess
    · exact absurd greater notGreater

end OrderedSet
