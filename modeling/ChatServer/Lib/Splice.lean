import Mathlib.Data.List.Basic
import Mathlib.Algebra.BigOperators.Group.List.Basic

/-!
# Overwriting a stretch of a list

`splice cells pos chunk` is a file-like write: the cells from `pos` on are
replaced by `chunk`, everything else stays, and the list grows when `chunk`
reaches past its end. The lemmas say how such writes compose and what a later
read of the same stretch sees. The second half is about chains of blocks of one
common size, the usual way such a list is stored.
-/

namespace Splice

set_option autoImplicit false

variable {Cell : Type*}

def splice (cells : List Cell) (pos : Nat) (chunk : List Cell) : List Cell :=
  cells.take pos ++ chunk ++ cells.drop (pos + chunk.length)

@[simp] theorem splice_nil (cells : List Cell) (pos : Nat) : splice cells pos [] = cells := by
  simp [splice]

theorem splice_length (cells chunk : List Cell) (pos : Nat) (bound : pos ≤ cells.length) :
    (splice cells pos chunk).length = max cells.length (pos + chunk.length) := by
  simp only [splice, List.length_append, List.length_take, List.length_drop]
  omega

theorem splice_length_inside (cells chunk : List Cell) (pos : Nat)
    (bound : pos + chunk.length ≤ cells.length) :
    (splice cells pos chunk).length = cells.length := by
  rw [splice_length cells chunk pos (by omega)]
  omega

theorem splice_at_end (cells chunk : List Cell) :
    splice cells cells.length chunk = cells ++ chunk := by
  simp [splice]

theorem splice_back (front back chunk : List Cell) (same : chunk.length = back.length) :
    splice (front ++ back) front.length chunk = front ++ chunk := by
  simp [splice, same]

theorem splice_drop (cells chunk : List Cell) (pos : Nat) (bound : pos ≤ cells.length) :
    (splice cells pos chunk).drop pos = chunk ++ cells.drop (pos + chunk.length) := by
  have headLength : (cells.take pos).length = pos := by simp [bound]
  rw [splice, List.append_assoc, List.drop_append_of_le_length (by omega)]
  simp

theorem splice_get_inside (cells chunk : List Cell) (pos index : Nat)
    (bound : pos ≤ cells.length) (lower : pos ≤ index) (upper : index < pos + chunk.length) :
    (splice cells pos chunk)[index]? = chunk[index - pos]? := by
  have shifted : (splice cells pos chunk)[index]? =
      ((splice cells pos chunk).drop pos)[index - pos]? := by
    rw [List.getElem?_drop, show pos + (index - pos) = index by omega]
  rw [shifted, splice_drop cells chunk pos bound, List.getElem?_append_left (by omega)]

theorem splice_get_outside (cells chunk : List Cell) (pos index : Nat)
    (bound : pos ≤ cells.length) (outside : index < pos ∨ pos + chunk.length ≤ index) :
    (splice cells pos chunk)[index]? = cells[index]? := by
  have headLength : (cells.take pos).length = pos := by simp [bound]
  rw [splice]
  rcases outside with before | after
  · rw [List.append_assoc, List.getElem?_append_left (by omega), List.getElem?_take_of_lt before]
  · have frontLength : (cells.take pos ++ chunk).length = pos + chunk.length := by
      simp only [List.length_append, headLength]
    rw [List.getElem?_append_right (by omega), frontLength, List.getElem?_drop,
      show pos + chunk.length + (index - (pos + chunk.length)) = index by omega]

/-- Two writes, the second where the first stopped, are one write. -/
theorem splice_splice (cells first second : List Cell) (pos : Nat) (bound : pos ≤ cells.length) :
    splice (splice cells pos first) (pos + first.length) second =
      splice cells pos (first ++ second) := by
  have headLength : (cells.take pos).length = pos := by simp [bound]
  have frontLength : (cells.take pos ++ first).length = pos + first.length := by
    simp only [List.length_append, headLength]
  rw [splice, splice, splice]
  rw [List.take_append_of_le_length (by omega), ← frontLength, List.take_length]
  rw [List.drop_append]
  have past : (cells.take pos ++ first).drop ((cells.take pos ++ first).length + second.length) =
      [] := List.drop_eq_nil_of_le (by omega)
  rw [past, List.nil_append, List.drop_drop]
  simp only [List.append_assoc, List.length_append, headLength]
  congr 4
  omega

/-- A write seen through a front part of the list that grows with it. -/
theorem take_splice (cells chunk : List Cell) (pos count : Nat) (bound : pos ≤ count)
    (fits : count ≤ cells.length) :
    (splice cells pos chunk).take (max count (pos + chunk.length)) =
      splice (cells.take count) pos chunk := by
  have headLength : (cells.take pos).length = pos := by
    rw [List.length_take]
    omega
  have frontLength : (cells.take pos ++ chunk).length = pos + chunk.length := by
    simp only [List.length_append, headLength]
  have tail : max count (pos + chunk.length) - (pos + chunk.length) =
      count - (pos + chunk.length) := by omega
  rw [splice, splice, List.take_append, frontLength, tail]
  rw [List.take_of_length_le (by omega), List.take_take, Nat.min_eq_left bound, List.drop_take]

/-- A write in the middle of a concatenation touches only the part it falls in. -/
theorem splice_append_left (front back chunk : List Cell) (pos : Nat)
    (bound : pos + chunk.length ≤ front.length) :
    splice (front ++ back) pos chunk = splice front pos chunk ++ back := by
  rw [splice, splice, List.take_append_of_le_length (by omega),
    List.drop_append_of_le_length bound]
  simp only [List.append_assoc]

theorem splice_append_right (front back chunk : List Cell) (pos : Nat) :
    splice (front ++ back) (front.length + pos) chunk = front ++ splice back pos chunk := by
  rw [splice, splice, List.take_append, List.drop_append]
  rw [List.take_of_length_le (by omega), List.drop_eq_nil_of_le (by omega)]
  rw [show front.length + pos - front.length = pos by omega,
    show front.length + pos + chunk.length - front.length = pos + chunk.length by omega]
  simp only [List.append_assoc, List.nil_append]

/-- All blocks of the chain have the same size. -/
def Uniform (size : Nat) (blocks : List (List Cell)) : Prop :=
  ∀ block ∈ blocks, block.length = size

theorem uniform_flatten_length {size : Nat} {blocks : List (List Cell)}
    (uniform : Uniform size blocks) : blocks.flatten.length = size * blocks.length := by
  induction blocks with
  | nil => simp
  | cons block rest induction =>
      have head : block.length = size := uniform block (by simp)
      have tail := induction (fun item member => uniform item (by simp [member]))
      simp only [List.flatten_cons, List.length_append, List.length_cons, head, tail]
      rw [Nat.mul_add, Nat.mul_one, Nat.add_comm]

theorem uniform_append {size : Nat} {front back : List (List Cell)}
    (left : Uniform size front) (right : Uniform size back) : Uniform size (front ++ back) := by
  intro block member
  rcases List.mem_append.mp member with inFront | inBack
  · exact left block inFront
  · exact right block inBack

theorem uniform_take {size : Nat} {blocks : List (List Cell)} (uniform : Uniform size blocks)
    (count : Nat) : Uniform size (blocks.take count) :=
  fun block member => uniform block (List.mem_of_mem_take member)

theorem uniform_drop {size : Nat} {blocks : List (List Cell)} (uniform : Uniform size blocks)
    (count : Nat) : Uniform size (blocks.drop count) :=
  fun block member => uniform block (List.mem_of_mem_drop member)

/-- Cutting a uniform chain between two blocks cuts its cells at a multiple of the size. -/
theorem uniform_flatten_take {size : Nat} {blocks : List (List Cell)}
    (uniform : Uniform size blocks) (count : Nat) (bound : count ≤ blocks.length) :
    (blocks.take count).flatten.length = size * count := by
  rw [uniform_flatten_length (uniform_take uniform count), List.length_take,
    Nat.min_eq_left bound]

theorem flatten_take_drop (blocks : List (List Cell)) (count : Nat) :
    blocks.flatten = (blocks.take count).flatten ++ (blocks.drop count).flatten := by
  rw [← List.flatten_append, List.take_append_drop]

end Splice
