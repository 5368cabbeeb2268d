import Mathlib.Algebra.GroupWithZero.Nat
import Mathlib.Data.List.Perm.Basic

/-!
# Calls in progress

A system in which any number of calls are under way keeps what is left of each in a list. A step
takes one of them out, by its place, and puts back what is left of it then. Whatever is counted
over the calls changes by what that one call had and what is put back.
-/

namespace TaskPool

set_option autoImplicit false

universe u v

variable {Task : Type u} {Item : Type v} {tasks more : List Task} {place : Nat} {task : Task}

/-- The call at a place goes on as `more`. -/
def replace (tasks : List Task) (place : Nat) (more : List Task) : List Task :=
  tasks.eraseIdx place ++ more

theorem taken_perm (found : tasks[place]? = some task) :
    (task :: tasks.eraseIdx place).Perm tasks := by
  rcases List.getElem?_eq_some_iff.mp found with ⟨inside, same⟩
  have taken := List.getElem_cons_eraseIdx_perm inside
  rw [same] at taken
  exact taken

theorem replace_perm (found : tasks[place]? = some task) (more : List Task) :
    (task :: replace tasks place more).Perm (tasks ++ more) :=
  (taken_perm found).append_right more

theorem mem_replace {other : Task} (member : other ∈ replace tasks place more) :
    other ∈ tasks ∨ other ∈ more := by
  rcases List.mem_append.mp member with kept | new
  · exact Or.inl (List.mem_of_mem_eraseIdx kept)
  · exact Or.inr new

theorem forall_replace {holds : Task → Prop} (all : ∀ task ∈ tasks, holds task)
    (rest : ∀ task ∈ more, holds task) : ∀ task ∈ replace tasks place more, holds task := by
  intro other member
  rcases mem_replace member with kept | new
  · exact all other kept
  · exact rest other new

theorem forall_replace_one {holds : Task → Prop} (all : ∀ task ∈ tasks, holds task) {next : Task}
    (goes : holds next) : ∀ task ∈ replace tasks place [next], holds task := by
  apply forall_replace all
  intro other new
  rw [List.mem_singleton.mp new]
  exact goes

def held (holds : Task → List Item) (tasks : List Task) : List Item := tasks.flatMap holds

theorem held_replace (holds : Task → List Item) (found : tasks[place]? = some task)
    (more : List Task) :
    (holds task ++ held holds (replace tasks place more)).Perm
      (held holds tasks ++ held holds more) := by
  have moved := (replace_perm found more).flatMap_right holds
  rw [List.flatMap_cons, List.flatMap_append] at moved
  exact moved

theorem mem_held_replace {holds : Task → List Item} {item : Item}
    (member : item ∈ held holds (replace tasks place more)) :
    item ∈ held holds tasks ∨ item ∈ held holds more := by
  rw [replace, held, List.flatMap_append] at member
  rcases List.mem_append.mp member with kept | new
  · rcases List.mem_flatMap.mp kept with ⟨task, inside, had⟩
    exact Or.inl (List.mem_flatMap.mpr ⟨task, List.mem_of_mem_eraseIdx inside, had⟩)
  · exact Or.inr new

theorem mem_held {holds : Task → List Item} {item : Item} (found : tasks[place]? = some task)
    (had : item ∈ holds task) : item ∈ held holds tasks :=
  List.mem_flatMap.mpr ⟨task, List.mem_of_getElem? found, had⟩

/-- A number for each call, added up. -/
def total (weight : Task → Nat) (tasks : List Task) : Nat := (tasks.map weight).sum

@[simp] theorem total_nil (weight : Task → Nat) : total weight [] = 0 := rfl

@[simp] theorem total_cons (weight : Task → Nat) (task : Task) (tasks : List Task) :
    total weight (task :: tasks) = weight task + total weight tasks := by
  rw [total, List.map_cons, List.sum_cons, ← total]

@[simp] theorem total_append (weight : Task → Nat) (first second : List Task) :
    total weight (first ++ second) = total weight first + total weight second := by
  rw [total, List.map_append, List.sum_append, ← total, ← total]

theorem total_perm (weight : Task → Nat) (moved : tasks.Perm more) :
    total weight tasks = total weight more := (moved.map weight).sum_nat

theorem total_replace (weight : Task → Nat) (found : tasks[place]? = some task)
    (more : List Task) :
    weight task + total weight (replace tasks place more) =
      total weight tasks + total weight more := by
  have moved := total_perm weight (replace_perm found more)
  rw [total_cons, total_append] at moved
  exact moved

theorem weight_le_total (weight : Task → Nat) (member : task ∈ tasks) :
    weight task ≤ total weight tasks := by
  rcases List.append_of_mem member with ⟨before, behind, same⟩
  rw [same, total_append, total_cons]
  omega

theorem total_le_total {lower upper : Task → Nat} (below : ∀ task, lower task ≤ upper task) :
    total lower tasks ≤ total upper tasks := by
  induction tasks with
  | nil => exact Nat.le_refl 0
  | cons task tasks induction =>
      rw [total_cons, total_cons]
      exact Nat.add_le_add (below task) induction

theorem total_lt_total {lower upper : Task → Nat} (below : ∀ task, lower task ≤ upper task)
    (member : task ∈ tasks) (less : lower task < upper task) :
    total lower tasks < total upper tasks := by
  rcases List.append_of_mem member with ⟨before, behind, same⟩
  have first := @total_le_total Task before lower upper below
  have second := @total_le_total Task behind lower upper below
  rw [same, total_append, total_append, total_cons, total_cons]
  omega

theorem total_add (first second : Task → Nat) :
    total (fun task => first task + second task) tasks =
      total first tasks + total second tasks := by
  induction tasks with
  | nil => rfl
  | cons task tasks induction =>
      rw [total_cons, total_cons, total_cons, induction]
      omega

theorem length_held (holds : Task → List Item) (tasks : List Task) :
    (held holds tasks).length = total (fun task => (holds task).length) tasks :=
  List.length_flatMap

theorem total_modify (weight : Task → Nat) (change : Task → Task)
    (found : tasks[place]? = some task) :
    total weight (tasks.modify place change) + weight task =
      total weight tasks + weight (change task) := by
  induction tasks generalizing place with
  | nil => cases found
  | cons first rest induction =>
      cases place with
      | zero =>
          cases found
          rw [List.modify_zero_cons, total_cons, total_cons]
          omega
      | succ place =>
          have later := induction found
          rw [List.modify_succ_cons, total_cons, total_cons]
          omega

theorem total_eq_zero {weight : Task → Nat} (none : ∀ task ∈ tasks, weight task = 0) :
    total weight tasks = 0 := by
  induction tasks with
  | nil => exact total_nil weight
  | cons task tasks induction =>
      rw [total_cons, none task List.mem_cons_self,
        induction fun other member => none other (List.mem_cons_of_mem _ member)]

end TaskPool
