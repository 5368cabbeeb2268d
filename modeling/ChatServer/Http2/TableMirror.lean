import ChatServer.Http2.HPackSync
import ChatServer.Http2.TableSize

/-!
# Parsing with a table that holds more

Dynamic indices count from the newest entry, so a block is understood by every table whose newest
entries are those of the table it was packed from. This stays so as long as the parsing table has
room, at each insertion, for all that the packing table held behind its own insertion.
-/

namespace ChatServer.Http2

set_option autoImplicit false

open DynamicTable

variable {packer parser next : DynamicTable} {name value : Str}

def Tallied (table : DynamicTable) : Prop := table.dataSize = totalSize table.datas

theorem total_size_suffix {longer shorter : List (Str × Str)} (suffix : shorter <:+ longer) :
    totalSize shorter ≤ totalSize longer := by
  rcases suffix with ⟨front, whole⟩
  rw [← whole, total_size_append]
  exact Nat.le_add_left _ _

/-- The parsing table has room for the header and for all that the packing table keeps with it. -/
abbrev HasRoom (packer parser : DynamicTable) (name value : Str) : Prop :=
  totalSize parser.datas + entrySize (name, value) < 2 ^ 31 ∧
    ((packer.update name value).datas = [(name, value)] ∨
      (totalSize (packer.update name value).datas : Int) ≤ parser.maxDataSize)

theorem update_keeps_suffix (suffix : packer.datas <:+ parser.datas)
    (packerTallied : Tallied packer) (parserTallied : Tallied parser)
    (room : HasRoom packer parser name value) :
    (packer.update name value).datas <:+ (parser.update name value).datas ∧
      Tallied (packer.update name value) ∧ Tallied (parser.update name value) := by
  have smaller := total_size_suffix suffix
  have exact := room.1
  rcases update_exact (name, value) packerTallied (by omega) with ⟨kept, packed, within, _⟩
  rcases update_exact (name, value) parserTallied exact with ⟨held, parsed, _, _, longest⟩
  have fits := room.2
  rw [packed] at fits ⊢
  rw [parsed]
  refine ⟨?_, rfl, rfl⟩
  apply List.suffix_append_self_iff.mpr
  rcases fits with alone | fits
  · have none : kept = [] := by simpa using alone
    rw [none]
    exact List.nil_suffix
  · exact longest kept (within.trans suffix) fits

def Roomy : DynamicTable → DynamicTable → List (Str × Str) → Prop
  | _, _, [] => True
  | packer, parser, (name, value) :: rest =>
      if (packer.findPair name value).2 then Roomy packer parser rest
      else HasRoom packer parser name value ∧
        Roomy (packer.update name value) (parser.update name value) rest

instance decidableRoomy : ∀ (packer parser : DynamicTable) (headers : List (Str × Str)),
    Decidable (Roomy packer parser headers)
  | _, _, [] => instDecidableTrue
  | packer, parser, (name, value) :: rest =>
      have := decidableRoomy packer parser rest
      have := decidableRoomy (packer.update name value) (parser.update name value) rest
      inferInstanceAs (Decidable (if (packer.findPair name value).2 then Roomy packer parser rest
        else HasRoom packer parser name value ∧
          Roomy (packer.update name value) (parser.update name value) rest))

/-- A table that ends with the entries of another one, both counted exactly. -/
structure Mirrors (packer parser : DynamicTable) : Prop where
  suffix : packer.datas <:+ parser.datas
  packerTallied : Tallied packer
  parserTallied : Tallied parser

theorem resolve_all_mirrors {headers : List (Str × Str)} :
    ∀ {packer parser last : DynamicTable} {fields : List HeaderField}, Mirrors packer parser →
      Roomy packer parser headers → chooseAll packer headers = .ok (fields, last) →
      (resolveAll parser (fields.map received)).1 = headers ∧
        Mirrors last (resolveAll parser (fields.map received)).2 := by
  induction headers with
  | nil =>
      intro packer parser last fields mirrors _ chosen
      rcases Prod.mk.inj (Except.ok.inj chosen) with ⟨rfl, rfl⟩
      exact ⟨rfl, mirrors⟩
  | cons header rest induction =>
      intro packer parser last fields mirrors roomy chosen
      rcases header with ⟨name, value⟩
      rcases choose_all_cons chosen with ⟨h, next, others, first, later, rfl⟩
      rcases chosen_resolves_suffix mirrors.suffix first with ⟨resolved, updated⟩
      rw [List.map_cons, resolveAll, resolved]
      rw [Roomy] at roomy
      by_cases indexed : (packer.findPair name value).2 = true
      · rw [if_pos indexed] at roomy updated
        rw [updated] at later
        rw [if_pos indexed]
        rcases induction mirrors roomy later with ⟨headers, behind⟩
        exact ⟨by rw [headers], behind⟩
      · rw [if_neg indexed] at roomy updated
        rw [updated] at later
        rw [if_neg indexed]
        rcases update_keeps_suffix mirrors.suffix mirrors.packerTallied mirrors.parserTallied
          roomy.1 with ⟨suffix, packerTallied, parserTallied⟩
        rcases induction ⟨suffix, packerTallied, parserTallied⟩ roomy.2 later with ⟨headers, behind⟩
        exact ⟨by rw [headers], behind⟩

end ChatServer.Http2
