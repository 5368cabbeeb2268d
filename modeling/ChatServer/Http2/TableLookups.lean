import ChatServer.Http2.TableSize

/-!
# Look-ups in the tables

What `findPair` and `findIndex` tell about a table that calls have built, read back with
`getPair` and `getName`, and where in the table the insertions are found.
-/

namespace ChatServer.Http2.DynamicTable

set_option autoImplicit false

/-- The loop of `GetStaticHeadersIndex` and of `findIndex`. -/
def indexLoop (name : Str) : List (Str × Str) → Int → Int
  | [], _ => -1
  | entry :: rest, i => if entry.1 = name then i else indexLoop name rest (i + 1)

def getStaticHeadersIndex (name : Str) : Int := indexLoop name staticHeaders.tail 1

def findIndex (table : DynamicTable) (name : Str) : Int :=
  let idx := getStaticHeadersIndex name
  if idx = -1 then indexLoop name table.datas.reverse 62 else idx

/-- The entries that calls have put in, oldest first. -/
def insertions (calls : List Call) : List (Str × Str) :=
  calls.filterMap fun
    | .update name value => some (name, value)
    | .setMaxDataSize _ => none

def build (calls : List Call) : DynamicTable := calls.foldl call new

/-- What a look-up promises about the static and the dynamic entries. -/
structure LookupsAgree (table : DynamicTable) (name value : Str) : Prop where
  pair : ∀ i, table.findPair name value = (i, true) →
    0 ≤ i ∧ table.getPair i.toNat = (name, value)
  named : ∀ i, table.findPair name value = (i, false) → 0 < i →
    table.getName i.toNat = name ∧ (name, value) ∉ staticHeaders ∧ (name, value) ∉ table.datas
  absent : table.findPair name value = (-1, false) →
    ∀ entry, entry ∈ staticHeaders ∨ entry ∈ table.datas → entry.1 ≠ name

variable {name value : Str} {entries : List (Str × Str)}

theorem find_loop_absent : ∀ i rt : Int,
    (findLoop name value entries i rt).2 = false → (name, value) ∉ entries := by
  induction entries with
  | nil => exact fun i rt missed => List.not_mem_nil
  | cons entry rest induction =>
      intro i rt missed member
      rw [findLoop] at missed
      by_cases sameName : entry.1 = name
      · rw [if_pos sameName] at missed
        by_cases sameValue : entry.2 = value
        · rw [if_pos sameValue] at missed
          cases missed
        · rw [if_neg sameValue] at missed
          rcases List.mem_cons.mp member with first | later
          · exact sameValue (by rw [← first])
          · exact induction _ _ missed later
      · rw [if_neg sameName] at missed
        rcases List.mem_cons.mp member with first | later
        · exact sameName (by rw [← first])
        · exact induction _ _ missed later

/-- The index stays at minus one just when no entry has the name. -/
theorem find_loop_nameless : ∀ i rt : Int, 0 ≤ i →
    (findLoop name value entries i rt).1 = -1 → rt = -1 ∧ ∀ entry ∈ entries, entry.1 ≠ name := by
  induction entries with
  | nil =>
      intro i rt low missed
      exact ⟨missed, fun entry member => absurd member List.not_mem_nil⟩
  | cons entry rest induction =>
      intro i rt low missed
      rw [findLoop] at missed
      by_cases sameName : entry.1 = name
      · rw [if_pos sameName] at missed
        by_cases sameValue : entry.2 = value
        · rw [if_pos sameValue] at missed
          change i = -1 at missed
          omega
        · rw [if_neg sameValue] at missed
          have unset := (induction (i + 1) _ (by omega) missed).1
          split at unset <;> omega
      · rw [if_neg sameName] at missed
        rcases induction (i + 1) rt (by omega) missed with ⟨unset, others⟩
        refine ⟨unset, ?_⟩
        intro other member
        rcases List.mem_cons.mp member with first | later
        · rwa [first]
        · exact others other later

theorem find_pair_absent {table : DynamicTable} (missed : (table.findPair name value).2 = false) :
    (name, value) ∉ staticHeaders ∧ (name, value) ∉ table.datas := by
  rw [findPair] at missed
  cases found : (getStaticHeadersPair name value).2 with
  | true =>
      simp only [found, if_true] at missed
      cases missed
  | false =>
      simp only [found, Bool.false_eq_true, if_false] at missed
      have dynamic := find_loop_absent _ _ missed
      rw [List.mem_reverse] at dynamic
      exact ⟨find_loop_absent _ _ found, dynamic⟩

theorem find_pair_nameless {table : DynamicTable}
    (missed : table.findPair name value = (-1, false)) (entry : Str × Str)
    (member : entry ∈ staticHeaders ∨ entry ∈ table.datas) : entry.1 ≠ name := by
  rw [findPair] at missed
  cases found : (getStaticHeadersPair name value).2 with
  | true =>
      simp only [found, if_true] at missed
      rw [missed] at found
      cases found
  | false =>
      simp only [found, Bool.false_eq_true, if_false] at missed
      rcases find_loop_nameless 62 _ (by decide) (congrArg Prod.fst missed) with ⟨unset, dynamic⟩
      rcases find_loop_nameless 0 (-1) (by decide) unset with ⟨_, static⟩
      rcases member with fixed | inserted
      · exact static entry fixed
      · exact dynamic entry (List.mem_reverse.mpr inserted)

theorem lookups_agree (table : DynamicTable) (name value : Str) :
    LookupsAgree table name value := by
  have all := find_pair_case table name value
  refine ⟨?_, ?_, find_pair_nameless⟩
  · intro i result
    rw [result] at all
    cases all with
    | pair idx inside found => exact ⟨Int.natCast_nonneg idx, found⟩
  · intro i result positive
    have missing := find_pair_absent (congrArg Prod.snd result)
    rw [result] at all
    cases all with
    | named idx low inside found => exact ⟨found, missing⟩
    | fresh _ none => omega

theorem index_loop_spec (name : Str) (entries : List (Str × Str)) : ∀ i : Int,
    (∃ k entry, indexLoop name entries i = i + (k : Nat) ∧ entries[k]? = some entry ∧
      entry.1 = name) ∨
    indexLoop name entries i = -1 ∧ ∀ entry ∈ entries, entry.1 ≠ name := by
  induction entries with
  | nil => exact fun i => Or.inr ⟨rfl, fun entry member => absurd member List.not_mem_nil⟩
  | cons entry rest induction =>
      intro i
      rw [indexLoop]
      by_cases same : entry.1 = name
      · rw [if_pos same]
        exact Or.inl ⟨0, entry, by simp, rfl, same⟩
      · rw [if_neg same]
        rcases induction (i + 1) with ⟨k, other, found, at_k, named⟩ | ⟨missed, others⟩
        · exact Or.inl ⟨k + 1, other, by rw [found]; omega, at_k, named⟩
        · refine Or.inr ⟨missed, ?_⟩
          intro other member
          rcases List.mem_cons.mp member with first | later
          · rwa [first]
          · exact others other later

/-- `findIndex` finds an entry with the name, if there is one behind the entry 0. -/
theorem find_index_named (table : DynamicTable) (name : Str) :
    (∃ idx : Nat, table.findIndex name = idx ∧ 0 < idx ∧ table.getName idx = name) ∨
    table.findIndex name = -1 ∧
      ∀ entry, entry ∈ staticHeaders.tail ∨ entry ∈ table.datas → entry.1 ≠ name := by
  rw [findIndex, getStaticHeadersIndex]
  rcases index_loop_spec name staticHeaders.tail 1 with
    ⟨k, entry, found, at_k, named⟩ | ⟨missed, static⟩
  · have at_next : staticHeaders[k + 1]? = some entry := by
      rw [List.getElem?_tail] at at_k
      exact at_k
    have pair := (@get_pair_static table _ _ at_next).2
    refine Or.inl ⟨k + 1, ?_, Nat.succ_pos k, by rw [getName, pair, named]⟩
    rw [found, if_neg (by omega)]
    omega
  · rw [missed, if_pos rfl]
    rcases index_loop_spec name table.datas.reverse 62 with
      ⟨k, entry, found, at_k, named⟩ | ⟨nothing, dynamic⟩
    · have pair := (get_pair_dynamic at_k).2
      exact Or.inl ⟨62 + k, by rw [found]; omega, by omega, by rw [getName, pair, named]⟩
    · refine Or.inr ⟨nothing, ?_⟩
      rintro entry (fixed | inserted)
      · exact static entry fixed
      · exact dynamic entry (List.mem_reverse.mpr inserted)

theorem evict_suffix (limit len : Int) (entries : List (Str × Str)) : ∀ dataSize : Int,
    (evict limit len dataSize entries).2 <:+ entries := by
  induction entries with
  | nil => exact fun dataSize => List.suffix_refl []
  | cons entry rest induction =>
      intro dataSize
      rw [evict]
      split
      · exact (induction _).trans (List.suffix_cons entry rest)
      · exact List.suffix_refl _

theorem insertions_concat (calls : List Call) (name value : Str) :
    insertions (calls ++ [.update name value]) = insertions calls ++ [(name, value)] := by
  rw [insertions, List.filterMap_append]
  rfl

theorem insertions_resized (calls : List Call) (v : UInt32) :
    insertions (calls ++ [.setMaxDataSize v]) = insertions calls := by
  rw [insertions, List.filterMap_append]
  exact List.append_nil _

theorem build_suffix (calls : List Call) : (build calls).datas <:+ insertions calls := by
  induction calls using List.reverseRecOn with
  | nil => exact List.suffix_refl []
  | append_singleton calls next induction =>
      rw [build, List.foldl_append, List.foldl_cons, List.foldl_nil]
      change ((build calls).call next).datas <:+ insertions (calls ++ [next])
      cases next with
      | update name value =>
          rw [insertions_concat]
          have kept := (evict_suffix (build calls).maxDataSize (int32 (entrySize (name, value)))
            (build calls).datas (build calls).dataSize).trans induction
          rcases kept with ⟨older, split⟩
          refine ⟨older, ?_⟩
          rw [← split, List.append_assoc]
          rfl
      | setMaxDataSize v =>
          rw [insertions_resized, call, setMaxDataSize]
          exact induction

/-- Look-ups of every table that calls have built agree with what it holds, and the entry
number 62 + k is the one that was put in last but k. -/
theorem table_lookups_agree (calls : List Call) :
    (∀ name value, LookupsAgree (build calls) name value) ∧
    ∀ k, k < (build calls).datas.length →
      (insertions calls).reverse[k]? = some ((build calls).getPair (62 + k)) := by
  refine ⟨lookups_agree (build calls), ?_⟩
  intro k inside
  have bound : k < (build calls).datas.reverse.length := by rwa [List.length_reverse]
  have at_k := List.getElem?_eq_getElem bound
  rcases List.reverse_prefix.mpr (build_suffix calls) with ⟨evicted, split⟩
  rw [(get_pair_dynamic at_k).2, ← split, List.getElem?_append_left bound, at_k]

end ChatServer.Http2.DynamicTable
