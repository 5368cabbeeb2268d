import ChatServer.Http2.DynamicTable
import Mathlib.Data.List.Induction

/-!
# What the dynamic table holds

With a fixed limit the table is a window over the history of insertions: the longest suffix that
fits, or the last entry alone when nothing fits. With limits that change, `update` is the only
call that evicts, and it keeps an entry that is larger than the limit.
-/

namespace ChatServer.Http2.DynamicTable

set_option autoImplicit false

/-- The entries that a table with this limit keeps of its history. -/
def Window (limit : Nat) (history kept : List (Str × Str)) : Prop :=
  (∃ last, history.getLast? = some last ∧ limit < entrySize last ∧ kept = [last]) ∨
  (∀ last, history.getLast? = some last → entrySize last ≤ limit) ∧
    kept <:+ history ∧ totalSize kept ≤ limit ∧
    ∀ longer, longer <:+ history → totalSize longer ≤ limit → longer <:+ kept

theorem total_size_single (entry : Str × Str) : totalSize [entry] = entrySize entry := by
  simp [totalSize]

theorem total_size_concat (front : List (Str × Str)) (entry : Str × Str) :
    totalSize (front ++ [entry]) = totalSize front + entrySize entry := by
  rw [total_size_append, total_size_single]

/-- While the sum of the sizes is an `int`, `update` counts exactly and evicts oldest first. -/
theorem update_exact {table : DynamicTable} (entry : Str × Str)
    (counted : table.dataSize = totalSize table.datas)
    (exact : totalSize table.datas + entrySize entry < 2 ^ 31) :
    ∃ kept, table.update entry.1 entry.2 =
        ⟨table.maxDataSize, totalSize (kept ++ [entry]), kept ++ [entry]⟩ ∧
      kept <:+ table.datas ∧
      (kept = [] ∨ (totalSize (kept ++ [entry]) : Int) ≤ table.maxDataSize) ∧
      ∀ longer, longer <:+ table.datas →
        (totalSize (longer ++ [entry]) : Int) ≤ table.maxDataSize → longer <:+ kept := by
  have len : int32 (entrySize entry) = entrySize entry := int32_eq (by omega) (by omega)
  obtain ⟨kept, evicted, suffix, fits, longest⟩ :=
    @evict_longest table.maxDataSize (entrySize entry) table.datas exact
  have smaller : totalSize kept ≤ totalSize table.datas := by
    obtain ⟨front, whole⟩ := suffix
    rw [← whole, total_size_append]
    exact Nat.le_add_left _ _
  have sum : int32 ((totalSize kept : Int) + entrySize entry) = totalSize (kept ++ [entry]) := by
    rw [int32_eq (by omega) (by omega), total_size_concat, Int.natCast_add]
  refine ⟨kept, ?_, suffix, ?_, ?_⟩
  · simp only [update, len, counted, evicted, sum]
  · rcases fits with none | fits
    · exact .inl none
    · right
      rw [total_size_concat, Int.natCast_add]
      exact fits
  · intro longer back small
    rw [total_size_concat, Int.natCast_add] at small
    exact longest longer back small

theorem window_concat {limit : Nat} {history datas kept : List (Str × Str)} {entry : Str × Str}
    (window : Window limit history datas) (suffix : kept <:+ datas)
    (fits : kept = [] ∨ totalSize (kept ++ [entry]) ≤ limit)
    (longest : ∀ longer, longer <:+ datas → totalSize (longer ++ [entry]) ≤ limit →
      longer <:+ kept) :
    Window limit (history ++ [entry]) (kept ++ [entry]) := by
  have within : datas <:+ history := by
    rcases window with ⟨last, atEnd, _, only⟩ | ⟨_, suffix, _⟩
    · rw [only]
      exact List.singleton_suffix_iff_getLast?_eq_some.mpr atEnd
    · exact suffix
  by_cases large : limit < entrySize entry
  · left
    refine ⟨entry, by simp, large, ?_⟩
    rcases fits with none | fits
    · rw [none, List.nil_append]
    · rw [total_size_concat] at fits
      omega
  · right
    refine ⟨?_, ?_, ?_, ?_⟩
    · intro last atEnd
      rw [List.getLast?_concat, Option.some.injEq] at atEnd
      rw [← atEnd]
      omega
    · exact List.suffix_append_self_iff.mpr (suffix.trans within)
    · rcases fits with none | fits
      · rw [none, List.nil_append, total_size_single]
        omega
      · exact fits
    · intro longer back small
      rcases List.suffix_concat_iff.mp back with none | ⟨front, whole, inside⟩
      · rw [none]
        exact List.nil_suffix
      · rw [whole] at small ⊢
        apply List.suffix_append_self_iff.mpr
        apply longest front _ small
        rw [total_size_concat] at small
        rcases window with ⟨last, atEnd, exceeds, _⟩ | ⟨_, _, _, reach⟩
        · -- a suffix that holds the last entry is too large, so this one is empty
          rcases List.eq_nil_or_concat' front with none | ⟨before, entry, ends⟩
          · rw [none]
            exact List.nil_suffix
          · rw [ends] at inside small
            have same := List.singleton_suffix_iff_getLast?_eq_some.mp
              ((List.suffix_append before [entry]).trans inside)
            rw [atEnd, Option.some.injEq] at same
            rw [total_size_concat, ← same] at small
            omega
        · exact reach front inside (by omega)

def updates (table : DynamicTable) (history : List (Str × Str)) : DynamicTable :=
  history.foldl (fun table entry => table.update entry.1 entry.2) table

theorem updates_concat (table : DynamicTable) (history : List (Str × Str)) (entry : Str × Str) :
    table.updates (history ++ [entry]) = (table.updates history).update entry.1 entry.2 := by
  simp [updates]

theorem window_total {limit : Nat} {history kept : List (Str × Str)}
    (window : Window limit history kept) :
    totalSize kept ≤ limit ∨ ∃ last ∈ history, totalSize kept = entrySize last := by
  rcases window with ⟨last, atEnd, _, only⟩ | ⟨_, _, within, _⟩
  · right
    refine ⟨last, List.mem_of_getLast? atEnd, ?_⟩
    rw [only, total_size_single]
  · exact .inl within

theorem updates_window {limit : Nat} (bounded : limit < 2 ^ 30) (history : List (Str × Str))
    (small : ∀ entry ∈ history, entrySize entry < 2 ^ 30) :
    (updates (new.setMaxDataSize limit) history).maxDataSize = limit ∧
      (updates (new.setMaxDataSize limit) history).dataSize =
        totalSize (updates (new.setMaxDataSize limit) history).datas ∧
      Window limit history (updates (new.setMaxDataSize limit) history).datas := by
  induction history using List.reverseRecOn with
  | nil =>
      refine ⟨rfl, rfl, .inr ⟨?_, List.suffix_refl _, Nat.zero_le _, ?_⟩⟩
      · intro last atEnd
        cases atEnd
      · exact fun longer suffix _ => suffix
  | append_singleton history entry induction =>
      rw [updates_concat]
      obtain ⟨max, counted, window⟩ := induction fun old member =>
        small old (List.mem_append_left _ member)
      have fresh := small entry (List.mem_append_right _ (List.mem_singleton.mpr rfl))
      have held : totalSize (updates (new.setMaxDataSize limit) history).datas < 2 ^ 30 := by
        rcases window_total window with within | ⟨last, member, same⟩
        · omega
        · rw [same]
          exact small last (List.mem_append_left _ member)
      obtain ⟨kept, after, suffix, fits, longest⟩ := update_exact entry counted (by omega)
      rw [max] at after fits longest
      rw [after]
      simp only [Nat.cast_le] at fits longest
      exact ⟨rfl, rfl, window_concat window suffix fits longest⟩

/-- A table with a fixed limit counts what it holds, holds the window of its history, and evicts
from the front only. -/
theorem fresh_table_contents (limit : Nat) (bounded : limit < 2 ^ 30)
    (history : List (Str × Str)) (small : ∀ entry ∈ history, entrySize entry < 2 ^ 30) :
    let table := updates (new.setMaxDataSize limit) history
    table.dataSize = totalSize table.datas ∧ Window limit history table.datas ∧
      ∀ entry, entrySize entry < 2 ^ 30 → ∃ evicted kept, table.datas = evicted ++ kept ∧
        (table.update entry.1 entry.2).datas = kept ++ [entry] := by
  intro table
  obtain ⟨max, counted, window⟩ := updates_window bounded history small
  refine ⟨counted, window, ?_⟩
  intro entry fresh
  have held : totalSize table.datas < 2 ^ 30 := by
    rcases window_total window with within | ⟨last, member, same⟩
    · exact Nat.lt_of_le_of_lt within bounded
    · rw [same]
      exact small last member
  have exact : totalSize table.datas + entrySize entry < 2 ^ 31 := by omega
  obtain ⟨kept, after, ⟨evicted, whole⟩, _⟩ := update_exact entry counted exact
  refine ⟨evicted, kept, whole.symm, ?_⟩
  rw [after]

theorem fresh_table_contents_three :
    let history : List (Str × Str) := [(ascii "a", ascii "1"), (ascii "b", ascii "2"),
      (ascii "c", ascii "3")]
    let table := updates (new.setMaxDataSize 70) history
    (table.dataSize = totalSize table.datas ∧ Window 70 history table.datas) ∧
      table.datas = [(ascii "b", ascii "2"), (ascii "c", ascii "3")] := by
  intro history table
  have contents := fresh_table_contents 70 (by decide) history (by decide)
  exact ⟨⟨contents.1, contents.2.1⟩, by decide⟩

/-- What the HPACK coder and `updateSettings` call. The value of a HEADER_TABLE_SIZE item is a
`uint32_t` and reaches the table as an `int32_t`. -/
inductive Call where
  | update (name value : Str)
  | setMaxDataSize (v : UInt32)

def call (table : DynamicTable) : Call → DynamicTable
  | .update name value => table.update name value
  | .setMaxDataSize v => table.setMaxDataSize (int32 v.toNat)

/-- After the call the table is within its limit, by its counter and by its entries; an entry
above the limit has emptied it; the limit is not negative. -/
def Respects (table : DynamicTable) (next : Call) : Prop :=
  let after := table.call next
  after.dataSize ≤ after.maxDataSize ∧ (totalSize after.datas : Int) ≤ after.maxDataSize ∧
    match next with
    | .update name value => table.maxDataSize < entrySize (name, value) → after.datas = []
    | .setMaxDataSize _ => 0 ≤ after.maxDataSize

/-- A new entry fits below the limit and the sum `m_dataSize + len` is an `int`; a new limit is
an `int32_t` and not below the size of the table. -/
def Fits (table : DynamicTable) : Call → Prop
  | .update name value => (entrySize (name, value) : Int) ≤ table.maxDataSize ∧
      table.dataSize + entrySize (name, value) < 2 ^ 31
  | .setMaxDataSize v => v.toNat < 2 ^ 31 ∧ table.dataSize ≤ v.toNat

/-- Every call of a sequence has the property in the state it is made in. -/
def Always (property : DynamicTable → Call → Prop) : DynamicTable → List Call → Prop
  | _, [] => True
  | table, next :: rest => property table next ∧ Always property (table.call next) rest

structure Counted (table : DynamicTable) : Prop where
  counted : table.dataSize = totalSize table.datas
  within : table.dataSize ≤ table.maxDataSize
  bounded : table.maxDataSize < 2 ^ 31

theorem new_counted : Counted new := ⟨rfl, by decide, by decide⟩

theorem update_datas (table : DynamicTable) (name value : Str) :
    ∃ kept, (table.update name value).datas = kept ++ [(name, value)] := ⟨_, rfl⟩

theorem update_counted {table : DynamicTable} {name value : Str} (counted : Counted table)
    (fits : Fits table (.update name value)) : Counted (table.update name value) := by
  have exact := fits.2
  rw [counted.counted] at exact
  obtain ⟨kept, after, _, within, _⟩ := update_exact (name, value) counted.counted (by omega)
  rw [after]
  refine ⟨rfl, ?_, counted.bounded⟩
  rcases within with none | within
  · rw [none, List.nil_append, total_size_single]
    exact fits.1
  · exact within

theorem update_overflow {table : DynamicTable} {name value : Str} (counted : Counted table)
    (single : (entrySize (name, value) : Int) ≤ table.maxDataSize)
    (large : 2 ^ 31 ≤ table.dataSize + entrySize (name, value)) :
    table.maxDataSize < totalSize (table.update name value).datas := by
  have bounded := counted.bounded
  have within := counted.within
  have len : int32 (entrySize (name, value)) = entrySize (name, value) :=
    int32_eq (by omega) (by omega)
  have negative : int32 (table.dataSize + entrySize (name, value)) =
      table.dataSize + entrySize (name, value) - 2 ^ 32 := int32_overflow large (by omega)
  have stops : evict table.maxDataSize (entrySize (name, value)) table.dataSize table.datas =
      (table.dataSize, table.datas) := by
    cases held : table.datas with
    | nil => rfl
    | cons entry rest => rw [evict, negative, if_neg (by omega)]
  have datas : (table.update name value).datas = table.datas ++ [(name, value)] := by
    simp only [update, len, stops]
  rw [datas, total_size_concat, Int.natCast_add, ← counted.counted]
  omega

theorem respects_iff_fits {table : DynamicTable} (counted : Counted table) (next : Call) :
    Respects table next ↔ Fits table next := by
  cases next with
  | update name value =>
      constructor
      · intro ⟨_, within, empties⟩
        have single : (entrySize (name, value) : Int) ≤ table.maxDataSize := by
          by_contra large
          obtain ⟨kept, datas⟩ := update_datas table name value
          have empty := empties (by omega)
          rw [call, datas] at empty
          simp at empty
        refine ⟨single, ?_⟩
        by_contra large
        have above := update_overflow counted single (by omega)
        rw [call] at within
        have limit : (table.update name value).maxDataSize = table.maxDataSize := rfl
        omega
      · intro fits
        have after := update_counted counted fits
        refine ⟨after.within, ?_, fun large => absurd fits.1 (by omega)⟩
        rw [call, ← after.counted]
        exact after.within
  | setMaxDataSize v =>
      have size := counted.counted
      have below := v.toNat_lt
      constructor
      · intro ⟨within, _, positive⟩
        rw [call, setMaxDataSize] at within positive
        have small : v.toNat < 2 ^ 31 := by
          by_contra large
          have negative : int32 v.toNat = v.toNat - 2 ^ 32 := int32_overflow (by omega) (by omega)
          rw [negative] at positive
          simp only at positive
          omega
        rw [int32_eq (by omega) (by omega)] at within
        exact ⟨small, within⟩
      · intro ⟨small, within⟩
        rw [Respects, call, setMaxDataSize, int32_eq (by omega) (by omega)]
        simp only
        omega

theorem fits_counted {table : DynamicTable} {next : Call} (counted : Counted table)
    (fits : Fits table next) : Counted (table.call next) := by
  cases next with
  | update name value => exact update_counted counted fits
  | setMaxDataSize v =>
      obtain ⟨small, within⟩ := fits
      rw [call, setMaxDataSize, int32_eq (by omega) (by omega)]
      exact ⟨counted.counted, within, by simp only; omega⟩

theorem always_respects_iff {table : DynamicTable} (counted : Counted table)
    (calls : List Call) : Always Respects table calls ↔ Always Fits table calls := by
  induction calls generalizing table with
  | nil => exact Iff.rfl
  | cons next rest induction =>
      rw [Always, Always, respects_iff_fits counted]
      constructor
      · exact fun ⟨fits, later⟩ => ⟨fits, (induction (fits_counted counted fits)).mp later⟩
      · exact fun ⟨fits, later⟩ => ⟨fits, (induction (fits_counted counted fits)).mpr later⟩

/-- A fresh table stays within its limits exactly as long as every call fits. -/
theorem limit_respected_iff (calls : List Call) :
    Always Respects new calls ↔ Always Fits new calls :=
  always_respects_iff new_counted calls

/-- A limit that shrinks below the entries, an entry above the limit, and a limit of 2^31. -/
theorem limit_not_respected :
    ¬ Always Respects new [.update (ascii "a") (ascii "b"), .setMaxDataSize 0] ∧
      ¬ Always Respects new [.setMaxDataSize 33, .update (ascii "a") (ascii "b")] ∧
      ¬ Always Respects new [.setMaxDataSize 2147483648] := by
  refine ⟨?_, ?_, ?_⟩
  · rintro ⟨_, ⟨within, _⟩, _⟩
    exact absurd within (by decide +kernel)
  · rintro ⟨_, ⟨within, _⟩, _⟩
    exact absurd within (by decide +kernel)
  · rintro ⟨⟨within, _⟩, _⟩
    exact absurd within (by decide +kernel)

end ChatServer.Http2.DynamicTable
