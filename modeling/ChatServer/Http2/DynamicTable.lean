import ChatServer.Machine

/-!
# The header tables of HPACK

`dynamic_table.cc`: the static table, the dynamic table with its eviction, and the
lookups over both. New entries go to the back of `m_datas`, so the newest one has the
smallest dynamic index, 62. Sizes are `int32_t` and wrap.
-/

namespace ChatServer.Http2

set_option autoImplicit false

def ascii (text : String) : Str := text.toList.map fun c => UInt8.ofNat c.toNat

def staticHeaders : List (Str × Str) := [
    (ascii "", ascii ""),
    (ascii ":authority", ascii ""),
    (ascii ":method", ascii "GET"),
    (ascii ":method", ascii "POST"),
    (ascii ":path", ascii "/"),
    (ascii ":path", ascii "/index.html"),
    (ascii ":scheme", ascii "http"),
    (ascii ":scheme", ascii "https"),
    (ascii ":status", ascii "200"),
    (ascii ":status", ascii "204"),
    (ascii ":status", ascii "206"),
    (ascii ":status", ascii "304"),
    (ascii ":status", ascii "400"),
    (ascii ":status", ascii "404"),
    (ascii ":status", ascii "500"),
    (ascii "accept-charset", ascii ""),
    (ascii "accept-encoding", ascii "gzip, deflate"),
    (ascii "accept-language", ascii ""),
    (ascii "accept-ranges", ascii ""),
    (ascii "accept", ascii ""),
    (ascii "access-control-allow-origin", ascii ""),
    (ascii "age", ascii ""),
    (ascii "allow", ascii ""),
    (ascii "authorization", ascii ""),
    (ascii "cache-control", ascii ""),
    (ascii "content-disposition", ascii ""),
    (ascii "content-encoding", ascii ""),
    (ascii "content-language", ascii ""),
    (ascii "content-length", ascii ""),
    (ascii "content-location", ascii ""),
    (ascii "content-range", ascii ""),
    (ascii "content-type", ascii ""),
    (ascii "cookie", ascii ""),
    (ascii "date", ascii ""),
    (ascii "etag", ascii ""),
    (ascii "expect", ascii ""),
    (ascii "expires", ascii ""),
    (ascii "from", ascii ""),
    (ascii "host", ascii ""),
    (ascii "if-match", ascii ""),
    (ascii "if-modified-since", ascii ""),
    (ascii "if-none-match", ascii ""),
    (ascii "if-range", ascii ""),
    (ascii "if-unmodified-since", ascii ""),
    (ascii "last-modified", ascii ""),
    (ascii "link", ascii ""),
    (ascii "location", ascii ""),
    (ascii "max-forwards", ascii ""),
    (ascii "proxy-authenticate", ascii ""),
    (ascii "proxy-authorization", ascii ""),
    (ascii "range", ascii ""),
    (ascii "referer", ascii ""),
    (ascii "refresh", ascii ""),
    (ascii "retry-after", ascii ""),
    (ascii "server", ascii ""),
    (ascii "set-cookie", ascii ""),
    (ascii "strict-transport-security", ascii ""),
    (ascii "transfer-encoding", ascii ""),
    (ascii "user-agent", ascii ""),
    (ascii "vary", ascii ""),
    (ascii "via", ascii ""),
    (ascii "www-authenticate", ascii "")]

theorem static_headers_length : staticHeaders.length = 62 := by decide +kernel

structure DynamicTable where
  maxDataSize : Int
  dataSize : Int
  datas : List (Str × Str)
  deriving DecidableEq

namespace DynamicTable

def new : DynamicTable := ⟨4 * 1024, 0, []⟩

/-- The loop of `GetStaticHeadersPair` and of `findPair`: the first entry with this name, or
the first with name and value, which ends it. `rt` is what was found before. -/
def findLoop (name value : Str) : List (Str × Str) → Int → Int → Int × Bool
  | [], _, rt => (rt, false)
  | entry :: rest, i, rt =>
      if entry.1 = name then
        if entry.2 = value then (i, true)
        else findLoop name value rest (i + 1) (if rt = -1 then i else rt)
      else findLoop name value rest (i + 1) rt

def getStaticHeadersPair (name value : Str) : Int × Bool :=
  findLoop name value staticHeaders 0 (-1)

def findPair (table : DynamicTable) (name value : Str) : Int × Bool :=
  let p := getStaticHeadersPair name value
  if p.2 then p else findLoop name value table.datas.reverse 62 p.1

def getStaticHeaders (idx : Nat) : Str × Str := staticHeaders.getD idx ([], [])

def getPair (table : DynamicTable) (idx : Nat) : Str × Str :=
  if idx < 62 then getStaticHeaders idx
  else if idx - 62 < table.datas.length then
    table.datas.getD (table.datas.length - (idx - 62) - 1) ([], [])
  else ([], [])

def getName (table : DynamicTable) (idx : Nat) : Str := (table.getPair idx).1

def entrySize (entry : Str × Str) : Nat := entry.1.length + entry.2.length + 32

/-- The loop of `update`: entries leave at the front while the new one does not fit. -/
def evict (maxDataSize len : Int) : Int → List (Str × Str) → Int × List (Str × Str)
  | dataSize, [] => (dataSize, [])
  | dataSize, entry :: rest =>
      if maxDataSize < int32 (dataSize + len) then
        evict maxDataSize len (int32 (dataSize - entrySize entry)) rest
      else (dataSize, entry :: rest)

def update (table : DynamicTable) (name value : Str) : DynamicTable :=
  let len := int32 (entrySize (name, value))
  let (dataSize, datas) := evict table.maxDataSize len table.dataSize table.datas
  { table with dataSize := int32 (dataSize + len), datas := datas ++ [(name, value)] }

def setMaxDataSize (table : DynamicTable) (v : Int) : DynamicTable := { table with maxDataSize := v }

theorem find_loop_spec (name value : Str) (entries : List (Str × Str)) :
    ∀ i rt : Int,
      (∃ k, k < entries.length ∧ findLoop name value entries i rt = (i + k, true) ∧
        entries[k]? = some (name, value)) ∨
      findLoop name value entries i rt = (rt, false) ∨
      rt = -1 ∧ ∃ k entry, k < entries.length ∧
        findLoop name value entries i rt = (i + k, false) ∧
        entries[k]? = some entry ∧ entry.1 = name := by
  induction entries with
  | nil => exact fun i rt => .inr (.inl rfl)
  | cons entry rest induction =>
      intro i rt
      have step (k : Nat) : i + 1 + (k : Int) = i + ((k + 1 : Nat) : Int) := by omega
      rw [findLoop]
      by_cases sameName : entry.1 = name
      · rw [if_pos sameName]
        by_cases sameValue : entry.2 = value
        · rw [if_pos sameValue]
          left
          refine ⟨0, Nat.zero_lt_succ _, by simp, ?_⟩
          rw [List.getElem?_cons_zero, ← sameName, ← sameValue]
        · rw [if_neg sameValue]
          rcases induction (i + 1) (if rt = -1 then i else rt) with
            ⟨k, inside, found, at_k⟩ | found | ⟨negative, k, other, inside, found, at_k, named⟩
          · exact .inl ⟨k + 1, Nat.succ_lt_succ inside, by rw [found, step], at_k⟩
          · rw [found]
            by_cases fresh : rt = -1
            · rw [if_pos fresh]
              right; right
              exact ⟨fresh, 0, entry, Nat.zero_lt_succ _, by simp, rfl, sameName⟩
            · rw [if_neg fresh]
              exact .inr (.inl rfl)
          · by_cases fresh : rt = -1
            · right; right
              exact ⟨fresh, k + 1, other, Nat.succ_lt_succ inside, by rw [found, step], at_k, named⟩
            · rw [if_neg fresh] at negative
              exact absurd negative fresh
      · rw [if_neg sameName]
        rcases induction (i + 1) rt with
          ⟨k, inside, found, at_k⟩ | found | ⟨negative, k, other, inside, found, at_k, named⟩
        · exact .inl ⟨k + 1, Nat.succ_lt_succ inside, by rw [found, step], at_k⟩
        · exact .inr (.inl found)
        · right; right
          exact ⟨negative, k + 1, other, Nat.succ_lt_succ inside, by rw [found, step], at_k, named⟩

theorem get_pair_static {table : DynamicTable} {idx : Nat} {entry : Str × Str}
    (at_idx : staticHeaders[idx]? = some entry) : idx < 62 ∧ table.getPair idx = entry := by
  obtain ⟨inside, _⟩ := List.getElem?_eq_some_iff.mp at_idx
  rw [static_headers_length] at inside
  refine ⟨inside, ?_⟩
  rw [getPair, if_pos inside, getStaticHeaders, List.getD_eq_getElem?_getD, at_idx,
    Option.getD_some]

/-- The dynamic index counts from the newest entry. -/
theorem get_pair_dynamic {table : DynamicTable} {k : Nat} {entry : Str × Str}
    (at_k : table.datas.reverse[k]? = some entry) :
    k < table.datas.length ∧ table.getPair (62 + k) = entry := by
  obtain ⟨inside, _⟩ := List.getElem?_eq_some_iff.mp at_k
  rw [List.length_reverse] at inside
  refine ⟨inside, ?_⟩
  rw [List.getElem?_reverse inside] at at_k
  rw [getPair, if_neg (by omega), if_pos (by omega), List.getD_eq_getElem?_getD,
    show table.datas.length - (62 + k - 62) - 1 = table.datas.length - 1 - k by omega, at_k,
    Option.getD_some]

/-- What `findPair` can return: an entry with name and value, one with the name, or none that
can be written as an index. -/
inductive FindCase (table : DynamicTable) (name value : Str) : Int × Bool → Prop where
  | pair (idx : Nat) (inside : idx < 62 + table.datas.length)
      (found : table.getPair idx = (name, value)) : FindCase table name value (idx, true)
  | named (idx : Nat) (positive : 0 < idx) (inside : idx < 62 + table.datas.length)
      (found : table.getName idx = name) : FindCase table name value (idx, false)
  | fresh (i : Int) (none : i ≤ 0) : FindCase table name value (i, false)

theorem find_pair_case (table : DynamicTable) (name value : Str) :
    FindCase table name value (table.findPair name value) := by
  have dynamic (rt : Int) := find_loop_spec name value table.datas.reverse 62 rt
  have index (k : Nat) : (62 : Int) + k = ((62 + k : Nat) : Int) := by omega
  unfold findPair getStaticHeadersPair
  rcases find_loop_spec name value staticHeaders 0 (-1) with
    ⟨k, _, found, at_k⟩ | found | ⟨_, k, entry, _, found, at_k, named⟩
  · obtain ⟨inside, pair⟩ := get_pair_static at_k
    rw [found, Int.zero_add]
    exact .pair k (by omega) pair
  · rw [found]
    rcases dynamic (-1) with ⟨k, _, foundNext, at_k⟩ | foundNext |
      ⟨_, k, entry, _, foundNext, at_k, named⟩
    · obtain ⟨inside, pair⟩ := get_pair_dynamic at_k
      simp only [foundNext, index, Bool.false_eq_true, if_false]
      exact .pair (62 + k) (by omega) pair
    · simp only [foundNext, Bool.false_eq_true, if_false]
      exact .fresh (-1) (by decide)
    · obtain ⟨inside, pair⟩ := get_pair_dynamic at_k
      simp only [foundNext, index, Bool.false_eq_true, if_false]
      exact .named (62 + k) (by omega) (by omega) (by rw [getName, pair, named])
  · obtain ⟨staticInside, staticPair⟩ := @get_pair_static table _ _ at_k
    rw [found, Int.zero_add]
    rcases dynamic k with ⟨j, _, foundNext, at_j⟩ | foundNext | ⟨negative, _⟩
    · obtain ⟨inside, pair⟩ := get_pair_dynamic at_j
      simp only [foundNext, index, Bool.false_eq_true, if_false]
      exact .pair (62 + j) (by omega) pair
    · simp only [foundNext, Bool.false_eq_true, if_false]
      by_cases zero : k = 0
      · exact .fresh k (by omega)
      · exact .named k (by omega) (by omega) (by rw [getName, staticPair, named])
    · omega

def totalSize (entries : List (Str × Str)) : Nat := (entries.map entrySize).sum

theorem total_size_cons (entry : Str × Str) (rest : List (Str × Str)) :
    totalSize (entry :: rest) = entrySize entry + totalSize rest := by
  rw [totalSize, totalSize, List.map_cons, List.sum_cons]

theorem total_size_append (front back : List (Str × Str)) :
    totalSize (front ++ back) = totalSize front + totalSize back := by
  rw [totalSize, List.map_append, List.sum_append, totalSize, totalSize]

theorem total_size_ge (entries : List (Str × Str)) : 32 * entries.length ≤ totalSize entries := by
  induction entries with
  | nil => exact Nat.le_refl 0
  | cons entry rest induction =>
      rw [total_size_cons, entrySize, List.length_cons]
      omega

/-- The table of a connection whose strings are short: the size is counted exactly and stays
within 4096. -/
structure Bounded (table : DynamicTable) : Prop where
  maxEq : table.maxDataSize = 4096
  sizeEq : table.dataSize = totalSize table.datas
  within : totalSize table.datas ≤ 4096
  short : ∀ entry ∈ table.datas, entry.1.length < 512

theorem new_bounded : Bounded new :=
  ⟨rfl, rfl, Nat.zero_le _, fun _ member => absurd member List.not_mem_nil⟩

theorem bounded_length {table : DynamicTable} (bounded : Bounded table) :
    table.datas.length ≤ 128 := by
  have least := total_size_ge table.datas
  have within := bounded.within
  omega

/-- The loop removes oldest entries only, and no more of them than the new one needs. -/
theorem evict_longest {limit : Int} {len : Nat} (entries : List (Str × Str))
    (exact : totalSize entries + len < 2 ^ 31) :
    ∃ kept, evict limit len (totalSize entries) entries = ((totalSize kept : Int), kept) ∧
      kept <:+ entries ∧ (kept = [] ∨ (totalSize kept : Int) + len ≤ limit) ∧
      ∀ longer, longer <:+ entries → (totalSize longer : Int) + len ≤ limit → longer <:+ kept := by
  induction entries with
  | nil => exact ⟨[], rfl, List.suffix_refl _, .inl rfl, fun _ suffix _ => suffix⟩
  | cons entry rest induction =>
      have less := total_size_cons entry rest
      rw [evict, int32_eq (by omega) (by omega)]
      by_cases full : limit < (totalSize (entry :: rest) : Int) + len
      · have difference : (totalSize (entry :: rest) : Int) - entrySize entry = totalSize rest := by
          omega
        rw [if_pos full, difference, int32_eq (by omega) (by omega)]
        obtain ⟨kept, evicted, suffix, fits, longest⟩ := induction (by omega)
        refine ⟨kept, evicted, suffix.trans (List.suffix_cons entry rest), fits, ?_⟩
        intro longer back small
        rcases List.suffix_cons_iff.mp back with whole | inside
        · rw [whole] at small
          omega
        · exact longest longer inside small
      · rw [if_neg full]
        exact ⟨entry :: rest, rfl, List.suffix_refl _, .inr (by omega), fun _ suffix _ => suffix⟩

theorem evict_spec {len : Nat} (small : len ≤ 4096) (entries : List (Str × Str))
    (within : totalSize entries ≤ 4096) :
    ∃ kept, evict 4096 len (totalSize entries) entries = ((totalSize kept : Int), kept) ∧
      kept <:+ entries ∧ totalSize kept + len ≤ 4096 := by
  obtain ⟨kept, evicted, suffix, fits, _⟩ :=
    @evict_longest 4096 len entries (by omega)
  refine ⟨kept, evicted, suffix, ?_⟩
  rcases fits with none | fits
  · simp [none, totalSize, small]
  · omega

theorem update_bounded {table : DynamicTable} {name value : Str} (bounded : Bounded table)
    (shortName : name.length < 512) (shortValue : value.length < 512) :
    Bounded (table.update name value) := by
  have size : entrySize (name, value) ≤ 4096 := by
    change name.length + value.length + 32 ≤ 4096
    omega
  obtain ⟨kept, evicted, suffix, fits⟩ := evict_spec size table.datas bounded.within
  have single : totalSize [(name, value)] = entrySize (name, value) := by
    rw [total_size_cons, totalSize, List.map_nil, List.sum_nil, Nat.add_zero]
  have len : int32 (entrySize (name, value)) = entrySize (name, value) :=
    int32_eq (by omega) (by omega)
  have sum : int32 ((totalSize kept : Int) + entrySize (name, value)) =
      totalSize kept + entrySize (name, value) := int32_eq (by omega) (by omega)
  simp only [update, len, bounded.maxEq, bounded.sizeEq, evicted, sum]
  refine ⟨rfl, ?_, ?_, ?_⟩
  · rw [total_size_append, single]
    exact (Int.natCast_add _ _).symm
  · rw [total_size_append, single]
    exact fits
  · intro entry member
    rcases List.mem_append.mp member with old | new
    · exact bounded.short entry (suffix.subset old)
    · rw [List.mem_singleton.mp new]
      exact shortName

/-- Names that can be found by index are short. -/
theorem get_name_short {table : DynamicTable} (bounded : Bounded table) (idx : Nat) :
    (table.getName idx).length < 512 := by
  have static : ∀ entry ∈ staticHeaders, entry.1.length < 512 := by decide +kernel
  have lookup (entries : List (Str × Str)) (i : Nat)
      (short : ∀ entry ∈ entries, entry.1.length < 512) :
      (entries.getD i ([], [])).1.length < 512 := by
    rw [List.getD_eq_getElem?_getD]
    cases found : entries[i]? with
    | none => decide
    | some entry => exact short entry (List.mem_of_getElem? found)
  unfold getName getPair getStaticHeaders
  split_ifs
  · exact lookup _ _ static
  · exact lookup _ _ bounded.short
  · decide

end DynamicTable
end ChatServer.Http2
