import ChatServer.Http.HttpRequest
import ChatServer.Lib.OrderedSet

/-!
# The parameter map

`HttpRequest::MapType` is a `std::map` whose keys `CaseInsensitiveLess` compares. Its entries are
kept in the order in which an iterator goes through them.
-/

namespace ChatServer.Http

set_option autoImplicit false

open ChatServer.Http2 (cString toLower)

/-- `strcasecmp` of two C strings, of which only the sign is promised. -/
def strcasecmp : Str → Str → Int
  | [], [] => 0
  | [], _ :: _ => -1
  | _ :: _, [] => 1
  | first :: lhs, second :: rhs =>
      if toLower first = toLower second then strcasecmp lhs rhs
      else (toLower first).toNat - (toLower second).toNat

def caseInsensitiveLess (lhs rhs : Str) : Prop := strcasecmp (cString lhs) (cString rhs) < 0

instance : DecidableRel caseInsensitiveLess := fun _ _ => inferInstanceAs (Decidable (_ < _))

theorem strcasecmp_self (text : Str) : strcasecmp text text = 0 := by
  induction text with
  | nil => rfl
  | cons first text induction => rw [strcasecmp, if_pos rfl, induction]

theorem not_below_empty (first : UInt8) (text : Str) : ¬strcasecmp (first :: text) [] < 0 := by
  rw [strcasecmp]
  decide

theorem strcasecmp_trans : ∀ first second third : Str, strcasecmp first second < 0 →
    strcasecmp second third < 0 → strcasecmp first third < 0
  | [], [], _, below, _ => absurd below (by decide)
  | a :: first, [], _, below, _ => absurd below (not_below_empty a first)
  | _, b :: second, [], _, above => absurd above (not_below_empty b second)
  | [], _ :: _, _ :: _, _, _ => Int.negSucc_lt_zero 0
  | a :: first, b :: second, c :: third, below, above => by
      have distinct : ∀ {x y : UInt8}, x ≠ y → x.toNat ≠ y.toNat := fun other same =>
        other (UInt8.toNat.inj same)
      rw [strcasecmp] at below above ⊢
      by_cases one : toLower a = toLower b
      · rw [if_pos one] at below
        by_cases two : toLower b = toLower c
        · rw [if_pos two] at above
          rw [if_pos (one.trans two)]
          exact strcasecmp_trans first second third below above
        · rw [if_neg two] at above
          rwa [one, if_neg two]
      · rw [if_neg one] at below
        by_cases two : toLower b = toLower c
        · rwa [← two, if_neg one]
        · rw [if_neg two] at above
          have apart : toLower a ≠ toLower c := by
            intro same
            rw [same] at below
            omega
          rw [if_neg apart]
          omega

abbrev Param := Str × Str

def ParamLess (first second : Param) : Prop := caseInsensitiveLess first.1 second.1

instance : DecidableRel ParamLess := fun _ _ => inferInstanceAs (Decidable (_ < _))

theorem param_less_trans (first second third : Param) (below : ParamLess first second)
    (above : ParamLess second third) : ParamLess first third :=
  strcasecmp_trans _ _ _ below above

theorem param_less_irrefl {first second : Param} (same : first.1 = second.1) :
    ¬ParamLess first second := by
  rw [ParamLess, caseInsensitiveLess, same, strcasecmp_self]
  exact Int.lt_irrefl 0

structure ParamMap where
  entries : List Param
  ordered : entries.Pairwise ParamLess

namespace ParamMap

@[ext] theorem ext {params other : ParamMap} (same : params.entries = other.entries) :
    params = other := by
  cases params
  cases other
  cases same
  rfl

def empty : ParamMap := ⟨[], List.Pairwise.nil⟩

/-- `m.insert(entry)`, which leaves an entry with the same key as it is. -/
def insert (params : ParamMap) (entry : Param) : ParamMap :=
  { entries := (OrderedSet.insert ParamLess entry params.entries).1
    ordered := OrderedSet.insert_ordered param_less_trans params.ordered }

theorem modify_value_ordered {entries : List Param} (ordered : entries.Pairwise ParamLess)
    (position : Nat) (val : Str) :
    (entries.modify position fun entry => (entry.1, val)).Pairwise ParamLess := by
  have keys : (entries.modify position fun entry => (entry.1, val)).map Prod.fst =
      entries.map Prod.fst := by
    apply List.ext_getElem?
    intro place
    rw [List.getElem?_map, List.getElem?_map, List.getElem?_modify]
    cases entries[place]? with
    | none => rfl
    | some entry =>
        by_cases here : position = place
        · simp [here]
        · simp [here]
  have byKey := List.pairwise_map (f := Prod.fst) (R := caseInsensitiveLess) (l := entries)
  have again := List.pairwise_map (f := Prod.fst) (R := caseInsensitiveLess)
    (l := entries.modify position fun entry => (entry.1, val))
  rw [keys] at again
  exact again.mp (byKey.mpr ordered)

/-- `m[key] = val`. -/
def assign (params : ParamMap) (key val : Str) : ParamMap :=
  let placed := OrderedSet.insert ParamLess (key, []) params.entries
  { entries := placed.1.modify placed.2 fun entry => (entry.1, val)
    ordered := modify_value_ordered
      (OrderedSet.insert_ordered param_less_trans params.ordered) placed.2 val }

theorem insert_last {params : ParamMap} {entry : Param}
    (below : ∀ other ∈ params.entries, ParamLess other entry) :
    (params.insert entry).entries = params.entries ++ [entry] :=
  congrArg Prod.fst (OrderedSet.insert_last below)

theorem modify_last {Item : Type*} (front : List Item) (last : Item) (change : Item → Item) :
    (front ++ [last]).modify front.length change = front ++ [change last] := by
  induction front with
  | nil => rfl
  | cons item front induction =>
      rw [List.cons_append, List.length_cons, List.modify_succ_cons, induction]
      rfl

theorem assign_last {params : ParamMap} {key val : Str}
    (below : ∀ other ∈ params.entries, ParamLess other (key, val)) :
    (params.assign key val).entries = params.entries ++ [(key, val)] := by
  have last : OrderedSet.insert ParamLess (key, []) params.entries =
      (params.entries ++ [(key, [])], params.entries.length) := OrderedSet.insert_last below
  have entries : (params.assign key val).entries =
      (OrderedSet.insert ParamLess (key, []) params.entries).1.modify
        (OrderedSet.insert ParamLess (key, []) params.entries).2 fun entry => (entry.1, val) := rfl
  rw [entries, last]
  exact modify_last params.entries (key, []) _

/-- A key has one value. -/
theorem value_unique {params : ParamMap} {key val other : Str} (first : (key, val) ∈ params.entries)
    (second : (key, other) ∈ params.entries) : val = other := by
  rcases List.append_of_mem first with ⟨front, back, split⟩
  have ordered := params.ordered
  rw [split] at ordered second
  rcases List.pairwise_append.mp ordered with ⟨-, behind, across⟩
  rcases List.mem_append.mp second with before | here
  · exact absurd (across _ before (key, val) List.mem_cons_self) (param_less_irrefl rfl)
  · rcases List.mem_cons.mp here with same | later
    · exact (congrArg Prod.snd same).symm
    · exact absurd (List.rel_of_pairwise_cons behind later) (param_less_irrefl rfl)

/-- Entries that come in order are put behind each other. -/
theorem fold_ordered {step : ParamMap → Param → ParamMap}
    (last : ∀ params entry, (∀ other ∈ params.entries, ParamLess other entry) →
      (step params entry).entries = params.entries ++ [entry]) (entries : List Param) :
    ∀ {params : ParamMap}, (params.entries ++ entries).Pairwise ParamLess →
      (entries.foldl step params).entries = params.entries ++ entries := by
  induction entries with
  | nil =>
      intro params _
      exact (List.append_nil _).symm
  | cons entry entries induction =>
      intro params ordered
      have below : ∀ other ∈ params.entries, ParamLess other entry := fun other member =>
        (List.pairwise_append.mp ordered).2.2 other member entry List.mem_cons_self
      have next := last params entry below
      have split : params.entries ++ entry :: entries = params.entries ++ [entry] ++ entries := by
        rw [List.append_assoc, List.singleton_append]
      rw [split, ← next] at ordered
      rw [List.foldl_cons, induction ordered, next, split]

def insertAll (params : ParamMap) (entries : List Param) : ParamMap := entries.foldl insert params

theorem insert_all_ordered {entries : List Param} (ordered : entries.Pairwise ParamLess) :
    (empty.insertAll entries).entries = entries :=
  fold_ordered (fun _ _ => insert_last) entries ordered

theorem insert_all_mem (entries : List Param) : ∀ params : ParamMap,
    (∀ entry ∈ (params.insertAll entries).entries, entry ∈ params.entries ∨ entry ∈ entries) ∧
      ∀ entry ∈ params.entries, entry ∈ (params.insertAll entries).entries := by
  induction entries with
  | nil => exact fun params => ⟨fun entry member => Or.inl member, fun entry member => member⟩
  | cons first entries induction =>
      intro params
      have members := @OrderedSet.mem_insert Param ParamLess _ first params.entries
      rcases members with ⟨only, kept⟩
      rcases induction (params.insert first) with ⟨all, stays⟩
      constructor
      · intro entry member
        rcases all entry member with inside | later
        · rcases only entry inside with same | before
          · rw [same]
            exact Or.inr List.mem_cons_self
          · exact Or.inl before
        · exact Or.inr (List.mem_cons_of_mem first later)
      · intro entry member
        exact stays entry (kept entry member)

end ParamMap

end ChatServer.Http
