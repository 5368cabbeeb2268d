import ChatServer.Machine
import Mathlib.Data.List.AList
import Mathlib.Logic.Function.Basic

/-!
# Load balancers over service discovery

`LoadBalance` and `SDLoadBalance` of `load_balance.cc`. Service discovery delivers a service as a
snapshot of its items, together with the one before; `onServiceChange` turns the difference into
what is added to a load balancer and what is deleted from it. `initNolock` picks valid items for
`get` out of `m_datas` and is left out, nothing here depends on it.
-/

namespace ChatServer.Streams

set_option autoImplicit false

inductive BalanceType where
  | roundRobin
  | weight
  | fair
  deriving DecidableEq

/-- What `onServiceChange` reads of an item; everything else goes to the stream callback. -/
structure ServiceItemInfo where
  type : Str
  deriving DecidableEq

abbrev Snapshot := AList fun _ : UInt64 => ServiceItemInfo

structure LoadBalanceItem where
  id : UInt64
  stream : Nat
  weight : Int
  isFair : Bool
  deriving DecidableEq

/-- `RoundRobinLoadBalance` or `WeightLoadBalance`. -/
inductive Policy where
  | roundRobin
  | weight
  deriving DecidableEq

abbrev ItemMap := AList fun _ : UInt64 => LoadBalanceItem

structure LoadBalance where
  policy : Policy
  datas : ItemMap

namespace LoadBalance

def add (lb : LoadBalance) (v : LoadBalanceItem) : LoadBalance :=
  { lb with datas := lb.datas.insert v.id v }

/-- The first loop of `update`: what is found is taken out and put into `dels`. -/
def takeOut : List UInt64 → ItemMap → ItemMap × List LoadBalanceItem
  | [], datas => (datas, [])
  | id :: rest, datas =>
      match datas.lookup id with
      | some item =>
          let (after, found) := takeOut rest (datas.erase id)
          (after, item :: found)
      | none => takeOut rest datas

def putIn (adds : List LoadBalanceItem) (datas : ItemMap) : ItemMap :=
  adds.foldl (fun datas item => datas.insert item.id item) datas

/-- `update`, with the items that it has found for `dels`. -/
def update (lb : LoadBalance) (adds : List LoadBalanceItem) (dels : List UInt64) :
    LoadBalance × List LoadBalanceItem :=
  let (datas, found) := takeOut dels lb.datas
  ({ lb with datas := putIn adds datas }, found)

theorem lookup_take_out (dels : List UInt64) : ∀ (datas : ItemMap) (id : UInt64),
    (takeOut dels datas).1.lookup id = if id ∈ dels then none else datas.lookup id := by
  induction dels with
  | nil =>
      intro datas id
      rfl
  | cons first rest induction =>
      intro datas id
      rw [takeOut]
      cases found : datas.lookup first with
      | none =>
          simp only
          rw [induction]
          by_cases same : id = first
          · rw [same, found, ite_self, ite_self]
          · simp [same]
      | some item =>
          simp only
          rw [induction]
          by_cases same : id = first
          · rw [same, AList.lookup_erase, ite_self, if_pos List.mem_cons_self]
          · rw [AList.lookup_erase_ne same]
            simp [same]

theorem mem_taken_out {dels : List UInt64} {id : UInt64} (member : id ∈ dels) :
    ∀ {datas : ItemMap} {item : LoadBalanceItem}, datas.lookup id = some item →
      item ∈ (takeOut dels datas).2 := by
  induction dels with
  | nil => cases member
  | cons first rest induction =>
      intro datas item found
      rw [takeOut]
      by_cases same : first = id
      · rw [same, found]
        exact List.mem_cons_self
      · have later : id ∈ rest := (List.mem_cons.mp member).resolve_left (Ne.symm same)
        cases there : datas.lookup first with
        | none => exact induction later found
        | some other =>
            have kept : (datas.erase first).lookup id = some item := by
              rw [AList.lookup_erase_ne (Ne.symm same)]
              exact found
            exact List.mem_cons_of_mem _ (induction later kept)

theorem lookup_put_in_other {adds : List LoadBalanceItem} {id : UInt64}
    (absent : ∀ item ∈ adds, item.id ≠ id) : ∀ datas : ItemMap,
    (putIn adds datas).lookup id = datas.lookup id := by
  induction adds with
  | nil =>
      intro datas
      rfl
  | cons first rest induction =>
      intro datas
      have later := induction fun item member => absent item (List.mem_cons_of_mem _ member)
      have other : id ≠ first.id := Ne.symm (absent first List.mem_cons_self)
      exact (later _).trans (AList.lookup_insert_ne other)

theorem lookup_put_in {adds : List LoadBalanceItem} (apart : (adds.map LoadBalanceItem.id).Nodup)
    {item : LoadBalanceItem} (member : item ∈ adds) : ∀ datas : ItemMap,
    (putIn adds datas).lookup item.id = some item := by
  induction adds with
  | nil => cases member
  | cons first rest induction =>
      intro datas
      rcases List.nodup_cons.mp apart with ⟨unseen, apart⟩
      rcases List.mem_cons.mp member with same | later
      · have absent : ∀ other ∈ rest, other.id ≠ first.id := by
          intro other inside equal
          apply unseen
          rw [← equal]
          exact List.mem_map_of_mem inside
        rw [same]
        exact (lookup_put_in_other absent _).trans (AList.lookup_insert datas)
      · exact induction apart later _

end LoadBalance

def setAt {Value : Type} (values : Str → Str → Value) (domain service : Str) (value : Value) :
    Str → Str → Value :=
  fun other another => if other = domain ∧ another = service then value else values other another

theorem set_at_here {Value : Type} (values : Str → Str → Value) (domain service : Str)
    (value : Value) : setAt values domain service value domain service = value :=
  if_pos ⟨rfl, rfl⟩

theorem set_at_other {Value : Type} {values : Str → Str → Value} {domain service : Str}
    {value : Value} {other another : Str} (apart : ¬(other = domain ∧ another = service)) :
    setAt values domain service value other another = values other another := if_neg apart

/-- Load balancers are named by their places in `objects`; `m_datas` and `m_types` are maps that are
only looked up. Streams are numbered, and `closed` holds those whose items were closed. -/
structure SDLoadBalance where
  type : Str
  types : Str → Option (Str → Option BalanceType)
  defaultType : BalanceType
  objects : Nat → LoadBalance
  created : Nat
  datas : Str → Str → Option Nat
  streams : Nat
  closed : List Nat

namespace SDLoadBalance

variable (balance : SDLoadBalance) (domain service : Str)

def all : Str := [97, 108, 108]

def getType : BalanceType :=
  match balance.types domain with
  | none => balance.defaultType
  | some services =>
      match services service with
      | none =>
          match services all with
          | some type => type
          | none => balance.defaultType
      | some type => type

def createLoadBalance (type : BalanceType) : SDLoadBalance × Nat :=
  let policy := match type with
    | .roundRobin => Policy.roundRobin
    | .weight | .fair => Policy.weight
  ({ balance with
    objects := Function.update balance.objects balance.created ⟨policy, ∅⟩
    created := balance.created + 1 }, balance.created)

/-- An item with its stream, as `onServiceChange` sets it up. -/
def createLoadBalanceItem (type : BalanceType) (id : UInt64) (stream : Nat) : LoadBalanceItem :=
  ⟨id, stream, 10000, match type with
    | .fair => true
    | .roundRobin | .weight => false⟩

/-- `m_datas[domain][service] = lb`. -/
def insert (lb : Nat) : SDLoadBalance :=
  { balance with datas := setAt balance.datas domain service (some lb) }

/-- `get` with `auto_create`, by a caller who is alone. -/
def get : SDLoadBalance × Nat :=
  match balance.datas domain service with
  | some lb => (balance, lb)
  | none =>
      let (balance, lb) := balance.createLoadBalance (balance.getType domain service)
      (balance.insert domain service lb, lb)

def update (lb : Nat) (adds : List LoadBalanceItem) (dels : List UInt64) :
    SDLoadBalance × List LoadBalanceItem :=
  let (after, found) := (balance.objects lb).update adds dels
  ({ balance with objects := Function.update balance.objects lb after }, found)

def close (items : List LoadBalanceItem) : SDLoadBalance :=
  { balance with closed := balance.closed ++ items.map LoadBalanceItem.stream }

/-- `del_infos`: items of the right type that are not in the new snapshot. -/
def removed (type : Str) (old new : Snapshot) : List UInt64 :=
  (old.entries.filter fun entry =>
    entry.2.type == type && (new.lookup entry.1).isNone).map Sigma.fst

/-- `add_values`: items of the right type that were not in the old snapshot. -/
def appeared (type : Str) (old new : Snapshot) : List (Sigma fun _ : UInt64 => ServiceItemInfo) :=
  new.entries.filter fun entry => entry.2.type == type && (old.lookup entry.1).isNone

/-- The loop over `add_values`; `cb` says for which items the stream callback returns a stream. -/
def openStreams (type : Str) (itemType : BalanceType) (cb : UInt64 → Bool) :
    List (Sigma fun _ : UInt64 => ServiceItemInfo) → Nat → List LoadBalanceItem
  | [], _ => []
  | entry :: rest, stream =>
      if entry.2.type != type then openStreams type itemType cb rest stream
      else if cb entry.1 then
        createLoadBalanceItem itemType entry.1 stream ::
          openStreams type itemType cb rest (stream + 1)
      else openStreams type itemType cb rest stream

def opened (old new : Snapshot) (cb : UInt64 → Bool) : List LoadBalanceItem :=
  openStreams balance.type (balance.getType domain service) cb (appeared balance.type old new)
    balance.streams

def onServiceChange (old new : Snapshot) (cb : UInt64 → Bool) : SDLoadBalance :=
  let adds := balance.opened domain service old new cb
  let dels := removed balance.type old new
  let balance := { balance with streams := balance.streams + adds.length }
  if adds.isEmpty && dels.isEmpty then balance
  else
    let (balance, lb) := balance.get domain service
    let (balance, found) := balance.update lb adds dels
    balance.close found

def listed (type : Str) (snapshot : Snapshot) (id : UInt64) : Bool :=
  (snapshot.lookup id).any fun info => info.type == type

variable {balance domain service} {type : Str} {old new : Snapshot} {cb : UInt64 → Bool}
  {id : UInt64}

theorem filter_listed {snapshot other : Snapshot} :
    (∃ entry ∈ snapshot.entries, (entry.2.type == type && (other.lookup entry.1).isNone) = true ∧
      entry.1 = id) ↔ listed type snapshot id = true ∧ other.lookup id = none := by
  constructor
  · intro some
    rcases some with ⟨entry, member, chosen, same⟩
    have looked : snapshot.lookup entry.1 = Option.some entry.2 := AList.mem_lookup_iff.mpr member
    rw [Bool.and_eq_true, Option.isNone_iff_eq_none] at chosen
    rw [← same, listed, looked]
    exact chosen
  · intro both
    rcases both with ⟨here, absent⟩
    rw [listed, Option.any_eq_true] at here
    rcases here with ⟨info, looked, right⟩
    refine ⟨⟨id, info⟩, AList.mem_lookup_iff.mp looked, ?_, rfl⟩
    rw [Bool.and_eq_true, Option.isNone_iff_eq_none]
    exact ⟨right, absent⟩

theorem mem_removed : id ∈ removed type old new ↔
    listed type old id = true ∧ new.lookup id = none := by
  rw [← filter_listed, removed, List.mem_map]
  simp only [List.mem_filter, and_assoc]

theorem mem_appeared : id ∈ (appeared type old new).map Sigma.fst ↔
    listed type new id = true ∧ old.lookup id = none := by
  rw [← filter_listed, appeared, List.mem_map]
  simp only [List.mem_filter, and_assoc]

theorem appeared_apart : ((appeared type old new).map Sigma.fst).Nodup :=
  new.keys_nodup.sublist (List.filter_sublist.map Sigma.fst)

theorem appeared_typed : ∀ entry ∈ appeared type old new, (entry.2.type != type) = false := by
  intro entry member
  have chosen := (List.mem_filter.mp member).2
  rw [Bool.and_eq_true] at chosen
  rw [bne, chosen.1, Bool.not_true]

/-- Streams are opened for the items for which the callback succeeds. -/
theorem open_streams_ids (type : Str) (itemType : BalanceType) (cb : UInt64 → Bool)
    {entries : List (Sigma fun _ : UInt64 => ServiceItemInfo)}
    (typed : ∀ entry ∈ entries, (entry.2.type != type) = false) : ∀ stream : Nat,
    (openStreams type itemType cb entries stream).map LoadBalanceItem.id =
      (entries.map Sigma.fst).filter cb := by
  induction entries with
  | nil =>
      intro stream
      rfl
  | cons entry rest induction =>
      intro stream
      have later := induction fun other member => typed other (List.mem_cons_of_mem _ member)
      rw [openStreams, typed entry List.mem_cons_self, List.map_cons, List.filter_cons]
      by_cases succeeds : cb entry.1 = true
      · simp only [succeeds, if_true, Bool.false_eq_true, if_false]
        exact congrArg (entry.1 :: ·) (later (stream + 1))
      · simp only [succeeds, if_false, Bool.false_eq_true]
        exact later stream

theorem opened_ids : (balance.opened domain service old new cb).map LoadBalanceItem.id =
    ((appeared balance.type old new).map Sigma.fst).filter cb :=
  open_streams_ids _ _ _ appeared_typed _

theorem opened_apart :
    ((balance.opened domain service old new cb).map LoadBalanceItem.id).Nodup := by
  rw [opened_ids]
  exact appeared_apart.filter cb

theorem mem_opened : id ∈ (balance.opened domain service old new cb).map LoadBalanceItem.id ↔
    (listed balance.type new id = true ∧ old.lookup id = none) ∧ cb id = true := by
  rw [opened_ids, List.mem_filter, mem_appeared]

def items (balance : SDLoadBalance) (domain service : Str) : ItemMap :=
  match balance.datas domain service with
  | some lb => (balance.objects lb).datas
  | none => ∅

structure Registered (balance : SDLoadBalance) : Prop where
  fresh : ∀ domain service lb, balance.datas domain service = some lb → lb < balance.created
  apart : ∀ domain service other another lb, balance.datas domain service = some lb →
    balance.datas other another = some lb → other = domain ∧ another = service

theorem registered_of_empty (empty : ∀ domain service, balance.datas domain service = none) :
    balance.Registered := by
  constructor
  · intro domain service lb found
    rw [empty] at found
    cases found
  · intro domain service other another lb found
    rw [empty] at found
    cases found

theorem create_registered (registered : balance.Registered) (type : BalanceType) :
    (balance.createLoadBalance type).1.Registered where
  fresh domain service lb found :=
    Nat.lt_succ_of_lt (registered.fresh domain service lb found)
  apart := registered.apart

theorem unstored_created (registered : balance.Registered) (domain service : Str) :
    balance.datas domain service ≠ some balance.created := by
  intro stored
  exact Nat.lt_irrefl _ (registered.fresh domain service balance.created stored)

theorem objects_create (balance : SDLoadBalance) (type : BalanceType) {lb : Nat}
    (older : lb < balance.created) :
    (balance.createLoadBalance type).1.objects lb = balance.objects lb :=
  Function.update_of_ne (Nat.ne_of_lt older) _ _

theorem empty_create (balance : SDLoadBalance) (type : BalanceType) :
    ((balance.createLoadBalance type).1.objects balance.created).datas = ∅ := by
  have made : (balance.createLoadBalance type).1.objects balance.created = ⟨_, ∅⟩ :=
    Function.update_self _ _ _
  exact congrArg LoadBalance.datas made

theorem items_create (registered : balance.Registered) (type : BalanceType)
    (domain service : Str) : (balance.createLoadBalance type).1.items domain service =
      balance.items domain service := by
  have datas : (balance.createLoadBalance type).1.datas = balance.datas := rfl
  rw [items, items, datas]
  cases stored : balance.datas domain service with
  | none => rfl
  | some lb =>
      have older := registered.fresh domain service lb stored
      exact congrArg LoadBalance.datas (objects_create balance type older)

/-- What is stored behind an insertion is what was inserted, or was there before. -/
theorem insert_cases {lb stored : Nat} {other another : Str}
    (found : (balance.insert domain service lb).datas other another = some stored) :
    (other = domain ∧ another = service ∧ stored = lb) ∨
      balance.datas other another = some stored := by
  by_cases here : other = domain ∧ another = service
  · rw [here.1, here.2] at found
    have same := (set_at_here balance.datas domain service (some lb)).symm.trans found
    exact Or.inl ⟨here.1, here.2, (Option.some.inj same).symm⟩
  · exact Or.inr ((set_at_other here).symm.trans found)

theorem insert_registered (registered : balance.Registered) {lb : Nat}
    (older : lb < balance.created)
    (unstored : ∀ domain service, balance.datas domain service ≠ some lb)
    (domain service : Str) : (balance.insert domain service lb).Registered := by
  constructor
  · intro other another stored found
    rcases insert_cases found with ⟨_, _, same⟩ | before
    · rw [same]
      exact older
    · exact registered.fresh other another stored before
  · intro one two other another stored first second
    rcases insert_cases first with ⟨one, two, same⟩ | before
    · rcases insert_cases second with ⟨other, another, _⟩ | there
      · exact ⟨other.trans one.symm, another.trans two.symm⟩
      · rw [same] at there
        exact absurd there (unstored other another)
    · rcases insert_cases second with ⟨_, _, same⟩ | there
      · rw [same] at before
        exact absurd before (unstored one two)
      · exact registered.apart one two other another stored before there

theorem items_insert (balance : SDLoadBalance) (domain service : Str) (lb : Nat)
    (other another : Str) : (balance.insert domain service lb).items other another =
      if other = domain ∧ another = service then (balance.objects lb).datas
      else balance.items other another := by
  by_cases here : other = domain ∧ another = service
  · rw [if_pos here, here.1, here.2]
    simp only [items, SDLoadBalance.insert, set_at_here]
  · rw [if_neg here]
    simp only [items, SDLoadBalance.insert, set_at_other here]

/-- A new load balancer without items, for a service that has none. -/
theorem get_new (registered : balance.Registered)
    (absent : balance.datas domain service = none) :
    ∃ after, balance.get domain service = (after, balance.created) ∧ after.Registered ∧
      after.datas domain service = some balance.created ∧
      (after.closed = balance.closed ∧ after.type = balance.type) ∧
      ∀ other another, after.items other another = balance.items other another := by
  let type := balance.getType domain service
  let made := (balance.createLoadBalance type).1
  have got : balance.get domain service =
      (made.insert domain service balance.created, balance.created) := by
    rw [get, absent]
    rfl
  refine ⟨_, got, ?_, set_at_here _ domain service _, ⟨rfl, rfl⟩, ?_⟩
  · exact insert_registered (create_registered registered type) (Nat.lt_succ_self _)
      (unstored_created registered) domain service
  · intro other another
    rw [items_insert]
    by_cases here : other = domain ∧ another = service
    · have nothing : balance.items domain service = ∅ := by
        rw [items, absent]
      rw [if_pos here, here.1, here.2, nothing]
      exact empty_create balance type
    · rw [if_neg here]
      exact items_create registered type other another

theorem get_found (registered : balance.Registered) (domain service : Str) :
    ∃ after lb, balance.get domain service = (after, lb) ∧ after.Registered ∧
      after.datas domain service = some lb ∧
      (after.closed = balance.closed ∧ after.type = balance.type) ∧
      ∀ other another, after.items other another = balance.items other another := by
  cases found : balance.datas domain service with
  | none =>
      rcases get_new registered found with ⟨after, got, kept⟩
      exact ⟨after, balance.created, got, kept⟩
  | some lb =>
      refine ⟨balance, lb, ?_, registered, found, ⟨rfl, rfl⟩, fun _ _ => rfl⟩
      rw [get, found]

/-- An update is about the items of one service. -/
theorem items_update (registered : balance.Registered) {lb : Nat}
    (found : balance.datas domain service = some lb) (adds : List LoadBalanceItem)
    (dels : List UInt64) (other another : Str) :
    (balance.update lb adds dels).1.items other another =
      if other = domain ∧ another = service then
        LoadBalance.putIn adds (LoadBalance.takeOut dels (balance.items domain service)).1
      else balance.items other another := by
  simp only [items, update]
  by_cases here : other = domain ∧ another = service
  · rw [if_pos here, here.1, here.2, found]
    simp only [Function.update_self]
    rfl
  · rw [if_neg here]
    cases there : balance.datas other another with
    | none => rfl
    | some lb' =>
        have apart : lb' ≠ lb := by
          intro same
          rw [same] at there
          exact here (registered.apart domain service other another lb found there)
        simp only [Function.update_of_ne apart]

/-- What a call of `onServiceChange` does to the items of all services. -/
theorem on_service_change_items (registered : balance.Registered) (domain service : Str)
    (old new : Snapshot) (cb : UInt64 → Bool) :
    (balance.onServiceChange domain service old new cb).Registered ∧
      (balance.onServiceChange domain service old new cb).type = balance.type ∧
      (balance.onServiceChange domain service old new cb).closed = balance.closed ++
        ((LoadBalance.takeOut (removed balance.type old new) (balance.items domain service)).2.map
          LoadBalanceItem.stream) ∧
      ∀ other another, (balance.onServiceChange domain service old new cb).items other another =
        if other = domain ∧ another = service then
          LoadBalance.putIn (balance.opened domain service old new cb)
            (LoadBalance.takeOut (removed balance.type old new)
              (balance.items domain service)).1
        else balance.items other another := by
  let adds := balance.opened domain service old new cb
  let dels := removed balance.type old new
  let opening : SDLoadBalance := { balance with streams := balance.streams + adds.length }
  have opens : opening.Registered := ⟨registered.fresh, registered.apart⟩
  by_cases nothing : (adds.isEmpty && dels.isEmpty) = true
  · have same : balance.onServiceChange domain service old new cb = opening := if_pos nothing
    rw [Bool.and_eq_true, List.isEmpty_iff, List.isEmpty_iff] at nothing
    have noAdds : balance.opened domain service old new cb = [] := nothing.1
    have noDels : removed balance.type old new = [] := nothing.2
    rw [same, noAdds, noDels]
    refine ⟨opens, rfl, (List.append_nil _).symm, ?_⟩
    intro other another
    by_cases here : other = domain ∧ another = service
    · rw [if_pos here, here.1, here.2]
      rfl
    · rw [if_neg here]
      rfl
  · rcases get_found opens domain service with ⟨got, lb, gets, known, found, ⟨closed, type⟩, kept⟩
    have same : balance.onServiceChange domain service old new cb =
        (got.update lb adds dels).1.close (got.update lb adds dels).2 := by
      rw [onServiceChange]
      exact (if_neg nothing).trans (by rw [gets])
    have before : got.items domain service = balance.items domain service := kept domain service
    have there : (got.objects lb).datas = balance.items domain service := by
      rw [← before, items, found]
    rw [same]
    refine ⟨⟨known.fresh, known.apart⟩, type, ?_, ?_⟩
    · have taken : (got.update lb adds dels).2 =
          (LoadBalance.takeOut dels (got.objects lb).datas).2 := rfl
      rw [close, taken, there]
      exact congrArg (· ++ _) closed
    · intro other another
      have updated := items_update known found adds dels other another
      rw [before, kept other another] at updated
      exact updated

end SDLoadBalance
end ChatServer.Streams
