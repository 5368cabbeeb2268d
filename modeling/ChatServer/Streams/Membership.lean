import ChatServer.Lib.Transition
import ChatServer.Streams.LoadBalance

/-!
# Membership follows discovery

A load balancer is meant to hold the items of the last snapshot that have the right type and a
stream. `onServiceChange` looks at ids that appear and at ids that vanish, so an item that stays
and changes its type keeps the place that it has.
-/

namespace ChatServer.Streams

set_option autoImplicit false

structure Delivery where
  domain : Str
  service : Str
  new : Snapshot
  cb : UInt64 → Bool

/-- The snapshots that were delivered last, which of their items are meant to be in rotation, and
all items that were ever added. -/
structure Discovery where
  balance : SDLoadBalance
  snapshots : Str → Str → Snapshot
  live : Str → Str → UInt64 → Bool
  added : Str → Str → List LoadBalanceItem

namespace Discovery

open SDLoadBalance

/-- An item of the right type that stays keeps its stream, one that has become such an item gets
one if it can be created, and others have none. -/
def nextLive (type : Str) (old new : Snapshot) (cb live : UInt64 → Bool) (id : UInt64) : Bool :=
  listed type new id && if listed type old id then live id else cb id

def start (type : Str) (types : Str → Option (Str → Option BalanceType))
    (defaultType : BalanceType) : Discovery :=
  ⟨⟨type, types, defaultType, fun _ => ⟨.roundRobin, ∅⟩, 0, fun _ _ => none, 0, []⟩,
    fun _ _ => ∅, fun _ _ _ => false, fun _ _ => []⟩

def deliver (discovery : Discovery) (domain service : Str) (new : Snapshot)
    (cb : UInt64 → Bool) : Discovery :=
  let balance := discovery.balance
  let old := discovery.snapshots domain service
  ⟨balance.onServiceChange domain service old new cb,
    setAt discovery.snapshots domain service new,
    setAt discovery.live domain service
      (nextLive balance.type old new cb (discovery.live domain service)),
    setAt discovery.added domain service
      (discovery.added domain service ++ balance.opened domain service old new cb)⟩

def step (discovery : Discovery) (delivery : Delivery) : Option Discovery :=
  some (discovery.deliver delivery.domain delivery.service delivery.new delivery.cb)

/-- No item that stays loses the right type while it is in rotation, or gets the right type with a
stream that can be created. -/
def Steady (discovery : Discovery) (delivery : Delivery) : Prop :=
  ∀ id ∈ delivery.new.keys,
    (discovery.snapshots delivery.domain delivery.service).lookup id ≠ none →
      if listed discovery.balance.type
          (discovery.snapshots delivery.domain delivery.service) id then
        listed discovery.balance.type delivery.new id = true ∨
          discovery.live delivery.domain delivery.service id = false
      else listed discovery.balance.type delivery.new id = false ∨ delivery.cb id = false

instance (discovery : Discovery) (delivery : Delivery) :
    Decidable (discovery.Steady delivery) :=
  List.decidableBAll _ delivery.new.keys

/-- Every load balancer holds what it is meant to hold, and what has left one was closed. -/
def Follows (discovery : Discovery) : Prop :=
  ∀ domain service,
    (∀ id, ((discovery.balance.items domain service).lookup id).isSome =
      discovery.live domain service id) ∧
    ∀ item ∈ discovery.added domain service,
      (discovery.balance.items domain service).lookup item.id = some item ∨
        item.stream ∈ discovery.balance.closed

structure Sound (discovery : Discovery) : Prop where
  registered : discovery.balance.Registered
  listed : ∀ domain service id, discovery.live domain service id = true →
    listed discovery.balance.type (discovery.snapshots domain service) id = true
  follows : discovery.Follows

variable {discovery after : Discovery} {domain service : Str} {new : Snapshot}
  {cb : UInt64 → Bool} {id : UInt64}

theorem listed_found {type : Str} {snapshot : Snapshot} (there : listed type snapshot id = true) :
    snapshot.lookup id ≠ none := by
  intro absent
  rw [SDLoadBalance.listed, absent] at there
  cases there

theorem lookup_delivered (registered : discovery.balance.Registered) (domain service : Str)
    (new : Snapshot) (cb : UInt64 → Bool) (id : UInt64) :
    (((discovery.deliver domain service new cb).balance.items domain service).lookup
      id).isSome =
    (if listed discovery.balance.type new id = true ∧
        (discovery.snapshots domain service).lookup id = none ∧ cb id = true then true
      else if listed discovery.balance.type (discovery.snapshots domain service) id = true ∧
        new.lookup id = none then false
      else ((discovery.balance.items domain service).lookup id).isSome) := by
  have changed := (on_service_change_items registered domain service
    (discovery.snapshots domain service) new cb).2.2.2 domain service
  rw [if_pos ⟨rfl, rfl⟩] at changed
  have same : (discovery.deliver domain service new cb).balance.items domain service =
      _ := changed
  rw [same]
  by_cases opens : listed discovery.balance.type new id = true ∧
      (discovery.snapshots domain service).lookup id = none ∧ cb id = true
  · rw [if_pos opens]
    have member : id ∈ (discovery.balance.opened domain service
        (discovery.snapshots domain service) new cb).map LoadBalanceItem.id :=
      mem_opened.mpr ⟨⟨opens.1, opens.2.1⟩, opens.2.2⟩
    rcases List.mem_map.mp member with ⟨item, inside, itsId⟩
    have present := LoadBalance.lookup_put_in opened_apart inside
      (LoadBalance.takeOut (removed discovery.balance.type (discovery.snapshots domain service) new)
        (discovery.balance.items domain service)).1
    rw [itsId] at present
    rw [present]
    rfl
  · have absent : ∀ item ∈ discovery.balance.opened domain service
        (discovery.snapshots domain service) new cb, item.id ≠ id := by
      intro item inside itsId
      have member := List.mem_map_of_mem (f := LoadBalanceItem.id) inside
      rw [itsId, mem_opened] at member
      exact opens ⟨member.1.1, member.1.2, member.2⟩
    rw [if_neg opens, LoadBalance.lookup_put_in_other absent, LoadBalance.lookup_take_out]
    by_cases gone : listed discovery.balance.type (discovery.snapshots domain service) id = true ∧
        new.lookup id = none
    · rw [if_pos gone, if_pos (mem_removed.mpr gone)]
      rfl
    · rw [if_neg gone, if_neg fun member => gone (mem_removed.mp member)]

theorem agrees_iff {type : Str} {old : Snapshot} {live : UInt64 → Bool}
    (was : live id = true → SDLoadBalance.listed type old id = true) :
    ((if SDLoadBalance.listed type new id = true ∧ old.lookup id = none ∧ cb id = true then true
      else if SDLoadBalance.listed type old id = true ∧ new.lookup id = none then false
      else live id) = nextLive type old new cb live id) ↔
    (new.lookup id ≠ none → old.lookup id ≠ none →
      if SDLoadBalance.listed type old id then
        SDLoadBalance.listed type new id = true ∨ live id = false
      else SDLoadBalance.listed type new id = false ∨ cb id = false) := by
  have oldFound : SDLoadBalance.listed type old id = true → old.lookup id ≠ none := listed_found
  have newFound : SDLoadBalance.listed type new id = true → new.lookup id ≠ none := listed_found
  rw [nextLive]
  generalize SDLoadBalance.listed type new id = isNew at *
  generalize SDLoadBalance.listed type old id = isOld at *
  generalize live id = isLive at *
  generalize cb id = succeeds at *
  by_cases left : new.lookup id = none
  · cases isNew with
    | true => exact absurd left (newFound rfl)
    | false => cases isOld <;> cases isLive <;> simp_all
  · by_cases came : old.lookup id = none
    · cases isOld with
      | true => exact absurd came (oldFound rfl)
      | false => cases isLive <;> cases isNew <;> cases succeeds <;> simp_all
    · cases isOld <;> cases isLive <;> cases isNew <;> cases succeeds <;> simp_all

theorem ids_delivered (sound : discovery.Sound) (domain service : Str) (new : Snapshot)
    (cb : UInt64 → Bool) :
    (∀ id, (((discovery.deliver domain service new cb).balance.items domain service).lookup
        id).isSome = (discovery.deliver domain service new cb).live domain service id) ↔
      discovery.Steady ⟨domain, service, new, cb⟩ := by
  have live : (discovery.deliver domain service new cb).live domain service =
      nextLive discovery.balance.type (discovery.snapshots domain service) new cb
        (discovery.live domain service) := set_at_here _ domain service _
  constructor
  · intro right id member stays
    have present : new.lookup id ≠ none := by
      intro absent
      exact AList.lookup_eq_none.mp absent (AList.mem_keys.mpr member)
    have agrees := right id
    rw [live, lookup_delivered sound.registered, (sound.follows domain service).1 id] at agrees
    exact (agrees_iff (sound.listed domain service id)).mp agrees present stays
  · intro steady id
    rw [live, lookup_delivered sound.registered, (sound.follows domain service).1 id]
    apply (agrees_iff (sound.listed domain service id)).mpr
    intro present stays
    have member : id ∈ new.keys := by
      by_contra absent
      exact present (AList.lookup_eq_none.mpr fun there => absent (AList.mem_keys.mp there))
    exact steady id member stays

theorem added_delivered (sound : discovery.Sound) (domain service : Str) (new : Snapshot)
    (cb : UInt64 → Bool) :
    ∀ item ∈ (discovery.deliver domain service new cb).added domain service,
      ((discovery.deliver domain service new cb).balance.items domain service).lookup item.id =
        some item ∨ item.stream ∈ (discovery.deliver domain service new cb).balance.closed := by
  have changed := on_service_change_items sound.registered domain service
    (discovery.snapshots domain service) new cb
  have items := changed.2.2.2 domain service
  rw [if_pos ⟨rfl, rfl⟩] at items
  have same : (discovery.deliver domain service new cb).balance.items domain service = _ := items
  have closed : (discovery.deliver domain service new cb).balance.closed = _ := changed.2.2.1
  have added : (discovery.deliver domain service new cb).added domain service =
      discovery.added domain service ++ discovery.balance.opened domain service
        (discovery.snapshots domain service) new cb := set_at_here _ domain service _
  intro item member
  rw [added] at member
  rw [same, closed]
  rcases List.mem_append.mp member with before | now
  · rcases (sound.follows domain service).2 item before with there | gone
    · have live : discovery.live domain service item.id = true := by
        rw [← (sound.follows domain service).1, there]
        rfl
      have old := sound.listed domain service item.id live
      have absent : ∀ other ∈ discovery.balance.opened domain service
          (discovery.snapshots domain service) new cb, other.id ≠ item.id := by
        intro other inside itsId
        have opened := List.mem_map_of_mem (f := LoadBalanceItem.id) inside
        rw [itsId, mem_opened] at opened
        exact listed_found old opened.1.2
      rw [LoadBalance.lookup_put_in_other absent, LoadBalance.lookup_take_out]
      by_cases leaves : item.id ∈ removed discovery.balance.type
          (discovery.snapshots domain service) new
      · right
        apply List.mem_append_right
        exact List.mem_map_of_mem (LoadBalance.mem_taken_out leaves there)
      · rw [if_neg leaves]
        exact Or.inl there
    · exact Or.inr (List.mem_append_left _ gone)
  · exact Or.inl (LoadBalance.lookup_put_in opened_apart now _)

theorem deliver_sound (sound : discovery.Sound) {delivery : Delivery}
    (steady : discovery.Steady delivery) :
    (discovery.deliver delivery.domain delivery.service delivery.new delivery.cb).Sound := by
  rcases delivery with ⟨domain, service, new, cb⟩
  rcases on_service_change_items sound.registered domain service
    (discovery.snapshots domain service) new cb with ⟨registered, type, closed, items⟩
  constructor
  case registered => exact registered
  case listed =>
    intro other another id live
    by_cases here : other = domain ∧ another = service
    · rw [here.1, here.2] at live ⊢
      simp only [deliver, set_at_here, type] at live ⊢
      rw [nextLive, Bool.and_eq_true] at live
      exact live.1
    · simp only [deliver, set_at_other here, type] at live ⊢
      exact sound.listed other another id live
  case follows =>
    intro other another
    by_cases here : other = domain ∧ another = service
    · rw [here.1, here.2]
      exact ⟨(ids_delivered sound domain service new cb).mpr steady,
        added_delivered sound domain service new cb⟩
    · have kept := items other another
      rw [if_neg here] at kept
      simp only [deliver, set_at_other here, kept]
      refine ⟨(sound.follows other another).1, ?_⟩
      intro item member
      rcases (sound.follows other another).2 item member with there | gone
      · exact Or.inl there
      · rw [closed]
        exact Or.inr (List.mem_append_left _ gone)

theorem start_sound (type : Str) (types : Str → Option (Str → Option BalanceType))
    (defaultType : BalanceType) : (start type types defaultType).Sound where
  registered := SDLoadBalance.registered_of_empty fun _ _ => rfl
  listed := by
    intro domain service id live
    cases live
  follows := by
    intro domain service
    refine ⟨fun _ => rfl, ?_⟩
    intro item member
    cases member

/-- Membership follows the snapshots, and every delivery keeps it so if and only if no item that
stays loses or gets the right type. -/
theorem membership_follows (type : Str) (types : Str → Option (Str → Option BalanceType))
    (defaultType : BalanceType)
    (reached : Transition.Reaches step Steady (start type types defaultType) discovery) :
    discovery.Follows ∧ ∀ delivery after, discovery.step delivery = some after →
      (after.Follows ↔ discovery.Steady delivery) := by
  have sound := Transition.invariant_of_reaches (start_sound type types defaultType) (by
    intro before delivery after sound steady taken
    cases taken
    exact deliver_sound sound steady) reached
  refine ⟨sound.follows, ?_⟩
  intro delivery after taken
  cases taken
  constructor
  · intro follows
    exact (ids_delivered sound delivery.domain delivery.service delivery.new delivery.cb).mp
      (follows delivery.domain delivery.service).1
  · intro steady
    exact (deliver_sound sound steady).follows

def snapshotOf (entries : List (UInt64 × Str)) : Snapshot :=
  entries.foldl (fun snapshot entry => snapshot.insert entry.1 ⟨entry.2⟩) ∅

/-- One item appears, one stays, one has another type, one vanishes, one has no stream. -/
theorem membership_follows_five : ∃ discovery : Discovery,
    (Transition.Reaches step Steady (start [7] (fun _ => none) .fair) discovery ∧
      (discovery.balance.items [1] [2]).keys = [4, 2] ∧ discovery.balance.closed = [1]) ∧
    discovery.Follows ∧ ∀ delivery after, discovery.step delivery = some after →
      (after.Follows ↔ discovery.Steady delivery) := by
  have reached : ∃ discovery : Discovery,
      Transition.Reaches step Steady (start [7] (fun _ => none) .fair) discovery ∧
        (discovery.balance.items [1] [2]).keys = [4, 2] ∧ discovery.balance.closed = [1] := by
    apply Transition.exists_of_run
      [⟨[1], [2], snapshotOf [(1, [7]), (2, [7]), (3, [9]), (5, [7])], fun id => id ≠ 5⟩,
        ⟨[1], [2], snapshotOf [(2, [7]), (3, [9]), (4, [7]), (5, [7])], fun _ => true⟩]
    decide +kernel
  rcases reached with ⟨discovery, reached, state⟩
  exact ⟨discovery, ⟨reached, state⟩, membership_follows [7] (fun _ => none) .fair reached⟩

theorem not_follows (apart : ((discovery.balance.items domain service).lookup id).isSome ≠
    discovery.live domain service id) : ¬discovery.Follows :=
  fun follows => apart ((follows domain service).1 id)

/-- An item that has become one of another type stays in rotation, and one that has become one of
the right type stays out. -/
theorem changed_type_missed :
    (∃ discovery : Discovery,
      Transition.Reaches step (fun _ _ => True) (start [7] (fun _ => none) .fair) discovery ∧
        ¬discovery.Follows ∧ (discovery.balance.items [1] [2]).keys = [1]) ∧
    ∃ discovery : Discovery,
      Transition.Reaches step (fun _ _ => True) (start [7] (fun _ => none) .fair) discovery ∧
        ¬discovery.Follows ∧ (discovery.balance.items [1] [2]).keys = [] := by
  have stays : ∃ discovery : Discovery,
      Transition.Reaches step (fun _ _ => True) (start [7] (fun _ => none) .fair) discovery ∧
        ((discovery.balance.items [1] [2]).lookup 1).isSome ≠ discovery.live [1] [2] 1 ∧
        (discovery.balance.items [1] [2]).keys = [1] := by
    apply Transition.exists_of_run [⟨[1], [2], snapshotOf [(1, [7])], fun _ => true⟩,
      ⟨[1], [2], snapshotOf [(1, [9])], fun _ => true⟩]
    decide +kernel
  have missing : ∃ discovery : Discovery,
      Transition.Reaches step (fun _ _ => True) (start [7] (fun _ => none) .fair) discovery ∧
        ((discovery.balance.items [1] [2]).lookup 1).isSome ≠ discovery.live [1] [2] 1 ∧
        (discovery.balance.items [1] [2]).keys = [] := by
    apply Transition.exists_of_run [⟨[1], [2], snapshotOf [(1, [9])], fun _ => true⟩,
      ⟨[1], [2], snapshotOf [(1, [7])], fun _ => true⟩]
    decide +kernel
  rcases stays with ⟨first, reached, apart, keys⟩
  rcases missing with ⟨second, reached', apart', keys'⟩
  exact ⟨⟨first, reached, not_follows apart, keys⟩, second, reached', not_follows apart', keys'⟩

end Discovery
end ChatServer.Streams
