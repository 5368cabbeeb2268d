import ChatServer.Lib.TaskPool
import ChatServer.Lib.Transition
import ChatServer.Streams.LoadBalance

/-!
# One load balancer for a service

`SDLoadBalance::get` looks for a load balancer under the read lock and stores one that it has
created under the write lock, without looking again. Any number of callers, and of calls of
`onServiceChange`, may be between the two.
-/

namespace ChatServer.Streams

set_option autoImplicit false

structure Changes where
  adds : List LoadBalanceItem
  dels : List UInt64

/-- Calls under way: before the lookup of `get`, behind it with a new load balancer, before `update`
and before what was deleted is closed. A call of `onServiceChange` has its changes with it. -/
inductive RegistryTask where
  | finding (domain service : Str) (changes : Option Changes)
  | inserting (domain service : Str) (lb : Nat) (changes : Option Changes)
  | updating (domain service : Str) (lb : Nat) (changes : Changes)
  | closing (items : List LoadBalanceItem)

def RegistryTask.pending : RegistryTask → List Nat
  | .inserting _ _ lb _ => [lb]
  | .finding _ _ _ | .updating _ _ _ _ | .closing _ => []

structure Obtained where
  domain : Str
  service : Str
  lb : Nat
  deriving DecidableEq

/-- `obtained` and `updates` are histories. -/
structure Registry where
  balance : SDLoadBalance
  tasks : List RegistryTask
  obtained : List Obtained
  updates : Str → Str → List Changes

/-- Callers of `get` may add items to what they have obtained. -/
inductive RegistryAction where
  | get (domain service : Str)
  | onServiceChange (domain service : Str) (old new : Snapshot) (cb : UInt64 → Bool)
  | add (place : Nat) (item : LoadBalanceItem)
  | proceed (place : Nat)

namespace Registry

open SDLoadBalance

def start (type : Str) (types : Str → Option (Str → Option BalanceType))
    (defaultType : BalanceType) : Registry :=
  ⟨⟨type, types, defaultType, fun _ => ⟨.roundRobin, ∅⟩, 0, fun _ _ => none, 0, []⟩, [], [],
    fun _ _ => []⟩

/-- The caller has its load balancer; `onServiceChange` goes on to `update`. -/
def obtain (registry : Registry) (place : Nat) (domain service : Str) (lb : Nat)
    (changes : Option Changes) : Registry :=
  { registry with
    tasks := TaskPool.replace registry.tasks place
      (changes.toList.map fun changes => .updating domain service lb changes)
    obtained := registry.obtained ++ [⟨domain, service, lb⟩] }

/-- The first part of `onServiceChange`, with the streams that it opens. -/
def change (registry : Registry) (domain service : Str) (old new : Snapshot)
    (cb : UInt64 → Bool) : Registry :=
  let balance := registry.balance
  let adds := balance.opened domain service old new cb
  let dels := removed balance.type old new
  { registry with
    balance := { balance with streams := balance.streams + adds.length }
    tasks := if adds.isEmpty && dels.isEmpty then registry.tasks
      else registry.tasks ++ [.finding domain service (some ⟨adds, dels⟩)] }

def add (registry : Registry) (domain service : Str) (lb : Nat) (item : LoadBalanceItem) :
    Registry :=
  { registry with
    balance := { registry.balance with
      objects := Function.update registry.balance.objects lb
        ((registry.balance.objects lb).add item) }
    updates := setAt registry.updates domain service
      (registry.updates domain service ++ [⟨[item], []⟩]) }

/-- The lookup of `get`, and what is created if it finds nothing. -/
def find (registry : Registry) (place : Nat) (domain service : Str) (changes : Option Changes) :
    Registry :=
  match registry.balance.datas domain service with
  | some lb => registry.obtain place domain service lb changes
  | none =>
      let (balance, lb) :=
        registry.balance.createLoadBalance (registry.balance.getType domain service)
      { registry with
        balance
        tasks := TaskPool.replace registry.tasks place [.inserting domain service lb changes] }

def update (registry : Registry) (place : Nat) (domain service : Str) (lb : Nat)
    (changes : Changes) : Registry :=
  let (balance, found) := registry.balance.update lb changes.adds changes.dels
  { registry with
    balance
    tasks := TaskPool.replace registry.tasks place [.closing found]
    updates := setAt registry.updates domain service
      (registry.updates domain service ++ [changes]) }

def proceed (registry : Registry) (place : Nat) : RegistryTask → Registry
  | .finding domain service changes => registry.find place domain service changes
  | .inserting domain service lb changes =>
      { registry with balance := registry.balance.insert domain service lb }.obtain place domain
        service lb changes
  | .updating domain service lb changes => registry.update place domain service lb changes
  | .closing items => { registry with
      balance := registry.balance.close items
      tasks := TaskPool.replace registry.tasks place [] }

def step (registry : Registry) : RegistryAction → Option Registry
  | .get domain service =>
      some { registry with tasks := registry.tasks ++ [.finding domain service none] }
  | .onServiceChange domain service old new cb => some (registry.change domain service old new cb)
  | .add place item =>
      registry.obtained[place]?.map fun caller =>
        registry.add caller.domain caller.service caller.lb item
  | .proceed place => registry.tasks[place]?.map (registry.proceed place)

def FindsVacant (registry : Registry) : RegistryTask → Prop
  | .inserting domain service _ _ => registry.balance.datas domain service = none
  | .finding _ _ _ | .updating _ _ _ _ | .closing _ => True

def Vacant (registry : Registry) : RegistryAction → Prop
  | .proceed place => ∀ task ∈ registry.tasks[place]?, registry.FindsVacant task
  | .get _ _ | .onServiceChange _ _ _ _ _ | .add _ _ => True

instance (registry : Registry) (task : RegistryTask) : Decidable (registry.FindsVacant task) :=
  match task with
  | .inserting _ _ _ _ => inferInstanceAs (Decidable (_ = _))
  | .finding _ _ _ | .updating _ _ _ _ | .closing _ => inferInstanceAs (Decidable True)

instance (registry : Registry) (action : RegistryAction) : Decidable (registry.Vacant action) :=
  match action with
  | .proceed _ => inferInstanceAs (Decidable (∀ _ ∈ _, _))
  | .get _ _ | .onServiceChange _ _ _ _ _ | .add _ _ => inferInstanceAs (Decidable True)

def applied (updates : List Changes) : ItemMap :=
  updates.foldl (fun datas changes =>
    LoadBalance.putIn changes.adds (LoadBalance.takeOut changes.dels datas).1) ∅

/-- All callers have what the registry has, with all changes that any of them has made. -/
structure Shared (registry : Registry) : Prop where
  same : ∀ caller ∈ registry.obtained,
    registry.balance.datas caller.domain caller.service = some caller.lb
  content : ∀ domain service,
    registry.balance.items domain service = applied (registry.updates domain service)

structure Sound (registry : Registry) : Prop where
  registered : registry.balance.Registered
  shared : registry.Shared
  known : ∀ domain service lb, registry.balance.datas domain service = some lb →
    ⟨domain, service, lb⟩ ∈ registry.obtained
  apart : (TaskPool.held RegistryTask.pending registry.tasks).Nodup
  unseen : ∀ lb ∈ TaskPool.held RegistryTask.pending registry.tasks,
    lb < registry.balance.created ∧ (registry.balance.objects lb).datas = ∅ ∧
      ∀ domain service, registry.balance.datas domain service ≠ some lb
  updating : ∀ domain service lb changes, .updating domain service lb changes ∈ registry.tasks →
    registry.balance.datas domain service = some lb

variable {registry after : Registry} {place lb : Nat} {domain service : Str}
  {task : RegistryTask} {changes : Option Changes}

theorem start_sound (type : Str) (types : Str → Option (Str → Option BalanceType))
    (defaultType : BalanceType) : (start type types defaultType).Sound where
  registered := SDLoadBalance.registered_of_empty fun _ _ => rfl
  shared := by
    constructor
    · intro caller member
      cases member
    · intro domain service
      rfl
  known := by
    intro domain service lb found
    cases found
  apart := List.nodup_nil
  unseen := by
    intro lb member
    cases member
  updating := by
    intro domain service lb changes member
    cases member

theorem pending_replace (apart : (TaskPool.held RegistryTask.pending registry.tasks).Nodup)
    (found : registry.tasks[place]? = some task) {more : List RegistryTask}
    (nothing : TaskPool.held RegistryTask.pending more = []) :
    (TaskPool.held RegistryTask.pending (TaskPool.replace registry.tasks place more)).Nodup ∧
      ∀ lb ∈ TaskPool.held RegistryTask.pending (TaskPool.replace registry.tasks place more),
        lb ∈ TaskPool.held RegistryTask.pending registry.tasks ∧ lb ∉ task.pending := by
  have moved := TaskPool.held_replace RegistryTask.pending found more
  rw [nothing, List.append_nil] at moved
  rcases List.nodup_append.mp (moved.nodup_iff.mpr apart) with ⟨_, nodup, disjoint⟩
  refine ⟨nodup, ?_⟩
  intro lb member
  refine ⟨moved.mem_iff.mp (List.mem_append_right _ member), ?_⟩
  intro own
  exact disjoint lb own lb member rfl

theorem no_pending (domain service : Str) (lb : Nat) (changes : Option Changes) :
    TaskPool.held RegistryTask.pending
      (changes.toList.map fun changes => .updating domain service lb changes) = [] := by
  cases changes <;> rfl

theorem updating_obtain {other another : Str} {found : Nat} {given : Changes}
    (member : .updating other another found given ∈
      (registry.obtain place domain service lb changes).tasks) :
    .updating other another found given ∈ registry.tasks ∨
      other = domain ∧ another = service ∧ found = lb := by
  rcases TaskPool.mem_replace member with kept | new
  · exact Or.inl kept
  · rcases List.mem_map.mp new with ⟨change, _, same⟩
    cases same
    exact Or.inr ⟨rfl, rfl, rfl⟩

theorem tasks_sound (sound : registry.Sound) {tasks : List RegistryTask}
    (apart : (TaskPool.held RegistryTask.pending tasks).Nodup)
    (pending : ∀ lb ∈ TaskPool.held RegistryTask.pending tasks,
      lb ∈ TaskPool.held RegistryTask.pending registry.tasks)
    (updating : ∀ domain service lb changes, .updating domain service lb changes ∈ tasks →
      registry.balance.datas domain service = some lb) :
    Sound { registry with tasks } where
  registered := sound.registered
  shared := ⟨sound.shared.same, sound.shared.content⟩
  known := sound.known
  apart := apart
  unseen lb member := sound.unseen lb (pending lb member)
  updating := updating

theorem obtain_sound (sound : registry.Sound) (found : registry.tasks[place]? = some task)
    (there : registry.balance.datas domain service = some lb) (changes : Option Changes) :
    (registry.obtain place domain service lb changes).Sound := by
  have pending := pending_replace sound.apart found (no_pending domain service lb changes)
  have updating : ∀ other another stored given, .updating other another stored given ∈
      (registry.obtain place domain service lb changes).tasks →
      registry.balance.datas other another = some stored := by
    intro other another stored given member
    rcases updating_obtain member with kept | ⟨first, second, same⟩
    · exact sound.updating other another stored given kept
    · rw [first, second, same]
      exact there
  have left := tasks_sound sound pending.1 (fun lb member => (pending.2 lb member).1) updating
  refine ⟨left.registered, ⟨?_, left.shared.content⟩, ?_, left.apart, left.unseen, updating⟩
  · intro caller member
    rcases List.mem_append.mp member with before | now
    · exact sound.shared.same caller before
    · rw [List.mem_singleton.mp now]
      exact there
  · intro other another stored here
    exact List.mem_append_left _ (sound.known other another stored here)

theorem create_sound (sound : registry.Sound)
    (found : registry.tasks[place]? = some (.finding domain service changes))
    (absent : registry.balance.datas domain service = none) :
    (registry.find place domain service changes).Sound := by
  let type := registry.balance.getType domain service
  have same : registry.find place domain service changes = { registry with
      balance := (registry.balance.createLoadBalance type).1
      tasks := TaskPool.replace registry.tasks place
        [.inserting domain service registry.balance.created changes] } := by
    rw [find, absent]
    rfl
  have moved := TaskPool.held_replace RegistryTask.pending found
    [.inserting domain service registry.balance.created changes]
  rw [same]
  constructor
  case registered => exact create_registered sound.registered type
  case shared =>
    refine ⟨sound.shared.same, ?_⟩
    intro other another
    exact (items_create sound.registered type other another).trans
      (sound.shared.content other another)
  case known => exact sound.known
  case apart =>
    apply moved.nodup_iff.mpr
    apply List.nodup_append.mpr
    refine ⟨sound.apart, List.nodup_singleton _, ?_⟩
    intro lb member other new
    rw [List.mem_singleton.mp new]
    exact Nat.ne_of_lt (sound.unseen lb member).1
  case unseen =>
    intro lb member
    rcases List.mem_append.mp (moved.mem_iff.mp member) with before | new
    · rcases sound.unseen lb before with ⟨older, empty, unstored⟩
      refine ⟨Nat.lt_succ_of_lt older, ?_, unstored⟩
      exact (congrArg LoadBalance.datas (objects_create _ type older)).trans empty
    · rw [List.mem_singleton.mp new]
      exact ⟨Nat.lt_succ_self _, empty_create registry.balance type,
        unstored_created sound.registered⟩
  case updating =>
    intro other another lb given member
    rcases TaskPool.mem_replace member with kept | new
    · exact sound.updating other another lb given kept
    · cases List.mem_singleton.mp new

theorem insert_sound (sound : registry.Sound)
    (found : registry.tasks[place]? = some (.inserting domain service lb changes))
    (absent : registry.balance.datas domain service = none) :
    (registry.proceed place (.inserting domain service lb changes)).Sound := by
  have pending := pending_replace sound.apart found (no_pending domain service lb changes)
  rcases sound.unseen lb (TaskPool.mem_held found List.mem_cons_self) with
    ⟨older, empty, unstored⟩
  have here : (registry.balance.insert domain service lb).datas domain service = some lb :=
    set_at_here registry.balance.datas domain service (some lb)
  have elsewhere : ∀ other another stored, registry.balance.datas other another = some stored →
      (registry.balance.insert domain service lb).datas other another = some stored := by
    intro other another stored there
    have apart : ¬(other = domain ∧ another = service) := by
      intro same
      rw [same.1, same.2, absent] at there
      cases there
    exact (set_at_other apart).trans there
  constructor
  case registered => exact insert_registered sound.registered older unstored domain service
  case shared =>
    constructor
    · intro caller member
      rcases List.mem_append.mp member with before | now
      · exact elsewhere _ _ _ (sound.shared.same caller before)
      · rw [List.mem_singleton.mp now]
        exact here
    · intro other another
      apply (items_insert registry.balance domain service lb other another).trans
      by_cases same : other = domain ∧ another = service
      · have nothing : registry.balance.items domain service = ∅ := by
          rw [items, absent]
        rw [if_pos same, empty, same.1, same.2, ← nothing]
        exact sound.shared.content domain service
      · rw [if_neg same]
        exact sound.shared.content other another
  case known =>
    intro other another stored there
    rcases insert_cases there with ⟨first, second, same⟩ | before
    · rw [first, second, same]
      exact List.mem_append_right _ List.mem_cons_self
    · exact List.mem_append_left _ (sound.known other another stored before)
  case apart => exact pending.1
  case unseen =>
    intro other member
    rcases pending.2 other member with ⟨before, notOwn⟩
    rcases sound.unseen other before with ⟨older, empty, unstored⟩
    refine ⟨older, empty, ?_⟩
    intro another third there
    rcases insert_cases there with ⟨_, _, same⟩ | stored
    · rw [same] at notOwn
      exact notOwn List.mem_cons_self
    · exact unstored another third stored
  case updating =>
    intro other another stored given member
    rcases updating_obtain member with kept | ⟨first, second, same⟩
    · exact elsewhere _ _ _ (sound.updating other another stored given kept)
    · rw [first, second, same]
      exact here

theorem call_sound (sound : registry.Sound) (domain service : Str) (changes : Option Changes) :
    Sound { registry with tasks := registry.tasks ++ [.finding domain service changes] } := by
  have pending : TaskPool.held RegistryTask.pending
      (registry.tasks ++ [.finding domain service changes]) =
        TaskPool.held RegistryTask.pending registry.tasks := by
    rw [TaskPool.held, List.flatMap_append]
    exact List.append_nil _
  apply tasks_sound sound
  · rw [pending]
    exact sound.apart
  · intro lb member
    rw [pending] at member
    exact member
  · intro other another lb given member
    rcases List.mem_append.mp member with before | new
    · exact sound.updating other another lb given before
    · cases List.mem_singleton.mp new

theorem leave_sound (sound : registry.Sound) (found : registry.tasks[place]? = some task)
    {more : List RegistryTask} (closing : ∀ task ∈ more, ∃ items, task = .closing items) :
    Sound { registry with tasks := TaskPool.replace registry.tasks place more } := by
  have nothing : TaskPool.held RegistryTask.pending more = [] := by
    apply List.flatMap_eq_nil_iff.mpr
    intro task member
    rcases closing task member with ⟨items, same⟩
    rw [same]
    rfl
  have pending := pending_replace sound.apart found nothing
  apply tasks_sound sound pending.1
  · intro lb member
    exact (pending.2 lb member).1
  · intro domain service lb changes member
    rcases TaskPool.mem_replace member with kept | new
    · exact sound.updating domain service lb changes kept
    · rcases closing _ new with ⟨items, same⟩
      cases same

theorem streams_sound (sound : registry.Sound) (streams : Nat) (closed : List Nat) :
    Sound { registry with balance := { registry.balance with streams, closed } } where
  registered := ⟨sound.registered.fresh, sound.registered.apart⟩
  shared := ⟨sound.shared.same, sound.shared.content⟩
  known := sound.known
  apart := sound.apart
  unseen := sound.unseen
  updating := sound.updating

theorem applied_set_at (updates : Str → Str → List Changes) (domain service : Str)
    (changes : Changes) (other another : Str) :
    applied (setAt updates domain service (updates domain service ++ [changes]) other another) =
      if other = domain ∧ another = service then LoadBalance.putIn changes.adds
        (LoadBalance.takeOut changes.dels (applied (updates domain service))).1
      else applied (updates other another) := by
  by_cases here : other = domain ∧ another = service
  · rw [if_pos here, here.1, here.2, set_at_here, applied, List.foldl_append]
    rfl
  · rw [if_neg here, set_at_other here]

theorem record_sound (sound : registry.Sound)
    (there : registry.balance.datas domain service = some lb) (changes : Changes) :
    Sound { registry with
      balance := (registry.balance.update lb changes.adds changes.dels).1
      updates := setAt registry.updates domain service
        (registry.updates domain service ++ [changes]) } where
  registered := ⟨sound.registered.fresh, sound.registered.apart⟩
  shared := by
    refine ⟨sound.shared.same, ?_⟩
    intro other another
    have recorded := applied_set_at registry.updates domain service changes other another
    rw [← sound.shared.content domain service, ← sound.shared.content other another] at recorded
    exact (items_update sound.registered there changes.adds changes.dels other another).trans
      recorded.symm
  known := sound.known
  apart := sound.apart
  unseen := by
    intro other member
    rcases sound.unseen other member with ⟨older, empty, unstored⟩
    have apart : other ≠ lb := by
      intro same
      rw [same] at unstored
      exact unstored domain service there
    refine ⟨older, ?_, unstored⟩
    exact (congrArg LoadBalance.datas (Function.update_of_ne apart _ _)).trans empty
  updating := sound.updating

theorem change_sound (sound : registry.Sound) (domain service : Str) (old new : Snapshot)
    (cb : UInt64 → Bool) : (registry.change domain service old new cb).Sound := by
  have opening := streams_sound sound (registry.balance.streams +
    (registry.balance.opened domain service old new cb).length) registry.balance.closed
  simp only [change]
  split
  · exact opening
  · exact call_sound opening domain service _

/-- Whatever goes on from a place, unless it stores a load balancer over another. -/
theorem proceed_sound (sound : registry.Sound) (found : registry.tasks[place]? = some task)
    (vacant : registry.FindsVacant task) : (registry.proceed place task).Sound := by
  cases task with
  | finding domain service changes =>
      cases stored : registry.balance.datas domain service with
      | none => exact create_sound sound found stored
      | some lb =>
          have same : registry.find place domain service changes =
              registry.obtain place domain service lb changes := by
            rw [find, stored]
          rw [proceed, same]
          exact obtain_sound sound found stored changes
  | inserting domain service lb changes => exact insert_sound sound found vacant
  | updating domain service lb changes =>
      have there := sound.updating domain service lb changes (List.mem_of_getElem? found)
      apply leave_sound (record_sound sound there changes) found
      intro task member
      exact ⟨_, List.mem_singleton.mp member⟩
  | closing items =>
      have closed := streams_sound sound registry.balance.streams
        (registry.balance.closed ++ items.map LoadBalanceItem.stream)
      apply leave_sound closed found
      intro task member
      cases member

theorem step_sound {action : RegistryAction} (sound : registry.Sound)
    (vacant : registry.Vacant action) (stepped : registry.step action = some after) :
    after.Sound := by
  cases action with
  | get domain service =>
      cases stepped
      exact call_sound sound domain service none
  | onServiceChange domain service old new cb =>
      cases stepped
      exact change_sound sound domain service old new cb
  | add place item =>
      rcases Option.map_eq_some_iff.mp stepped with ⟨caller, found, same⟩
      have there := sound.shared.same caller (List.mem_of_getElem? found)
      rw [← same]
      exact record_sound sound there ⟨[item], []⟩
  | proceed place =>
      rcases Option.map_eq_some_iff.mp stepped with ⟨task, found, same⟩
      rw [← same]
      exact proceed_sound sound found (vacant task found)

theorem overwritten_not_shared (sound : registry.Sound) {action : RegistryAction}
    (stepped : registry.step action = some after) (occupied : ¬registry.Vacant action) :
    ¬after.Shared := by
  intro shared
  apply occupied
  cases action with
  | get domain service => trivial
  | onServiceChange domain service old new cb => trivial
  | add place item => trivial
  | proceed place =>
      rcases Option.map_eq_some_iff.mp stepped with ⟨task, found, same⟩
      intro other there
      rw [Option.some.inj (there.symm.trans found)]
      cases task with
      | finding domain service changes => trivial
      | updating domain service lb changes => trivial
      | closing items => trivial
      | inserting domain service lb changes =>
          cases stored : registry.balance.datas domain service with
          | none => exact stored
          | some first =>
              have had := sound.known domain service first stored
              rw [← same] at shared
              have agreed := shared.same _ (List.mem_append_left _ had)
              have now := set_at_here registry.balance.datas domain service (some lb)
              have equal : lb = first := Option.some.inj (now.symm.trans agreed)
              have pending : lb ∈ TaskPool.held RegistryTask.pending registry.tasks :=
                TaskPool.mem_held found List.mem_cons_self
              rw [← equal] at stored
              exact absurd stored ((sound.unseen lb pending).2.2 domain service)

/-- All callers share one load balancer as long as none is stored over another, and no longer. -/
theorem one_load_balancer (type : Str) (types : Str → Option (Str → Option BalanceType))
    (defaultType : BalanceType)
    (reached : Transition.Reaches step Vacant (start type types defaultType) registry) :
    registry.Shared ∧ ∀ action after, registry.step action = some after →
      ¬registry.Vacant action → ¬after.Shared := by
  have sound := Transition.invariant_of_reaches (start_sound type types defaultType)
    (fun _ _ _ sound vacant stepped => step_sound sound vacant stepped) reached
  exact ⟨sound.shared, fun _ _ stepped occupied =>
    overwritten_not_shared sound stepped occupied⟩

/-- A caller of `get` creates a load balancer, another finds it and adds an item to it, and a
service change adds one more. -/
theorem one_load_balancer_two : ∃ registry : Registry,
    (Transition.Reaches step Vacant (start [1] (fun _ => none) .roundRobin) registry ∧
      registry.obtained = [⟨[2], [3], 0⟩, ⟨[2], [3], 0⟩, ⟨[2], [3], 0⟩] ∧
      (registry.balance.items [2] [3]).keys = [8, 7]) ∧
    registry.Shared ∧ ∀ action after, registry.step action = some after →
      ¬registry.Vacant action → ¬after.Shared := by
  have reached : ∃ registry : Registry,
      Transition.Reaches step Vacant (start [1] (fun _ => none) .roundRobin) registry ∧
      registry.obtained = [⟨[2], [3], 0⟩, ⟨[2], [3], 0⟩, ⟨[2], [3], 0⟩] ∧
      (registry.balance.items [2] [3]).keys = [8, 7] := by
    apply Transition.exists_of_run [.get [2] [3], .proceed 0, .proceed 0, .get [2] [3],
      .proceed 0, .add 1 ⟨7, 40, 1, false⟩,
      .onServiceChange [2] [3] ∅ (AList.insert 8 ⟨[1]⟩ ∅) (fun _ => true), .proceed 0,
      .proceed 0]
    decide +kernel
  rcases reached with ⟨registry, reached, state⟩
  exact ⟨registry, ⟨reached, state⟩, one_load_balancer [1] (fun _ => none) .roundRobin reached⟩

/-- Two callers find nothing. The first stores its load balancer and adds an item to it before the
second stores another one. -/
theorem second_creator_overwrites : ∃ registry : Registry,
    Transition.Reaches step (fun _ _ => True) (start [1] (fun _ => none) .roundRobin) registry ∧
      registry.obtained = [⟨[2], [3], 0⟩, ⟨[2], [3], 1⟩] ∧
      (registry.balance.objects 0).datas.keys = [7] ∧
      (registry.balance.items [2] [3]).keys = [] ∧ ¬registry.Shared := by
  have reached : ∃ registry : Registry, Transition.Reaches step (fun _ _ => True)
      (start [1] (fun _ => none) .roundRobin) registry ∧
      registry.obtained = [⟨[2], [3], 0⟩, ⟨[2], [3], 1⟩] ∧
      (registry.balance.objects 0).datas.keys = [7] ∧
      (registry.balance.items [2] [3]).keys = [] ∧ registry.balance.datas [2] [3] = some 1 := by
    apply Transition.exists_of_run [.get [2] [3], .get [2] [3], .proceed 0, .proceed 0,
      .proceed 0, .add 0 ⟨7, 40, 1, false⟩, .proceed 0]
    decide +kernel
  rcases reached with ⟨registry, reached, obtained, first, stored, second⟩
  refine ⟨registry, reached, obtained, first, stored, ?_⟩
  intro shared
  have same := shared.same ⟨[2], [3], 0⟩ (by rw [obtained]; exact List.mem_cons_self)
  rw [second] at same
  cases same

end Registry
end ChatServer.Streams
