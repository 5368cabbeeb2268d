import ChatServer.Streams.ServiceDiscovery

/-!
# What a watch promises

As long as the watch of a session stands on the node of a service, the snapshot of the service is
what the node holds, or will be so when the call that has read it goes on; the load balancer follows
the snapshot. Two calls that read one node beside each other can store their snapshots in the wrong
order, so this needs that no call reads a node while another one has read it and not told it.
-/

namespace ChatServer.Streams

set_option autoImplicit false

open ChatServer.Http2 (ascii)
open ChatServer.Util

structure Names (path domain service : Str) : Prop where
  provided : path = getProvidersPath domain service
  parsed : parseDomainService path = some (domain, service)

theorem providers_path_pieces (domain service : Str) :
    [0x2F].intercalate [[], ascii "chat", domain, service, ascii "providers"] =
      getProvidersPath domain service := by
  have front : ascii "/chat/" = 0x2F :: (ascii "chat" ++ [0x2F]) := by decide
  have middle : ascii "/" = [0x2F] := by decide
  have back : ascii "/providers" = 0x2F :: ascii "providers" := by decide
  rw [getProvidersPath, front, middle, back]
  simp [List.intercalate, List.intersperse]

theorem providers_path_count (domain service : Str) :
    (getProvidersPath domain service).count 0x2F =
      4 + domain.count 0x2F + service.count 0x2F := by
  have front : (ascii "/chat/").count 0x2F = 2 := by decide
  have middle : (ascii "/").count 0x2F = 1 := by decide
  have back : (ascii "/providers").count 0x2F = 1 := by decide
  rw [getProvidersPath, List.count_append, List.count_append, List.count_append,
    List.count_append, front, middle, back]
  omega

theorem split_path {path : Str} (filled : path ≠ []) :
    ∃ pieces, split path 0x2F (UInt64.ofNat (2 ^ 64 - 1)) = .ok pieces ∧
      [0x2F].intercalate pieces = path ∧
      pieces.length = min (path.count 0x2F) (2 ^ 64 - 2) + 1 ∧
      (path.count 0x2F ≤ 2 ^ 64 - 2 → ∀ piece ∈ pieces, (0x2F : UInt8) ∉ piece) := by
  obtain ⟨pieces, done, cut⟩ := split_by_pieces (fun c => decide (c = 0x2F))
    (UInt64.ofNat (2 ^ 64 - 1)) filled
  have counted : path.countP (fun c => decide (c = 0x2F)) = path.count 0x2F := by
    simp only [List.count, beq_eq_decide]
  have room : cuts (UInt64.ofNat (2 ^ 64 - 1)) = 2 ^ 64 - 2 := by decide
  have length := cut.length
  rw [counted, room] at length
  refine ⟨pieces, done, joined_intercalate cut.joined, length, ?_⟩
  intro few
  obtain ⟨init, last, ends, count⟩ := joined_count cut.joined cut.front
  rw [counted] at count
  rw [ends, List.length_append, List.length_singleton] at length
  have none : last.countP (fun c => decide (c = 0x2F)) = 0 := by omega
  intro piece member
  rw [← any_delim_iff]
  rw [ends, List.mem_append, List.mem_singleton] at member
  rcases member with early | same
  · apply cut.front
    rwa [ends, List.dropLast_concat]
  · rw [same, ← count_zero_iff, none]

/-- What is read back of the path of a service are its names, if they have no slash. -/
theorem parse_providers {domain service other another : Str} :
    parseDomainService (getProvidersPath domain service) = some (other, another) ↔
      (0x2F ∉ domain ∧ 0x2F ∉ service) ∧ other = domain ∧ another = service := by
  have filled : getProvidersPath domain service ≠ [] := by
    intro empty
    have count := providers_path_count domain service
    rw [empty, List.count_nil] at count
    omega
  obtain ⟨pieces, done, joined, length, plain⟩ := split_path filled
  rw [providers_path_count] at length plain
  have own (plainDomain : (0x2F : UInt8) ∉ domain) (plainService : (0x2F : UInt8) ∉ service) :
      pieces = [[], ascii "chat", domain, service, ascii "providers"] := by
    rw [List.count_eq_zero.mpr plainDomain, List.count_eq_zero.mpr plainService] at length plain
    have first := List.splitOn_intercalate 0x2F (plain (by decide)) (by
      intro empty
      rw [empty] at length
      cases length)
    have second := @List.splitOn_intercalate _
      [[], ascii "chat", domain, service, ascii "providers"] _ _ 0x2F (by
        intro piece member
        simp only [List.mem_cons, List.not_mem_nil, or_false] at member
        rcases member with rfl | rfl | rfl | rfl | rfl
        · exact List.not_mem_nil
        · decide
        · exact plainDomain
        · exact plainService
        · decide) (by simp)
    rw [joined, ← providers_path_pieces, second] at first
    exact first.symm
  rw [parseDomainService, done]
  constructor
  · intro parsed
    split at parsed
    · rename_i five
      cases five
      have plainDomain : (0x2F : UInt8) ∉ domain := by
        rw [← List.count_eq_zero]
        simp only [List.length_cons, List.length_nil] at length
        omega
      have plainService : (0x2F : UInt8) ∉ service := by
        rw [← List.count_eq_zero]
        simp only [List.length_cons, List.length_nil] at length
        omega
      have same := own plainDomain plainService
      cases same
      cases parsed
      exact ⟨⟨plainDomain, plainService⟩, rfl, rfl⟩
    · cases parsed
  · rintro ⟨⟨plainDomain, plainService⟩, rfl, rfl⟩
    rw [own plainDomain plainService]

theorem names_of_parsed {path domain service : Str}
    (provided : ∃ domain service, path = getProvidersPath domain service)
    (parsed : parseDomainService path = some (domain, service)) : Names path domain service := by
  obtain ⟨first, second, same⟩ := provided
  refine ⟨?_, parsed⟩
  rw [same, parse_providers] at parsed
  rw [same, parsed.2.1, parsed.2.2]

theorem Names.unique {path domain service other another : Str} (names : Names path domain service)
    (also : Names path other another) : domain = other ∧ service = another := by
  have same := names.parsed.symm.trans also.parsed
  cases same
  exact ⟨rfl, rfl⟩

theorem Names.apart {path other domain service first second : Str}
    (names : Names path domain service) (also : Names other first second) (differ : other ≠ path) :
    ¬(first = domain ∧ second = service) := by
  rintro ⟨rfl, rfl⟩
  exact differ (also.provided.trans names.provided.symm)

namespace SdTask

def busy : SdTask → List Str
  | .storing path _ _ _ _ | .telling path _ _ _ _ _ => [path]
  | _ => []

def visits : SdTask → List Str
  | .visiting path _ | .reading path _ _ _ => [path]
  | _ => []

end SdTask

/-- Items that ZooKeeper's names make have no type. -/
def Plain (snapshot : Snapshot) : Prop := ∀ id item, snapshot.lookup id = some item → item.type = []

theorem plain_empty : Plain ∅ := by
  intro id item found
  cases found

theorem untyped_create {inetAton : Str → Option UInt32} {val : Str} {info : ServiceItem}
    (made : ServiceItem.create inetAton val [] = some info) : info.type = [] := by
  rw [ServiceItem.create] at made
  split at made
  · cases made
  · dsimp only at made
    split at made
    · cases made
    · cases made
      rfl

theorem plain_add_child {inetAton : Str → Option UInt32} {infos : Snapshot} (plain : Plain infos)
    (val : Str) : Plain (addChild inetAton infos val) := by
  rw [addChild]
  split
  · exact plain
  · rename_i info made
    intro id item found
    by_cases here : id = info.id
    · rw [here, AList.lookup_insert] at found
      cases found
      exact untyped_create made
    · rw [AList.lookup_insert_ne here] at found
      exact plain id item found

theorem plain_read_children (inetAton : Str → Option UInt32) (vals : List Str) :
    Plain (readChildren inetAton vals) := by
  rw [readChildren]
  have fold : ∀ infos : Snapshot, Plain infos → Plain (vals.foldl (addChild inetAton) infos) := by
    induction vals with
    | nil => exact fun infos plain => plain
    | cons val vals induction => exact fun infos plain => induction _ (plain_add_child plain val)
  exact fold ∅ plain_empty

/-- Which items are meant for a load balancer of a type: none of them for any other type than
the empty one. -/
theorem listed_plain {type : Str} {snapshot : Snapshot} (plain : Plain snapshot) (id : UInt64) :
    SDLoadBalance.listed type snapshot id = (decide (type = []) && decide (id ∈ snapshot)) := by
  rw [SDLoadBalance.listed]
  cases found : snapshot.lookup id with
  | none =>
      rw [decide_eq_false (AList.lookup_eq_none.mp found), Bool.and_false]
      rfl
  | some item =>
      have there : id ∈ snapshot := by
        by_contra absent
        rw [AList.lookup_eq_none.mpr absent] at found
        cases found
      rw [decide_eq_true there, Bool.and_true]
      rw [Option.any_some, plain id item found, beq_eq_decide]
      exact decide_eq_decide.mpr eq_comm

def SdTask.Shaped : SdTask → Prop
  | .loop _ => True
  | .visiting path _ => ∃ domain service, path = getProvidersPath domain service
  | .reading path domain service _ => Names path domain service
  | .storing path domain service infos _ => Names path domain service ∧ Plain infos
  | .telling path domain service old new _ => Names path domain service ∧ Plain old ∧ Plain new

structure SameBusy (before after : List SdTask) : Prop where
  mem : ∀ task, task.busy ≠ [] → (task ∈ after ↔ task ∈ before)
  held : (TaskPool.held SdTask.busy after).Perm (TaskPool.held SdTask.busy before)

section Tasks

variable {tasks more : List SdTask} {task next : SdTask} {place : Nat} {path : Str}

theorem same_busy_refl (tasks : List SdTask) : SameBusy tasks tasks :=
  ⟨fun _ _ => Iff.rfl, List.Perm.refl _⟩

theorem same_busy_append (idle : task.busy = []) : SameBusy tasks (tasks ++ [task]) := by
  constructor
  · intro other some
    rw [List.mem_append, List.mem_singleton]
    constructor
    · rintro (there | same)
      · exact there
      · rw [same] at some
        exact absurd idle some
    · exact Or.inl
  · rw [TaskPool.held, List.flatMap_append, List.flatMap_singleton, idle, List.append_nil]
    exact List.Perm.refl _

theorem same_busy_replace (found : tasks[place]? = some task) (idle : task.busy = [])
    (idleNext : ∀ next ∈ more, next.busy = []) :
    SameBusy tasks (TaskPool.replace tasks place more) := by
  have none : TaskPool.held SdTask.busy more = [] := List.flatMap_eq_nil_iff.mpr idleNext
  constructor
  · intro other some
    have moved := (TaskPool.replace_perm found more).mem_iff (a := other)
    rw [List.mem_cons, List.mem_append] at moved
    have differs : other ≠ task := by
      intro same
      rw [same] at some
      exact some idle
    have outside : other ∉ more := fun inside => some (idleNext other inside)
    rw [or_iff_right differs, or_iff_left outside] at moved
    exact moved
  · have moved := TaskPool.held_replace SdTask.busy found more
    rw [idle, none, List.append_nil, List.nil_append] at moved
    exact moved

theorem mem_replace_other {other : SdTask} (found : tasks[place]? = some task)
    (more : List SdTask) (member : other ∈ tasks) (differs : other ≠ task) :
    other ∈ TaskPool.replace tasks place more := by
  have moved := (TaskPool.replace_perm found more).mem_iff.mpr (List.mem_append_left _ member)
  exact (List.mem_cons.mp moved).resolve_left differs

theorem busy_unique (apart : (TaskPool.held SdTask.busy tasks).Nodup) {first second : SdTask}
    (one : first ∈ tasks) (two : second ∈ tasks) (here : path ∈ first.busy)
    (there : path ∈ second.busy) : first = second := by
  by_contra differ
  have disjoint := (List.nodup_flatMap.mp apart).2
  have symmetric : Std.Symm (fun first second : SdTask =>
      Function.onFun List.Disjoint SdTask.busy first second) :=
    ⟨fun _ _ apart _ inside also => apart also inside⟩
  exact disjoint.forall one two differ here there

/-- No other call holds the path that a call holds. -/
theorem busy_alone {other : SdTask} {another : Str}
    (apart : (TaskPool.held SdTask.busy tasks).Nodup) (found : tasks[place]? = some task)
    (holds : path ∈ task.busy) (kept : other ∈ tasks.eraseIdx place) (also : another ∈ other.busy) :
    another ≠ path := by
  have moved := (TaskPool.taken_perm found).flatMap_right SdTask.busy
  rw [List.flatMap_cons] at moved
  have nodup := moved.nodup_iff.mpr apart
  have inside := List.mem_flatMap.mpr ⟨other, kept, also⟩
  exact ((List.nodup_append.mp nodup).2.2 path holds another inside).symm

theorem mem_of_replace {other : SdTask} (member : other ∈ TaskPool.replace tasks place [next])
    (differs : other ≠ next) : other ∈ tasks :=
  (TaskPool.mem_replace member).resolve_right fun new => differs (List.mem_singleton.mp new)

end Tasks

namespace ZkDiscovery

variable {world : SdWorld} {self after : ZkDiscovery} {action : SdAction}

/-- Nothing is read with success, stored or told, and no watch is new. -/
structure Quiet (before after : ZkDiscovery) : Prop where
  tasks : SameBusy before.tasks after.tasks
  datas : after.datas = before.datas
  balance : after.balance = before.balance
  watched : ∀ path, after.watched path = true →
    before.watched path = true ∧ after.children path = before.children path

/-- The children of a node are read, with a watch. -/
structure Reads (world : SdWorld) (before : ZkDiscovery) (place : Nat) (path domain service : Str)
    (later : List (Str × Str)) (vals : List Str) (after : ZkDiscovery) : Prop where
  found : before.tasks[place]? = some (.reading path domain service later)
  children : before.children path = some vals
  after : after = { before with
    watched := mark before.watched path true
    answered := mark before.answered path true
    tasks := TaskPool.replace before.tasks place
      [.storing path domain service (readChildren world.inetAton vals) later] }

theorem mark_true {marks : Str → Bool} {path other : Str}
    (marked : mark marks path false other = true) : other ≠ path ∧ marks other = true := by
  rw [mark] at marked
  split at marked
  · cases marked
  · rename_i differs
    exact ⟨differs, marked⟩

theorem step_cases (taken : step world self action = some after) : Quiet self after ∨
    (∃ place path domain service later vals, (∃ answer, action = .proceed place answer) ∧
      Reads world self place path domain service later vals after) ∨
    (∃ place path domain service infos later,
      self.tasks[place]? = some (.storing path domain service infos later) ∧
      after = { self with
        datas := setAt self.datas domain service infos
        tasks := TaskPool.replace self.tasks place
          [.telling path domain service (self.datas domain service) infos later] }) ∨
    ∃ place path domain service old new later,
      self.tasks[place]? = some (.telling path domain service old new later) ∧
      after = { self with
        balance :=
          self.balance.onServiceChange domain service old new (world.created domain service)
        tasks := TaskPool.replace self.tasks place [.loop later] } := by
  cases action with
  | query domain service =>
      cases taken
      exact Or.inl ⟨same_busy_refl _, rfl, rfl, fun path watched => ⟨watched, rfl⟩⟩
  | change path names =>
      cases taken
      refine Or.inl ⟨same_busy_refl _, rfl, rfl, ?_⟩
      intro other watched
      obtain ⟨differs, before⟩ := mark_true watched
      exact ⟨before, if_neg differs⟩
  | remove path =>
      cases taken
      refine Or.inl ⟨same_busy_refl _, rfl, rfl, ?_⟩
      intro other watched
      obtain ⟨differs, before⟩ := mark_true watched
      exact ⟨before, if_neg differs⟩
  | connect | timer =>
      cases taken
      exact Or.inl ⟨same_busy_append rfl, rfl, rfl, fun path watched => ⟨watched, rfl⟩⟩
  | expire =>
      cases taken
      refine Or.inl ⟨same_busy_refl _, rfl, rfl, ?_⟩
      intro path watched
      cases watched
  | child path =>
      rw [step] at taken
      split at taken
      · cases taken
        exact Or.inl ⟨same_busy_append rfl, rfl, rfl, fun path watched => ⟨watched, rfl⟩⟩
      · cases taken
  | proceed place answer =>
      rw [step, Option.map_eq_some_iff] at taken
      obtain ⟨task, found, rfl⟩ := taken
      have quiet (next : List SdTask) (idle : task.busy = [])
          (idleNext : ∀ other ∈ next, other.busy = []) :
          Quiet self { self with tasks := TaskPool.replace self.tasks place next } :=
        ⟨same_busy_replace found idle idleNext, rfl, rfl, fun path watched => ⟨watched, rfl⟩⟩
      have one {next : SdTask} (idle : next.busy = []) : ∀ other ∈ [next], other.busy = [] := by
        intro other member
        rw [List.mem_singleton.mp member]
        exact idle
      cases task with
      | loop queries =>
          left
          cases queries with
          | nil => exact quiet [] rfl nofun
          | cons query later =>
              obtain ⟨domain, service⟩ := query
              rw [proceed]
              split
              · exact quiet _ rfl (one rfl)
              · exact quiet _ rfl (one rfl)
      | visiting path later =>
          left
          rw [proceed]
          split
          · exact quiet _ rfl (one rfl)
          · apply quiet _ rfl
            apply one
            split <;> rfl
      | reading path domain service later =>
          rw [proceed]
          split
          · exact Or.inl ⟨same_busy_replace found rfl (one rfl), rfl, rfl,
              fun path watched => ⟨watched, rfl⟩⟩
          · rename_i vals answered
            refine Or.inr (Or.inl ⟨place, path, domain, service, later, vals, ⟨answer, rfl⟩, found,
              ?_, rfl⟩)
            split at answered
            · exact answered
            · cases answered
      | storing path domain service infos later =>
          exact Or.inr (Or.inr (Or.inl ⟨place, path, domain, service, infos, later, found, rfl⟩))
      | telling path domain service old new later =>
          exact Or.inr (Or.inr (Or.inr ⟨place, path, domain, service, old, new, later, found, rfl⟩))

/-- No call reads a node while another one has read it and not told it. -/
def Serial (self : ZkDiscovery) : SdAction → Prop
  | .proceed place _ =>
      match self.tasks[place]? with
      | some (.reading path _ _ _) => path ∉ TaskPool.held SdTask.busy self.tasks
      | _ => True
  | _ => True

instance (path : Str) (tasks : List SdTask) : Decidable (path ∈ TaskPool.held SdTask.busy tasks) :=
  decidable_of_iff _ List.contains_iff_mem

instance (self : ZkDiscovery) : ∀ action, Decidable (self.Serial action)
  | .proceed place answer => by
      rw [Serial]
      split <;> infer_instance
  | .query _ _ | .change _ _ | .remove _ | .connect | .timer | .expire | .child _ =>
      isTrue trivial

structure Orderly (discovery : ZkDiscovery) : Prop where
  apart : (TaskPool.held SdTask.busy discovery.tasks).Nodup
  shaped : ∀ task ∈ discovery.tasks, task.Shaped
  events : ∀ path ∈ discovery.events, ∃ domain service, path = getProvidersPath domain service
  watched : ∀ path, discovery.watched path = true → ∃ domain service, Names path domain service
  plain : ∀ domain service, Plain (discovery.datas domain service)
  stored : ∀ path domain service old new later,
    .telling path domain service old new later ∈ discovery.tasks → discovery.datas domain service = new

theorem start_orderly (type : Str) (types : Str → Option (Str → Option BalanceType))
    (defaultType : BalanceType) (children : Str → Option (List Str)) :
    (start type types defaultType children).Orderly where
  apart := List.nodup_nil
  shaped := nofun
  events := nofun
  watched := nofun
  plain := fun _ _ => plain_empty
  stored := nofun

theorem mem_busy_storing {path domain service : Str} {infos : Snapshot}
    {later : List (Str × Str)} :
    path ∈ (SdTask.storing path domain service infos later).busy := List.mem_singleton_self path

theorem mem_busy_telling {path domain service : Str} {old new : Snapshot}
    {later : List (Str × Str)} :
    path ∈ (SdTask.telling path domain service old new later).busy := List.mem_singleton_self path

theorem shaped_proceed (orderly : self.Orderly) {place : Nat} {task : SdTask}
    (found : self.tasks[place]? = some task) (answer : Bool) :
    (∀ other ∈ (self.proceed world place answer task).tasks, other.Shaped) ∧
    ∀ path, (self.proceed world place answer task).watched path = true →
      ∃ domain service, Names path domain service := by
  have mine := orderly.shaped task (List.mem_of_getElem? found)
  have goes {next : SdTask} (shaped : next.Shaped) :
      ∀ other ∈ TaskPool.replace self.tasks place [next], other.Shaped :=
    TaskPool.forall_replace_one orderly.shaped shaped
  cases task with
  | loop queries =>
      cases queries with
      | nil => exact ⟨TaskPool.forall_replace orderly.shaped nofun, orderly.watched⟩
      | cons query later =>
          obtain ⟨domain, service⟩ := query
          rw [proceed]
          split
          · exact ⟨goes trivial, orderly.watched⟩
          · exact ⟨goes ⟨domain, service, rfl⟩, orderly.watched⟩
  | visiting path later =>
      rw [proceed]
      split
      · exact ⟨goes trivial, orderly.watched⟩
      · rename_i domain service parsed
        refine ⟨goes ?_, orderly.watched⟩
        split
        · exact names_of_parsed mine parsed
        · trivial
  | reading path domain service later =>
      rw [proceed]
      split
      · exact ⟨goes trivial, orderly.watched⟩
      · refine ⟨goes ⟨mine, plain_read_children _ _⟩, ?_⟩
        intro other marked
        dsimp only [mark] at marked
        split at marked
        · rename_i same
          rw [same]
          exact ⟨domain, service, mine⟩
        · exact orderly.watched other marked
  | storing path domain service infos later =>
      exact ⟨goes ⟨mine.1, orderly.plain domain service, mine.2⟩, orderly.watched⟩
  | telling path domain service old new later => exact ⟨goes trivial, orderly.watched⟩

theorem events_proceed (self : ZkDiscovery) (place : Nat) (answer : Bool) (task : SdTask) :
    (self.proceed world place answer task).events = self.events := by
  cases task with
  | loop queries =>
      cases queries with
      | nil => rfl
      | cons query later =>
          rw [proceed]
          split <;> rfl
  | visiting path later =>
      rw [proceed]
      split <;> rfl
  | reading path domain service later =>
      rw [proceed]
      split <;> rfl
  | storing path domain service infos later => rfl
  | telling path domain service old new later => rfl

theorem shaped_step (orderly : self.Orderly) (taken : step world self action = some after) :
    (∀ task ∈ after.tasks, task.Shaped) ∧
    (∀ path ∈ after.events, ∃ domain service, path = getProvidersPath domain service) ∧
    ∀ path, after.watched path = true → ∃ domain service, Names path domain service := by
  have joins {next : SdTask} (shaped : next.Shaped) :
      ∀ task ∈ self.tasks ++ [next], task.Shaped := by
    intro task member
    rcases List.mem_append.mp member with there | new
    · exact orderly.shaped task there
    · rw [List.mem_singleton.mp new]
      exact shaped
  cases action with
  | query domain service =>
      cases taken
      exact ⟨orderly.shaped, orderly.events, orderly.watched⟩
  | change path names =>
      cases taken
      refine ⟨orderly.shaped, ?_, fun other watched => orderly.watched other (mark_true watched).2⟩
      intro other member
      dsimp only at member
      split at member
      · rename_i watched
        rcases List.mem_append.mp member with there | new
        · exact orderly.events other there
        · rw [List.mem_singleton.mp new]
          obtain ⟨domain, service, names⟩ := orderly.watched path watched
          exact ⟨domain, service, names.provided⟩
      · exact orderly.events other member
  | remove path =>
      cases taken
      exact ⟨orderly.shaped, orderly.events,
        fun other watched => orderly.watched other (mark_true watched).2⟩
  | connect | timer =>
      cases taken
      exact ⟨joins trivial, orderly.events, orderly.watched⟩
  | expire =>
      cases taken
      exact ⟨orderly.shaped, orderly.events, nofun⟩
  | child path =>
      rw [step] at taken
      split at taken
      · rename_i fired
        cases taken
        exact ⟨joins (orderly.events path (List.contains_iff_mem.mp fired)),
          fun other member => orderly.events other (List.mem_of_mem_erase member), orderly.watched⟩
      · cases taken
  | proceed place answer =>
      rw [step, Option.map_eq_some_iff] at taken
      obtain ⟨task, found, rfl⟩ := taken
      obtain ⟨shaped, watched⟩ := @shaped_proceed world self orderly place task found answer
      rw [events_proceed]
      exact ⟨shaped, orderly.events, watched⟩

/-- The node is read by no call that has not told it yet. -/
theorem serial_free {place : Nat} {path domain service : Str} {later : List (Str × Str)}
    {vals : List Str} (serial : self.Serial action)
    (proceeds : ∃ answer, action = .proceed place answer)
    (reads : Reads world self place path domain service later vals after) :
    path ∉ TaskPool.held SdTask.busy self.tasks := by
  obtain ⟨answer, rfl⟩ := proceeds
  rw [Serial, reads.found] at serial
  exact serial

theorem apart_step (orderly : self.Orderly) (serial : self.Serial action)
    (taken : step world self action = some after) :
    (TaskPool.held SdTask.busy after.tasks).Nodup := by
  obtain quiet | ⟨place, path, domain, service, later, vals, proceeds, reads⟩ |
    ⟨place, path, domain, service, infos, later, found, rfl⟩ |
    ⟨place, path, domain, service, old, new, later, found, rfl⟩ := step_cases taken
  · exact quiet.tasks.held.nodup_iff.mpr orderly.apart
  · have free := serial_free serial proceeds reads
    have moved := TaskPool.held_replace SdTask.busy reads.found
      [.storing path domain service (readChildren world.inetAton vals) later]
    rw [reads.after]
    apply moved.nodup_iff.mpr
    exact List.nodup_append.mpr ⟨orderly.apart, List.nodup_singleton path, by
      intro first inside second also same
      rw [same, List.mem_singleton.mp also] at inside
      exact free inside⟩
  · have moved := TaskPool.held_replace SdTask.busy found
      [.telling path domain service (self.datas domain service) infos later]
    have same := (List.perm_append_comm.trans moved.symm)
    exact ((List.perm_append_left_iff [path]).mp same).nodup_iff.mp orderly.apart
  · have moved := TaskPool.held_replace SdTask.busy found [.loop later]
    have nodup := moved.nodup_iff.mpr (by
      rw [show TaskPool.held SdTask.busy [SdTask.loop later] = [] from rfl, List.append_nil]
      exact orderly.apart)
    exact (List.nodup_append.mp nodup).2.1

theorem stored_step (orderly : self.Orderly) (taken : step world self action = some after) :
    (∀ domain service, Plain (after.datas domain service)) ∧
    ∀ path domain service old new later,
      .telling path domain service old new later ∈ after.tasks →
        after.datas domain service = new := by
  obtain quiet | ⟨place, path, domain, service, later, vals, proceeds, reads⟩ |
    ⟨place, path, domain, service, infos, later, found, rfl⟩ |
    ⟨place, path, domain, service, old, new, later, found, rfl⟩ := step_cases taken
  · rw [quiet.datas]
    refine ⟨orderly.plain, ?_⟩
    intro path domain service old new later member
    exact orderly.stored path domain service old new later
      ((quiet.tasks.mem _ (List.ne_nil_of_mem mem_busy_telling)).mp member)
  · rw [reads.after]
    refine ⟨orderly.plain, ?_⟩
    intro other first second old new rest member
    exact orderly.stored other first second old new rest (mem_of_replace member fun equal => by cases equal)
  · have mine := orderly.shaped _ (List.mem_of_getElem? found)
    constructor
    · intro first second
      by_cases here : first = domain ∧ second = service
      · rw [here.1, here.2]
        simp only [set_at_here]
        exact mine.2
      · simp only [set_at_other here]
        exact orderly.plain first second
    · intro other first second old new rest member
      rcases List.mem_append.mp member with kept | added
      · have there := List.mem_of_mem_eraseIdx kept
        have theirs := (orderly.shaped _ there).1
        have differ : other ≠ path :=
          busy_alone orderly.apart found mem_busy_storing kept mem_busy_telling
        simp only [set_at_other (mine.1.apart theirs differ)]
        exact orderly.stored other first second old new rest there
      · cases List.mem_singleton.mp added
        simp only [set_at_here]
  · refine ⟨orderly.plain, ?_⟩
    intro other first second before behind rest member
    exact orderly.stored other first second before behind rest (mem_of_replace member fun equal => by cases equal)

theorem orderly_step (orderly : self.Orderly) (serial : self.Serial action)
    (taken : step world self action = some after) : after.Orderly := by
  obtain ⟨shaped, events, watched⟩ := shaped_step orderly taken
  obtain ⟨plain, stored⟩ := stored_step orderly taken
  exact ⟨apart_step orderly serial taken, shaped, events, watched, plain, stored⟩

/-- A node that is watched is there; the call that has read it stores what it holds, and without
such a call this is stored already. -/
def Fresh (world : SdWorld) (discovery : ZkDiscovery) : Prop :=
  ∀ path, discovery.watched path = true → ∃ names, discovery.children path = some names ∧
    (∀ domain service infos later, .storing path domain service infos later ∈ discovery.tasks →
      infos = readChildren world.inetAton names) ∧
    ∀ domain service, Names path domain service →
      (∀ infos later, .storing path domain service infos later ∉ discovery.tasks) →
        discovery.datas domain service = readChildren world.inetAton names

theorem fresh_step (orderly : self.Orderly) (fresh : Fresh world self)
    (serial : self.Serial action) (taken : step world self action = some after) :
    Fresh world after := by
  obtain quiet | ⟨place, path, domain, service, later, vals, proceeds, reads⟩ |
    ⟨place, path, domain, service, infos, later, found, rfl⟩ |
    ⟨place, path, domain, service, old, new, later, found, rfl⟩ := step_cases taken
  · intro path watched
    obtain ⟨before, same⟩ := quiet.watched path watched
    obtain ⟨names, children, storing, stored⟩ := fresh path before
    refine ⟨names, same.trans children, ?_, ?_⟩
    · intro domain service infos later member
      exact storing domain service infos later
        ((quiet.tasks.mem _ (List.ne_nil_of_mem mem_busy_storing)).mp member)
    · intro domain service known none
      rw [quiet.datas]
      apply stored domain service known
      intro infos later member
      exact none infos later
        ((quiet.tasks.mem _ (List.ne_nil_of_mem mem_busy_storing)).mpr member)
  · have free := serial_free serial proceeds reads
    rw [reads.after]
    intro other marked
    by_cases here : other = path
    · rw [here]
      refine ⟨vals, reads.children, ?_, ?_⟩
      · intro first second infos rest member
        rcases TaskPool.mem_replace member with there | new
        · exact absurd (List.mem_flatMap.mpr ⟨_, there, mem_busy_storing⟩) free
        · cases List.mem_singleton.mp new
          rfl
      · intro first second known none
        have mine := orderly.shaped _ (List.mem_of_getElem? reads.found)
        obtain ⟨rfl, rfl⟩ := Names.unique known mine
        exact absurd (List.mem_append_right _ (List.mem_singleton_self _)) (none _ later)
    · dsimp only [mark] at marked
      rw [if_neg here] at marked
      obtain ⟨names, children, storing, stored⟩ := fresh other marked
      refine ⟨names, children, ?_, ?_⟩
      · intro first second infos rest member
        rcases TaskPool.mem_replace member with there | new
        · exact storing first second infos rest there
        · cases List.mem_singleton.mp new
          exact absurd rfl here
      · intro first second known none
        apply stored first second known
        intro infos rest member
        exact none infos rest (mem_replace_other reads.found _ member nofun)
  · have mine := (orderly.shaped _ (List.mem_of_getElem? found)).1
    intro other watched
    obtain ⟨names, children, storing, stored⟩ := fresh other watched
    refine ⟨names, children, ?_, ?_⟩
    · intro first second others rest member
      exact storing first second others rest (mem_of_replace member fun equal => by cases equal)
    · intro first second known none
      by_cases here : other = path
      · rw [here] at known
        obtain ⟨rfl, rfl⟩ := Names.unique known mine
        simp only [set_at_here]
        apply storing _ _ infos later
        rw [here]
        exact List.mem_of_getElem? found
      · simp only [set_at_other (mine.apart known here)]
        apply stored first second known
        intro others rest member
        apply none others rest
        apply mem_replace_other found _ member
        intro same
        cases same
        exact here rfl
  · intro other watched
    obtain ⟨names, children, storing, stored⟩ := fresh other watched
    refine ⟨names, children, ?_, ?_⟩
    · intro first second infos rest member
      exact storing first second infos rest (mem_of_replace member fun equal => by cases equal)
    · intro first second known none
      apply stored first second known
      intro infos rest member
      exact none infos rest (mem_replace_other found _ member nofun)

/-- `told` is what the callback was told. It lags behind what is stored by the calls that have
stored and not told yet. -/
structure Told (world : SdWorld) (type : Str) (discovery : ZkDiscovery) (told : Discovery) :
    Prop where
  sound : told.Sound
  balance : told.balance = discovery.balance
  typed : told.balance.type = type
  plain : ∀ domain service, Plain (told.snapshots domain service)
  telling : ∀ path domain service old new later,
    .telling path domain service old new later ∈ discovery.tasks →
      told.snapshots domain service = old
  silent : ∀ domain service,
    (∀ path old new later, .telling path domain service old new later ∉ discovery.tasks) →
      told.snapshots domain service = discovery.datas domain service
  live : ∀ domain service id, told.live domain service id =
    (SDLoadBalance.listed type (told.snapshots domain service) id &&
      world.created domain service id)

theorem start_told (world : SdWorld) (type : Str)
    (types : Str → Option (Str → Option BalanceType)) (defaultType : BalanceType)
    (children : Str → Option (List Str)) :
    Told world type (start type types defaultType children)
      (Discovery.start type types defaultType) where
  sound := Discovery.start_sound type types defaultType
  balance := rfl
  typed := rfl
  plain := fun _ _ => plain_empty
  telling := nofun
  silent := fun _ _ _ => rfl
  live := fun _ _ _ => rfl

/-- Snapshots without types never change the side of an item. -/
theorem steady_plain {told : Discovery} {domain service : Str} {new : Snapshot}
    {cb : UInt64 → Bool} (old : Plain (told.snapshots domain service)) (plain : Plain new) :
    told.Steady ⟨domain, service, new, cb⟩ := by
  intro id member stays
  dsimp only at member stays ⊢
  have there : id ∈ told.snapshots domain service := by
    by_contra absent
    exact stays (AList.lookup_eq_none.mpr absent)
  rw [listed_plain old, listed_plain plain, decide_eq_true there,
    decide_eq_true (AList.mem_keys.mpr member), Bool.and_true]
  cases decide (told.balance.type = []) with
  | true => exact Or.inl rfl
  | false => exact Or.inl rfl

theorem told_tells {told : Discovery} {type : Str} (orderly : self.Orderly)
    (known : Told world type self told) {place : Nat} {path domain service : Str}
    {old new : Snapshot} {later : List (Str × Str)}
    (found : self.tasks[place]? = some (.telling path domain service old new later)) :
    Told world type
      { self with
        balance :=
          self.balance.onServiceChange domain service old new (world.created domain service)
        tasks := TaskPool.replace self.tasks place [.loop later] }
      (told.deliver domain service new (world.created domain service)) := by
  have member := List.mem_of_getElem? found
  obtain ⟨names, plainOld, plainNew⟩ := orderly.shaped _ member
  have before := known.telling path domain service old new later member
  have steady := @steady_plain told domain service new (world.created domain service)
    (known.plain domain service) plainNew
  have changed := SDLoadBalance.on_service_change_items known.sound.registered domain service
    (told.snapshots domain service) new (world.created domain service)
  have alone {other : Str} {first second : Snapshot} {rest : List (Str × Str)}
      {some another : Str}
      (there : .telling other some another first second rest ∈
        TaskPool.replace self.tasks place [.loop later]) :
      .telling other some another first second rest ∈ self.tasks ∧
        ¬(some = domain ∧ another = service) := by
    rcases List.mem_append.mp there with kept | added
    · have inside := List.mem_of_mem_eraseIdx kept
      have differ := busy_alone orderly.apart found mem_busy_telling kept mem_busy_telling
      exact ⟨inside, names.apart (orderly.shaped _ inside).1 differ⟩
    · cases List.mem_singleton.mp added
  constructor
  case sound => exact Discovery.deliver_sound known.sound steady
  case balance =>
    rw [Discovery.deliver, before, known.balance]
  case typed => exact changed.2.1.trans known.typed
  case plain =>
    intro some another
    by_cases here : some = domain ∧ another = service
    · rw [here.1, here.2, Discovery.deliver]
      simp only [set_at_here]
      exact plainNew
    · rw [Discovery.deliver]
      simp only [set_at_other here]
      exact known.plain some another
  case telling =>
    intro other some another first second rest there
    obtain ⟨inside, apart⟩ := alone there
    rw [Discovery.deliver]
    simp only [set_at_other apart]
    exact known.telling other some another first second rest inside
  case silent =>
    intro some another none
    by_cases here : some = domain ∧ another = service
    · rw [here.1, here.2, Discovery.deliver]
      simp only [set_at_here]
      exact (orderly.stored path domain service old new later member).symm
    · rw [Discovery.deliver]
      simp only [set_at_other here]
      apply known.silent some another
      intro other first second rest inside
      apply none other first second rest
      apply mem_replace_other found _ inside
      intro same
      cases same
      exact here ⟨rfl, rfl⟩
  case live =>
    intro some another id
    by_cases here : some = domain ∧ another = service
    · rw [here.1, here.2, Discovery.deliver]
      simp only [set_at_here]
      rw [Discovery.nextLive, known.typed, known.live]
      cases SDLoadBalance.listed type new id <;>
        cases SDLoadBalance.listed type (told.snapshots domain service) id <;> rfl
    · rw [Discovery.deliver]
      simp only [set_at_other here]
      exact known.live some another id

theorem told_step {told : Discovery} {type : Str} (orderly : self.Orderly)
    (known : Told world type self told) (taken : step world self action = some after) :
    ∃ told, Told world type after told := by
  obtain quiet | ⟨place, path, domain, service, later, vals, proceeds, reads⟩ |
    ⟨place, path, domain, service, infos, later, found, rfl⟩ |
    ⟨place, path, domain, service, old, new, later, found, rfl⟩ := step_cases taken
  · refine ⟨told, known.sound, known.balance.trans quiet.balance.symm, known.typed, known.plain, ?_,
      ?_, known.live⟩
    · intro path domain service old new later member
      exact known.telling path domain service old new later
        ((quiet.tasks.mem _ (List.ne_nil_of_mem mem_busy_telling)).mp member)
    · intro domain service none
      rw [quiet.datas]
      apply known.silent domain service
      intro path old new later member
      exact none path old new later
        ((quiet.tasks.mem _ (List.ne_nil_of_mem mem_busy_telling)).mpr member)
  · rw [reads.after]
    refine ⟨told, known.sound, known.balance, known.typed, known.plain, ?_, ?_, known.live⟩
    · intro other first second old new rest member
      exact known.telling other first second old new rest (mem_of_replace member fun equal => by cases equal)
    · intro first second none
      apply known.silent first second
      intro other old new rest member
      exact none other old new rest (mem_replace_other reads.found _ member nofun)
  · have mine := (orderly.shaped _ (List.mem_of_getElem? found)).1
    have untold : ∀ other old new rest,
        SdTask.telling other domain service old new rest ∉ self.tasks := by
      intro other old new rest member
      have theirs := (orderly.shaped _ member).1
      have same : other = path := theirs.provided.trans mine.provided.symm
      rw [same] at member
      cases busy_unique orderly.apart member (List.mem_of_getElem? found) mem_busy_telling
        mem_busy_storing
    have before := known.silent domain service untold
    refine ⟨told, known.sound, known.balance, known.typed, known.plain, ?_, ?_, known.live⟩
    · intro other first second old new rest member
      rcases TaskPool.mem_replace member with there | added
      · exact known.telling other first second old new rest there
      · cases List.mem_singleton.mp added
        exact before
    · intro first second none
      by_cases here : first = domain ∧ second = service
      · rw [here.1, here.2] at none
        exact absurd (List.mem_append_right _ (List.mem_singleton_self _))
          (none path (self.datas domain service) infos later)
      · simp only [set_at_other here]
        apply known.silent first second
        intro other old new rest member
        exact none other old new rest (mem_replace_other found _ member nofun)
  · exact ⟨_, told_tells orderly known found⟩

/-- A service that was read in this session is watched, or is going to be read again. -/
structure Due (discovery : ZkDiscovery) : Prop where
  asked : ∀ path domain service later, .reading path domain service later ∈ discovery.tasks →
    discovery.queried domain service = true
  known : ∀ path, discovery.answered path = true →
    ∃ domain service, Names path domain service ∧ discovery.queried domain service = true
  again : ∀ path, discovery.answered path = true → discovery.watched path = true ∨
    path ∈ discovery.events ∨ ∃ task ∈ discovery.tasks, path ∈ task.visits

theorem due_proceed (orderly : self.Orderly) (due : self.Due) {place : Nat} {task : SdTask}
    (found : self.tasks[place]? = some task) (answer : Bool) :
    (self.proceed world place answer task).Due := by
  have asked {more : List SdTask}
      (others : ∀ path domain service later, .reading path domain service later ∈ more →
        self.queried domain service = true) :
      ∀ path domain service later,
        .reading path domain service later ∈ TaskPool.replace self.tasks place more →
          self.queried domain service = true := by
    intro path domain service later member
    rcases TaskPool.mem_replace member with there | new
    · exact due.asked path domain service later there
    · exact others path domain service later new
  have again (more : List SdTask) {path : Str} (answered : self.answered path = true)
      (passes : path ∈ task.visits → ∃ next ∈ more, path ∈ next.visits) :
      self.watched path = true ∨ path ∈ self.events ∨
        ∃ other ∈ TaskPool.replace self.tasks place more, path ∈ other.visits := by
    rcases due.again path answered with watched | fired | ⟨other, member, visits⟩
    · exact Or.inl watched
    · exact Or.inr (Or.inl fired)
    · right
      right
      by_cases same : other = task
      · rw [same] at visits
        obtain ⟨next, new, also⟩ := passes visits
        exact ⟨next, List.mem_append_right _ new, also⟩
      · exact ⟨other, mem_replace_other found more member same, visits⟩
  have idle (more : List SdTask) (still : task.visits = [])
      (others : ∀ path domain service later, .reading path domain service later ∉ more) :
      Due { self with tasks := TaskPool.replace self.tasks place more } := by
    refine ⟨asked fun path domain service later member => absurd member
      (others path domain service later), due.known, fun path answered => again more answered ?_⟩
    intro visits
    rw [still] at visits
    cases visits
  cases task with
  | loop queries =>
      cases queries with
      | nil => exact idle [] rfl (fun _ _ _ _ => List.not_mem_nil)
      | cons query later =>
          obtain ⟨domain, service⟩ := query
          rw [proceed]
          split
          · exact idle _ rfl (by simp)
          · exact idle _ rfl (by simp)
  | visiting path later =>
      rw [proceed]
      split
      · rename_i unread
        refine ⟨asked (by simp), due.known, fun other answered => again _ answered ?_⟩
        intro visits
        rw [List.mem_singleton.mp visits] at answered
        obtain ⟨domain, service, names, _⟩ := due.known path answered
        rw [names.parsed] at unread
        cases unread
      · rename_i domain service parsed
        refine ⟨asked ?_, due.known, fun other answered => again _ answered ?_⟩
        · intro other first second rest member
          split at member
          · rename_i queried
            cases List.mem_singleton.mp member
            exact queried
          · cases List.mem_singleton.mp member
        · intro visits
          rw [List.mem_singleton.mp visits] at answered ⊢
          obtain ⟨first, second, names, queried⟩ := due.known path answered
          have same := names.parsed.symm.trans parsed
          cases same
          rw [if_pos queried]
          exact ⟨_, List.mem_singleton_self _, List.mem_singleton_self path⟩
  | reading path domain service later =>
      have mine := List.mem_of_getElem? found
      have names : Names path domain service := orderly.shaped _ mine
      rw [proceed]
      split
      · refine ⟨asked (by simp), ?_, ?_⟩
        · intro other answered
          exact due.known other (mark_true answered).2
        · intro other answered
          obtain ⟨differs, before⟩ := mark_true answered
          exact again _ before fun visits => absurd (List.mem_singleton.mp visits) differs
      · refine ⟨asked (by simp), ?_, ?_⟩
        · intro other answered
          dsimp only [mark] at answered
          split at answered
          · rename_i same
            rw [same]
            exact ⟨domain, service, names, due.asked path domain service later mine⟩
          · exact due.known other answered
        · intro other answered
          dsimp only [mark] at answered ⊢
          split at answered
          · rename_i same
            exact Or.inl (if_pos same)
          · rename_i differs
            rw [if_neg differs]
            exact again _ answered fun visits => absurd (List.mem_singleton.mp visits) differs
  | storing path domain service infos later =>
      exact ⟨asked (by simp), due.known, fun other answered => again _ answered nofun⟩
  | telling path domain service old new later =>
      exact ⟨asked (by simp), due.known, fun other answered => again _ answered nofun⟩

theorem due_step (orderly : self.Orderly) (due : self.Due)
    (taken : step world self action = some after) : after.Due := by
  have joins {next : SdTask} (others : ∀ path domain service later,
      next ≠ .reading path domain service later) :
      (∀ path domain service later, .reading path domain service later ∈ self.tasks ++ [next] →
        self.queried domain service = true) ∧
      ∀ path, self.answered path = true → self.watched path = true ∨ path ∈ self.events ∨
        ∃ task ∈ self.tasks ++ [next], path ∈ task.visits := by
    constructor
    · intro path domain service later member
      rcases List.mem_append.mp member with there | new
      · exact due.asked path domain service later there
      · exact absurd (List.mem_singleton.mp new).symm (others path domain service later)
    · intro path answered
      rcases due.again path answered with watched | fired | ⟨task, member, visits⟩
      · exact Or.inl watched
      · exact Or.inr (Or.inl fired)
      · exact Or.inr (Or.inr ⟨task, List.mem_append_left _ member, visits⟩)
  cases action with
  | query domain service =>
      cases taken
      have grows {first second : Str} (asked : self.queried first second = true) :
          ZkDiscovery.queried { self with queryInfos := (domain, service) :: self.queryInfos }
            first second = true := by
        simp only [queried, Bool.or_eq_true, decide_eq_true_eq] at asked ⊢
        exact asked.imp (List.mem_cons_of_mem _) (List.mem_cons_of_mem _)
      refine ⟨fun path first second later member =>
        grows (due.asked path first second later member), ?_, due.again⟩
      intro path answered
      obtain ⟨first, second, names, queried⟩ := due.known path answered
      exact ⟨first, second, names, grows queried⟩
  | change path names =>
      cases taken
      refine ⟨due.asked, due.known, ?_⟩
      intro other answered
      dsimp only [mark]
      rcases due.again other answered with watched | fired | later
      · by_cases same : other = path
        · right
          left
          rw [same] at watched ⊢
          rw [if_pos watched]
          exact List.mem_append_right _ (List.mem_singleton_self path)
        · rw [if_neg same]
          exact Or.inl watched
      · right
        left
        split
        · exact List.mem_append_left _ fired
        · exact fired
      · exact Or.inr (Or.inr later)
  | remove path =>
      cases taken
      refine ⟨due.asked, fun other answered => due.known other (mark_true answered).2, ?_⟩
      intro other answered
      obtain ⟨differs, before⟩ := mark_true answered
      dsimp only [mark]
      rw [if_neg differs]
      exact due.again other before
  | connect | timer =>
      cases taken
      obtain ⟨asked, again⟩ := @joins (.loop self.queryInfos) nofun
      exact ⟨asked, due.known, again⟩
  | expire =>
      cases taken
      exact ⟨due.asked, nofun, nofun⟩
  | child path =>
      rw [step] at taken
      split at taken
      · cases taken
        obtain ⟨asked, again⟩ := @joins (.visiting path []) nofun
        refine ⟨asked, due.known, ?_⟩
        intro other answered
        rcases again other answered with watched | fired | later
        · exact Or.inl watched
        · by_cases same : other = path
          · right
            right
            refine ⟨.visiting path [], List.mem_append_right _ (List.mem_singleton_self _), ?_⟩
            rw [same]
            exact List.mem_singleton_self path
          · exact Or.inr (Or.inl ((List.mem_erase_of_ne same).mpr fired))
        · exact Or.inr (Or.inr later)
      · cases taken
  | proceed place answer =>
      rw [step, Option.map_eq_some_iff] at taken
      obtain ⟨task, found, rfl⟩ := taken
      exact due_proceed orderly due found answer

theorem mem_read_children {inetAton : Str → Option UInt32} {vals : List Str} {id : UInt64} :
    id ∈ readChildren inetAton vals ↔
      ∃ val ∈ vals, ∃ info ∈ ServiceItem.create inetAton val [], info.id = id := by
  have fold : ∀ infos : Snapshot, id ∈ vals.foldl (addChild inetAton) infos ↔
      id ∈ infos ∨ ∃ val ∈ vals, ∃ info ∈ ServiceItem.create inetAton val [], info.id = id := by
    induction vals with
    | nil => simp
    | cons val vals induction =>
        intro infos
        rw [List.foldl_cons, induction, addChild]
        cases made : ServiceItem.create inetAton val [] with
        | none => simp [made]
        | some info =>
            simp only [AList.mem_insert, List.mem_cons, exists_eq_or_imp, made, Option.mem_def,
              Option.some.injEq, exists_eq_left', eq_comm (a := id)]
            tauto
  rw [readChildren, fold]
  exact or_iff_right (AList.notMem_empty id)

structure Kept (world : SdWorld) (type : Str) (discovery : ZkDiscovery) : Prop where
  orderly : discovery.Orderly
  fresh : Fresh world discovery
  told : ∃ told, Told world type discovery told
  due : discovery.Due

theorem kept_of_reaches {type : Str} {types : Str → Option (Str → Option BalanceType)}
    {defaultType : BalanceType} {children : Str → Option (List Str)}
    (reached : Transition.Reaches (step world) Serial (start type types defaultType children)
      self) : Kept world type self := by
  refine Transition.invariant_of_reaches ?_ ?_ reached
  · exact ⟨start_orderly type types defaultType children, nofun,
      ⟨_, start_told world type types defaultType children⟩, ⟨nofun, nofun, nofun⟩⟩
  · intro before action after kept serial taken
    obtain ⟨told, known⟩ := kept.told
    exact ⟨orderly_step kept.orderly serial taken,
      fresh_step kept.orderly kept.fresh serial taken, told_step kept.orderly known taken,
      due_step kept.orderly kept.due taken⟩

/-- In every run in which no call reads a node while another one has read it and not told it: as
long as the watch stands and no such call is under way, the load balancer of a service holds
exactly the providers that ZooKeeper holds and for which a stream can be created; and a service
that was read in this session is watched, or is going to be read again. -/
theorem rotation_follows_providers (world : SdWorld) (type : Str)
    (types : Str → Option (Str → Option BalanceType)) (defaultType : BalanceType)
    (children : Str → Option (List Str))
    (reached : Transition.Reaches (step world) Serial (start type types defaultType children) self)
    {domain service : Str} (plainDomain : 0x2F ∉ domain) (plainService : 0x2F ∉ service) :
    let path := getProvidersPath domain service
    (self.watched path = true → path ∉ TaskPool.held SdTask.busy self.tasks →
      ∃ vals, self.children path = some vals ∧
        ∀ id, ((self.balance.items domain service).lookup id).isSome = true ↔
          type = [] ∧
          (∃ val ∈ vals, ∃ info ∈ ServiceItem.create world.inetAton val [], info.id = id) ∧
          world.created domain service id = true) ∧
    (self.answered path = true → self.watched path = true ∨ path ∈ self.events ∨
      ∃ task ∈ self.tasks, path ∈ task.visits) := by
  intro path
  have names : Names path domain service :=
    ⟨rfl, parse_providers.mpr ⟨⟨plainDomain, plainService⟩, rfl, rfl⟩⟩
  obtain ⟨orderly, fresh, ⟨told, known⟩, due⟩ := kept_of_reaches reached
  refine ⟨?_, due.again path⟩
  intro watched free
  obtain ⟨vals, there, _, stored⟩ := fresh path watched
  refine ⟨vals, there, ?_⟩
  intro id
  have unbusy {task : SdTask} (busy : path ∈ task.busy) : task ∉ self.tasks :=
    fun member => free (List.mem_flatMap.mpr ⟨task, member, busy⟩)
  have datas := stored domain service names fun infos later => unbusy mem_busy_storing
  have silent : told.snapshots domain service = self.datas domain service := by
    apply known.silent domain service
    intro other old new later member
    have also := (orderly.shaped _ member).1
    have same : other = path := also.provided.trans names.provided.symm
    rw [same] at member
    exact unbusy mem_busy_telling member
  have held := (known.sound.follows domain service).1 id
  rw [known.balance, known.live, silent, datas,
    listed_plain (plain_read_children world.inetAton vals)] at held
  rw [held, Bool.and_eq_true, Bool.and_eq_true, decide_eq_true_eq, decide_eq_true_eq,
    mem_read_children, and_assoc]

/-- Two services of one domain, with addresses of one letter. -/
def lettersWorld : SdWorld :=
  ⟨fun text => text.head?.map fun letter => UInt32.ofNat letter.toNat, fun _ _ _ => true⟩

def oneProvider : ZkDiscovery :=
  start [] (fun _ => none) .roundRobin fun path =>
    if path = getProvidersPath (ascii "d") (ascii "s") then some [ascii "a:1"] else none

/-- The session reads one provider, another one is added, and the watch brings it. -/
theorem rotation_follows_providers_two : ∃ self : ZkDiscovery,
    (Transition.Reaches (step lettersWorld) Serial oneProvider self ∧
      self.tasks = [] ∧ self.events = [] ∧
      (self.balance.items (ascii "d") (ascii "s")).keys.length = 2) ∧
    let path := getProvidersPath (ascii "d") (ascii "s")
    (self.watched path = true → path ∉ TaskPool.held SdTask.busy self.tasks →
      ∃ vals, self.children path = some vals ∧
        ∀ id, ((self.balance.items (ascii "d") (ascii "s")).lookup id).isSome = true ↔
          ([] : Str) = [] ∧
          (∃ val ∈ vals, ∃ info ∈ ServiceItem.create lettersWorld.inetAton val [],
            info.id = id) ∧
          lettersWorld.created (ascii "d") (ascii "s") id = true) ∧
    (self.answered path = true → self.watched path = true ∨ path ∈ self.events ∨
      ∃ task ∈ self.tasks, path ∈ task.visits) := by
  have ran : ∃ self, Transition.Reaches (step lettersWorld) Serial oneProvider self ∧
      (self.tasks = [] ∧ self.events = [] ∧
        (self.balance.items (ascii "d") (ascii "s")).keys.length = 2) := by
    apply Transition.exists_of_run
      [.query (ascii "d") (ascii "s"), .connect, .proceed 0 true, .proceed 0 true,
        .proceed 0 true, .proceed 0 true, .proceed 0 true, .proceed 0 true,
        .change (getProvidersPath (ascii "d") (ascii "s")) [ascii "a:1", ascii "b:1"],
        .child (getProvidersPath (ascii "d") (ascii "s")), .proceed 0 true, .proceed 0 true,
        .proceed 0 true, .proceed 0 true, .proceed 0 true]
    decide +kernel
  obtain ⟨self, reached, state⟩ := ran
  exact ⟨self, ⟨reached, state⟩, rotation_follows_providers lettersWorld [] (fun _ => none)
    .roundRobin _ reached (by decide) (by decide)⟩

/-- A call that has read before the watch fired and stores after the call of the watch leaves an
old snapshot behind, and nothing is on the way that would replace it. -/
theorem late_store_stale : ∃ self : ZkDiscovery,
    Transition.Reaches (step lettersWorld) (fun _ _ => True) oneProvider self ∧
      self.tasks = [] ∧ self.events = [] ∧
      self.watched (getProvidersPath (ascii "d") (ascii "s")) = true ∧
      self.children (getProvidersPath (ascii "d") (ascii "s")) =
        some [ascii "a:1", ascii "b:1"] ∧
      (self.datas (ascii "d") (ascii "s")).keys.length = 1 := by
  apply Transition.exists_of_run
    [.query (ascii "d") (ascii "s"), .connect, .proceed 0 true, .proceed 0 true, .proceed 0 true,
      .change (getProvidersPath (ascii "d") (ascii "s")) [ascii "a:1", ascii "b:1"],
      .child (getProvidersPath (ascii "d") (ascii "s")), .proceed 1 true, .proceed 1 true,
      .proceed 1 true, .proceed 1 true, .proceed 1 true, .proceed 0 true, .proceed 0 true,
      .proceed 0 true]
  decide +kernel

end ZkDiscovery

end ChatServer.Streams
