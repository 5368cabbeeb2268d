import ChatServer.Machine
import ChatServer.Lib.Transition
import ChatServer.Lib.TaskPool
import Mathlib.Logic.Function.Basic

/-!
# The pool of HTTP connections

`getConnection` and `ReleasePtr` of `http_connection.cc`, for any number of callers. The counter
`m_total` is changed outside the lock, before or behind the list that it is about. At any moment it
counts the connections that are idle, handed out, or in the hands of a call.
-/

namespace ChatServer.Http

set_option autoImplicit false

structure PoolConfig where
  maxSize : UInt32
  maxAliveTime : UInt32
  maxRequest : UInt32

/-- The fields of an `HttpConnection` that the pool uses; nothing assigns `createTime`. `served`
counts how often the connection was handed out. -/
structure PooledConnection where
  createTime : UInt64
  request : Nat
  served : Nat
  deriving DecidableEq

/-- What is under way: `getConnection` behind the lock, with what it has taken off the list, or
before it connects; `ReleasePtr` behind its test. -/
inductive PoolTask where
  | discarding (invalid : List Nat) (ptr : Option Nat) (timeout : UInt64)
  | connecting (timeout : UInt64)
  | deleting (ptr : Nat)
  | passed (ptr : Nat)
  deriving DecidableEq

/-- Connections are numbered as they are created, `objects` is what stands at their pointers.
`returned` holds what calls of `getConnection` have returned and left of `timeout_ms`. -/
structure HttpConnectionPool where
  objects : Nat → PooledConnection
  created : Nat
  conns : List Nat
  handed : List Nat
  tasks : List PoolTask
  total : Int
  returned : List (Option Nat × UInt64)

/-- What the clock and the sockets say is part of the action; `connect` comes with the time that
it took, if it succeeded. -/
inductive PoolAction where
  | getConnection (timeout nowMs : UInt64) (checkConnected : Nat → Bool)
  | discard (place : Nat)
  | connect (place : Nat) (elapsed : Option UInt64)
  | releasePtr (place : Nat) (isConnected : Bool) (nowMs : UInt64) (checkConnected : Bool)
  | delete (place : Nat)
  | pushBack (place : Nat)

namespace PoolTask

def conns : PoolTask → List Nat
  | .discarding invalid ptr _ => invalid ++ ptr.toList
  | .connecting _ => []
  | .deleting ptr | .passed ptr => [ptr]

def kept : PoolTask → List Nat
  | .discarding _ ptr _ => ptr.toList
  | .passed ptr => [ptr]
  | .connecting _ | .deleting _ => []

def returning : PoolTask → Nat
  | .passed _ => 1
  | .discarding _ _ _ | .connecting _ | .deleting _ => 0

end PoolTask

namespace HttpConnectionPool

def start : HttpConnectionPool := ⟨fun _ => ⟨0, 0, 0⟩, 0, [], [], [], 0, []⟩

/-- The loop of `getConnection`: invalid connections, a valid one, and the rest of the list. -/
def takeIdle (config : PoolConfig) (objects : Nat → PooledConnection) (nowMs : UInt64)
    (checkConnected : Nat → Bool) : List Nat → List Nat × Option Nat × List Nat
  | [] => ([], none, [])
  | conn :: rest =>
      if nowMs < (objects conn).createTime + config.maxAliveTime.toUInt64 ||
          !checkConnected conn then
        let (invalid, ptr, left) := takeIdle config objects nowMs checkConnected rest
        (conn :: invalid, ptr, left)
      else ([], some conn, rest)

def invalid (config : PoolConfig) (objects : Nat → PooledConnection) (nowMs : UInt64)
    (checkConnected : Nat → Bool) (conn : Nat) : Bool :=
  nowMs < (objects conn).createTime + config.maxAliveTime.toUInt64 || !checkConnected conn

def live (pool : HttpConnectionPool) : List Nat :=
  pool.conns ++ pool.handed ++ TaskPool.held PoolTask.conns pool.tasks

def hand (pool : HttpConnectionPool) (ptr : Nat) (timeout : UInt64) : HttpConnectionPool :=
  { pool with
    objects := Function.update pool.objects ptr
      { pool.objects ptr with served := (pool.objects ptr).served + 1 }
    handed := pool.handed ++ [ptr]
    returned := pool.returned ++ [(some ptr, timeout)] }

def getConnection (config : PoolConfig) (pool : HttpConnectionPool) (timeout nowMs : UInt64)
    (checkConnected : Nat → Bool) : HttpConnectionPool :=
  let (invalid, ptr, left) := takeIdle config pool.objects nowMs checkConnected pool.conns
  { pool with conns := left, tasks := pool.tasks ++ [.discarding invalid ptr timeout] }

/-- `delete i` and `m_total -= invalid_conns.size()`; a valid connection is returned. -/
def discard (pool : HttpConnectionPool) (place : Nat) (invalid : List Nat) (ptr : Option Nat)
    (timeout : UInt64) : HttpConnectionPool :=
  let pool := { pool with total := int32 (pool.total - invalid.length) }
  match ptr with
  | some ptr => { pool.hand ptr timeout with tasks := TaskPool.replace pool.tasks place [] }
  | none => { pool with tasks := TaskPool.replace pool.tasks place [.connecting timeout] }

/-- `new HttpConnection` and `++m_total`, or no connection. -/
def connect (pool : HttpConnectionPool) (place : Nat) (timeout : UInt64) :
    Option UInt64 → HttpConnectionPool
  | none => { pool with
      tasks := TaskPool.replace pool.tasks place []
      returned := pool.returned ++ [(none, timeout)] }
  | some elapsed =>
      let ptr := pool.created
      let pool := { pool with
        objects := Function.update pool.objects ptr ⟨0, 0, 0⟩
        created := pool.created + 1
        tasks := TaskPool.replace pool.tasks place []
        total := int32 (pool.total + 1) }
      pool.hand ptr (timeout - elapsed)

def exhausted (config : PoolConfig) (pool : HttpConnectionPool) (ptr : PooledConnection)
    (isConnected : Bool) (nowMs : UInt64) (checkConnected : Bool) : Bool :=
  int32 config.maxSize.toNat ≤ pool.total || !isConnected ||
    config.maxRequest.toNat ≤ ptr.request ||
    nowMs ≤ ptr.createTime + config.maxAliveTime.toUInt64 || !checkConnected

def releasePtr (config : PoolConfig) (pool : HttpConnectionPool) (place ptr : Nat)
    (isConnected : Bool) (nowMs : UInt64) (checkConnected : Bool) : HttpConnectionPool :=
  let object := { pool.objects ptr with request := (pool.objects ptr).request + 1 }
  { pool with
    objects := Function.update pool.objects ptr object
    handed := TaskPool.replace pool.handed place []
    tasks := pool.tasks ++ [if pool.exhausted config object isConnected nowMs checkConnected
      then .deleting ptr else .passed ptr] }

/-- Runs in which 2 ^ 31 connection objects exist at a time are left out. -/
def step (config : PoolConfig) (pool : HttpConnectionPool) :
    PoolAction → Option HttpConnectionPool
  | .getConnection timeout nowMs checkConnected =>
      some (pool.getConnection config timeout nowMs checkConnected)
  | .discard place => match pool.tasks[place]? with
      | some (.discarding invalid ptr timeout) => some (pool.discard place invalid ptr timeout)
      | _ => none
  | .connect place elapsed => match pool.tasks[place]? with
      | some (.connecting timeout) =>
          if elapsed.isSome && 2 ^ 31 ≤ pool.live.length + 1 then none
          else some (pool.connect place timeout elapsed)
      | _ => none
  | .releasePtr place isConnected nowMs checkConnected =>
      pool.handed[place]?.map fun ptr =>
        pool.releasePtr config place ptr isConnected nowMs checkConnected
  | .delete place => match pool.tasks[place]? with
      | some (.deleting _) => some { pool with
          tasks := TaskPool.replace pool.tasks place []
          total := int32 (pool.total - 1) }
      | _ => none
  | .pushBack place => match pool.tasks[place]? with
      | some (.passed ptr) => some { pool with
          conns := pool.conns ++ [ptr]
          tasks := TaskPool.replace pool.tasks place [] }
      | _ => none

/-- `m_total` counts what exists, each once. -/
structure Counted (pool : HttpConnectionPool) : Prop where
  nodup : pool.live.Nodup
  fresh : ∀ ptr ∈ pool.live, ptr < pool.created
  counted : pool.total = pool.live.length
  bounded : pool.live.length < 2 ^ 31

/-- Connections that are kept: idle, or on the way to a caller or to the list. -/
def kept (pool : HttpConnectionPool) : List Nat :=
  pool.conns ++ TaskPool.held PoolTask.kept pool.tasks

/-- How often connections were handed out. -/
structure Served (config : PoolConfig) (pool : HttpConnectionPool) : Prop where
  kept : ∀ ptr ∈ pool.kept, (pool.objects ptr).served = (pool.objects ptr).request ∧
    (pool.objects ptr).request < config.maxRequest.toNat
  handed : ∀ ptr ∈ pool.handed, (pool.objects ptr).served = (pool.objects ptr).request + 1
  limited : ∀ ptr, (pool.objects ptr).served ≤ max 1 config.maxRequest.toNat

def Roomy (config : PoolConfig) (pool : HttpConnectionPool) : Prop :=
  1 ≤ config.maxSize.toNat →
    pool.conns.length + TaskPool.total PoolTask.returning pool.tasks < config.maxSize.toNat

variable {config : PoolConfig} {pool after : HttpConnectionPool} {place ptr : Nat}

theorem take_idle_parts (config : PoolConfig) (objects : Nat → PooledConnection) (nowMs : UInt64)
    (checkConnected : Nat → Bool) (conns : List Nat) :
    (takeIdle config objects nowMs checkConnected conns).1 ++
      (takeIdle config objects nowMs checkConnected conns).2.1.toList ++
      (takeIdle config objects nowMs checkConnected conns).2.2 = conns := by
  induction conns with
  | nil => rfl
  | cons conn rest induction =>
      rw [takeIdle]
      split
      · exact congrArg (conn :: ·) induction
      · rfl

/-- The loop stops at the first connection that is valid. -/
theorem take_idle_eq (config : PoolConfig) (objects : Nat → PooledConnection) (nowMs : UInt64)
    (checkConnected : Nat → Bool) (conns : List Nat) :
    takeIdle config objects nowMs checkConnected conns =
      (conns.takeWhile (invalid config objects nowMs checkConnected),
        conns.find? fun conn => !invalid config objects nowMs checkConnected conn,
        (conns.dropWhile (invalid config objects nowMs checkConnected)).tail) := by
  induction conns with
  | nil => rfl
  | cons conn rest induction =>
      rw [takeIdle, induction]
      cases tested : invalid config objects nowMs checkConnected conn with
      | true =>
          rw [List.takeWhile_cons_of_pos tested, List.dropWhile_cons_of_pos tested,
            List.find?_cons_of_neg (by simp [tested])]
          exact if_pos tested
      | false =>
          rw [List.takeWhile_cons_of_neg (by simp [tested]),
            List.dropWhile_cons_of_neg (by simp [tested]),
            List.find?_cons_of_pos (by simp [tested])]
          exact if_neg (Bool.eq_false_iff.mp tested)

theorem get_connection_cases (config : PoolConfig) (pool : HttpConnectionPool)
    (timeout nowMs : UInt64) (checkConnected : Nat → Bool) :
    ∃ invalid valid left, pool.conns = invalid ++ valid.toList ++ left ∧
      pool.getConnection config timeout nowMs checkConnected = { pool with
        conns := left, tasks := pool.tasks ++ [.discarding invalid valid timeout] } := by
  have parts := take_idle_parts config pool.objects nowMs checkConnected pool.conns
  rcases taken : takeIdle config pool.objects nowMs checkConnected pool.conns with
    ⟨invalid, valid, left⟩
  rw [taken] at parts
  refine ⟨invalid, valid, left, parts.symm, ?_⟩
  rw [getConnection, taken]

theorem live_count (ptr : Nat) : pool.live.count ptr = pool.conns.count ptr +
    pool.handed.count ptr + (TaskPool.held PoolTask.conns pool.tasks).count ptr := by
  rw [live, List.count_append, List.count_append]

/-- Connections move, and some of them are deleted and counted down. -/
theorem Counted.of_perm (counted : pool.Counted) (gone : List Nat)
    (moved : (gone ++ after.live).Perm pool.live) (created : after.created = pool.created)
    (total : after.total = int32 (pool.total - gone.length)) : after.Counted := by
  have lengths := moved.length_eq
  rw [List.length_append] at lengths
  have bounded := counted.bounded
  constructor
  case nodup => exact (List.nodup_append.mp (moved.nodup_iff.mpr counted.nodup)).2.1
  case fresh =>
    intro ptr member
    rw [created]
    exact counted.fresh ptr (moved.mem_iff.mp (List.mem_append_right gone member))
  case counted =>
    rw [total, counted.counted, int32_eq] <;> omega
  case bounded => omega

theorem Counted.of_moved (counted : pool.Counted) (moved : after.live.Perm pool.live)
    (created : after.created = pool.created) (total : after.total = pool.total) :
    after.Counted := by
  apply counted.of_perm [] moved created
  have bounded := counted.bounded
  rw [total, counted.counted, int32_eq] <;> simp only [List.length_nil] <;> omega

/-- What a call gives away and takes on, in a step in which it goes on as `more`. -/
theorem live_replace (gone new : List Nat) {task : PoolTask} {more : List PoolTask}
    (found : pool.tasks[place]? = some task)
    (tasks : after.tasks = TaskPool.replace pool.tasks place more)
    (moved : ∀ ptr, gone.count ptr + after.conns.count ptr + after.handed.count ptr +
        (TaskPool.held PoolTask.conns more).count ptr =
      new.count ptr + pool.conns.count ptr + pool.handed.count ptr + task.conns.count ptr) :
    (gone ++ after.live).Perm (new ++ pool.live) := by
  apply List.perm_iff_count.mpr
  intro ptr
  have goes := (TaskPool.held_replace PoolTask.conns found more).count_eq ptr
  have here := moved ptr
  rw [List.count_append, List.count_append] at goes
  rw [List.count_append, List.count_append, live_count, live_count, tasks]
  omega

theorem get_connection_counted (counted : pool.Counted) (timeout nowMs : UInt64)
    (checkConnected : Nat → Bool) :
    (pool.getConnection config timeout nowMs checkConnected).Counted := by
  rcases get_connection_cases config pool timeout nowMs checkConnected with
    ⟨invalid, valid, left, parts, same⟩
  rw [same]
  refine counted.of_moved ?_ rfl rfl
  apply List.perm_iff_count.mpr
  intro ptr
  rw [live_count, live_count, parts]
  simp only [TaskPool.held, List.flatMap_append, List.flatMap_singleton, PoolTask.conns,
    List.count_append]
  omega

theorem discard_counted (counted : pool.Counted) {invalid : List Nat} {valid : Option Nat}
    {timeout : UInt64} (found : pool.tasks[place]? = some (.discarding invalid valid timeout)) :
    (pool.discard place invalid valid timeout).Counted := by
  cases valid with
  | none =>
      refine counted.of_perm invalid (live_replace invalid [] found rfl ?_) rfl rfl
      intro ptr
      simp only [discard, TaskPool.held, List.flatMap_singleton, PoolTask.conns,
        Option.toList_none, List.append_nil, List.count_nil]
      omega
  | some valid =>
      refine counted.of_perm invalid (live_replace invalid [] found rfl ?_) rfl rfl
      intro ptr
      simp only [discard, hand, TaskPool.held, List.flatMap_nil, PoolTask.conns,
        Option.toList_some, List.count_append, List.count_nil]
      omega

theorem connect_counted (counted : pool.Counted) {timeout : UInt64} {elapsed : Option UInt64}
    (found : pool.tasks[place]? = some (.connecting timeout))
    (room : ¬(elapsed.isSome && 2 ^ 31 ≤ pool.live.length + 1) = true) :
    (pool.connect place timeout elapsed).Counted := by
  cases elapsed with
  | none =>
      refine counted.of_moved (live_replace [] [] found rfl ?_) rfl rfl
      intro ptr
      simp only [connect, TaskPool.held, List.flatMap_nil, PoolTask.conns, List.count_nil]
  | some elapsed =>
      have small : ¬2 ^ 31 ≤ pool.live.length + 1 := by simpa using room
      have moved : (pool.connect place timeout (some elapsed)).live.Perm
          (pool.created :: pool.live) := by
        apply live_replace [] [pool.created] found rfl
        intro ptr
        simp only [connect, hand, TaskPool.held, List.flatMap_nil, PoolTask.conns,
          List.count_append, List.count_nil]
        omega
      have length := moved.length_eq
      rw [List.length_cons] at length
      constructor
      case nodup =>
        apply moved.nodup_iff.mpr
        apply List.nodup_cons.mpr
        refine ⟨?_, counted.nodup⟩
        intro member
        exact Nat.lt_irrefl _ (counted.fresh _ member)
      case fresh =>
        intro ptr member
        rcases List.mem_cons.mp (moved.mem_iff.mp member) with new | old
        · rw [new]
          exact Nat.lt_succ_self pool.created
        · exact Nat.lt_succ_of_lt (counted.fresh ptr old)
      case counted =>
        have total : (pool.connect place timeout (some elapsed)).total = int32 (pool.total + 1) :=
          rfl
        rw [total, length, counted.counted, int32_eq] <;> omega
      case bounded => omega

theorem release_counted (config : PoolConfig) (counted : pool.Counted)
    (found : pool.handed[place]? = some ptr)
    (isConnected : Bool) (nowMs : UInt64) (checkConnected : Bool) :
    (pool.releasePtr config place ptr isConnected nowMs checkConnected).Counted := by
  refine counted.of_moved ?_ rfl rfl
  apply List.perm_iff_count.mpr
  intro other
  have moved := (TaskPool.replace_perm found []).count_eq other
  rw [live_count, live_count]
  simp only [List.count_cons, List.append_nil, releasePtr, TaskPool.held, List.flatMap_append,
    List.flatMap_singleton, List.count_append] at moved ⊢
  split <;> simp only [PoolTask.conns, List.count_singleton] <;> omega

theorem delete_counted (counted : pool.Counted)
    (found : pool.tasks[place]? = some (.deleting ptr)) :
    { pool with
      tasks := TaskPool.replace pool.tasks place []
      total := int32 (pool.total - 1) }.Counted := by
  refine counted.of_perm [ptr] (live_replace [ptr] [] found rfl ?_) rfl rfl
  intro other
  simp only [TaskPool.held, List.flatMap_nil, PoolTask.conns, List.count_nil]
  omega

theorem push_back_counted (counted : pool.Counted)
    (found : pool.tasks[place]? = some (.passed ptr)) :
    { pool with
      conns := pool.conns ++ [ptr]
      tasks := TaskPool.replace pool.tasks place [] }.Counted := by
  refine counted.of_moved (live_replace [] [] found rfl ?_) rfl rfl
  intro other
  simp only [TaskPool.held, List.flatMap_nil, PoolTask.conns, List.count_append, List.count_nil]
  omega

theorem handed_not_held (counted : pool.Counted) (member : ptr ∈ pool.handed) :
    ptr ∉ pool.conns ∧ ptr ∉ TaskPool.held PoolTask.conns pool.tasks := by
  have once := List.nodup_iff_count.mp counted.nodup ptr
  have positive := List.count_pos_iff.mpr member
  rw [live_count] at once
  constructor
  · intro idle
    have again := List.count_pos_iff.mpr idle
    omega
  · intro held
    have again := List.count_pos_iff.mpr held
    omega

theorem handed_not_kept (counted : pool.Counted) (member : ptr ∈ pool.handed) :
    ptr ∉ pool.kept := by
  rcases handed_not_held counted member with ⟨notIdle, notHeld⟩
  intro kept
  rcases List.mem_append.mp kept with idle | held
  · exact notIdle idle
  · rcases List.mem_flatMap.mp held with ⟨task, inside, had⟩
    apply notHeld
    apply List.mem_flatMap.mpr
    refine ⟨task, inside, ?_⟩
    cases task with
    | discarding invalid valid timeout => exact List.mem_append_right invalid had
    | connecting timeout => cases had
    | deleting ptr => cases had
    | passed ptr => exact had

/-- What a step does to a connection that nobody else has leaves the others as they were. -/
theorem Served.of_update (served : pool.Served config) (ptr : Nat) {object : PooledConnection}
    (apart : ∀ other ∈ after.kept, other = ptr ∨ other ∈ pool.kept)
    (still : ∀ other ∈ after.handed, other = ptr ∨ other ∈ pool.handed)
    (updated : after.objects = Function.update pool.objects ptr object)
    (asKept : ptr ∈ after.kept →
      object.served = object.request ∧ object.request < config.maxRequest.toNat)
    (asHanded : ptr ∈ after.handed → object.served = object.request + 1)
    (limited : object.served ≤ max 1 config.maxRequest.toNat) : after.Served config where
  kept := by
    intro other member
    rw [updated]
    by_cases same : other = ptr
    · rw [same] at member ⊢
      rw [Function.update_self]
      exact asKept member
    · rw [Function.update_of_ne same]
      exact served.kept other ((apart other member).resolve_left same)
  handed := by
    intro other member
    rw [updated]
    by_cases same : other = ptr
    · rw [same] at member ⊢
      rw [Function.update_self]
      exact asHanded member
    · rw [Function.update_of_ne same]
      exact served.handed other ((still other member).resolve_left same)
  limited := by
    intro other
    rw [updated]
    by_cases same : other = ptr
    · rw [same, Function.update_self]
      exact limited
    · rw [Function.update_of_ne same]
      exact served.limited other

theorem Served.of_subset (served : pool.Served config) (kept : after.kept ⊆ pool.kept)
    (handed : after.handed ⊆ pool.handed) (same : after.objects = pool.objects) :
    after.Served config where
  kept := by
    rw [same]
    exact fun ptr member => served.kept ptr (kept member)
  handed := by
    rw [same]
    exact fun ptr member => served.handed ptr (handed member)
  limited := by
    rw [same]
    exact served.limited

theorem kept_of_replace {more : List PoolTask} (idle : after.conns = pool.conns)
    (tasks : after.tasks = TaskPool.replace pool.tasks place more)
    (nothing : TaskPool.held PoolTask.kept more = []) : after.kept ⊆ pool.kept := by
  intro ptr member
  rw [kept, idle, tasks] at member
  rcases List.mem_append.mp member with listed | held
  · exact List.mem_append_left _ listed
  · rcases TaskPool.mem_held_replace held with before | new
    · exact List.mem_append_right _ before
    · rw [nothing] at new
      cases new

theorem get_connection_served (served : pool.Served config) (timeout nowMs : UInt64)
    (checkConnected : Nat → Bool) :
    (pool.getConnection config timeout nowMs checkConnected).Served config := by
  rcases get_connection_cases config pool timeout nowMs checkConnected with
    ⟨invalid, valid, left, parts, same⟩
  rw [same]
  refine served.of_subset ?_ (fun _ member => member) rfl
  intro ptr member
  simp only [kept, TaskPool.held, List.flatMap_append, List.flatMap_singleton, PoolTask.kept,
    List.mem_append, parts] at member ⊢
  tauto

theorem discard_served (counted : pool.Counted) (served : pool.Served config)
    {invalid : List Nat} {valid : Option Nat} {timeout : UInt64}
    (found : pool.tasks[place]? = some (.discarding invalid valid timeout)) :
    (pool.discard place invalid valid timeout).Served config := by
  cases valid with
  | none => exact served.of_subset (kept_of_replace rfl rfl rfl) (fun _ member => member) rfl
  | some valid =>
      have subset : (pool.discard place invalid (some valid) timeout).kept ⊆ pool.kept :=
        kept_of_replace rfl rfl rfl
      have was := served.kept valid
        (List.mem_append_right _ (TaskPool.mem_held found (List.mem_singleton_self valid)))
      have handed : valid ∈ (pool.discard place invalid (some valid) timeout).handed :=
        List.mem_append_right _ (List.mem_singleton_self valid)
      refine served.of_update valid (fun other member => Or.inr (subset member)) ?_ rfl ?_ ?_ ?_
      · intro other member
        rcases List.mem_append.mp member with before | new
        · exact Or.inr before
        · exact Or.inl (List.mem_singleton.mp new)
      · intro kept
        exact absurd kept (handed_not_kept (discard_counted counted found) handed)
      · intro _
        exact congrArg (· + 1) was.1
      · have bound := was.2
        simp only
        omega

theorem connect_served (counted : pool.Counted) (served : pool.Served config)
    {timeout : UInt64} {elapsed : Option UInt64}
    (found : pool.tasks[place]? = some (.connecting timeout))
    (room : ¬(elapsed.isSome && 2 ^ 31 ≤ pool.live.length + 1) = true) :
    (pool.connect place timeout elapsed).Served config := by
  have counted' := connect_counted counted found room
  cases elapsed with
  | none => exact served.of_subset (kept_of_replace rfl rfl rfl) (fun _ member => member) rfl
  | some elapsed =>
      have subset : (pool.connect place timeout (some elapsed)).kept ⊆ pool.kept :=
        kept_of_replace rfl rfl rfl
      have handed : pool.created ∈ (pool.connect place timeout (some elapsed)).handed :=
        List.mem_append_right _ (List.mem_singleton_self pool.created)
      have objects : (pool.connect place timeout (some elapsed)).objects =
          Function.update pool.objects pool.created ⟨0, 0, 1⟩ := by
        simp only [connect, hand, Function.update_idem, Function.update_self]
      refine served.of_update pool.created (fun other member => Or.inr (subset member)) ?_
        objects ?_ ?_ ?_
      · intro other member
        rcases List.mem_append.mp member with before | new
        · exact Or.inr before
        · exact Or.inl (List.mem_singleton.mp new)
      · intro kept
        exact absurd kept (handed_not_kept counted' handed)
      · intro _
        rfl
      · exact Nat.le_max_left _ _

theorem not_exhausted {object : PooledConnection} {isConnected checkConnected : Bool}
    {nowMs : UInt64}
    (usable : pool.exhausted config object isConnected nowMs checkConnected = false) :
    pool.total < int32 config.maxSize.toNat ∧ object.request < config.maxRequest.toNat := by
  simp only [exhausted, Bool.or_eq_false_iff, decide_eq_false_iff_not] at usable
  omega

theorem release_served (counted : pool.Counted) (served : pool.Served config)
    (found : pool.handed[place]? = some ptr) (isConnected : Bool) (nowMs : UInt64)
    (checkConnected : Bool) :
    (pool.releasePtr config place ptr isConnected nowMs checkConnected).Served config := by
  have counted' := release_counted config counted found isConnected nowMs checkConnected
  have member := List.mem_of_getElem? found
  have was := served.handed ptr member
  have unkept := handed_not_kept counted member
  refine served.of_update ptr ?_ ?_ rfl ?_ ?_ (served.limited ptr)
  · intro other kept
    rcases List.mem_append.mp kept with idle | held
    · exact Or.inr (List.mem_append_left _ idle)
    · rw [releasePtr, TaskPool.held, List.flatMap_append, List.flatMap_singleton] at held
      rcases List.mem_append.mp held with before | new
      · exact Or.inr (List.mem_append_right _ before)
      · split at new
        · cases new
        · exact Or.inl (List.mem_singleton.mp new)
  · intro other member
    rcases TaskPool.mem_replace member with before | new
    · exact Or.inr before
    · cases new
  · intro kept
    refine ⟨was, ?_⟩
    cases usable : pool.exhausted config
        { pool.objects ptr with request := (pool.objects ptr).request + 1 } isConnected nowMs
        checkConnected with
    | false => exact (not_exhausted usable).2
    | true =>
        rcases List.mem_append.mp kept with idle | held
        · exact absurd (List.mem_append_left _ idle) unkept
        · simp only [releasePtr, TaskPool.held, List.flatMap_append, List.flatMap_singleton, usable,
            if_true, PoolTask.kept, List.append_nil] at held
          exact absurd (List.mem_append_right _ held) unkept
  · intro handed
    apply absurd _ (handed_not_held counted' handed).2
    rw [releasePtr, TaskPool.held, List.flatMap_append, List.flatMap_singleton]
    apply List.mem_append_right
    split <;> exact List.mem_singleton_self ptr

theorem push_back_served (served : pool.Served config)
    (found : pool.tasks[place]? = some (.passed ptr)) :
    { pool with
      conns := pool.conns ++ [ptr]
      tasks := TaskPool.replace pool.tasks place [] }.Served config := by
  refine served.of_subset ?_ (fun _ member => member) rfl
  intro other member
  rcases List.mem_append.mp member with idle | held
  · rcases List.mem_append.mp idle with before | new
    · exact List.mem_append_left _ before
    · rw [List.mem_singleton.mp new]
      exact List.mem_append_right _ (TaskPool.mem_held found (List.mem_singleton_self ptr))
  · rcases TaskPool.mem_held_replace held with before | new
    · exact List.mem_append_right _ before
    · cases new

theorem returning_le_live (pool : HttpConnectionPool) : pool.conns.length + pool.handed.length +
    TaskPool.total PoolTask.returning pool.tasks ≤ pool.live.length := by
  have held : TaskPool.total PoolTask.returning pool.tasks ≤
      (TaskPool.held PoolTask.conns pool.tasks).length := by
    rw [TaskPool.length_held]
    apply TaskPool.total_le_total
    intro task
    cases task with
    | passed ptr => exact Nat.le_refl 1
    | discarding invalid valid timeout => exact Nat.zero_le _
    | connecting timeout => exact Nat.zero_le _
    | deleting ptr => exact Nat.zero_le _
  rw [live, List.length_append, List.length_append]
  omega

theorem Roomy.of_le (roomy : pool.Roomy config)
    (less : after.conns.length + TaskPool.total PoolTask.returning after.tasks ≤
      pool.conns.length + TaskPool.total PoolTask.returning pool.tasks) : after.Roomy config := by
  intro positive
  have before := roomy positive
  omega

theorem returning_replace {task : PoolTask} (found : pool.tasks[place]? = some task)
    (more : List PoolTask) :
    task.returning + TaskPool.total PoolTask.returning (TaskPool.replace pool.tasks place more) =
      TaskPool.total PoolTask.returning pool.tasks + TaskPool.total PoolTask.returning more :=
  TaskPool.total_replace PoolTask.returning found more

theorem get_connection_roomy (roomy : pool.Roomy config) (timeout nowMs : UInt64)
    (checkConnected : Nat → Bool) :
    (pool.getConnection config timeout nowMs checkConnected).Roomy config := by
  rcases get_connection_cases config pool timeout nowMs checkConnected with
    ⟨invalid, valid, left, parts, same⟩
  rw [same]
  apply roomy.of_le
  simp only [parts, TaskPool.total_append, TaskPool.total_cons, TaskPool.total_nil,
    PoolTask.returning, List.length_append]
  omega

theorem discard_roomy (roomy : pool.Roomy config) {invalid : List Nat} {valid : Option Nat}
    {timeout : UInt64} (found : pool.tasks[place]? = some (.discarding invalid valid timeout)) :
    (pool.discard place invalid valid timeout).Roomy config := by
  cases valid with
  | none =>
      have moved := returning_replace found [.connecting timeout]
      simp only [TaskPool.total_cons, TaskPool.total_nil, PoolTask.returning] at moved
      apply roomy.of_le
      simp only [discard]
      omega
  | some valid =>
      have moved := returning_replace found []
      simp only [TaskPool.total_nil, PoolTask.returning] at moved
      apply roomy.of_le
      simp only [discard, hand]
      omega

theorem connect_roomy (roomy : pool.Roomy config) {timeout : UInt64}
    (found : pool.tasks[place]? = some (.connecting timeout)) (elapsed : Option UInt64) :
    (pool.connect place timeout elapsed).Roomy config := by
  have moved := returning_replace found []
  simp only [TaskPool.total_nil, PoolTask.returning] at moved
  apply roomy.of_le
  cases elapsed with
  | none =>
      simp only [connect]
      omega
  | some elapsed =>
      simp only [connect, hand]
      omega

/-- A connection comes back while fewer exist than the list may hold. -/
theorem release_roomy (counted : pool.Counted) (roomy : pool.Roomy config)
    (found : pool.handed[place]? = some ptr) (isConnected : Bool) (nowMs : UInt64)
    (checkConnected : Bool) :
    (pool.releasePtr config place ptr isConnected nowMs checkConnected).Roomy config := by
  cases usable : pool.exhausted config
      { pool.objects ptr with request := (pool.objects ptr).request + 1 } isConnected nowMs
      checkConnected with
  | true =>
      apply roomy.of_le
      simp only [releasePtr, usable, if_true, TaskPool.total_append, TaskPool.total_cons,
        TaskPool.total_nil, PoolTask.returning]
      omega
  | false =>
      intro _
      have room := (not_exhausted usable).1
      have signed := int32_wraps config.maxSize.toNat
      have bounds := int32_bounds config.maxSize.toNat
      have small := config.maxSize.toNat_lt
      have one := List.length_pos_of_mem (List.mem_of_getElem? found)
      have most := returning_le_live pool
      rw [counted.counted] at room
      rcases signed with ⟨turns, signed⟩
      simp only [releasePtr, usable, Bool.false_eq_true, if_false, TaskPool.total_append,
        TaskPool.total_cons, TaskPool.total_nil, PoolTask.returning]
      omega

theorem delete_roomy (roomy : pool.Roomy config)
    (found : pool.tasks[place]? = some (.deleting ptr)) :
    { pool with
      tasks := TaskPool.replace pool.tasks place []
      total := int32 (pool.total - 1) }.Roomy config := by
  have moved := returning_replace found []
  simp only [TaskPool.total_nil, PoolTask.returning] at moved
  apply roomy.of_le
  simp only
  omega

theorem push_back_roomy (roomy : pool.Roomy config)
    (found : pool.tasks[place]? = some (.passed ptr)) :
    { pool with
      conns := pool.conns ++ [ptr]
      tasks := TaskPool.replace pool.tasks place [] }.Roomy config := by
  have moved := returning_replace found []
  simp only [TaskPool.total_nil, PoolTask.returning] at moved
  apply roomy.of_le
  simp only [List.length_append, List.length_singleton]
  omega

structure Sound (config : PoolConfig) (pool : HttpConnectionPool) : Prop where
  counted : pool.Counted
  served : pool.Served config
  roomy : pool.Roomy config

theorem start_sound (config : PoolConfig) : start.Sound config where
  counted := ⟨List.nodup_nil, by simp [start, live, TaskPool.held], rfl, by decide⟩
  served :=
    ⟨by simp [start, kept, TaskPool.held], by simp [start], fun _ => Nat.zero_le _⟩
  roomy := fun positive => positive

theorem step_sound {action : PoolAction} (sound : pool.Sound config)
    (taken : pool.step config action = some after) : after.Sound config := by
  rcases sound with ⟨counted, served, roomy⟩
  cases action with
  | getConnection timeout nowMs checkConnected =>
      cases taken
      exact ⟨get_connection_counted counted timeout nowMs checkConnected,
        get_connection_served served timeout nowMs checkConnected,
        get_connection_roomy roomy timeout nowMs checkConnected⟩
  | discard place =>
      rw [step] at taken
      split at taken
      · rename_i invalid valid timeout found
        cases taken
        exact ⟨discard_counted counted found, discard_served counted served found,
          discard_roomy roomy found⟩
      · cases taken
  | connect place elapsed =>
      rw [step] at taken
      split at taken
      · rename_i timeout found
        split at taken
        · cases taken
        · rename_i room
          cases taken
          exact ⟨connect_counted counted found room, connect_served counted served found room,
            connect_roomy roomy found elapsed⟩
      · cases taken
  | releasePtr place isConnected nowMs checkConnected =>
      rcases Option.map_eq_some_iff.mp taken with ⟨ptr, found, same⟩
      rw [← same]
      exact ⟨release_counted config counted found isConnected nowMs checkConnected,
        release_served counted served found isConnected nowMs checkConnected,
        release_roomy counted roomy found isConnected nowMs checkConnected⟩
  | delete place =>
      rw [step] at taken
      split at taken
      · rename_i ptr found
        cases taken
        exact ⟨delete_counted counted found,
          served.of_subset (kept_of_replace rfl rfl rfl) (fun _ member => member) rfl,
          delete_roomy roomy found⟩
      · cases taken
  | pushBack place =>
      rw [step] at taken
      split at taken
      · rename_i ptr found
        cases taken
        exact ⟨push_back_counted counted found, push_back_served served found,
          push_back_roomy roomy found⟩
      · cases taken

/-- The counter is right, the list stays below its limit, a connection is in one place, and it
serves as many requests as it may. -/
theorem pool_accounts (config : PoolConfig)
    (reached : Transition.Reaches (step config) (fun _ _ => True) start pool) :
    pool.total = pool.conns.length + pool.handed.length +
        (TaskPool.held PoolTask.conns pool.tasks).length ∧
      (1 ≤ config.maxSize.toNat → pool.conns.length < config.maxSize.toNat) ∧
      (pool.conns ++ pool.handed ++ TaskPool.held PoolTask.conns pool.tasks).Nodup ∧
      ∀ ptr, (pool.objects ptr).served ≤ max 1 config.maxRequest.toNat := by
  have sound := Transition.invariant_of_reaches (start_sound config)
    (fun _ _ _ sound _ taken => step_sound sound taken) reached
  refine ⟨?_, ?_, sound.counted.nodup, sound.served.limited⟩
  · have counted := sound.counted.counted
    rw [live, List.length_append, List.length_append] at counted
    omega
  · intro positive
    have roomy := sound.roomy positive
    omega

/-- Two callers share a pool for one idle connection: one connection comes back and is handed out
again, the other is deleted. -/
theorem pool_accounts_two : ∃ pool : HttpConnectionPool,
    (Transition.Reaches (step ⟨2, 1000, 2⟩) (fun _ _ => True) start pool ∧ pool.total = 1 ∧
      pool.handed = [1] ∧ (pool.objects 1).served = 2) ∧
    pool.total = pool.conns.length + pool.handed.length +
        (TaskPool.held PoolTask.conns pool.tasks).length ∧
      (1 ≤ (2 : UInt32).toNat → pool.conns.length < (2 : UInt32).toNat) ∧
      (pool.conns ++ pool.handed ++ TaskPool.held PoolTask.conns pool.tasks).Nodup ∧
      ∀ ptr, (pool.objects ptr).served ≤ max 1 (2 : UInt32).toNat := by
  have reached : ∃ pool : HttpConnectionPool,
      Transition.Reaches (step ⟨2, 1000, 2⟩) (fun _ _ => True) start pool ∧ pool.total = 1 ∧
        pool.handed = [1] ∧ (pool.objects 1).served = 2 := by
    apply Transition.exists_of_run [.getConnection 100 5000 (fun _ => true), .discard 0,
      .connect 0 (some 20), .getConnection 100 5000 (fun _ => true), .discard 0,
      .connect 0 (some 20), .releasePtr 0 true 6000 true, .delete 0, .releasePtr 0 true 6000 true,
      .pushBack 0, .getConnection 100 7000 (fun _ => true), .discard 0]
    decide +kernel
  rcases reached with ⟨pool, reached, state⟩
  exact ⟨pool, ⟨reached, state⟩, pool_accounts ⟨2, 1000, 2⟩ reached⟩

end HttpConnectionPool
end ChatServer.Http
