import ChatServer.Http.HttpConnectionPool
import Mathlib.Data.List.TakeWhile

/-!
# The age of pooled connections

`max_alive_time` of the pool, under a clock that does not go back. Both calls compare the age the
wrong way round, and both take `m_createTime` for the time of creation, which nothing records: it
is 0, so that only the reading of the clock decides.
-/

namespace ChatServer.Http

set_option autoImplicit false

/-- A pool with the last reading of the clock and, for every connection, the reading at which it
was created. -/
structure AgedPool where
  pool : HttpConnectionPool
  born : Nat → UInt64
  clock : UInt64

namespace AgedPool

def start : AgedPool := ⟨HttpConnectionPool.start, fun _ => 0, 0⟩

def reads (nowMs : UInt64) : PoolAction → Bool
  | .getConnection _ reading _ | .releasePtr _ _ reading _ => reading == nowMs
  | .discard _ | .connect _ _ | .delete _ | .pushBack _ => true

def bornBy (state : AgedPool) (nowMs : UInt64) : PoolAction → Nat → UInt64
  | .connect _ (some _) => Function.update state.born state.pool.created nowMs
  | _ => state.born

def step (config : PoolConfig) (state : AgedPool) (action : PoolAction × UInt64) :
    Option AgedPool :=
  if state.clock ≤ action.2 && reads action.2 action.1 then
    (state.pool.step config action.1).map fun pool =>
      ⟨pool, state.bornBy action.2 action.1, action.2⟩
  else none

def OverAge (config : PoolConfig) (state : AgedPool) (nowMs : UInt64) (ptr : Nat) : Prop :=
  (state.born ptr).toNat + config.maxAliveTime.toNat < nowMs.toNat

/-- A connection to be kept: connected, not exhausted, and younger than `max_alive_time`. -/
def Usable (config : PoolConfig) (state : AgedPool) (nowMs : UInt64) (ptr request : Nat)
    (connected : Bool) : Prop :=
  connected = true ∧ request < config.maxRequest.toNat ∧
    state.pool.total < config.maxSize.toNat ∧
    nowMs.toNat < (state.born ptr).toNat + config.maxAliveTime.toNat

/-- A step that hands out nothing over age and discards nothing usable. -/
def Respects (config : PoolConfig) (state : AgedPool) : PoolAction × UInt64 → Prop
  | (.getConnection _ nowMs checkConnected, _) =>
      (∀ ptr ∈ (HttpConnectionPool.takeIdle config state.pool.objects nowMs checkConnected
          state.pool.conns).2.1, ¬state.OverAge config nowMs ptr) ∧
        ∀ ptr ∈ (HttpConnectionPool.takeIdle config state.pool.objects nowMs checkConnected
          state.pool.conns).1,
          ¬state.Usable config nowMs ptr (state.pool.objects ptr).request (checkConnected ptr)
  | (.releasePtr place isConnected nowMs checkConnected, _) =>
      ∀ ptr ∈ state.pool.handed[place]?,
        state.pool.exhausted config
            { state.pool.objects ptr with request := (state.pool.objects ptr).request + 1 }
            isConnected nowMs checkConnected = true →
          ¬state.Usable config nowMs ptr ((state.pool.objects ptr).request + 1)
            (isConnected && checkConnected)
  | _ => True

/-- While the clock stands below `max_alive_time` there is nothing to discard; from then on the
first connected one in the list is not over age. What is released while the clock stands there, or
to a pool with a limit that is negative as an `int32_t`, is not usable. -/
def Harmless (config : PoolConfig) (state : AgedPool) : PoolAction × UInt64 → Prop
  | (.getConnection _ nowMs checkConnected, _) =>
      if nowMs < config.maxAliveTime.toUInt64 then
        (config.maxSize.toNat : Int) ≤ state.pool.total ∨
          ∀ ptr ∈ state.pool.conns, checkConnected ptr = false
      else ∀ ptr ∈ state.pool.conns.find? checkConnected, ¬state.OverAge config nowMs ptr
  | (.releasePtr place isConnected nowMs checkConnected, _) =>
      2 ^ 31 ≤ config.maxSize.toNat ∨ nowMs ≤ config.maxAliveTime.toUInt64 →
        ∀ ptr ∈ state.pool.handed[place]?,
          ¬state.Usable config nowMs ptr ((state.pool.objects ptr).request + 1)
            (isConnected && checkConnected)
  | _ => True

end AgedPool

namespace HttpConnectionPool

def Untimed (objects : Nat → PooledConnection) : Prop :=
  ∀ ptr, (objects ptr).createTime = 0

variable {config : PoolConfig} {pool after : HttpConnectionPool}
  {objects : Nat → PooledConnection}

theorem Untimed.update (untimed : Untimed objects) (ptr : Nat) {object : PooledConnection}
    (unset : object.createTime = 0) : Untimed (Function.update objects ptr object) := by
  intro other
  by_cases same : other = ptr
  · rw [same, Function.update_self]
    exact unset
  · rw [Function.update_of_ne same]
    exact untimed other

theorem step_untimed {action : PoolAction} (untimed : Untimed pool.objects)
    (taken : pool.step config action = some after) : Untimed after.objects := by
  cases action with
  | getConnection timeout nowMs checkConnected =>
      cases taken
      exact untimed
  | discard place =>
      rw [step] at taken
      split at taken
      · rename_i invalid valid timeout found
        cases taken
        cases valid with
        | none => exact untimed
        | some valid => exact untimed.update valid (untimed valid)
      · cases taken
  | connect place elapsed =>
      rw [step] at taken
      split at taken
      · split at taken
        · cases taken
        · cases taken
          cases elapsed with
          | none => exact untimed
          | some elapsed =>
              have created : Untimed (Function.update pool.objects pool.created ⟨0, 0, 0⟩) :=
                untimed.update pool.created rfl
              exact created.update pool.created (created pool.created)
      · cases taken
  | releasePtr place isConnected nowMs checkConnected =>
      rcases Option.map_eq_some_iff.mp taken with ⟨ptr, found, same⟩
      rw [← same]
      exact untimed.update ptr (untimed ptr)
  | delete place =>
      rw [step] at taken
      split at taken
      · cases taken
        exact untimed
      · cases taken
  | pushBack place =>
      rw [step] at taken
      split at taken
      · cases taken
        exact untimed
      · cases taken

theorem invalid_untimed (untimed : Untimed objects) (nowMs : UInt64) (checkConnected : Nat → Bool) :
    invalid config objects nowMs checkConnected = fun conn =>
      nowMs < config.maxAliveTime.toUInt64 || !checkConnected conn := by
  funext conn
  rw [invalid, untimed conn, UInt64.zero_add]

theorem take_idle_early (untimed : Untimed objects) {nowMs : UInt64}
    (early : nowMs < config.maxAliveTime.toUInt64) (checkConnected : Nat → Bool)
    (conns : List Nat) :
    takeIdle config objects nowMs checkConnected conns = (conns, none, []) := by
  have whole : conns.takeWhile (fun _ => true) = conns :=
    List.takeWhile_eq_self_iff.mpr fun _ _ => rfl
  have left : conns.dropWhile (fun _ => true) = [] :=
    List.dropWhile_eq_nil_iff.mpr fun _ _ => rfl
  rw [take_idle_eq, invalid_untimed untimed]
  simp [early, whole, left]

theorem take_idle_late (untimed : Untimed objects) {nowMs : UInt64}
    (late : ¬nowMs < config.maxAliveTime.toUInt64) (checkConnected : Nat → Bool)
    (conns : List Nat) :
    (takeIdle config objects nowMs checkConnected conns).2.1 = conns.find? checkConnected ∧
      ∀ ptr ∈ (takeIdle config objects nowMs checkConnected conns).1,
        checkConnected ptr = false := by
  rw [take_idle_eq, invalid_untimed untimed]
  simp only [late, decide_false, Bool.false_or, Bool.not_not, true_and]
  intro ptr skipped
  simpa using List.mem_takeWhile_imp skipped

end HttpConnectionPool

namespace AgedPool

open HttpConnectionPool (Untimed)

structure Sound (config : PoolConfig) (state : AgedPool) : Prop where
  pool : state.pool.Sound config
  untimed : Untimed state.pool.objects
  born : ∀ ptr, state.born ptr ≤ state.clock

variable {config : PoolConfig} {state after : AgedPool} {action : PoolAction × UInt64}

theorem start_sound (config : PoolConfig) : start.Sound config where
  pool := HttpConnectionPool.start_sound config
  untimed := fun _ => rfl
  born := fun _ => UInt64.le_refl 0

theorem step_cases (taken : state.step config action = some after) :
    state.clock ≤ action.2 ∧ reads action.2 action.1 = true ∧
      state.pool.step config action.1 = some after.pool ∧
      after.born = state.bornBy action.2 action.1 ∧ after.clock = action.2 := by
  rw [step] at taken
  split at taken
  · rename_i timely
    simp only [Bool.and_eq_true, decide_eq_true_eq] at timely
    rcases Option.map_eq_some_iff.mp taken with ⟨pool, stepped, same⟩
    rw [← same]
    exact ⟨timely.1, timely.2, stepped, rfl, rfl⟩
  · cases taken

theorem born_by_le {nowMs : UInt64} (before : ∀ ptr, state.born ptr ≤ nowMs)
    (action : PoolAction) (ptr : Nat) : state.bornBy nowMs action ptr ≤ nowMs := by
  cases action with
  | connect place elapsed =>
      cases elapsed with
      | none => exact before ptr
      | some elapsed =>
          by_cases new : ptr = state.pool.created
          · rw [bornBy, new, Function.update_self]
            exact UInt64.le_refl nowMs
          · rw [bornBy, Function.update_of_ne new]
            exact before ptr
  | getConnection timeout reading checkConnected => exact before ptr
  | discard place => exact before ptr
  | releasePtr place isConnected reading checkConnected => exact before ptr
  | delete place => exact before ptr
  | pushBack place => exact before ptr

theorem step_sound (sound : state.Sound config)
    (taken : state.step config action = some after) : after.Sound config := by
  rcases step_cases taken with ⟨later, _, stepped, born, clock⟩
  refine ⟨HttpConnectionPool.step_sound sound.pool stepped,
    HttpConnectionPool.step_untimed sound.untimed stepped, ?_⟩
  rw [born, clock]
  apply born_by_le
  intro ptr
  exact UInt64.le_trans (sound.born ptr) later

/-- As long as the clock stands below the limit, every connection is younger than it. -/
theorem usable_early {nowMs : UInt64} (early : nowMs < config.maxAliveTime.toUInt64)
    (ptr request : Nat) (connected : Bool) :
    state.Usable config nowMs ptr request connected ↔
      connected = true ∧ request < config.maxRequest.toNat ∧
        state.pool.total < config.maxSize.toNat := by
  have young : nowMs.toNat < config.maxAliveTime.toNat := by
    simpa [UInt64.lt_iff_toNat_lt] using early
  constructor
  · rintro ⟨alive, below, room, _⟩
    exact ⟨alive, below, room⟩
  · rintro ⟨alive, below, room⟩
    exact ⟨alive, below, room, Nat.lt_add_left _ young⟩

theorem get_connection_respects_iff (sound : state.Sound config) (timeout nowMs now : UInt64)
    (checkConnected : Nat → Bool) :
    state.Respects config (.getConnection timeout nowMs checkConnected, now) ↔
      state.Harmless config (.getConnection timeout nowMs checkConnected, now) := by
  rw [Respects, Harmless]
  split
  · rename_i early
    rw [HttpConnectionPool.take_idle_early sound.untimed early]
    constructor
    · rintro ⟨_, kept⟩
      by_cases full : (config.maxSize.toNat : Int) ≤ state.pool.total
      · exact Or.inl full
      · apply Or.inr
        intro ptr member
        apply Bool.eq_false_iff.mpr
        intro connected
        have served := sound.pool.served.kept ptr (List.mem_append_left _ member)
        apply kept ptr member
        exact (usable_early early ptr _ _).mpr ⟨connected, served.2, Int.not_le.mp full⟩
    · intro harmless
      refine ⟨by simp, ?_⟩
      intro ptr member usable
      rcases (usable_early early ptr _ _).mp usable with ⟨connected, _, room⟩
      rcases harmless with full | none_connected
      · exact Int.not_le.mpr room full
      · rw [none_connected ptr member] at connected
        cases connected
  · rename_i late
    have taken := HttpConnectionPool.take_idle_late sound.untimed late checkConnected
      state.pool.conns
    rw [taken.1]
    constructor
    · intro respected
      exact respected.1
    · intro harmless
      refine ⟨harmless, ?_⟩
      intro ptr member usable
      have connected := usable.1
      rw [taken.2 ptr member] at connected
      cases connected

theorem full_iff (config : PoolConfig) (counted : state.pool.Counted) :
    int32 config.maxSize.toNat ≤ state.pool.total ↔
      2 ^ 31 ≤ config.maxSize.toNat ∨ (config.maxSize.toNat : Int) ≤ state.pool.total := by
  have small := config.maxSize.toNat_lt
  have bounds := int32_bounds config.maxSize.toNat
  have total := counted.counted
  rcases int32_wraps config.maxSize.toNat with ⟨turns, signed⟩
  omega

theorem release_respects_iff (sound : state.Sound config) (place : Nat) (isConnected : Bool)
    (nowMs now : UInt64) (checkConnected : Bool) :
    state.Respects config (.releasePtr place isConnected nowMs checkConnected, now) ↔
      state.Harmless config (.releasePtr place isConnected nowMs checkConnected, now) := by
  rw [Respects, Harmless]
  have full := full_iff config sound.pool.counted
  constructor
  · intro respected turned ptr found usable
    apply respected ptr found _ usable
    simp only [HttpConnectionPool.exhausted, sound.untimed ptr, UInt64.zero_add,
      Bool.or_eq_true, decide_eq_true_eq]
    rcases turned with large | early
    · exact Or.inl (Or.inl (Or.inl (Or.inl (full.mpr (Or.inl large)))))
    · exact Or.inl (Or.inr early)
  · intro harmless ptr found exhausted usable
    have kept := usable
    rcases usable with ⟨connected, below, room, _⟩
    rw [Bool.and_eq_true] at connected
    simp only [HttpConnectionPool.exhausted, sound.untimed ptr, UInt64.zero_add,
      Bool.or_eq_true, decide_eq_true_eq, connected.1, connected.2, Bool.not_true,
      Bool.false_eq_true, or_false] at exhausted
    rcases exhausted with (limited | served) | early
    · rcases full.mp limited with large | full
      · exact harmless (Or.inl large) ptr found kept
      · exact Int.not_le.mpr room full
    · exact Nat.not_le.mpr below served
    · exact harmless (Or.inr early) ptr found kept

theorem respects_iff (sound : state.Sound config) (action : PoolAction × UInt64) :
    state.Respects config action ↔ state.Harmless config action := by
  rcases action with ⟨action, now⟩
  cases action with
  | getConnection timeout nowMs checkConnected =>
      exact get_connection_respects_iff sound timeout nowMs now checkConnected
  | releasePtr place isConnected nowMs checkConnected =>
      exact release_respects_iff sound place isConnected nowMs now checkConnected
  | discard place => rfl
  | connect place elapsed => rfl
  | delete place => rfl
  | pushBack place => rfl

/-- The age is respected throughout a run just if every step of it is harmless. -/
theorem age_respected_iff (config : PoolConfig) (actions : List (PoolAction × UInt64))
    (last : AgedPool) :
    Transition.Runs (step config) (Respects config) start actions last ↔
      Transition.Runs (step config) (Harmless config) start actions last := by
  have agree : ∀ (state : AgedPool) (action : PoolAction × UInt64), state.Sound config →
      (state.Respects config action ↔ state.Harmless config action) := by
    intro state action sound
    exact respects_iff sound action
  apply Transition.runs_congr agree
  · intro state action after sound respected taken
    exact step_sound sound taken
  · exact start_sound config

/-- With a limit of one second, a connection is handed out again after more than a minute. -/
theorem old_connection_reused : ∃ state : AgedPool,
    Transition.Reaches (step ⟨2, 1000, 100⟩) (fun _ _ => True) start state ∧
      state.clock ≤ 1700000100000 ∧
      ¬state.Respects ⟨2, 1000, 100⟩
        (.getConnection 500 1700000100000 (fun _ => true), 1700000100000) := by
  have reached : ∃ state : AgedPool,
      Transition.Reaches (step ⟨2, 1000, 100⟩) (fun _ _ => True) start state ∧
        state.clock ≤ 1700000100000 ∧ state.born 0 = 1700000000020 ∧
        (HttpConnectionPool.takeIdle ⟨2, 1000, 100⟩ state.pool.objects 1700000100000
          (fun _ => true) state.pool.conns).2.1 = some 0 := by
    apply Transition.exists_of_run [
      (.getConnection 500 1700000000000 (fun _ => true), 1700000000000),
      (.discard 0, 1700000000000), (.connect 0 (some 20), 1700000000020),
      (.releasePtr 0 true 1700000000900 true, 1700000000900), (.pushBack 0, 1700000000900)]
    decide +kernel
  rcases reached with ⟨state, reached, clock, born, taken⟩
  refine ⟨state, reached, clock, ?_⟩
  intro respected
  apply respected.1 0 taken
  rw [OverAge, born]
  decide

end AgedPool
end ChatServer.Http
