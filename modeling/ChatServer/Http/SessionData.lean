import ChatServer.Machine
import ChatServer.Lib.Transition
import ChatServer.Lib.TaskPool
import Mathlib.Data.List.AList

/-!
# Sessions and their expiry

`SessionDataManager` of `session_data.cc`. `check` chooses the sessions to delete under the read
lock and deletes them one by one under the write lock without looking again, so it is right as
long as none of them is used in between. It also computes its threshold in 64 bits: with more
seconds than the clock shows, every session is below it.
-/

namespace ChatServer.Http

set_option autoImplicit false

/-- `accesses` holds the times of all calls of `get` that have returned the session. -/
structure SessionData where
  id : Str
  lastAccessTime : Nat
  accesses : List Nat
  deriving DecidableEq

/-- A call of `check`, the time at which it came, and what its scan has chosen and it has not
deleted yet. -/
structure Check where
  ts : Int64
  called : Nat
  keys : Option (List Str)
  deriving DecidableEq

def Check.now (check : Check) : Nat := (((check.called : Int) - check.ts.toInt) % 2 ^ 64).toNat

def Check.chosen (check : Check) : List Str := check.keys.getD []

/-- A session that `check(ts)` has removed, with the accesses it had until then. -/
structure Removal where
  ts : Int64
  time : Nat
  accesses : List Nat
  deriving DecidableEq

/-- Sessions are shared, so `datas` names them by their places in `sessions`. `clock` is what
`time(0)` returns. -/
structure SessionDataManager where
  clock : Nat
  sessions : List SessionData
  datas : AList fun _ : Str => Nat
  checks : List Check
  removed : List Removal

inductive SessionAction where
  | tick
  | create (id : Str)
  | add (session : Nat)
  | get (id : Str)
  | del (id : Str)
  | check (ts : Int64)
  | scan (place : Nat)
  | delChosen (place : Nat) (key : Str)

namespace SessionDataManager

def start (clock : Nat) : SessionDataManager := ⟨clock, [], ∅, [], []⟩

/-- The constructor, with the id that is set before the session is added. -/
def create (manager : SessionDataManager) (id : Str) : SessionDataManager :=
  { manager with sessions := manager.sessions ++ [⟨id, manager.clock, []⟩] }

def add (manager : SessionDataManager) (place : Nat) (session : SessionData) :
    SessionDataManager :=
  { manager with datas := manager.datas.insert session.id place }

def touch (clock : Nat) (session : SessionData) : SessionData :=
  { session with lastAccessTime := clock, accesses := session.accesses ++ [clock] }

def get (manager : SessionDataManager) (id : Str) : SessionDataManager :=
  match manager.datas.lookup id with
  | some place => { manager with sessions := manager.sessions.modify place (touch manager.clock) }
  | none => manager

def del (manager : SessionDataManager) (id : Str) : SessionDataManager :=
  { manager with datas := manager.datas.erase id }

/-- The sessions whose last access is before the threshold. -/
def expired (manager : SessionDataManager) (now : Nat) : List Str :=
  (manager.datas.entries.filter fun entry =>
    manager.sessions[entry.2]?.any fun session => session.lastAccessTime < now).map Sigma.fst

def check (manager : SessionDataManager) (ts : Int64) : Result SessionDataManager :=
  if (manager.clock : Int) - ts.toInt < 2 ^ 63 then
    .ok { manager with checks := manager.checks ++ [⟨ts, manager.clock, none⟩] }
  else .error (.undefined .signedOverflow)

def scan (manager : SessionDataManager) (place : Nat) (check : Check) : SessionDataManager :=
  { manager with
    checks := TaskPool.replace manager.checks place
      [{ check with keys := some (manager.expired check.now) }] }

def session (manager : SessionDataManager) (key : Str) : Option SessionData :=
  (manager.datas.lookup key).bind fun place => manager.sessions[place]?

def delChosen (manager : SessionDataManager) (place : Nat) (check : Check) (key : Str) :
    SessionDataManager :=
  { manager.del key with
    checks := TaskPool.replace manager.checks place
      [{ check with keys := some (check.chosen.erase key) }]
    removed := manager.removed ++ (manager.session key).toList.map fun session =>
      ⟨check.ts, manager.clock, session.accesses⟩ }

def step : Result SessionDataManager → SessionAction → Option (Result SessionDataManager)
  | .error _, _ => none
  | .ok manager, .tick =>
      if manager.clock + 1 < 2 ^ 63 then some (.ok { manager with clock := manager.clock + 1 })
      else none
  | .ok manager, .create id => some (.ok (manager.create id))
  | .ok manager, .add place =>
      manager.sessions[place]?.map fun session => .ok (manager.add place session)
  | .ok manager, .get id => some (.ok (manager.get id))
  | .ok manager, .del id => some (.ok (manager.del id))
  | .ok manager, .check ts => some (manager.check ts)
  | .ok manager, .scan place =>
      match manager.checks[place]? with
      | some ⟨ts, called, none⟩ => some (.ok (manager.scan place ⟨ts, called, none⟩))
      | _ => none
  | .ok manager, .delChosen place key =>
      match manager.checks[place]? with
      | some check =>
          if check.chosen.contains key then some (.ok (manager.delChosen place check key)) else none
      | none => none

/-- Before the last `ts` seconds, when `check` was called. -/
def Old (check : Check) (time : Nat) : Prop := (time : Int) < check.called - check.ts.toInt

instance (check : Check) (time : Nat) : Decidable (Old check time) :=
  inferInstanceAs (Decidable (_ < _))

/-- The threshold of `check` does not leave the positive range, and no session that a scan has
chosen is used, or registered under its key, until it is deleted. -/
def Undisturbed : Result SessionDataManager → SessionAction → Prop
  | .ok manager, .check ts =>
      0 ≤ (manager.clock : Int) - ts.toInt ∧ (manager.clock : Int) - ts.toInt < 2 ^ 63
  | .ok manager, .get id =>
      ∀ check ∈ manager.checks, ∀ key ∈ check.chosen,
        manager.datas.lookup id ≠ none → manager.datas.lookup key = manager.datas.lookup id →
          Old check manager.clock
  | .ok manager, .add place =>
      ∀ session ∈ manager.sessions[place]?, ∀ check ∈ manager.checks,
        session.id ∈ check.chosen → Old check session.lastAccessTime
  | _, _ => True

instance (state : Result SessionDataManager) (action : SessionAction) :
    Decidable (Undisturbed state action) :=
  match state, action with
  | .ok _, .check _ => inferInstanceAs (Decidable (_ ∧ _))
  | .ok _, .get _ => inferInstanceAs (Decidable (∀ _ ∈ _, ∀ _ ∈ _, _))
  | .ok manager, .add place => inferInstanceAs (Decidable (∀ _ ∈ manager.sessions[place]?, _))
  | .ok _, .tick | .ok _, .create _ | .ok _, .del _ | .ok _, .scan _ | .ok _, .delChosen _ _ =>
      inferInstanceAs (Decidable True)
  | .error _, _ => inferInstanceAs (Decidable True)

/-- No session was removed within `ts` seconds of an access. -/
def Respects : Result SessionDataManager → Prop
  | .ok manager => ∀ removal ∈ manager.removed, ∀ time ∈ removal.accesses,
      removal.ts.toInt < (removal.time : Int) - time
  | .error _ => False

instance (state : Result SessionDataManager) : Decidable (Respects state) :=
  match state with
  | .ok _ => inferInstanceAs (Decidable (∀ _ ∈ _, ∀ _ ∈ _, _))
  | .error _ => inferInstanceAs (Decidable False)

structure Sound (manager : SessionDataManager) : Prop where
  accessed : ∀ session ∈ manager.sessions, ∀ time ∈ session.accesses,
    time ≤ session.lastAccessTime
  dated : ∀ session ∈ manager.sessions, session.lastAccessTime ≤ manager.clock
  registered : ∀ key place, manager.datas.lookup key = some place → place < manager.sessions.length
  called : ∀ check ∈ manager.checks, check.called ≤ manager.clock ∧
    0 ≤ (check.called : Int) - check.ts.toInt ∧ (check.called : Int) - check.ts.toInt < 2 ^ 63
  chosen : ∀ check ∈ manager.checks, ∀ key ∈ check.chosen, ∀ session ∈ manager.session key,
    Old check session.lastAccessTime
  removed : ∀ removal ∈ manager.removed, ∀ time ∈ removal.accesses,
    removal.ts.toInt < (removal.time : Int) - time

variable {manager : SessionDataManager} {check : Check} {place : Nat} {key : Str}

theorem mem_session {session : SessionData} :
    session ∈ manager.session key ↔
      ∃ place, manager.datas.lookup key = some place ∧ manager.sessions[place]? = some session := by
  rw [SessionDataManager.session, Option.mem_def, Option.bind_eq_some_iff]

theorem session_mem {session : SessionData} (found : session ∈ manager.session key) :
    session ∈ manager.sessions := by
  rcases mem_session.mp found with ⟨place, _, inside⟩
  exact List.mem_of_getElem? inside

/-- The threshold is the difference that `check` means, as long as that is not negative. -/
theorem now_eq (positive : 0 ≤ (check.called : Int) - check.ts.toInt)
    (small : (check.called : Int) - check.ts.toInt < 2 ^ 63) :
    (check.now : Int) = check.called - check.ts.toInt := by
  rw [Check.now, Int.emod_eq_of_lt positive (by omega)]
  exact Int.toNat_of_nonneg positive

theorem expired_old {now : Nat} (member : key ∈ manager.expired now) {session : SessionData}
    (found : session ∈ manager.session key) : session.lastAccessTime < now := by
  rcases mem_session.mp found with ⟨place, looked, inside⟩
  rcases List.mem_map.mp member with ⟨entry, chosen, same⟩
  rcases List.mem_filter.mp chosen with ⟨listed, old⟩
  have looked' : manager.datas.lookup entry.1 = some entry.2 :=
    AList.mem_lookup_iff.mpr listed
  rw [same, looked] at looked'
  rw [← Option.some.inj looked', inside] at old
  exact of_decide_eq_true old

theorem start_sound (clock : Nat) : (start clock).Sound where
  accessed := by simp [start]
  dated := by simp [start]
  registered := by simp [start]
  called := by simp [start]
  chosen := by simp [start]
  removed := by simp [start]

theorem tick_sound (sound : manager.Sound) :
    { manager with clock := manager.clock + 1 }.Sound where
  accessed := sound.accessed
  dated := fun session member => Nat.le_succ_of_le (sound.dated session member)
  registered := sound.registered
  called := by
    intro check member
    have called := sound.called check member
    exact ⟨Nat.le_succ_of_le called.1, called.2⟩
  chosen := sound.chosen
  removed := sound.removed

theorem create_sound (sound : manager.Sound) (id : Str) : (manager.create id).Sound where
  accessed := by
    intro session member
    rcases List.mem_append.mp member with kept | new
    · exact sound.accessed session kept
    · rw [List.mem_singleton.mp new]
      intro time none
      cases none
  dated := by
    intro session member
    rcases List.mem_append.mp member with kept | new
    · exact sound.dated session kept
    · rw [List.mem_singleton.mp new]
      exact Nat.le_refl manager.clock
  registered := by
    intro key place looked
    have inside := sound.registered key place looked
    rw [create, List.length_append]
    exact Nat.lt_add_right _ inside
  called := sound.called
  chosen := by
    intro check member key chosen session found
    rcases mem_session.mp found with ⟨place, looked, inside⟩
    have before : (manager.sessions ++ [⟨id, manager.clock, []⟩])[place]? = some session := inside
    rw [List.getElem?_append_left (sound.registered key place looked)] at before
    exact sound.chosen check member key chosen session (mem_session.mpr ⟨place, looked, before⟩)
  removed := sound.removed

theorem add_sound (sound : manager.Sound) {session : SessionData}
    (undisturbed : Undisturbed (.ok manager) (.add place))
    (created : manager.sessions[place]? = some session) : (manager.add place session).Sound where
  accessed := sound.accessed
  dated := sound.dated
  registered := by
    intro key other looked
    by_cases same : key = session.id
    · rw [add, same, AList.lookup_insert] at looked
      rw [← Option.some.inj looked]
      exact (List.getElem?_eq_some_iff.mp created).1
    · rw [add, AList.lookup_insert_ne same] at looked
      exact sound.registered key other looked
  called := sound.called
  chosen := by
    intro check member key chosen other found
    rcases mem_session.mp found with ⟨index, looked, inside⟩
    by_cases same : key = session.id
    · rw [add, same, AList.lookup_insert] at looked
      have present : manager.sessions[index]? = some other := inside
      rw [← Option.some.inj looked, created] at present
      rw [← Option.some.inj present]
      rw [same] at chosen
      exact undisturbed session created check member chosen
    · rw [add, AList.lookup_insert_ne same] at looked
      exact sound.chosen check member key chosen other (mem_session.mpr ⟨index, looked, inside⟩)
  removed := sound.removed

theorem del_chosen (sound : manager.Sound) (id : Str) :
    ∀ check ∈ manager.checks, ∀ key ∈ check.chosen, ∀ session ∈ (manager.del id).session key,
      Old check session.lastAccessTime := by
  intro check member key chosen session found
  rcases mem_session.mp found with ⟨place, looked, inside⟩
  by_cases same : key = id
  · rw [del, same, AList.lookup_erase] at looked
    cases looked
  · rw [del, AList.lookup_erase_ne same] at looked
    exact sound.chosen check member key chosen session (mem_session.mpr ⟨place, looked, inside⟩)

theorem del_registered (sound : manager.Sound) (id key : Str) (place : Nat)
    (looked : (manager.del id).datas.lookup key = some place) :
    place < manager.sessions.length := by
  by_cases same : key = id
  · rw [del, same, AList.lookup_erase] at looked
    cases looked
  · rw [del, AList.lookup_erase_ne same] at looked
    exact sound.registered key place looked

theorem del_sound (sound : manager.Sound) (id : Str) : (manager.del id).Sound where
  accessed := sound.accessed
  dated := sound.dated
  registered := del_registered sound id
  called := sound.called
  chosen := del_chosen sound id
  removed := sound.removed

theorem mem_modify {sessions : List SessionData} {clock : Nat} {session : SessionData}
    (member : session ∈ sessions.modify place (touch clock)) :
    session ∈ sessions ∨ ∃ before ∈ sessions, session = touch clock before := by
  rcases List.mem_iff_getElem?.mp member with ⟨other, found⟩
  rw [List.getElem?_modify] at found
  rcases Option.map_eq_some_iff.mp found with ⟨before, inside, same⟩
  have present := List.mem_of_getElem? inside
  by_cases here : place = other
  · rw [if_pos here] at same
    exact Or.inr ⟨before, present, same.symm⟩
  · rw [if_neg here] at same
    rw [← same]
    exact Or.inl present

theorem get_sound (sound : manager.Sound) {id : Str}
    (undisturbed : Undisturbed (.ok manager) (.get id)) : (manager.get id).Sound := by
  rw [get]
  cases found : manager.datas.lookup id with
  | none => exact sound
  | some place =>
      constructor
      case accessed =>
        intro session member
        rcases mem_modify member with kept | ⟨before, kept, touched⟩
        · exact sound.accessed session kept
        · rw [touched]
          intro time accessed
          rcases List.mem_append.mp accessed with earlier | now
          · exact Nat.le_trans (sound.accessed before kept time earlier) (sound.dated before kept)
          · exact Nat.le_of_eq (List.mem_singleton.mp now)
      case dated =>
        intro session member
        rcases mem_modify member with kept | ⟨before, kept, touched⟩
        · exact sound.dated session kept
        · rw [touched]
          exact Nat.le_refl manager.clock
      case registered =>
        intro key other looked
        simp only [List.length_modify]
        exact sound.registered key other looked
      case called => exact sound.called
      case chosen =>
        intro check member key chosen session there
        rcases mem_session.mp there with ⟨other, looked, inside⟩
        simp only [List.getElem?_modify] at inside
        rcases Option.map_eq_some_iff.mp inside with ⟨before, present, same⟩
        by_cases here : place = other
        · rw [if_pos here] at same
          have looked' : manager.datas.lookup key = manager.datas.lookup id := by
            rw [found, here]
            exact looked
          rw [← same]
          exact undisturbed check member key chosen (by simp [found]) looked'
        · rw [if_neg here] at same
          rw [← same]
          exact sound.chosen check member key chosen before
            (mem_session.mpr ⟨other, looked, present⟩)
      case removed => exact sound.removed

theorem check_sound (sound : manager.Sound) {ts : Int64}
    (undisturbed : Undisturbed (.ok manager) (.check ts)) :
    ∃ after, manager.check ts = .ok after ∧ after.Sound := by
  refine ⟨_, if_pos undisturbed.2, sound.accessed, sound.dated, sound.registered, ?_, ?_,
    sound.removed⟩
  · intro check member
    rcases List.mem_append.mp member with kept | new
    · exact sound.called check kept
    · rw [List.mem_singleton.mp new]
      exact ⟨Nat.le_refl _, undisturbed⟩
  · intro check member key chosen
    rcases List.mem_append.mp member with kept | new
    · exact sound.chosen check kept key chosen
    · rw [List.mem_singleton.mp new] at chosen
      cases chosen

theorem scan_sound (sound : manager.Sound) (found : manager.checks[place]? = some check) :
    (manager.scan place check).Sound where
  accessed := sound.accessed
  dated := sound.dated
  registered := sound.registered
  called := by
    apply TaskPool.forall_replace_one sound.called
    exact sound.called check (List.mem_of_getElem? found)
  chosen := by
    apply TaskPool.forall_replace_one sound.chosen
    intro key chosen session there
    rcases sound.called check (List.mem_of_getElem? found) with ⟨_, positive, small⟩
    have expired := expired_old chosen there
    have threshold := now_eq positive small
    have before : (session.lastAccessTime : Int) < check.now := Int.ofNat_lt.mpr expired
    rw [threshold] at before
    exact before
  removed := sound.removed

theorem del_chosen_sound (sound : manager.Sound) (found : manager.checks[place]? = some check)
    (member : key ∈ check.chosen) : (manager.delChosen place check key).Sound where
  accessed := sound.accessed
  dated := sound.dated
  registered := del_registered sound key
  called := by
    apply TaskPool.forall_replace_one sound.called
    exact sound.called check (List.mem_of_getElem? found)
  chosen := by
    apply TaskPool.forall_replace_one (del_chosen sound key)
    intro key chosen
    exact del_chosen sound _ check (List.mem_of_getElem? found) key (List.mem_of_mem_erase chosen)
  removed := by
    intro removal listed
    rcases List.mem_append.mp listed with kept | new
    · exact sound.removed removal kept
    · rcases List.mem_map.mp new with ⟨session, there, same⟩
      have held : session ∈ manager.session key := Option.mem_toList.mp there
      have old := sound.chosen check (List.mem_of_getElem? found) key member session held
      have called := (sound.called check (List.mem_of_getElem? found)).1
      rw [← same]
      intro time accessed
      have earlier := sound.accessed session (session_mem held) time accessed
      rw [Old] at old
      simp only
      omega

theorem step_sound {action : SessionAction} {after : Result SessionDataManager}
    (sound : manager.Sound) (undisturbed : Undisturbed (.ok manager) action)
    (taken : step (.ok manager) action = some after) : ∃ next, after = .ok next ∧ next.Sound := by
  cases action with
  | tick =>
      rw [step] at taken
      split at taken
      · cases taken
        exact ⟨_, rfl, tick_sound sound⟩
      · cases taken
  | create id =>
      cases taken
      exact ⟨_, rfl, create_sound sound id⟩
  | add place =>
      rcases Option.map_eq_some_iff.mp taken with ⟨session, created, same⟩
      exact ⟨_, same.symm, add_sound sound undisturbed created⟩
  | get id =>
      cases taken
      exact ⟨_, rfl, get_sound sound undisturbed⟩
  | del id =>
      cases taken
      exact ⟨_, rfl, del_sound sound id⟩
  | check ts =>
      rcases check_sound sound undisturbed with ⟨next, done, kept⟩
      cases taken
      exact ⟨next, done, kept⟩
  | scan place =>
      rw [step] at taken
      split at taken
      · cases taken
        exact ⟨_, rfl, scan_sound sound ‹_›⟩
      · cases taken
  | delChosen place key =>
      rw [step] at taken
      split at taken
      · split at taken
        · cases taken
          rename_i check found contained
          have member : key ∈ check.chosen := List.contains_iff_mem.mp contained
          exact ⟨_, rfl, del_chosen_sound sound found member⟩
        · cases taken
      · cases taken

/-- `check` removes nobody who was there within its time, if it is called with no more seconds
than the clock shows and no session is used between the scan and its deletion. -/
theorem expiry_respects_accesses (clock : Nat) {state : Result SessionDataManager}
    (reached : Transition.Reaches step Undisturbed (.ok (start clock)) state) :
    Respects state := by
  have kept : ∃ manager, state = .ok manager ∧ manager.Sound := by
    apply Transition.invariant_of_reaches ⟨start clock, rfl, start_sound clock⟩ _ reached
    intro before action after sound undisturbed taken
    rcases sound with ⟨manager, same, sound⟩
    rw [same] at undisturbed taken
    exact step_sound sound undisturbed taken
  rcases kept with ⟨manager, same, sound⟩
  rw [same]
  exact sound.removed

/-- A session is deleted twelve seconds behind its last access, and another one stays. -/
theorem expiry_respects_accesses_two : ∃ state : Result SessionDataManager,
    (Transition.Reaches step Undisturbed (.ok (start 0)) state ∧
      state.toOption.map (fun manager => (manager.removed, manager.datas.keys)) =
        some ([⟨10, 12, [0]⟩], [[2]])) ∧ Respects state := by
  have reached : ∃ state : Result SessionDataManager,
      Transition.Reaches step Undisturbed (.ok (start 0)) state ∧
        state.toOption.map (fun manager => (manager.removed, manager.datas.keys)) =
          some ([⟨10, 12, [0]⟩], [[2]]) := by
    apply Transition.exists_of_run ([.create [1], .add 0, .get [1]] ++ List.replicate 12 .tick ++
      [.create [2], .add 1, .check 10, .scan 0, .get [2], .delChosen 0 [1]])
    decide +kernel
  rcases reached with ⟨state, reached, removed⟩
  exact ⟨state, ⟨reached, removed⟩, expiry_respects_accesses 0 reached⟩

/-- A session is used between the scan and its deletion; and one is deleted with the access of
the same second, where the clock shows less than `ts`. -/
theorem used_session_removed :
    (∃ state : Result SessionDataManager,
      Transition.Reaches step (fun _ _ => True) (.ok (start 0)) state ∧ ¬Respects state ∧
        state.toOption.map removed = some [⟨10, 12, [12]⟩]) ∧
    ∃ state : Result SessionDataManager,
      Transition.Reaches step (fun _ _ => True) (.ok (start 0)) state ∧ ¬Respects state ∧
        state.toOption.map removed = some [⟨10, 0, [0]⟩] := by
  constructor
  · apply Transition.exists_of_run ([.create [1], .add 0] ++ List.replicate 12 .tick ++
      [.check 10, .scan 0, .get [1], .delChosen 0 [1]])
    decide +kernel
  · apply Transition.exists_of_run [.create [1], .add 0, .get [1], .check 10, .scan 0,
      .delChosen 0 [1]]
    decide +kernel

end SessionDataManager
end ChatServer.Http
