import ChatServer.Lib.Transition
import ChatServer.Lib.TaskPool

/-!
# Configuration variables

`ConfigVar::setValue` of `config.h` compares and calls the listeners under the read lock and
assigns under the write lock. Read locks do not exclude each other, so calls may tell a listener
in one order and assign in another. A listener that keeps a copy has the value of the variable
behind all calls if the last of them to assign is the last that told it.
-/

namespace ChatServer

set_option autoImplicit false

/-- What a call of `setValue` told a listener, with the number of that call. -/
structure Notification (T : Type) where
  call : Nat
  oldValue : T
  newValue : T
  deriving DecidableEq

structure Listener (T : Type) where
  key : UInt64
  received : List (Notification T)
  deriving DecidableEq

/-- A call of `setValue` behind its comparison and before its assignment, the how manieth that
got there. It holds the read lock as long as there are listeners `left` to tell. -/
structure Setting (T : Type) where
  number : Nat
  v : T
  left : List UInt64
  deriving DecidableEq

/-- `compared` counts the calls that came past their comparison. -/
structure ConfigVar (T : Type) where
  val : T
  cbs : List (Listener T)
  pending : List (Setting T)
  compared : Nat
  deriving DecidableEq

inductive ConfigAction (T : Type) where
  | compare (v : T)
  | notify (place : Nat)
  | assign (place : Nat)
  | delListener (key : UInt64)
  deriving DecidableEq

def Listener.tell {T : Type} (listener : Listener T) (key : UInt64)
    (notification : Notification T) : Listener T :=
  if listener.key = key then
    { listener with received := listener.received ++ [notification] }
  else listener

namespace ConfigVar

variable {T : Type}

def registered (initial : T) (keys : List UInt64) : ConfigVar T :=
  ⟨initial, keys.map fun key => ⟨key, []⟩, [], 0⟩

def compare [DecidableEq T] (var : ConfigVar T) (v : T) : ConfigVar T :=
  if v = var.val then var
  else { var with
    pending := var.pending ++ [⟨var.compared, v, var.cbs.map Listener.key⟩]
    compared := var.compared + 1 }

def notify (var : ConfigVar T) (place : Nat) : Option (ConfigVar T) :=
  match var.pending[place]? with
  | some ⟨number, v, key :: left⟩ =>
      some { var with
        cbs := var.cbs.map fun listener => listener.tell key ⟨number, var.val, v⟩
        pending := TaskPool.replace var.pending place [⟨number, v, left⟩] }
  | _ => none

def unlocked (var : ConfigVar T) : Bool := var.pending.all fun setting => setting.left.isEmpty

def step [DecidableEq T] (var : ConfigVar T) : ConfigAction T → Option (ConfigVar T)
  | .compare v => some (var.compare v)
  | .notify place => var.notify place
  | .assign place =>
      if var.unlocked then
        var.pending[place]?.map fun setting =>
          { var with val := setting.v, pending := TaskPool.replace var.pending place [] }
      else none
  | .delListener key =>
      if var.unlocked then
        some { var with cbs := var.cbs.filter fun listener => listener.key != key }
      else none

/-- A call that assigns while no other is under way is the last that told a listener anything. -/
def InOrder (var : ConfigVar T) : ConfigAction T → Prop
  | .assign _ => var.pending.length = 1 → ∀ setting ∈ var.pending, ∀ listener ∈ var.cbs,
      ∀ last ∈ listener.received.getLast?, last.call = setting.number
  | .compare _ | .notify _ | .delListener _ => True

instance (var : ConfigVar T) (action : ConfigAction T) : Decidable (var.InOrder action) :=
  match action with
  | .assign _ => inferInstanceAs (Decidable (_ → ∀ _ ∈ _, ∀ _ ∈ _, ∀ _ ∈ _, _))
  | .compare _ | .notify _ | .delListener _ => inferInstanceAs (Decidable True)

/-- Behind all calls, what a listener was told last is the value. -/
def Agrees (initial : T) (var : ConfigVar T) : Prop :=
  var.pending = [] → ∀ listener ∈ var.cbs,
    var.val = (listener.received.getLast?.map Notification.newValue).getD initial

instance [DecidableEq T] (initial : T) (var : ConfigVar T) : Decidable (var.Agrees initial) :=
  inferInstanceAs (Decidable (_ → ∀ _ ∈ _, _))

/-- Every call under way tells every listener once it is through, and always its own value. -/
structure Sound (initial : T) (var : ConfigVar T) : Prop where
  numbers : ∀ setting ∈ var.pending, setting.number < var.compared
  values : ∀ setting ∈ var.pending, ∀ other ∈ var.pending,
    setting.number = other.number → setting.v = other.v
  earlier : ∀ listener ∈ var.cbs, ∀ past ∈ listener.received, past.call < var.compared
  own : ∀ listener ∈ var.cbs, ∀ past ∈ listener.received, ∀ setting ∈ var.pending,
    past.call = setting.number → past.newValue = setting.v
  told : ∀ listener ∈ var.cbs, ∀ setting ∈ var.pending,
    listener.key ∈ setting.left ∨ ∃ past ∈ listener.received, past.call = setting.number
  agrees : var.Agrees initial

variable {initial : T} {var after : ConfigVar T} {action : ConfigAction T}

theorem mem_tell {listener : Listener T} {key : UInt64} {notification past : Notification T} :
    past ∈ (listener.tell key notification).received ↔
      past ∈ listener.received ∨ listener.key = key ∧ past = notification := by
  unfold Listener.tell
  split_ifs with same
  · simp [same]
  · simp [same]

@[simp] theorem tell_key (listener : Listener T) (key : UInt64) (notification : Notification T) :
    (listener.tell key notification).key = listener.key := by
  unfold Listener.tell
  split_ifs <;> rfl

theorem registered_sound (initial : T) (keys : List UInt64) :
    (registered initial keys).Sound initial := by
  have silent : ∀ listener ∈ (registered initial keys).cbs, listener.received = [] := by
    intro listener member
    rcases List.mem_map.mp member with ⟨key, _, same⟩
    rw [← same]
  have quiet : ∀ setting, setting ∉ (registered initial keys).pending := fun _ => List.not_mem_nil
  constructor
  case numbers => exact fun setting member => absurd member (quiet setting)
  case values => exact fun setting member => absurd member (quiet setting)
  case earlier =>
    intro listener member past heard
    rw [silent listener member] at heard
    cases heard
  case own => exact fun _ _ _ _ setting member => absurd member (quiet setting)
  case told => exact fun _ _ setting member => absurd member (quiet setting)
  case agrees =>
    intro _ listener member
    rw [silent listener member]
    rfl

theorem compare_sound [DecidableEq T] (sound : var.Sound initial) (v : T) :
    (var.compare v).Sound initial := by
  rw [compare]
  split
  · exact sound
  · have fresh : ∀ setting ∈ var.pending, setting.number ≠ var.compared := fun setting member =>
      Nat.ne_of_lt (sound.numbers setting member)
    constructor
    case numbers =>
      intro setting member
      rcases List.mem_append.mp member with before | new
      · exact Nat.lt_succ_of_lt (sound.numbers setting before)
      · rw [List.mem_singleton.mp new]
        exact Nat.lt_succ_self _
    case values =>
      intro setting member other also same
      rcases List.mem_append.mp member with before | new
      · rcases List.mem_append.mp also with beside | newer
        · exact sound.values setting before other beside same
        · rw [List.mem_singleton.mp newer] at same
          exact absurd same (fresh setting before)
      · rcases List.mem_append.mp also with beside | newer
        · rw [List.mem_singleton.mp new] at same
          exact absurd same.symm (fresh other beside)
        · rw [List.mem_singleton.mp new, List.mem_singleton.mp newer]
    case earlier =>
      intro listener member past heard
      exact Nat.lt_succ_of_lt (sound.earlier listener member past heard)
    case own =>
      intro listener member past heard setting waits same
      rcases List.mem_append.mp waits with before | new
      · exact sound.own listener member past heard setting before same
      · rw [List.mem_singleton.mp new] at same
        exact absurd same (Nat.ne_of_lt (sound.earlier listener member past heard))
    case told =>
      intro listener member setting waits
      rcases List.mem_append.mp waits with before | new
      · exact sound.told listener member setting before
      · rw [List.mem_singleton.mp new]
        exact .inl (List.mem_map_of_mem member)
    case agrees =>
      intro settled
      exact absurd settled (List.append_ne_nil_of_right_ne_nil _ (List.cons_ne_nil _ _))

theorem notify_sound {place : Nat} (sound : var.Sound initial)
    (taken : var.notify place = some after) : after.Sound initial := by
  unfold notify at taken
  split at taken
  next number v key left found =>
    cases taken
    have here : ⟨number, v, key :: left⟩ ∈ var.pending := List.mem_of_getElem? found
    -- what is behind the step has the number and the value of a call that was there before it
    have known : ∀ setting ∈ TaskPool.replace var.pending place [⟨number, v, left⟩],
        ∃ before ∈ var.pending, before.number = setting.number ∧ before.v = setting.v :=
      TaskPool.forall_replace_one (fun setting member => ⟨setting, member, rfl, rfl⟩)
        ⟨_, here, rfl, rfl⟩
    constructor
    case numbers =>
      intro setting member
      rcases known setting member with ⟨before, inside, same, _⟩
      rw [← same]
      exact sound.numbers before inside
    case values =>
      intro setting member other also same
      rcases known setting member with ⟨before, inside, numbered, valued⟩
      rcases known other also with ⟨beside, within, count, holds⟩
      rw [← valued, ← holds]
      exact sound.values before inside beside within (by rw [numbered, count, same])
    case earlier =>
      intro listener member past heard
      rcases List.mem_map.mp member with ⟨before, inside, same⟩
      rw [← same, mem_tell] at heard
      rcases heard with heard | ⟨_, new⟩
      · exact sound.earlier before inside past heard
      · rw [new]
        exact sound.numbers _ here
    case own =>
      intro listener member past heard setting waits same
      rcases List.mem_map.mp member with ⟨before, inside, told⟩
      rcases known setting waits with ⟨earlier, within, numbered, valued⟩
      rw [← numbered] at same
      rw [← valued]
      rw [← told, mem_tell] at heard
      rcases heard with heard | ⟨_, new⟩
      · exact sound.own before inside past heard earlier within same
      · rw [new] at same ⊢
        exact sound.values _ here earlier within same
    case told =>
      intro listener member setting waits
      rcases List.mem_map.mp member with ⟨before, inside, told⟩
      rw [← told, tell_key]
      rcases TaskPool.mem_replace waits with kept | new
      · rcases sound.told before inside setting kept with left | ⟨past, heard, same⟩
        · exact .inl left
        · exact .inr ⟨past, mem_tell.mpr (.inl heard), same⟩
      · rw [List.mem_singleton.mp new]
        rcases sound.told before inside _ here with waiting | ⟨past, heard, same⟩
        · rcases List.mem_cons.mp waiting with now | later
          · exact .inr ⟨_, mem_tell.mpr (.inr ⟨now, rfl⟩), rfl⟩
          · exact .inl later
        · exact .inr ⟨past, mem_tell.mpr (.inl heard), same⟩
    case agrees =>
      intro settled
      exact absurd settled (List.append_ne_nil_of_right_ne_nil _ (List.cons_ne_nil _ _))
  next => cases taken

theorem assign_sound {place : Nat} {setting : Setting T} (sound : var.Sound initial)
    (inOrder : var.InOrder (.assign place)) (unlocked : var.unlocked = true)
    (found : var.pending[place]? = some setting) :
    { var with val := setting.v, pending := TaskPool.replace var.pending place [] }.Sound
      initial := by
  have member : setting ∈ var.pending := List.mem_of_getElem? found
  have kept : ∀ other ∈ TaskPool.replace var.pending place [], other ∈ var.pending :=
    TaskPool.forall_replace (fun _ => id) (fun _ new => absurd new List.not_mem_nil)
  constructor
  case numbers => exact fun other waits => sound.numbers other (kept other waits)
  case values =>
    intro other waits another also
    exact sound.values other (kept other waits) another (kept another also)
  case earlier => exact sound.earlier
  case own =>
    intro listener inside past heard other waits
    exact sound.own listener inside past heard other (kept other waits)
  case told =>
    intro listener inside other waits
    exact sound.told listener inside other (kept other waits)
  case agrees =>
    intro settled listener inside
    have empty : TaskPool.replace var.pending place [] = [] := settled
    have moved := (TaskPool.replace_perm found []).length_eq
    rw [empty, List.append_nil] at moved
    have through := List.isEmpty_iff.mp (List.all_eq_true.mp unlocked setting member)
    rcases sound.told listener inside setting member with waiting | ⟨past, heard, _⟩
    · rw [through] at waiting
      cases waiting
    · have some_told := List.getLast?_eq_some_getLast (List.ne_nil_of_mem heard)
      have last := inOrder moved.symm setting member listener inside _ some_told
      have value := sound.own listener inside _ (List.getLast_mem _) setting member last
      rw [some_told, Option.map_some, value]
      rfl

theorem del_listener_sound (sound : var.Sound initial) (key : UInt64) :
    { var with cbs := var.cbs.filter fun listener => listener.key != key }.Sound initial where
  numbers := sound.numbers
  values := sound.values
  earlier := fun listener member => sound.earlier listener (List.mem_of_mem_filter member)
  own := fun listener member => sound.own listener (List.mem_of_mem_filter member)
  told := fun listener member => sound.told listener (List.mem_of_mem_filter member)
  agrees := fun settled listener member =>
    sound.agrees settled listener (List.mem_of_mem_filter member)

theorem step_sound [DecidableEq T] (sound : var.Sound initial) (inOrder : var.InOrder action)
    (taken : var.step action = some after) : after.Sound initial := by
  cases action with
  | compare v =>
      cases taken
      exact compare_sound sound v
  | notify place => exact notify_sound sound taken
  | assign place =>
      rw [step] at taken
      split at taken
      next unlocked =>
        rcases Option.map_eq_some_iff.mp taken with ⟨setting, found, same⟩
        rw [← same]
        exact assign_sound sound inOrder unlocked found
      next => cases taken
  | delListener key =>
      rw [step] at taken
      split at taken
      · cases taken
        exact del_listener_sound sound key
      · cases taken

/-- Copies that listeners keep are right behind all calls, if the last call to assign is the last
that told them. -/
theorem listeners_agree [DecidableEq T] (keys : List UInt64)
    (reached : Transition.Reaches step InOrder (registered initial keys) var) :
    var.Agrees initial := by
  have sound := Transition.invariant_of_reaches (registered_sound initial keys)
    (fun _ _ _ sound inOrder taken => step_sound sound inOrder taken) reached
  exact sound.agrees

/-- Two calls overlap, and the one that both listeners hear last assigns last. -/
theorem listeners_agree_two : ∃ var : ConfigVar Nat,
    (Transition.Reaches step InOrder (registered 0 [7, 9]) var ∧
      var = ⟨1, [⟨7, [⟨1, 0, 2⟩, ⟨0, 0, 1⟩]⟩, ⟨9, [⟨1, 0, 2⟩, ⟨0, 0, 1⟩]⟩], [], 2⟩) ∧
    var.Agrees 0 := by
  have reached : ∃ var : ConfigVar Nat, Transition.Reaches step InOrder (registered 0 [7, 9]) var ∧
      var = ⟨1, [⟨7, [⟨1, 0, 2⟩, ⟨0, 0, 1⟩]⟩, ⟨9, [⟨1, 0, 2⟩, ⟨0, 0, 1⟩]⟩], [], 2⟩ := by
    apply Transition.exists_of_run [.compare 1, .compare 2, .notify 1, .notify 0, .notify 0,
      .notify 0, .assign 0, .assign 0]
    decide +kernel
  rcases reached with ⟨var, reached, state⟩
  exact ⟨var, ⟨reached, state⟩, listeners_agree [7, 9] reached⟩

/-- The call that told the listener last assigns first. -/
theorem overtaken_assignment : ∃ var : ConfigVar Nat,
    Transition.Reaches step (fun _ _ => True) (registered 0 [7]) var ∧ ¬var.Agrees 0 := by
  apply Transition.exists_of_run [.compare 1, .notify 0, .compare 2, .notify 1, .assign 1,
    .assign 0]
  decide +kernel

end ConfigVar
end ChatServer
