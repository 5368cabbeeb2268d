import ChatServer.Lib.Transition
import ChatServer.Machine

/-!
# The registry of descriptors

`FdCtx` and `FdManager` of `fd_manager.cc`. `get` looks under the read lock and creates under the
write lock, in two sections; `m_datas` has 64 slots and is never resized. Descriptors are not
negative: `get(-1)` returns null before it looks at anything.
-/

namespace ChatServer.Fiber

set_option autoImplicit false

/-- `SO_RCVTIMEO` or another type, which counts as `SO_SNDTIMEO`. -/
inductive TimeoutType where
  | rcvTimeo
  | sndTimeo
  deriving DecidableEq

structure FdCtx where
  isInit : Bool
  isSocket : Bool
  sysNonblock : Bool
  isClosed : Bool
  userNonblock : Bool
  fd : Nat
  recvTimeout : UInt64
  sendTimeout : UInt64
  deriving DecidableEq

namespace FdCtx

/-- The constructor with `init`. `stat` is what `fstat` says of the descriptor: nothing, if it
fails, else whether it is a socket. The timeouts are -1. -/
def new (fd : Nat) (stat : Option Bool) : FdCtx :=
  let isSocket := stat == some true
  ⟨stat.isSome, isSocket, isSocket, false, false, fd, ~~~0, ~~~0⟩

def setTimeout (ctx : FdCtx) (type : TimeoutType) (ms : UInt64) : FdCtx :=
  match type with
  | .rcvTimeo => { ctx with recvTimeout := ms }
  | .sndTimeo => { ctx with sendTimeout := ms }

def getTimeout (ctx : FdCtx) (type : TimeoutType) : UInt64 :=
  match type with
  | .rcvTimeo => ctx.recvTimeout
  | .sndTimeo => ctx.sendTimeout

def setUserNonblock (ctx : FdCtx) (value : Bool) : FdCtx := { ctx with userNonblock := value }

/-- It returns `m_userNonblock`, not `m_sysNonblock`. -/
def getSysNonblock (ctx : FdCtx) : Bool := ctx.userNonblock

end FdCtx

/-- `objects` are the contexts ever created; `m_datas` points to some of them. -/
structure FdManager where
  objects : List FdCtx
  datas : List (Option Nat)
  deriving DecidableEq

inductive Lookup where
  | returns (ctx : Option Nat)
  | creates
  deriving DecidableEq

namespace FdManager

def start : FdManager := ⟨[], List.replicate 64 none⟩

/-- `get` under the read lock. -/
def find (manager : FdManager) (fd : Nat) (autoCreate : Bool) : Result Lookup :=
  if int32 manager.datas.length ≤ fd then
    .ok (if autoCreate = false then .returns none else .creates)
  else
    match manager.datas[fd]? with
    | none => .error (.undefined .outOfBounds)
    | some slot => .ok (if slot.isSome || !autoCreate then .returns slot else .creates)

/-- `get` under the write lock. -/
def create (manager : FdManager) (fd : Nat) (stat : Option Bool) : Result (FdManager × Nat) :=
  if fd < manager.datas.length then
    .ok (⟨manager.objects ++ [FdCtx.new fd stat],
      manager.datas.set fd (some manager.objects.length)⟩, manager.objects.length)
  else .error (.undefined .outOfBounds)

/-- `get`, when no other thread comes in between. -/
def get (manager : FdManager) (fd : Nat) (autoCreate : Bool) (stat : Option Bool) :
    Result (FdManager × Option Nat) := do
  match ← manager.find fd autoCreate with
  | .returns ctx => .ok (manager, ctx)
  | .creates =>
      let (manager, ctx) ← manager.create fd stat
      .ok (manager, some ctx)

def del (manager : FdManager) (fd : Nat) : Result FdManager :=
  if int32 manager.datas.length ≤ fd then .ok manager
  else if fd < manager.datas.length then
    .ok { manager with datas := manager.datas.set fd none }
  else .error (.undefined .outOfBounds)

end FdManager

/-- What `get` and `del` calls have done, for the history. -/
inductive RegistryEntry where
  | got (fd : Nat) (autoCreate : Bool) (ctx : Option Nat)
  | deleted (fd : Nat)
  deriving DecidableEq

/-- `creating` holds, for threads inside `get` between the locks, the descriptor; `log` is a
history, the latest first. -/
structure FdRegistry where
  manager : FdManager
  creating : Nat → Option Nat
  log : List RegistryEntry

inductive RegistryAction where
  | get (thread fd : Nat) (autoCreate : Bool)
  | create (thread : Nat) (stat : Option Bool)
  | del (fd : Nat)

namespace FdRegistry

def start : FdRegistry := ⟨.start, fun _ => none, []⟩

def act (registry : FdRegistry) : RegistryAction → Option (Result FdRegistry)
  | .get thread fd autoCreate =>
      match registry.creating thread with
      | some _ => none
      | none => some do
          match ← registry.manager.find fd autoCreate with
          | .returns ctx => .ok { registry with log := .got fd autoCreate ctx :: registry.log }
          | .creates =>
              .ok { registry with creating := Function.update registry.creating thread (some fd) }
  | .create thread stat =>
      match registry.creating thread with
      | none => none
      | some fd => some do
          let (manager, ctx) ← registry.manager.create fd stat
          .ok { manager
                creating := Function.update registry.creating thread none
                log := .got fd true (some ctx) :: registry.log }
  | .del fd => some do
      let manager ← registry.manager.del fd
      .ok { registry with manager, log := .deleted fd :: registry.log }

def step : Result FdRegistry → RegistryAction → Option (Result FdRegistry)
  | .error _, _ => none
  | .ok registry, action => registry.act action

def vacant (registry : FdRegistry) : RegistryAction → Bool
  | .create thread _ =>
      match registry.creating thread with
      | some fd => registry.manager.datas[fd]? == some none
      | none => true
  | .get _ _ _ | .del _ => true

def Vacant : Result FdRegistry → RegistryAction → Prop
  | .ok registry, action => registry.vacant action = true
  | .error _, _ => True

instance (state : Result FdRegistry) (action : RegistryAction) :
    Decidable (Vacant state action) :=
  match state with
  | .ok registry => inferInstanceAs (Decidable (registry.vacant action = true))
  | .error _ => inferInstanceAs (Decidable True)

def concerns (registry : FdRegistry) : RegistryAction → Option Nat
  | .get _ fd _ => some fd
  | .create thread _ => registry.creating thread
  | .del fd => some fd

end FdRegistry
end ChatServer.Fiber
