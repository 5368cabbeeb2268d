import ChatServer.Fiber.FdContext
import ChatServer.Fiber.FdManager

/-!
# The hooked calls

`socket`, `accept`, `fcntl`, `setsockopt`, `close` and the calls that go through `do_io`, of
`hook.cc`, in threads with hooks enabled. What is known of a descriptor is in three places: the
kernel, the registry of `fd_manager.cc` and the event contexts of `iomanager.cc`, all of them
under its number, which the kernel gives out again.
-/

namespace ChatServer.Fiber

set_option autoImplicit false

structure KernelFd where
  isSocket : Bool
  nonblock : Bool
  deriving DecidableEq

/-- `contexts` has a context for every descriptor; one that is not in `m_fdcontexts` yet has no
event. -/
structure Hooks where
  kernel : Nat → Option KernelFd
  manager : FdManager
  contexts : Nat → FdContext
  pending : UInt64
  scheduled : List (Nat × Task)

namespace Hooks

def start : Hooks where
  kernel := fun fd => if fd < 3 then some ⟨false, false⟩ else none
  manager := .start
  contexts := FdContext.new
  pending := 0
  scheduled := []

def setNonblock (hooks : Hooks) (fd : Nat) (nonblock : Bool) : Hooks :=
  { hooks with
    kernel := Function.update hooks.kernel fd
      ((hooks.kernel fd).map fun open_ => { open_ with nonblock }) }

def closeF (hooks : Hooks) (fd : Nat) : Hooks :=
  { hooks with kernel := Function.update hooks.kernel fd none }

def withHeld (hooks : Hooks) (fd : Nat) (body : Held → Result Held) : Result Hooks := do
  let held ← body ⟨hooks.contexts fd, hooks.pending, hooks.scheduled⟩
  .ok { hooks with
    contexts := Function.update hooks.contexts fd held.ctx
    pending := held.pending
    scheduled := held.scheduled }

def ctxOf (hooks : Hooks) (fd : Nat) : Result (Option (Nat × FdCtx)) := do
  match ← hooks.manager.find fd false with
  | .returns (some id) =>
      match hooks.manager.objects[id]? with
      | some ctx => .ok (some (id, ctx))
      | none => .error (.undefined .nullDeref)
  | _ => .ok none

def writeCtx (hooks : Hooks) (id : Nat) (ctx : FdCtx) : Hooks :=
  { hooks with manager := { hooks.manager with objects := hooks.manager.objects.set id ctx } }

/-- `get(fd, true)`. The constructor of a context makes the descriptor of a socket non-blocking. -/
def register (hooks : Hooks) (fd : Nat) : Result Hooks := do
  match ← hooks.manager.find fd true with
  | .returns _ => .ok hooks
  | .creates =>
      let stat := (hooks.kernel fd).map (·.isSocket)
      let (manager, _) ← hooks.manager.create fd stat
      let hooks := { hooks with manager }
      .ok (if stat = some true then hooks.setNonblock fd true else hooks)

/-- `socket`, and `accept` behind `do_io`, when the kernel has answered with `fd`. -/
def socket (hooks : Hooks) (fd : Nat) (nonblock : Bool) : Result Hooks :=
  { hooks with kernel := Function.update hooks.kernel fd (some ⟨true, nonblock⟩) }.register fd

/-- `addEvent` in `do_io`; `IOManager::GetThis()` is null in a thread without a scheduler. -/
def await (hooks : Hooks) (fd : Nat) (event : Event) (caller : Caller) (epollCtl : Bool) :
    Result Hooks :=
  match caller.scheduler with
  | none => .error (.undefined .nullDeref)
  | some _ =>
      hooks.withHeld fd fun held => Prod.fst <$> held.addEvent event none caller epollCtl

def doIo (hooks : Hooks) (fd : Nat) (event : Event) (caller : Caller) (epollCtl : Bool) :
    Result Hooks := do
  match ← hooks.ctxOf fd with
  | none => .ok hooks
  | some (_, ctx) =>
      if ctx.isClosed || !ctx.isSocket || ctx.userNonblock then .ok hooks
      else hooks.await fd event caller epollCtl

def fcntl (hooks : Hooks) (fd : Nat) (nonblock : Bool) : Result Hooks := do
  match ← hooks.ctxOf fd with
  | none => .ok (hooks.setNonblock fd nonblock)
  | some (id, ctx) =>
      if ctx.isClosed then .ok (hooks.setNonblock fd nonblock)
      else
        let ctx := ctx.setUserNonblock nonblock
        .ok ((hooks.writeCtx id ctx).setNonblock fd ctx.getSysNonblock)

def setsockopt (hooks : Hooks) (fd : Nat) (type : TimeoutType) (ms : UInt64) : Result Hooks := do
  match ← hooks.ctxOf fd with
  | none => .ok hooks
  | some (id, ctx) => .ok (hooks.writeCtx id (ctx.setTimeout type ms))

/-- `close`. With hooks enabled it goes straight to `close_f`; without, it cancels the events, if
the thread has an `IOManager`, and removes the context. -/
def close (hooks : Hooks) (hookEnable iom epollCtl : Bool) (fd : Nat) : Result Hooks := do
  if hookEnable then .ok (hooks.closeF fd)
  else
    match ← hooks.ctxOf fd with
    | none => .ok (hooks.closeF fd)
    | some _ =>
        let hooks ←
          if iom then hooks.withHeld fd fun held => Prod.fst <$> held.cancelAll epollCtl
          else .ok hooks
        let manager ← hooks.manager.del fd
        .ok ({ hooks with manager }.closeF fd)

end Hooks

/-- The calls in threads with hooks enabled, and what wakes the fibers that wait in `do_io`:
`retry` is a fiber that was woken and finds `EAGAIN` again. -/
inductive HookCall where
  | socket (fd : Nat) (nonblock : Bool)
  | accept (fd : Nat)
  | doIo (fd : Nat) (event : Event) (caller : Caller) (epollCtl : Bool)
  | retry (fd : Nat) (event : Event) (caller : Caller) (epollCtl : Bool)
  | timeout (fd : Nat) (event : Event) (epollCtl : Bool)
  | ready (fd : Nat) (report : Report) (epollCtl : Bool)
  | fcntl (fd : Nat) (nonblock : Bool)
  | setsockopt (fd : Nat) (type : TimeoutType) (ms : UInt64)
  | close (fd : Nat)

namespace Hooks

/-- The kernel gives out numbers that are free, answers `EAGAIN` for descriptors that are open,
and takes and reports events of these only. -/
def possible (hooks : Hooks) : HookCall → Bool
  | .socket fd _ | .accept fd => hooks.kernel fd == none
  | .doIo fd _ _ _ => hooks.kernel fd != none
  | .retry fd _ caller _ =>
      hooks.kernel fd != none && hooks.scheduled.any fun job => job.2 == .fiber caller.fiber
  | .timeout fd _ epollCtl => hooks.kernel fd != none || !epollCtl
  | .ready fd _ _ => hooks.kernel fd != none
  | .fcntl _ _ | .setsockopt _ _ _ | .close _ => true

def perform (hooks : Hooks) : HookCall → Result Hooks
  | .socket fd nonblock => hooks.socket fd nonblock
  | .accept fd => hooks.socket fd false
  | .doIo fd event caller epollCtl => hooks.doIo fd event caller epollCtl
  | .retry fd event caller epollCtl => hooks.await fd event caller epollCtl
  | .timeout fd event epollCtl =>
      hooks.withHeld fd fun held => Prod.fst <$> held.cancelEvent event epollCtl
  | .ready fd report epollCtl => hooks.withHeld fd fun held => held.dispatch report epollCtl
  | .fcntl fd nonblock => hooks.fcntl fd nonblock
  | .setsockopt fd type ms => hooks.setsockopt fd type ms
  | .close fd => hooks.close true true true fd

def step : Result Hooks → HookCall → Option (Result Hooks)
  | .error _, _ => none
  | .ok hooks, call => if hooks.possible call then some (hooks.perform call) else none

def registered (hooks : Hooks) (fd : Nat) : Bool := (hooks.manager.datas[fd]?.join).isSome

/-- The descriptor that is closed has no context and no event, and a new one has a slot. -/
def untouched (hooks : Hooks) : HookCall → Bool
  | .close fd => !hooks.registered fd && !(hooks.contexts fd).anyEvent
  | .socket fd _ | .accept fd => fd < 64
  | _ => true

def Untouched : Result Hooks → HookCall → Prop
  | .ok hooks, call => hooks.untouched call = true
  | .error _, _ => True

instance (state : Result Hooks) (call : HookCall) : Decidable (Untouched state call) :=
  match state with
  | .ok hooks => inferInstanceAs (Decidable (hooks.untouched call = true))
  | .error _ => inferInstanceAs (Decidable True)

end Hooks
end ChatServer.Fiber
