import ChatServer.Fiber.FdContext
import ChatServer.Lib.Transition

/-!
# The table of descriptors

`m_fdcontexts` of `IOManager` and the calls that go through it, in their critical sections: the
look-up under the read lock, for `addEvent` the resize and second look-up under the write lock,
and the rest under the mutex of the context that was found. In between, other threads run. What
`epoll_wait` reports is dispatched later, one context at a time.
-/

namespace ChatServer.Fiber

set_option autoImplicit false

/-- Where a thread is. Contexts are pointers, which stay what they are when the table changes. -/
inductive CallStage where
  | idle
  /-- `addEvent` has found the table too short and has no lock. -/
  | resizing (fd : Nat) (operation : Operation)
  /-- `fd_ctx` is known, its mutex is not taken yet. -/
  | found (context : Nat) (operation : Operation)
  /-- In `idle`, with this much of the result of `epoll_wait` left. -/
  | dispatching (reports : List (Nat × Report))
  deriving DecidableEq

/-- `objects` are the contexts ever created; the table holds their numbers. -/
structure EventTable where
  objects : List FdContext
  fdcontexts : List Nat
  pending : UInt64
  scheduled : List (Nat × Task)
  stages : Nat → CallStage

namespace EventTable

def contextResize (table : EventTable) (size : Nat) : EventTable :=
  let kept := table.fdcontexts.take size
  let fresh := List.range' kept.length (size - kept.length)
  { table with
    objects := table.objects ++ fresh.map FdContext.new
    fdcontexts := kept ++ List.range' table.objects.length fresh.length }

def start : EventTable := contextResize ⟨[], [], 0, [], fun _ => .idle⟩ 32

def goto (table : EventTable) (thread : Nat) (stage : CallStage) : EventTable :=
  { table with stages := Function.update table.stages thread stage }

def lookup (table : EventTable) (thread fd : Nat) (operation : Operation) : Result EventTable :=
  match table.fdcontexts[fd]? with
  | none => .error (.undefined .outOfBounds)
  | some context => .ok (table.goto thread (.found context operation))

def enter (table : EventTable) (thread fd : Nat) (operation : Operation) : Result EventTable :=
  if int32 table.fdcontexts.length > fd then table.lookup thread fd operation
  else
    match operation with
    | .addEvent _ _ _ => .ok (table.goto thread (.resizing fd operation))
    | .delEvent _ | .cancelEvent _ | .cancelAll => .ok table

/-- `addEvent` under the write lock; `fd * 1.5` is cut off to a `size_t`. -/
def resize (table : EventTable) (thread fd : Nat) (operation : Operation) : Result EventTable :=
  (table.contextResize (fd * 3 / 2)).lookup thread fd operation

def locked (table : EventTable) (thread context : Nat) (body : Held → Result Held)
    (stage : CallStage) : Result EventTable :=
  match table.objects[context]? with
  | none => .error (.undefined .nullDeref)
  | some ctx => do
      let held ← body ⟨ctx, table.pending, table.scheduled⟩
      .ok { objects := table.objects.set context held.ctx
            fdcontexts := table.fdcontexts
            pending := held.pending
            scheduled := held.scheduled
            stages := Function.update table.stages thread stage }

def Reportable (table : EventTable) (reported : Nat × Report) : Bool :=
  match table.objects[reported.1]? with
  | none => false
  | some ctx => ctx.anyEvent && (!reported.2.epollIn || ctx.events .read) &&
      (!reported.2.epollOut || ctx.events .write)

def bits (table : EventTable) : Nat := (table.objects.map FdContext.bits).sum

def maxObjects : Nat := 2 ^ 47

end EventTable

inductive TableAction where
  | enter (thread fd : Nat) (operation : Operation)
  | resize (thread : Nat)
  | run (thread : Nat) (epollCtl : Bool)
  | epollWait (thread : Nat) (reports : List (Nat × Report))
  | dispatch (thread : Nat) (epollCtl : Bool)

namespace EventTable

/-- One section of a thread, if it can be its next one. An `fd` is an `int` of the kernel's. -/
def act (table : EventTable) : TableAction → Option (Result EventTable)
  | .enter thread fd operation =>
      if table.stages thread = .idle ∧ fd < 2 ^ 31 then some (table.enter thread fd operation)
      else none
  | .resize thread =>
      match table.stages thread with
      | .resizing fd operation =>
          if (table.contextResize (fd * 3 / 2)).objects.length ≤ maxObjects then
            some (table.resize thread fd operation)
          else none
      | _ => none
  | .run thread epollCtl =>
      match table.stages thread with
      | .found context operation =>
          some (table.locked thread context (fun held => operation.run held epollCtl) .idle)
      | _ => none
  | .epollWait thread reports =>
      if table.stages thread = .idle ∧ reports.all table.Reportable then
        some (.ok (table.goto thread (.dispatching reports)))
      else none
  | .dispatch thread epollCtl =>
      match table.stages thread with
      | .dispatching [] => some (.ok (table.goto thread .idle))
      | .dispatching ((context, report) :: rest) =>
          some (table.locked thread context (fun held => held.dispatch report epollCtl)
            (.dispatching rest))
      | _ => none

def step : Result EventTable → TableAction → Option (Result EventTable)
  | .error _, _ => none
  | .ok table, action => table.act action

/-- `addEvent` gets to its context from a scheduler's thread and for an event that is clear. -/
def proper (table : EventTable) : TableAction → Bool
  | .run thread _ =>
      match table.stages thread with
      | .found context operation =>
          match table.objects[context]? with
          | some ctx => Held.Proper ⟨ctx, table.pending, table.scheduled⟩ operation
          | none => true
      | _ => true
  | _ => true

/-- No report is dispatched of which an event is still registered and another is not. -/
def timely (table : EventTable) : TableAction → Bool
  | .dispatch thread epollCtl =>
      match table.stages thread with
      | .dispatching ((context, report) :: _) =>
          match table.objects[context]? with
          | some ctx => !(epollCtl && ctx.reaches report && ctx.stale report)
          | none => true
      | _ => true
  | _ => true

/-- The table is not longer than what `addEvent` resizes it to. -/
def growing (table : EventTable) : TableAction → Bool
  | .resize thread =>
      match table.stages thread with
      | .resizing fd _ => table.fdcontexts.length ≤ fd * 3 / 2
      | _ => true
  | _ => true

/-- The condition holds where there is a table. -/
def Where (condition : EventTable → TableAction → Bool) : Result EventTable → TableAction → Prop
  | .ok table, action => condition table action = true
  | .error _, _ => True

instance (condition : EventTable → TableAction → Bool) (state : Result EventTable)
    (action : TableAction) : Decidable (Where condition state action) :=
  match state with
  | .ok table => inferInstanceAs (Decidable (condition table action = true))
  | .error _ => inferInstanceAs (Decidable True)

end EventTable
end ChatServer.Fiber
