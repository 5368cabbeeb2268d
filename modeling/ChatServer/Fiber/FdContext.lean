import ChatServer.Machine
import Mathlib.Logic.Function.Basic

/-!
# Events of a descriptor

`IOManager::FdContext` and the parts of `iomanager.cc` that run under its mutex. `m_events` has
a bit for each of the two events, `READ` and `WRITE`, and each event has a context that says
whom to wake. `epoll_ctl` is the kernel's: whether a call of it succeeds is an argument.
-/

namespace ChatServer.Fiber

set_option autoImplicit false

inductive Event where
  | read
  | write
  deriving DecidableEq

structure EventContext where
  scheduler : Option Nat
  fiber : Option Nat
  cb : Option Nat
  deriving DecidableEq

/-- `resetContext` leaves this. -/
def EventContext.empty : EventContext := ⟨none, none, none⟩

/-- `events` are the bits of `m_events`. -/
structure FdContext where
  fd : Nat
  events : Event → Bool
  contexts : Event → EventContext

inductive Task where
  | fiber (fiber : Nat)
  | cb (cb : Nat)
  deriving DecidableEq

/-- The scheduler and the fiber of a thread that calls `addEvent`. The fiber is running, so its
state is `EXEC`. -/
structure Caller where
  scheduler : Option Nat
  fiber : Nat
  deriving DecidableEq

/-- The context that `addEvent` fills in: the callback, or without one the caller's fiber. -/
def EventContext.filled (cb : Option Nat) (caller : Caller) : EventContext :=
  match cb with
  | some cb => ⟨caller.scheduler, none, some cb⟩
  | none => ⟨caller.scheduler, some caller.fiber, none⟩

structure Report where
  epollIn : Bool
  epollOut : Bool
  epollErr : Bool
  epollHup : Bool
  deriving DecidableEq

namespace FdContext

def new (fd : Nat) : FdContext := ⟨fd, fun _ => false, fun _ => .empty⟩

def withEvent (ctx : FdContext) (event : Event) (registered : Bool) : FdContext :=
  { ctx with events := Function.update ctx.events event registered }

def withContext (ctx : FdContext) (event : Event) (context : EventContext) : FdContext :=
  { ctx with contexts := Function.update ctx.contexts event context }

def anyEvent (ctx : FdContext) : Bool := ctx.events .read || ctx.events .write

def bits (ctx : FdContext) : Nat := (ctx.events .read).toNat + (ctx.events .write).toNat

/-- `real_events` of `idle`: an error or a hangup concerns all events that are registered. -/
def realEvents (ctx : FdContext) (report : Report) : Event → Bool
  | .read => report.epollIn || (report.epollErr || report.epollHup) && ctx.events .read
  | .write => report.epollOut || (report.epollErr || report.epollHup) && ctx.events .write

def reaches (ctx : FdContext) (report : Report) : Bool :=
  let real := ctx.realEvents report
  ctx.events .read && real .read || ctx.events .write && real .write

def stale (ctx : FdContext) (report : Report) : Bool :=
  let real := ctx.realEvents report
  !ctx.events .read && real .read || !ctx.events .write && real .write

end FdContext

/-- What a call works on while it holds `fd_ctx->mutex`: the context, `m_pendingEventCount`, and
what was handed to schedulers so far. -/
structure Held where
  ctx : FdContext
  pending : UInt64
  scheduled : List (Nat × Task)

namespace Held

/-- `triggerEvent`. Scheduling swaps the callback or the fiber out of the context. -/
def triggerEvent (held : Held) (event : Event) : Result Held :=
  if held.ctx.events event = false then .ok held
  else
    let ctx := held.ctx.withEvent event false
    let context := ctx.contexts event
    match context.scheduler with
    | none => .error (.undefined .nullDeref)
    | some scheduler =>
        match context.cb with
        | some cb =>
            .ok { held with
              ctx := ctx.withContext event { context with cb := none, scheduler := none }
              scheduled := held.scheduled ++ [(scheduler, .cb cb)] }
        | none =>
            .ok { held with
              ctx := ctx.withContext event { context with fiber := none, scheduler := none }
              scheduled := held.scheduled ++
                context.fiber.toList.map fun fiber => (scheduler, .fiber fiber) }

/-- `triggerEvent(event)` and `--m_pendingEventCount` behind it. -/
def triggerCounted (held : Held) (event : Event) : Result Held := do
  let held ← held.triggerEvent event
  .ok { held with pending := held.pending - 1 }

def triggerIf (held : Held) (registered : Bool) (event : Event) : Result Held :=
  if registered then held.triggerCounted event else .ok held

def addEvent (held : Held) (event : Event) (cb : Option Nat) (caller : Caller)
    (epollCtl : Bool) : Result (Held × Int) :=
  if held.ctx.events event = true then .error .aborted
  else if epollCtl = false then .ok (held, -1)
  else
    let ctx := held.ctx.withEvent event true
    if ctx.contexts event ≠ .empty then .error .aborted
    else
      .ok ({ held with
        ctx := ctx.withContext event (.filled cb caller)
        pending := held.pending + 1 }, 0)

def delEvent (held : Held) (event : Event) (epollCtl : Bool) : Result (Held × Bool) :=
  if held.ctx.events event = false then .ok (held, false)
  else if epollCtl = false then .ok (held, false)
  else
    .ok ({ held with
      ctx := (held.ctx.withEvent event false).withContext event .empty
      pending := held.pending - 1 }, true)

def cancelEvent (held : Held) (event : Event) (epollCtl : Bool) : Result (Held × Bool) :=
  if held.ctx.events event = false then .ok (held, false)
  else if epollCtl = false then .ok (held, false)
  else do
    let held ← held.triggerCounted event
    .ok (held, true)

def cancelAll (held : Held) (epollCtl : Bool) : Result (Held × Bool) :=
  if held.ctx.anyEvent = false then .ok (held, false)
  else if epollCtl = false then .ok (held, false)
  else do
    let held ← held.triggerIf (held.ctx.events .read) .read
    let held ← held.triggerIf (held.ctx.events .write) .write
    if held.ctx.anyEvent then .error .aborted else .ok (held, true)

/-- One turn of the loop of `idle` over what `epoll_wait` has reported, from the mutex on. -/
def dispatch (held : Held) (report : Report) (epollCtl : Bool) : Result Held :=
  let real := held.ctx.realEvents report
  if held.ctx.reaches report = false then .ok held
  else if epollCtl = false then .ok held
  else do
    let held ← held.triggerIf (real .read) .read
    held.triggerIf (real .write) .write

end Held

inductive Operation where
  | addEvent (event : Event) (cb : Option Nat) (caller : Caller)
  | delEvent (event : Event)
  | cancelEvent (event : Event)
  | cancelAll
  deriving DecidableEq

def Operation.run (held : Held) (epollCtl : Bool) : Operation → Result Held
  | .addEvent event cb caller => Prod.fst <$> held.addEvent event cb caller epollCtl
  | .delEvent event => Prod.fst <$> held.delEvent event epollCtl
  | .cancelEvent event => Prod.fst <$> held.cancelEvent event epollCtl
  | .cancelAll => Prod.fst <$> held.cancelAll epollCtl

/-- Someone is to be woken: a fiber or a callback, and not both. -/
def EventContext.Waits (context : EventContext) : Prop :=
  context.scheduler ≠ none ∧
    (context.fiber ≠ none ∧ context.cb = none ∨ context.fiber = none ∧ context.cb ≠ none)

def EventContext.job (context : EventContext) : Option (Nat × Task) :=
  match context.scheduler, context.cb, context.fiber with
  | some scheduler, some cb, _ => some (scheduler, .cb cb)
  | some scheduler, none, some fiber => some (scheduler, .fiber fiber)
  | _, _, _ => none

theorem EventContext.filled_waits (cb : Option Nat) {caller : Caller}
    (known : caller.scheduler ≠ none) : (EventContext.filled cb caller).Waits := by
  cases cb with
  | none => exact ⟨known, .inl ⟨Option.some_ne_none caller.fiber, rfl⟩⟩
  | some cb => exact ⟨known, .inr ⟨rfl, Option.some_ne_none cb⟩⟩

namespace FdContext

structure Consistent (ctx : FdContext) : Prop where
  registered : ∀ event, ctx.events event = true → (ctx.contexts event).Waits
  clear : ∀ event, ctx.events event = false → ctx.contexts event = .empty

theorem new_consistent (fd : Nat) : (new fd).Consistent :=
  ⟨fun _ set => Bool.noConfusion set, fun _ _ => rfl⟩

variable {ctx : FdContext}

theorem Consistent.remove (consistent : ctx.Consistent) (event : Event) :
    ((ctx.withEvent event false).withContext event .empty).Consistent where
  registered := by
    intro other set
    by_cases same : other = event
    · simp [withEvent, withContext, same] at set
    · simp only [withEvent, withContext, Function.update_of_ne same] at set ⊢
      exact consistent.registered other set
  clear := by
    intro other unset
    by_cases same : other = event
    · simp [withContext, same]
    · simp only [withEvent, withContext, Function.update_of_ne same] at unset ⊢
      exact consistent.clear other unset

theorem bits_cleared {after : FdContext} {event : Event} (set : ctx.events event = true)
    (events : after.events = Function.update ctx.events event false) :
    after.bits + 1 = ctx.bits := by
  rw [bits, bits, events]
  cases event <;> simp [set]
  omega

theorem bits_set {after : FdContext} {event : Event} (clear : ctx.events event = false)
    (events : after.events = Function.update ctx.events event true) :
    after.bits = ctx.bits + 1 := by
  rw [bits, bits, events]
  cases event <;> simp [clear]
  omega

theorem Consistent.add (consistent : ctx.Consistent) (event : Event) {context : EventContext}
    (waits : context.Waits) :
    ((ctx.withEvent event true).withContext event context).Consistent where
  registered := by
    intro other set
    by_cases same : other = event
    · simpa [withContext, same] using waits
    · simp only [withEvent, withContext, Function.update_of_ne same] at set ⊢
      exact consistent.registered other set
  clear := by
    intro other unset
    by_cases same : other = event
    · simp [withEvent, withContext, same] at unset
    · simp only [withEvent, withContext, Function.update_of_ne same] at unset ⊢
      exact consistent.clear other unset

end FdContext

namespace Held

variable {held after : Held}

/-- A trigger hands the one who waits to the scheduler and leaves the context empty. -/
theorem trigger_event_waits {event : Event} (set : held.ctx.events event = true)
    (waits : (held.ctx.contexts event).Waits) :
    ∃ job, (held.ctx.contexts event).job = some job ∧ held.triggerEvent event = .ok { held with
      ctx := (held.ctx.withEvent event false).withContext event .empty
      scheduled := held.scheduled ++ [job] } := by
  have registered : ¬ held.ctx.events event = false := by simp [set]
  rw [triggerEvent, if_neg registered]
  simp only [FdContext.withEvent]
  cases found : held.ctx.contexts event with
  | mk scheduler fiber cb =>
      rw [found] at waits
      rcases waits with ⟨known, one⟩
      cases scheduler with
      | none => exact absurd rfl known
      | some scheduler =>
          cases fiber with
          | none =>
              cases cb with
              | none => simp at one
              | some cb => exact ⟨(scheduler, .cb cb), rfl, rfl⟩
          | some fiber =>
              cases cb with
              | none => exact ⟨(scheduler, .fiber fiber), rfl, rfl⟩
              | some cb => simp at one

theorem trigger_event_consistent (consistent : held.ctx.Consistent) (event : Event) :
    ∃ after, held.triggerEvent event = .ok after ∧ after.ctx.Consistent := by
  cases set : held.ctx.events event with
  | false => exact ⟨held, if_pos set, consistent⟩
  | true =>
      rcases trigger_event_waits set (consistent.registered event set) with ⟨job, _, done⟩
      exact ⟨_, done, consistent.remove event⟩

/-- A trigger that returns has cleared the bit and nothing else that is counted. -/
theorem trigger_event_ok {event : Event} (done : held.triggerEvent event = .ok after) :
    after.ctx.events = Function.update held.ctx.events event false ∧
      after.ctx.fd = held.ctx.fd ∧ after.pending = held.pending := by
  rw [triggerEvent] at done
  split at done
  · cases done
    refine ⟨?_, rfl, rfl⟩
    rw [← ‹held.ctx.events event = false›, Function.update_eq_self]
  · simp only at done
    split at done
    · cases done
    · split at done <;> cases done <;> exact ⟨rfl, rfl, rfl⟩

theorem trigger_counted_ok {event : Event} (done : held.triggerCounted event = .ok after) :
    after.ctx.events = Function.update held.ctx.events event false ∧
      after.ctx.fd = held.ctx.fd ∧ after.pending = held.pending - 1 := by
  rw [triggerCounted] at done
  rcases bind_eq_ok done with ⟨next, triggered, rest⟩
  cases rest
  rcases trigger_event_ok triggered with ⟨events, fd, pending⟩
  exact ⟨events, fd, by rw [pending]⟩

theorem trigger_counted_consistent (consistent : held.ctx.Consistent) (event : Event) :
    ∃ after, held.triggerCounted event = .ok after ∧ after.ctx.Consistent := by
  rcases trigger_event_consistent consistent event with ⟨next, triggered, kept⟩
  exact ⟨{ next with pending := next.pending - 1 }, by rw [triggerCounted, triggered, bind_ok],
    kept⟩

/-- The counter has moved as the number of bits did, and the context is the same one. -/
structure Balanced (before after : Held) : Prop where
  counted : after.pending + UInt64.ofNat before.ctx.bits =
    before.pending + UInt64.ofNat after.ctx.bits
  fd : after.ctx.fd = before.ctx.fd

theorem Balanced.refl (held : Held) : Balanced held held := ⟨rfl, rfl⟩

theorem Balanced.trans {first second third : Held} (left : Balanced first second)
    (right : Balanced second third) : Balanced first third where
  counted := by
    have one := left.counted
    have two := right.counted
    grind
  fd := right.fd.trans left.fd

/-- Clearing a bit that is set, with one off the counter. -/
theorem balanced_of_cleared {event : Event} (set : held.ctx.events event = true)
    (events : after.ctx.events = Function.update held.ctx.events event false)
    (fd : after.ctx.fd = held.ctx.fd) (pending : after.pending = held.pending - 1) :
    Balanced held after := by
  have fewer := FdContext.bits_cleared set events
  refine ⟨?_, fd⟩
  rw [pending, ← fewer, UInt64.ofNat_add]
  grind

/-- Setting a bit that is clear, with one on the counter. -/
theorem balanced_of_set {event : Event} (clear : held.ctx.events event = false)
    (events : after.ctx.events = Function.update held.ctx.events event true)
    (fd : after.ctx.fd = held.ctx.fd) (pending : after.pending = held.pending + 1) :
    Balanced held after := by
  have more := FdContext.bits_set clear events
  refine ⟨?_, fd⟩
  rw [pending, more, UInt64.ofNat_add]
  grind

theorem trigger_counted_balanced {event : Event} (set : held.ctx.events event = true)
    (done : held.triggerCounted event = .ok after) : Balanced held after := by
  rcases trigger_counted_ok done with ⟨events, fd, pending⟩
  exact balanced_of_cleared set events fd pending

theorem trigger_if_balanced {registered : Bool} {event : Event}
    (set : registered = true → held.ctx.events event = true)
    (done : held.triggerIf registered event = .ok after) :
    Balanced held after := by
  cases registered with
  | false =>
      cases done
      exact .refl held
  | true => exact trigger_counted_balanced (set rfl) done

theorem trigger_if_ok {registered : Bool} {event : Event}
    (done : held.triggerIf registered event = .ok after) :
    after.ctx.fd = held.ctx.fd ∧ (registered = true → after.ctx.events event = false) ∧
      ∀ other ≠ event, after.ctx.events other = held.ctx.events other := by
  cases registered with
  | false =>
      cases done
      exact ⟨rfl, by simp, fun _ _ => rfl⟩
  | true =>
      rcases trigger_counted_ok done with ⟨events, fd, _⟩
      refine ⟨fd, ?_, ?_⟩
      · intro _
        rw [events, Function.update_self]
      · intro other different
        rw [events, Function.update_of_ne different]

theorem trigger_if_consistent (consistent : held.ctx.Consistent) (registered : Bool)
    (event : Event) : ∃ after, held.triggerIf registered event = .ok after ∧
      after.ctx.Consistent := by
  cases registered with
  | false => exact ⟨held, rfl, consistent⟩
  | true => exact trigger_counted_consistent consistent event

theorem add_event_balanced {event : Event} {cb : Option Nat} {caller : Caller} {epollCtl : Bool}
    {value : Int} (done : held.addEvent event cb caller epollCtl = .ok (after, value)) :
    Balanced held after := by
  simp only [addEvent] at done
  split at done
  · cases done
  · split at done
    · cases done
      exact .refl held
    · split at done
      · cases done
      · cases done
        exact balanced_of_set (by simpa using ‹¬ held.ctx.events event = true›) rfl rfl rfl

theorem del_event_balanced {event : Event} {epollCtl : Bool} {value : Bool}
    (done : held.delEvent event epollCtl = .ok (after, value)) : Balanced held after := by
  rw [delEvent] at done
  split at done
  · cases done
    exact .refl held
  · split at done
    · cases done
      exact .refl held
    · cases done
      exact balanced_of_cleared (by simpa using ‹¬ held.ctx.events event = false›) rfl rfl rfl

theorem cancel_event_balanced {event : Event} {epollCtl : Bool} {value : Bool}
    (done : held.cancelEvent event epollCtl = .ok (after, value)) : Balanced held after := by
  rw [cancelEvent] at done
  split at done
  · cases done
    exact .refl held
  · split at done
    · cases done
      exact .refl held
    · rcases bind_eq_ok done with ⟨next, triggered, rest⟩
      cases rest
      exact trigger_counted_balanced (by simpa using ‹¬ held.ctx.events event = false›) triggered

theorem cancel_all_balanced {epollCtl : Bool} {value : Bool}
    (done : held.cancelAll epollCtl = .ok (after, value)) : Balanced held after := by
  rw [cancelAll] at done
  split at done
  · cases done
    exact .refl held
  · split at done
    · cases done
      exact .refl held
    · rcases bind_eq_ok done with ⟨next, first, rest⟩
      rcases bind_eq_ok rest with ⟨last, second, rest⟩
      have both : Balanced held last := by
        exact (trigger_if_balanced id first).trans (trigger_if_balanced id second)
      split at rest
      · cases rest
      · cases rest
        exact both

/-- A report is dispatched evenly, unless one of its events is left and another is not. -/
theorem dispatch_balanced {report : Report} {epollCtl : Bool}
    (timely : epollCtl = true → held.ctx.reaches report = true → held.ctx.stale report = false)
    (done : held.dispatch report epollCtl = .ok after) : Balanced held after := by
  rw [dispatch] at done
  split at done
  · cases done
    exact .refl held
  · split at done
    · cases done
      exact .refl held
    · rcases bind_eq_ok done with ⟨next, first, second⟩
      have fresh : held.ctx.stale report = false := by
        apply timely
        · simpa using ‹¬ epollCtl = false›
        · simpa using ‹¬ held.ctx.reaches report = false›
      have within : ∀ event, held.ctx.realEvents report event = true →
          held.ctx.events event = true := by
        intro event real
        simp only [FdContext.stale, Bool.or_eq_false_iff, Bool.and_eq_false_iff] at fresh
        cases event <;> grind
      have left := trigger_if_balanced (within .read) first
      have write : held.ctx.realEvents report .write = true → next.ctx.events .write = true := by
        rw [(trigger_if_ok first).2.2 .write (by simp)]
        exact within .write
      exact left.trans (trigger_if_balanced write second)

theorem dispatch_fd {report : Report} {epollCtl : Bool}
    (done : held.dispatch report epollCtl = .ok after) : after.ctx.fd = held.ctx.fd := by
  rw [dispatch] at done
  split at done
  · cases done
    rfl
  · split at done
    · cases done
      rfl
    · rcases bind_eq_ok done with ⟨next, first, second⟩
      rw [(trigger_if_ok second).1, (trigger_if_ok first).1]

theorem run_balanced {operation : Operation} {epollCtl : Bool}
    (done : operation.run held epollCtl = .ok after) : Balanced held after := by
  cases operation with
  | addEvent event cb caller =>
      rcases bind_eq_ok done with ⟨⟨next, value⟩, added, rest⟩
      cases rest
      exact add_event_balanced added
  | delEvent event =>
      rcases bind_eq_ok done with ⟨⟨next, value⟩, deleted, rest⟩
      cases rest
      exact del_event_balanced deleted
  | cancelEvent event =>
      rcases bind_eq_ok done with ⟨⟨next, value⟩, cancelled, rest⟩
      cases rest
      exact cancel_event_balanced cancelled
  | cancelAll =>
      rcases bind_eq_ok done with ⟨⟨next, value⟩, cancelled, rest⟩
      cases rest
      exact cancel_all_balanced cancelled

/-- The caller of `addEvent` is on a scheduler's thread, and the event is not registered yet. -/
def Proper (held : Held) : Operation → Prop
  | .addEvent event _ caller => caller.scheduler ≠ none ∧ held.ctx.events event = false
  | _ => True

instance (held : Held) (operation : Operation) : Decidable (held.Proper operation) :=
  match operation with
  | .addEvent event _ caller =>
      inferInstanceAs (Decidable (caller.scheduler ≠ none ∧ held.ctx.events event = false))
  | .delEvent _ | .cancelEvent _ | .cancelAll => inferInstanceAs (Decidable True)

theorem add_event_consistent (consistent : held.ctx.Consistent) {event : Event} {caller : Caller}
    (known : caller.scheduler ≠ none) (clear : held.ctx.events event = false) (cb : Option Nat)
    (epollCtl : Bool) : ∃ after value, held.addEvent event cb caller epollCtl =
      .ok (after, value) ∧ after.ctx.Consistent := by
  have empty : held.ctx.contexts event = .empty := consistent.clear event clear
  cases epollCtl with
  | false => exact ⟨held, -1, by simp [addEvent, clear], consistent⟩
  | true =>
      have waits := EventContext.filled_waits cb known
      let after : Held :=
        { held with
          ctx := (held.ctx.withEvent event true).withContext event (.filled cb caller)
          pending := held.pending + 1 }
      have done : held.addEvent event cb caller true = .ok (after, 0) := by
        simp [addEvent, clear, FdContext.withEvent, empty, after]
      exact ⟨after, 0, done, consistent.add event waits⟩

theorem del_event_consistent (consistent : held.ctx.Consistent) (event : Event)
    (epollCtl : Bool) : ∃ after value, held.delEvent event epollCtl = .ok (after, value) ∧
      after.ctx.Consistent := by
  rw [delEvent]
  split
  · exact ⟨held, false, rfl, consistent⟩
  · split
    · exact ⟨held, false, rfl, consistent⟩
    · exact ⟨_, true, rfl, consistent.remove event⟩

theorem cancel_event_consistent (consistent : held.ctx.Consistent) (event : Event)
    (epollCtl : Bool) : ∃ after value, held.cancelEvent event epollCtl = .ok (after, value) ∧
      after.ctx.Consistent := by
  rw [cancelEvent]
  split
  · exact ⟨held, false, rfl, consistent⟩
  · split
    · exact ⟨held, false, rfl, consistent⟩
    · rcases trigger_counted_consistent consistent event with ⟨after, triggered, kept⟩
      exact ⟨after, true, by rw [triggered, bind_ok], kept⟩

/-- `cancelAll` leaves no event behind. -/
theorem cancel_all_consistent (consistent : held.ctx.Consistent) (epollCtl : Bool) :
    ∃ after value, held.cancelAll epollCtl = .ok (after, value) ∧ after.ctx.Consistent := by
  rw [cancelAll]
  split
  · exact ⟨held, false, rfl, consistent⟩
  · split
    · exact ⟨held, false, rfl, consistent⟩
    · rcases trigger_if_consistent consistent (held.ctx.events .read) .read with
        ⟨next, first, kept⟩
      rcases trigger_if_consistent kept (next.ctx.events .write) .write with
        ⟨last, second, kept⟩
      have read : last.ctx.events .read = false := by
        rw [(trigger_if_ok second).2.2 .read (by simp)]
        cases set : held.ctx.events .read with
        | false =>
            rw [set] at first
            cases first
            exact set
        | true => exact (trigger_if_ok first).2.1 set
      have write : last.ctx.events .write = false := by
        cases set : next.ctx.events .write with
        | false =>
            rw [set] at second
            cases second
            exact set
        | true => exact (trigger_if_ok second).2.1 set
      exact ⟨last, true, by simp [first, second, bind_ok, FdContext.anyEvent, read, write], kept⟩

theorem dispatch_consistent (consistent : held.ctx.Consistent) (report : Report)
    (epollCtl : Bool) : ∃ after, held.dispatch report epollCtl = .ok after ∧
      after.ctx.Consistent := by
  rw [dispatch]
  split
  · exact ⟨held, rfl, consistent⟩
  · split
    · exact ⟨held, rfl, consistent⟩
    · let real := held.ctx.realEvents report
      rcases trigger_if_consistent consistent (real .read) .read with ⟨next, first, kept⟩
      rcases trigger_if_consistent kept (real .write) .write with ⟨after, second, kept⟩
      exact ⟨after, by rw [first, bind_ok, second], kept⟩

theorem run_consistent (consistent : held.ctx.Consistent) {operation : Operation}
    (proper : held.Proper operation) (epollCtl : Bool) :
    ∃ after, operation.run held epollCtl = .ok after ∧ after.ctx.Consistent := by
  cases operation with
  | addEvent event cb caller =>
      rcases add_event_consistent consistent proper.1 proper.2 cb epollCtl with
        ⟨after, value, done, kept⟩
      exact ⟨after, by rw [Operation.run, done]; rfl, kept⟩
  | delEvent event =>
      rcases del_event_consistent consistent event epollCtl with ⟨after, value, done, kept⟩
      exact ⟨after, by rw [Operation.run, done]; rfl, kept⟩
  | cancelEvent event =>
      rcases cancel_event_consistent consistent event epollCtl with ⟨after, value, done, kept⟩
      exact ⟨after, by rw [Operation.run, done]; rfl, kept⟩
  | cancelAll =>
      rcases cancel_all_consistent consistent epollCtl with ⟨after, value, done, kept⟩
      exact ⟨after, by rw [Operation.run, done]; rfl, kept⟩

end Held
end ChatServer.Fiber
