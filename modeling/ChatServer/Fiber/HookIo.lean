import ChatServer.Fiber.FdContext
import ChatServer.Fiber.FdManager
import ChatServer.Lib.Transition

/-!
# Calls that wait

`do_io` and `connect_with_timeout` of `hook.cc`, for any number of fibers on one descriptor. A call
that would block arms a timer, registers its fiber for an event and yields. The event, the timer
and `cancelAll` may each wake the fiber, on any thread and in any order; the callback of a timer
may run long after the call it was armed for.
-/

namespace ChatServer.Fiber

set_option autoImplicit false

namespace Held

def waiting (ctx : FdContext) (event : Event) : List (Nat × Task) :=
  if ctx.events event then (ctx.contexts event).job.toList else []

def awaited (held : Held) : List (Nat × Task) :=
  waiting held.ctx .read ++ waiting held.ctx .write ++ held.scheduled

variable {held after : Held}

theorem waiting_of_ne {ctx next : FdContext} {event : Event}
    (events : next.events event = ctx.events event)
    (contexts : next.contexts event = ctx.contexts event) :
    waiting next event = waiting ctx event := by
  rw [waiting, waiting, events, contexts]

theorem trigger_counted_awaited (consistent : held.ctx.Consistent) {event : Event}
    (done : held.triggerCounted event = .ok after) : after.awaited.Perm held.awaited := by
  cases set : held.ctx.events event with
  | false =>
      rw [triggerCounted, triggerEvent, if_pos set] at done
      cases done
      exact .refl _
  | true =>
      obtain ⟨job, known, triggered⟩ := trigger_event_waits set (consistent.registered event set)
      rw [triggerCounted, triggered] at done
      cases done
      have gone : waiting ((held.ctx.withEvent event false).withContext event .empty) event = [] := by
        rw [waiting]
        simp [FdContext.withEvent, FdContext.withContext]
      have was : waiting held.ctx event = [job] := by
        rw [waiting, if_pos set, known]
        rfl
      have others (other : Event) (different : other ≠ event) :
          waiting ((held.ctx.withEvent event false).withContext event .empty) other =
            waiting held.ctx other :=
        waiting_of_ne (by simp [FdContext.withEvent, FdContext.withContext, different])
          (by simp [FdContext.withEvent, FdContext.withContext, different])
      apply List.perm_iff_count.mpr
      intro other
      unfold awaited
      cases event with
      | read =>
          rw [gone, was, others .write (by decide)]
          simp only [List.count_append, List.count_nil]
          omega
      | write =>
          rw [gone, was, others .read (by decide)]
          simp only [List.count_append, List.count_nil]
          omega

theorem trigger_if_awaited (consistent : held.ctx.Consistent) {registered : Bool} {event : Event}
    (done : held.triggerIf registered event = .ok after) : after.awaited.Perm held.awaited := by
  cases registered with
  | false =>
      cases done
      exact .refl _
  | true => exact trigger_counted_awaited consistent done

theorem triggers_awaited (consistent : held.ctx.Consistent) {next : Held} {first second : Bool}
    (read : held.triggerIf first .read = .ok next) (write : next.triggerIf second .write = .ok after) :
    after.awaited.Perm held.awaited := by
  obtain ⟨same, done, kept⟩ := trigger_if_consistent consistent first .read
  rw [read] at done
  cases done
  exact (trigger_if_awaited kept write).trans (trigger_if_awaited consistent read)

theorem cancel_event_awaited (consistent : held.ctx.Consistent) {event : Event} {epollCtl : Bool}
    {value : Bool} (done : held.cancelEvent event epollCtl = .ok (after, value)) :
    after.awaited.Perm held.awaited := by
  rw [cancelEvent] at done
  split_ifs at done
  · cases done
    exact .refl _
  · cases done
    exact .refl _
  · obtain ⟨next, triggered, rest⟩ := bind_eq_ok done
    cases rest
    exact trigger_counted_awaited consistent triggered

theorem cancel_all_awaited (consistent : held.ctx.Consistent) {epollCtl : Bool} {value : Bool}
    (done : held.cancelAll epollCtl = .ok (after, value)) : after.awaited.Perm held.awaited := by
  rw [cancelAll] at done
  split_ifs at done
  · cases done
    exact .refl _
  · cases done
    exact .refl _
  · obtain ⟨next, read, rest⟩ := bind_eq_ok done
    obtain ⟨last, write, rest⟩ := bind_eq_ok rest
    split_ifs at rest
    cases rest
    exact triggers_awaited consistent read write

theorem dispatch_awaited (consistent : held.ctx.Consistent) {report : Report} {epollCtl : Bool}
    (done : held.dispatch report epollCtl = .ok after) : after.awaited.Perm held.awaited := by
  rw [dispatch] at done
  split_ifs at done
  · cases done
    exact .refl _
  · cases done
    exact .refl _
  · obtain ⟨next, read, write⟩ := bind_eq_ok done
    exact triggers_awaited consistent read write

/-- `addEvent` without a callback adds the caller, or nobody when it fails. -/
theorem add_event_awaited (consistent : held.ctx.Consistent) {event : Event} {caller : Caller}
    {epollCtl : Bool} {value : Int}
    (done : held.addEvent event none caller epollCtl = .ok (after, value)) :
    value = -1 ∧ after = held ∨ value = 0 ∧
      after.awaited.Perm ((caller.scheduler.toList.map fun scheduler =>
        (scheduler, Task.fiber caller.fiber)) ++ held.awaited) := by
  rw [addEvent] at done
  split_ifs at done with set refused
  · cases done
    exact Or.inl ⟨rfl, rfl⟩
  · have unset : held.ctx.events event = false := Bool.eq_false_iff.mpr set
    have empty : (held.ctx.withEvent event true).contexts event = .empty :=
      consistent.clear event unset
    rw [if_neg (not_not.mpr empty)] at done
    cases done
    refine Or.inr ⟨rfl, ?_⟩
    have now : waiting ((held.ctx.withEvent event true).withContext event
        (.filled none caller)) event = caller.scheduler.toList.map fun scheduler =>
          (scheduler, Task.fiber caller.fiber) := by
      rw [waiting]
      simp only [FdContext.withEvent, FdContext.withContext, Function.update_self, if_true,
        EventContext.filled, EventContext.job]
      cases caller.scheduler <;> rfl
    have was : waiting held.ctx event = [] := by
      rw [waiting, unset, if_neg Bool.false_ne_true]
    have others (other : Event) (different : other ≠ event) :
        waiting ((held.ctx.withEvent event true).withContext event (.filled none caller)) other =
          waiting held.ctx other :=
      waiting_of_ne (by simp [FdContext.withEvent, FdContext.withContext, different])
        (by simp [FdContext.withEvent, FdContext.withContext, different])
    apply List.perm_iff_count.mpr
    intro other
    unfold awaited
    cases event with
    | read =>
        rw [now, was, others .write (by decide)]
        simp only [List.count_append, List.count_nil]
        omega
    | write =>
        rw [now, was, others .read (by decide)]
        simp only [List.count_append, List.count_nil]
        omega

end Held

inductive Errno where
  | eintr
  | eagain
  | einprogress
  | other (code : Nat)
  deriving DecidableEq

inductive Answer where
  | value (n : Int)
  | fails (errno : Errno)
  deriving DecidableEq

/-- A call that goes through `do_io`, with its event, or `connect_with_timeout`. -/
inductive Hooked where
  | io (event : Event)
  | connect (timeoutMs : UInt64)
  deriving DecidableEq

namespace Hooked

def event : Hooked → Event
  | .io event => event
  | .connect _ => .write

def timeout (ctx : FdCtx) : Hooked → UInt64
  | .io .read => ctx.getTimeout .rcvTimeo
  | .io .write => ctx.getTimeout .sndTimeo
  | .connect timeoutMs => timeoutMs

def restarts : Hooked → Bool
  | .io _ => true
  | .connect _ => false

def blocked : Hooked → Errno
  | .io _ => .eagain
  | .connect _ => .einprogress

end Hooked

/-- Where a fiber is: outside, in a call that is passed through, in the kernel's function, between
`addConditionTimer` and `addEvent`, in `YieldToHold`, or in the `getsockopt` of `connect`. -/
inductive Phase where
  | idle
  | through
  | calling
  | arming (timer : Option Nat)
  | parked (timer : Option Nat)
  | checking
  deriving DecidableEq

namespace Phase

def timer : Phase → Option Nat
  | .arming timer | .parked timer => timer
  | _ => none

def isParked : Phase → Bool
  | .parked _ => true
  | _ => false

end Phase

/-- A call of a fiber; `tinfo` tells its `timer_info` from those of other calls, and `began` is
when it was called. -/
structure IoCall where
  phase : Phase
  hooked : Hooked
  timeout : UInt64
  tinfo : Nat
  cancelled : Bool
  began : Nat
  deriving DecidableEq

structure IoTimer where
  id : Nat
  fiber : Nat
  tinfo : Nat
  event : Event
  deadline : Nat
  deriving DecidableEq

/-- How a call has returned: with what the kernel answered, with `EBADF`, with -1 behind an
`addEvent` that failed, or with `ETIMEDOUT`. -/
inductive IoOutcome where
  | answered (answer : Answer)
  | closed
  | refused
  | expired
  deriving DecidableEq

structure IoResult where
  fiber : Nat
  call : IoCall
  ended : Nat
  outcome : IoOutcome
  deriving DecidableEq

/-- The calls of all fibers on a descriptor. `timers` are in `m_timers`, `callbacks` were taken out
by `listExpiredCb` and wait for a thread; `used` counts the identities that were given out. -/
structure IoRun where
  held : Held
  calls : Nat → IoCall
  timers : List IoTimer
  callbacks : List IoTimer
  clock : Nat
  used : Nat
  results : List IoResult

inductive IoStep where
  | begin (fiber : Nat) (hooked : Hooked) (hookEnable : Bool) (ctx : Option FdCtx)
  | answer (fiber : Nat) (answer : Answer)
  | addEvent (caller : Caller) (epollCtl : Bool)
  | expire (timer : IoTimer)
  | callback (timer : IoTimer) (epollCtl : Bool)
  | ready (report : Report) (epollCtl : Bool)
  | cancelAll (epollCtl : Bool)
  | resume (scheduler fiber : Nat)
  | tick (now : Nat)

namespace IoRun

def start (fd : Nat) : IoRun where
  held := ⟨.new fd, 0, []⟩
  calls := fun _ => ⟨.idle, .io .read, ~~~0, 0, false, 0⟩
  timers := []
  callbacks := []
  clock := 0
  used := 1
  results := []

def setCall (s : IoRun) (fiber : Nat) (call : IoCall) : IoRun :=
  { s with calls := Function.update s.calls fiber call }

def returns (s : IoRun) (fiber : Nat) (outcome : IoOutcome) : IoRun :=
  { s.setCall fiber { s.calls fiber with phase := .idle } with
    results := s.results ++ [⟨fiber, s.calls fiber, s.clock, outcome⟩] }

def goes (s : IoRun) (fiber : Nat) (phase : Phase) : IoRun :=
  s.setCall fiber { s.calls fiber with phase }

/-- Which way a call takes before it reaches the kernel, by `do_io` and `connect_with_timeout`. -/
def entry (hooked : Hooked) (hookEnable : Bool) (ctx : Option FdCtx) : Option Phase :=
  if !hookEnable then some .through
  else
    match hooked, ctx with
    | .io _, none => some .through
    | .connect _, none => none
    | _, some ctx =>
        if ctx.isClosed then none
        else if !ctx.isSocket || ctx.userNonblock then some .through
        else some .calling

def enter (s : IoRun) (fiber : Nat) (hooked : Hooked) (hookEnable : Bool) (ctx : Option FdCtx) :
    IoRun :=
  let timeout := (ctx.map hooked.timeout).getD (~~~0)
  let s := { s.setCall fiber ⟨.idle, hooked, timeout, s.used, false, s.clock⟩ with
    used := s.used + 1 }
  match entry hooked hookEnable ctx with
  | none => s.returns fiber .closed
  | some phase => s.goes fiber phase

def arm (s : IoRun) (fiber : Nat) : IoRun :=
  let call := s.calls fiber
  if call.timeout = ~~~0 then s.goes fiber (.arming none)
  else
    let timer : IoTimer := ⟨s.used, fiber, call.tinfo, call.hooked.event,
      (s.clock + call.timeout.toNat) % 2 ^ 64⟩
    { s.goes fiber (.arming (some timer.id)) with timers := s.timers ++ [timer], used := s.used + 1 }

/-- `timer->cancel()`; a timer that has expired is not in `m_timers` any more. -/
def cancelTimer (s : IoRun) (timer : Option Nat) : IoRun :=
  { s with timers := s.timers.filter fun other => timer ≠ some other.id }

/-- What a fiber does with the answer of the kernel's function, or of `getsockopt`. -/
def answer (s : IoRun) (fiber : Nat) (answer : Answer) : Option IoRun :=
  let call := s.calls fiber
  match call.phase with
  | .through => some (s.returns fiber (.answered answer))
  | .calling =>
      if answer = .fails call.hooked.blocked then some (s.arm fiber)
      else if call.hooked.restarts ∧ answer = .fails .eintr then some s
      else some (s.returns fiber (.answered answer))
  | .checking =>
      match answer with
      | .value error =>
          some (s.returns fiber (.answered
            (if error = 0 then .value 0 else .fails (.other error.toNat))))
      | .fails errno => some (s.returns fiber (.answered (.fails errno)))
  | _ => none

/-- `addEvent` and what follows when it fails. Nothing follows an assertion that does not hold. -/
def addEvent (s : IoRun) (caller : Caller) (epollCtl : Bool) : Option IoRun :=
  let call := s.calls caller.fiber
  match call.phase, caller.scheduler with
  | .arming timer, some _ =>
      match s.held.addEvent call.hooked.event none caller epollCtl with
      | .error _ => none
      | .ok (held, rt) =>
          if rt = 0 then some { s.goes caller.fiber (.parked timer) with held }
          else
            let s := s.cancelTimer timer
            match call.hooked with
            | .io _ => some (s.returns caller.fiber .refused)
            | .connect _ => some (s.goes caller.fiber .checking)
  | _, _ => none

/-- `winfo.lock()` finds the `timer_info`, and it has not been cancelled. -/
def locks (s : IoRun) (timer : IoTimer) : Bool :=
  let call := s.calls timer.fiber
  decide (call.phase ≠ .idle) && decide (call.tinfo = timer.tinfo) && !call.cancelled

def callback (s : IoRun) (timer : IoTimer) (epollCtl : Bool) : Option IoRun :=
  if timer ∈ s.callbacks then
    let callbacks := s.callbacks.erase timer
    if s.locks timer then
      match s.held.cancelEvent timer.event epollCtl with
      | .error _ => none
      | .ok (held, _) =>
          some { s.setCall timer.fiber { s.calls timer.fiber with cancelled := true } with
            callbacks, held }
    else some { s with callbacks }
  else none

/-- The fiber comes back from `YieldToHold` on a thread of the scheduler. -/
def resume (s : IoRun) (scheduler fiber : Nat) : Option IoRun :=
  let call := s.calls fiber
  let job := (scheduler, Task.fiber fiber)
  match call.phase with
  | .parked timer =>
      if job ∈ s.held.scheduled then
        let s := { s.cancelTimer timer with
          held := { s.held with scheduled := s.held.scheduled.erase job } }
        if call.cancelled then some (s.returns fiber .expired)
        else
          match call.hooked with
          | .io _ => some (s.goes fiber .calling)
          | .connect _ => some (s.goes fiber .checking)
      else none
  | _ => none

def step (s : IoRun) : IoStep → Option IoRun
  | .begin fiber hooked hookEnable ctx =>
      if (s.calls fiber).phase = .idle then some (s.enter fiber hooked hookEnable ctx) else none
  | .answer fiber answer => s.answer fiber answer
  | .addEvent caller epollCtl => s.addEvent caller epollCtl
  | .expire timer =>
      if timer ∈ s.timers ∧ timer.deadline ≤ s.clock then
        some { s with timers := s.timers.erase timer, callbacks := s.callbacks ++ [timer] }
      else none
  | .callback timer epollCtl => s.callback timer epollCtl
  | .ready report epollCtl =>
      match s.held.dispatch report epollCtl with
      | .error _ => none
      | .ok held => some { s with held }
  | .cancelAll epollCtl =>
      match s.held.cancelAll epollCtl with
      | .error _ => none
      | .ok (held, _) => some { s with held }
  | .resume scheduler fiber => s.resume scheduler fiber
  | .tick now => if s.clock ≤ now then some { s with clock := now } else none

variable {s after : IoRun}

/-- An answer is returned, or the fiber starts to wait, or the call is made again. -/
theorem answer_cases {fiber : Nat} {given : Answer} (done : s.answer fiber given = some after) :
    (s.calls fiber).phase.isParked = false ∧ (s.calls fiber).phase.timer = none ∧
      (s.calls fiber).phase ≠ .idle ∧
      (after = s ∨ after = s.arm fiber ∨ ∃ returned, after = s.returns fiber (.answered returned) ∧
        ((s.calls fiber).phase = .calling → returned ≠ .fails (s.calls fiber).hooked.blocked ∧
          ((s.calls fiber).hooked.restarts = true → returned ≠ .fails .eintr))) := by
  unfold answer at done
  dsimp only at done
  split at done
  · rename_i phase
    cases done
    rw [phase]
    exact ⟨rfl, rfl, by decide, .inr (.inr ⟨given, rfl, fun calling => by cases calling⟩)⟩
  · rename_i phase
    rw [phase]
    refine ⟨rfl, rfl, by decide, ?_⟩
    split_ifs at done with blocked again
    · cases done
      exact .inr (.inl rfl)
    · cases done
      exact .inl rfl
    · cases done
      exact .inr (.inr ⟨given, rfl, fun _ => ⟨blocked, fun io same => again ⟨io, same⟩⟩⟩)
  · rename_i phase
    rw [phase]
    refine ⟨rfl, rfl, by decide, .inr (.inr ?_)⟩
    split at done <;> cases done <;> exact ⟨_, rfl, fun calling => by cases calling⟩
  · cases done

theorem add_event_cases {caller : Caller} {epollCtl : Bool}
    (done : s.addEvent caller epollCtl = some after) :
    ∃ timer scheduler, (s.calls caller.fiber).phase = .arming timer ∧
      caller.scheduler = some scheduler ∧ ∃ held rt,
      s.held.addEvent (s.calls caller.fiber).hooked.event none caller epollCtl = .ok (held, rt) ∧
      (rt = 0 ∧ after = { s.goes caller.fiber (.parked timer) with held } ∨
        rt ≠ 0 ∧ (after = (s.cancelTimer timer).returns caller.fiber .refused ∨
          after = (s.cancelTimer timer).goes caller.fiber .checking)) := by
  unfold addEvent at done
  dsimp only at done
  split at done
  · rename_i timer scheduler phase known
    refine ⟨timer, scheduler, phase, known, ?_⟩
    split at done
    · cases done
    · rename_i held rt added
      refine ⟨held, rt, added, ?_⟩
      split_ifs at done with registered
      · cases done
        exact .inl ⟨registered, rfl⟩
      · split at done <;> cases done
        · exact .inr ⟨registered, .inl rfl⟩
        · exact .inr ⟨registered, .inr rfl⟩
  · cases done

/-- The callback of a timer has an effect only on a call that still has its `timer_info`. -/
theorem callback_cases {timer : IoTimer} {epollCtl : Bool}
    (done : s.callback timer epollCtl = some after) :
    timer ∈ s.callbacks ∧
      (after = { s with callbacks := s.callbacks.erase timer } ∨
        s.locks timer = true ∧ ∃ held value,
          s.held.cancelEvent timer.event epollCtl = .ok (held, value) ∧
          after = { s.setCall timer.fiber { s.calls timer.fiber with cancelled := true } with
            callbacks := s.callbacks.erase timer, held }) := by
  unfold callback at done
  dsimp only at done
  split_ifs at done with member locked
  · refine ⟨member, .inr ⟨locked, ?_⟩⟩
    split at done
    · cases done
    · rename_i held value cancelled
      cases done
      exact ⟨held, value, cancelled, rfl⟩
  · cases done
    exact ⟨member, .inl rfl⟩

theorem resume_cases {scheduler fiber : Nat} (done : s.resume scheduler fiber = some after) :
    ∃ timer, (s.calls fiber).phase = .parked timer ∧
      (scheduler, Task.fiber fiber) ∈ s.held.scheduled ∧
      let rest := { s.cancelTimer timer with
        held := { s.held with scheduled := s.held.scheduled.erase (scheduler, .fiber fiber) } }
      (s.calls fiber).cancelled = true ∧ after = rest.returns fiber .expired ∨
        (s.calls fiber).cancelled = false ∧
          (after = rest.goes fiber .calling ∨ after = rest.goes fiber .checking) := by
  unfold resume at done
  dsimp only at done
  split at done
  · rename_i timer phase
    split_ifs at done with handed cancelled
    · cases done
      exact ⟨timer, phase, handed, .inl ⟨cancelled, rfl⟩⟩
    · refine ⟨timer, phase, handed, .inr ⟨Bool.eq_false_iff.mpr cancelled, ?_⟩⟩
      split at done <;> cases done
      · exact .inl rfl
      · exact .inr rfl
  · cases done

/-- A call that is entered is passed through, or goes to the kernel, or has returned. -/
theorem enter_cases (s : IoRun) (fiber : Nat) (hooked : Hooked) (hookEnable : Bool)
    (ctx : Option FdCtx) :
    ∃ call : IoCall, call.phase = .idle ∧ call.tinfo = s.used ∧ call.cancelled = false ∧
      call.began = s.clock ∧
      let fresh := { s.setCall fiber call with used := s.used + 1 }
      s.enter fiber hooked hookEnable ctx = fresh.returns fiber .closed ∨
        ∃ phase, phase.isParked = false ∧ phase.timer = none ∧
          s.enter fiber hooked hookEnable ctx = fresh.goes fiber phase := by
  refine ⟨⟨.idle, hooked, (ctx.map hooked.timeout).getD (~~~0), s.used, false, s.clock⟩, rfl, rfl,
    rfl, rfl, ?_⟩
  dsimp only
  have phases : entry hooked hookEnable ctx = none ∨ entry hooked hookEnable ctx = some .through ∨
      entry hooked hookEnable ctx = some .calling := by
    unfold entry
    split_ifs
    · exact .inr (.inl rfl)
    · split
      · exact .inr (.inl rfl)
      · exact .inl rfl
      · split_ifs
        · exact .inl rfl
        · exact .inr (.inl rfl)
        · exact .inr (.inr rfl)
  unfold enter
  rcases phases with closed | through | calling
  · rw [closed]
    exact .inl rfl
  · rw [through]
    exact .inr ⟨.through, rfl, rfl, rfl⟩
  · rw [calling]
    exact .inr ⟨.calling, rfl, rfl, rfl⟩

def isFiber (fiber : Nat) (job : Nat × Task) : Bool := decide (job.2 = .fiber fiber)

/-- A fiber that is parked waits for an event or has been handed to a scheduler, one of the two and
once; no other fiber is awaited. -/
structure Awaits (s : IoRun) : Prop where
  consistent : s.held.ctx.Consistent
  counted : ∀ fiber, s.held.awaited.countP (isFiber fiber) = (s.calls fiber).phase.isParked.toNat

theorem goes_parked (s : IoRun) (fiber : Nat) (phase : Phase) (other : Nat) :
    ((s.goes fiber phase).calls other).phase.isParked =
      if other = fiber then phase.isParked else (s.calls other).phase.isParked := by
  unfold goes setCall
  dsimp only
  rw [Function.update_apply]
  split_ifs <;> rfl

theorem awaits_goes (awaits : s.Awaits) {fiber : Nat} {phase : Phase}
    (before : (s.calls fiber).phase.isParked = false) (behind : phase.isParked = false) :
    (s.goes fiber phase).Awaits := by
  refine ⟨awaits.consistent, fun other => ?_⟩
  rw [goes_parked]
  split_ifs with same
  · rw [behind, ← before, ← same]
    exact awaits.counted other
  · exact awaits.counted other

theorem awaits_returns (awaits : s.Awaits) {fiber : Nat} (outcome : IoOutcome)
    (before : (s.calls fiber).phase.isParked = false) : (s.returns fiber outcome).Awaits :=
  have gone := awaits_goes awaits before (show Phase.idle.isParked = false from rfl)
  ⟨gone.consistent, gone.counted⟩

theorem awaits_perm (awaits : s.Awaits) {held : Held} (consistent : held.ctx.Consistent)
    (perm : held.awaited.Perm s.held.awaited) : IoRun.Awaits { s with held } :=
  ⟨consistent, fun fiber => (perm.countP_eq _).trans (awaits.counted fiber)⟩

theorem awaits_taken (awaits : s.Awaits) {scheduler fiber : Nat} {phase : Phase}
    (parked : (s.calls fiber).phase.isParked = true)
    (handed : (scheduler, Task.fiber fiber) ∈ s.held.scheduled) (behind : phase.isParked = false) :
    (IoRun.goes { s with held := { s.held with
      scheduled := s.held.scheduled.erase (scheduler, .fiber fiber) } } fiber phase).Awaits := by
  refine ⟨awaits.consistent, fun other => ?_⟩
  have split := (List.perm_cons_erase handed).countP_eq (isFiber other)
  have counted := awaits.counted other
  rw [Held.awaited, List.countP_append, split, List.countP_cons] at counted
  rw [goes_parked]
  change (Held.waiting s.held.ctx .read ++ Held.waiting s.held.ctx .write ++
    s.held.scheduled.erase (scheduler, .fiber fiber)).countP (isFiber other) = _
  rw [List.countP_append]
  split_ifs with same
  · rw [same, parked, isFiber, decide_eq_true rfl, if_pos rfl] at counted
    rw [same, behind]
    simp only [Bool.toNat_true, Bool.toNat_false] at counted ⊢
    omega
  · have different : isFiber other (scheduler, .fiber fiber) = false :=
      decide_eq_false fun equal => same (Task.fiber.inj equal).symm
    rw [different, if_neg Bool.false_ne_true, Nat.add_zero] at counted
    exact counted

theorem begin_awaits {fiber : Nat} {hooked : Hooked} {hookEnable : Bool} {ctx : Option FdCtx}
    (awaits : s.Awaits)
    (done : s.step (.begin fiber hooked hookEnable ctx) = some after) : after.Awaits := by
  rw [step] at done
  split_ifs at done with idle
  cases done
  obtain ⟨call, rest, _, _, _, entered⟩ := enter_cases s fiber hooked hookEnable ctx
  have before : (s.calls fiber).phase.isParked = false := by rw [idle]; rfl
  have fresh : IoRun.Awaits { s.setCall fiber call with used := s.used + 1 } := by
    refine ⟨awaits.consistent, fun other => (awaits.counted other).trans ?_⟩
    unfold setCall
    dsimp only
    rw [Function.update_apply]
    split_ifs with same
    · rw [same, before, rest]
      rfl
    · rfl
  have own : (IoRun.calls { s.setCall fiber call with used := s.used + 1 } fiber).phase.isParked =
      false := by
    change (Function.update s.calls fiber call fiber).phase.isParked = false
    rw [Function.update_self, rest]
    rfl
  rcases entered with closed | ⟨phase, unparked, _, goes⟩
  · rw [closed]
    exact awaits_returns fresh _ own
  · rw [goes]
    exact awaits_goes fresh own unparked

theorem answer_awaits {fiber : Nat} {given : Answer} (awaits : s.Awaits)
    (done : s.step (.answer fiber given) = some after) : after.Awaits := by
  obtain ⟨before, _, _, cases⟩ := answer_cases done
  rcases cases with same | arms | ⟨returned, returns, _⟩
  · rwa [same]
  · rw [arms]
    unfold arm
    dsimp only
    split_ifs
    · exact awaits_goes awaits before rfl
    · have armed := awaits_goes awaits before (show (Phase.arming (some s.used)).isParked = false
        from rfl)
      exact ⟨armed.consistent, armed.counted⟩
  · rw [returns]
    exact awaits_returns awaits _ before

theorem registration_awaits {caller : Caller} {epollCtl : Bool} (awaits : s.Awaits)
    (done : s.step (.addEvent caller epollCtl) = some after) : after.Awaits := by
  obtain ⟨timer, scheduler, phase, known, held, rt, added, cases⟩ := add_event_cases done
  have before : (s.calls caller.fiber).phase.isParked = false := by rw [phase]; rfl
  have cancelled : (s.cancelTimer timer).Awaits := ⟨awaits.consistent, awaits.counted⟩
  rcases cases with ⟨zero, parks⟩ | ⟨_, refused | checks⟩
  · rcases Held.add_event_awaited awaits.consistent added with ⟨refused, _⟩ | ⟨_, perm⟩
    · rw [refused] at zero
      cases zero
    · rw [parks]
      have kept : held.ctx.Consistent := by
        cases set : s.held.ctx.events (s.calls caller.fiber).hooked.event with
        | true =>
            rw [Held.addEvent, if_pos set] at added
            cases added
        | false =>
            obtain ⟨other, value, same, consistent⟩ := Held.add_event_consistent
              awaits.consistent (by rw [known]; exact Option.some_ne_none _) set none epollCtl
            rw [added] at same
            cases same
            exact consistent
      refine ⟨kept, fun fiber => ?_⟩
      change held.awaited.countP (isFiber fiber) =
        ((s.goes caller.fiber (.parked timer)).calls fiber).phase.isParked.toNat
      rw [perm.countP_eq, known, goes_parked, List.countP_append, awaits.counted]
      change (List.countP _ [(scheduler, Task.fiber caller.fiber)]) + _ = _
      rw [List.countP_singleton, isFiber]
      split_ifs with same other other
      · rw [other, before]
        rfl
      · exact absurd (Task.fiber.inj (of_decide_eq_true same)).symm other
      · exact absurd (decide_eq_true (congrArg Task.fiber other.symm)) same
      · rw [Nat.zero_add]
  · rw [refused]
    exact awaits_returns cancelled _ before
  · rw [checks]
    exact awaits_goes cancelled before rfl

theorem callback_awaits {timer : IoTimer} {epollCtl : Bool} (awaits : s.Awaits)
    (done : s.step (.callback timer epollCtl) = some after) : after.Awaits := by
  obtain ⟨_, same | ⟨_, held, value, cancelled, same⟩⟩ := callback_cases done
  · rw [same]
    exact ⟨awaits.consistent, awaits.counted⟩
  · rw [same]
    obtain ⟨other, _, called, consistent⟩ :=
      Held.cancel_event_consistent awaits.consistent timer.event epollCtl
    rw [cancelled] at called
    cases called
    have woken := awaits_perm awaits consistent (Held.cancel_event_awaited awaits.consistent cancelled)
    refine ⟨consistent, fun fiber => (woken.counted fiber).trans ?_⟩
    unfold setCall
    dsimp only
    rw [Function.update_apply]
    split_ifs with equal
    · rw [equal]
    · rfl

theorem resume_awaits {scheduler fiber : Nat} (awaits : s.Awaits)
    (done : s.step (.resume scheduler fiber) = some after) : after.Awaits := by
  obtain ⟨timer, phase, handed, cases⟩ := resume_cases done
  have parked : (s.calls fiber).phase.isParked = true := by rw [phase]; rfl
  have cancelled : (s.cancelTimer timer).Awaits := ⟨awaits.consistent, awaits.counted⟩
  rcases cases with ⟨_, expired⟩ | ⟨_, calls | checks⟩
  · have gone := awaits_taken cancelled parked handed (show Phase.idle.isParked = false from rfl)
    rw [expired]
    exact ⟨gone.consistent, gone.counted⟩
  · rw [calls]
    exact awaits_taken cancelled parked handed rfl
  · rw [checks]
    exact awaits_taken cancelled parked handed rfl

theorem step_awaits {taken : IoStep} (awaits : s.Awaits) (done : s.step taken = some after) :
    after.Awaits := by
  cases taken with
  | begin fiber hooked hookEnable ctx => exact begin_awaits awaits done
  | answer fiber given => exact answer_awaits awaits done
  | addEvent caller epollCtl => exact registration_awaits awaits done
  | expire timer =>
      rw [step] at done
      split_ifs at done
      cases done
      exact ⟨awaits.consistent, awaits.counted⟩
  | callback timer epollCtl => exact callback_awaits awaits done
  | ready report epollCtl =>
      rw [step] at done
      split at done
      · cases done
      · rename_i held dispatched
        cases done
        obtain ⟨other, called, consistent⟩ :=
          Held.dispatch_consistent awaits.consistent report epollCtl
        rw [dispatched] at called
        cases called
        exact awaits_perm awaits consistent (Held.dispatch_awaited awaits.consistent dispatched)
  | cancelAll epollCtl =>
      rw [step] at done
      split at done
      · cases done
      · rename_i held value cancelled
        cases done
        obtain ⟨other, _, called, consistent⟩ :=
          Held.cancel_all_consistent awaits.consistent epollCtl
        rw [cancelled] at called
        cases called
        exact awaits_perm awaits consistent (Held.cancel_all_awaited awaits.consistent cancelled)
  | resume scheduler fiber => exact resume_awaits awaits done
  | tick now =>
      rw [step] at done
      split_ifs at done
      cases done
      exact ⟨awaits.consistent, awaits.counted⟩

/-- A timer that was armed for the call is due. -/
def Late (call : IoCall) (clock : Nat) : Prop :=
  ∃ armed, call.began ≤ armed ∧ armed ≤ clock ∧ (armed + call.timeout.toNat) % 2 ^ 64 ≤ clock

def Final (call : IoCall) (answer : Answer) : Prop :=
  call.phase = .calling → answer ≠ .fails call.hooked.blocked ∧
    (call.hooked.restarts = true → answer ≠ .fails .eintr)

def Fair (result : IoResult) : Prop :=
  match result.outcome with
  | .expired => Late result.call result.ended
  | .answered answer => Final result.call answer
  | _ => True

/-- A timer in `m_timers` belongs to a call that is waiting, or about to, and that has no other
one; a timer of a call that has returned can only be among the callbacks. -/
structure Timed (s : IoRun) : Prop where
  own : ∀ timer ∈ s.timers, (s.calls timer.fiber).phase.timer = some timer.id ∧
    (s.calls timer.fiber).tinfo = timer.tinfo
  once : (s.timers.map IoTimer.id).Nodup
  numbered : ∀ timer ∈ s.timers ++ s.callbacks, timer.id < s.used ∧ timer.tinfo < s.used
  dated : ∀ timer ∈ s.timers ++ s.callbacks, (s.calls timer.fiber).tinfo = timer.tinfo →
    ∃ armed, (s.calls timer.fiber).began ≤ armed ∧ armed ≤ s.clock ∧
      timer.deadline = (armed + (s.calls timer.fiber).timeout.toNat) % 2 ^ 64
  due : ∀ timer ∈ s.callbacks, timer.deadline ≤ s.clock
  live : ∀ fiber, (s.calls fiber).tinfo < s.used ∧ (s.calls fiber).began ≤ s.clock
  late : ∀ fiber, (s.calls fiber).cancelled = true → Late (s.calls fiber) s.clock
  fair : ∀ result ∈ s.results, Fair result

theorem start_timed (fd : Nat) : (start fd).Timed where
  own := fun _ member => absurd member List.not_mem_nil
  once := List.nodup_nil
  numbered := fun _ member => absurd member List.not_mem_nil
  dated := fun _ member => absurd member List.not_mem_nil
  due := fun _ member => absurd member List.not_mem_nil
  live := fun _ => ⟨Nat.one_pos, Nat.le_refl _⟩
  late := fun _ cancelled => Bool.noConfusion cancelled
  fair := fun _ member => absurd member List.not_mem_nil

theorem goes_rest (s : IoRun) (fiber : Nat) (phase : Phase) (other : Nat) :
    ((s.goes fiber phase).calls other).tinfo = (s.calls other).tinfo ∧
      ((s.goes fiber phase).calls other).began = (s.calls other).began ∧
      ((s.goes fiber phase).calls other).timeout = (s.calls other).timeout ∧
      ((s.goes fiber phase).calls other).cancelled = (s.calls other).cancelled := by
  unfold goes setCall
  dsimp only
  rw [Function.update_apply]
  split_ifs with same
  · rw [same]
    exact ⟨rfl, rfl, rfl, rfl⟩
  · exact ⟨rfl, rfl, rfl, rfl⟩

theorem timed_goes (timed : s.Timed) {fiber : Nat} {phase : Phase}
    (kept : ∀ timer ∈ s.timers, timer.fiber = fiber → phase.timer = some timer.id) :
    (s.goes fiber phase).Timed := by
  have rest := goes_rest s fiber phase
  refine ⟨?_, timed.once, timed.numbered, ?_, timed.due, ?_, ?_, timed.fair⟩
  · intro timer member
    refine ⟨?_, (rest _).1.trans (timed.own timer member).2⟩
    unfold goes setCall
    dsimp only
    rw [Function.update_apply]
    split_ifs with same
    · exact kept timer member same
    · exact (timed.own timer member).1
  · intro timer member same
    rw [(rest _).2.1, (rest _).2.2.1]
    exact timed.dated timer member ((rest _).1.symm.trans same)
  · intro other
    rw [(rest _).1, (rest _).2.1]
    exact timed.live other
  · intro other cancelled
    unfold Late
    rw [(rest _).2.1, (rest _).2.2.1]
    exact timed.late other ((rest _).2.2.2.symm.trans cancelled)

theorem timed_returns (timed : s.Timed) {fiber : Nat} {outcome : IoOutcome}
    (none : ∀ timer ∈ s.timers, timer.fiber ≠ fiber)
    (fair : Fair ⟨fiber, s.calls fiber, s.clock, outcome⟩) : (s.returns fiber outcome).Timed := by
  have gone := timed_goes timed (show ∀ timer ∈ s.timers, timer.fiber = fiber →
    Phase.idle.timer = some timer.id from fun timer member same => absurd same (none timer member))
  refine ⟨gone.own, gone.once, gone.numbered, gone.dated, gone.due, gone.live, gone.late, ?_⟩
  intro result member
  rcases List.mem_append.mp member with earlier | new
  · exact timed.fair result earlier
  · rw [List.mem_singleton.mp new]
    exact fair

theorem timed_none (timed : s.Timed) {fiber : Nat} (noTimer : (s.calls fiber).phase.timer = none) :
    ∀ timer ∈ s.timers, timer.fiber ≠ fiber := by
  intro timer member same
  have own := (timed.own timer member).1
  rw [same, noTimer] at own
  cases own

theorem timed_cancel (timed : s.Timed) (id : Option Nat) : (s.cancelTimer id).Timed := by
  have fewer : ∀ timer ∈ (s.cancelTimer id).timers, timer ∈ s.timers :=
    fun timer member => (List.mem_filter.mp member).1
  have both : ∀ timer ∈ (s.cancelTimer id).timers ++ s.callbacks, timer ∈ s.timers ++ s.callbacks := by
    intro timer member
    rcases List.mem_append.mp member with armed | expired
    · exact List.mem_append_left _ (fewer timer armed)
    · exact List.mem_append_right _ expired
  exact ⟨fun timer member => timed.own timer (fewer timer member),
    timed.once.sublist (List.filter_sublist.map _), fun timer member => timed.numbered timer (both timer member),
    fun timer member => timed.dated timer (both timer member), timed.due, timed.live, timed.late,
    timed.fair⟩

theorem cancelled_none (timed : s.Timed) {fiber : Nat} :
    ∀ timer ∈ (s.cancelTimer (s.calls fiber).phase.timer).timers, timer.fiber ≠ fiber := by
  intro timer member same
  obtain ⟨inside, different⟩ := List.mem_filter.mp member
  have own := (timed.own timer inside).1
  rw [same] at own
  exact of_decide_eq_true different own

theorem timed_arm (timed : s.Timed) {fiber : Nat}
    (noTimer : (s.calls fiber).phase.timer = none) : (s.arm fiber).Timed := by
  have none := timed_none timed noTimer
  unfold arm
  dsimp only
  split_ifs
  · exact timed_goes timed fun timer member same => absurd same (none timer member)
  · have armed := timed_goes timed (show ∀ timer ∈ s.timers, timer.fiber = fiber →
      (Phase.arming (some s.used)).timer = some timer.id from
        fun timer member same => absurd same (none timer member))
    obtain ⟨tinfo, began, timeout, _⟩ := goes_rest s fiber (.arming (some s.used)) fiber
    have live := timed.live fiber
    refine ⟨?_, ?_, ?_, ?_, timed.due, ?_, armed.late, timed.fair⟩
    · intro timer member
      rcases List.mem_append.mp member with old | new
      · exact armed.own timer old
      · rw [List.mem_singleton.mp new]
        refine ⟨?_, tinfo⟩
        unfold goes setCall
        dsimp only
        rw [Function.update_self]
        rfl
    · rw [List.map_append, List.map_singleton]
      refine List.nodup_append.mpr ⟨timed.once, List.pairwise_singleton _ _, ?_⟩
      intro id member other new
      obtain ⟨timer, inside, same⟩ := List.mem_map.mp member
      have below := (timed.numbered timer (List.mem_append_left _ inside)).1
      rw [List.mem_singleton.mp new, ← same]
      exact Nat.ne_of_lt below
    · intro timer member
      rw [List.append_assoc] at member
      rcases List.mem_append.mp member with old | rest
      · have below := timed.numbered timer (List.mem_append_left _ old)
        exact ⟨Nat.lt_succ_of_lt below.1, Nat.lt_succ_of_lt below.2⟩
      · rcases List.mem_cons.mp rest with new | expired
        · rw [new]
          exact ⟨Nat.lt_succ_self _, Nat.lt_succ_of_lt live.1⟩
        · have below := timed.numbered timer (List.mem_append_right _ expired)
          exact ⟨Nat.lt_succ_of_lt below.1, Nat.lt_succ_of_lt below.2⟩
    · intro timer member same
      rw [List.append_assoc] at member
      rcases List.mem_append.mp member with old | rest
      · exact armed.dated timer (List.mem_append_left _ old) same
      · rcases List.mem_cons.mp rest with new | expired
        · rw [new]
          refine ⟨s.clock, ?_, Nat.le_refl _, ?_⟩
          · exact began.symm ▸ live.2
          · exact congrArg (fun ms : UInt64 => (s.clock + ms.toNat) % 2 ^ 64) timeout.symm
        · exact armed.dated timer (List.mem_append_right _ expired) same
    · intro other
      have below := armed.live other
      exact ⟨Nat.lt_succ_of_lt below.1, below.2⟩

/-- A call that is entered has a new `timer_info`, which no timer has captured. -/
theorem timed_fresh (timed : s.Timed) {fiber : Nat} {call : IoCall}
    (idle : (s.calls fiber).phase = .idle) (tinfo : call.tinfo = s.used)
    (cancelled : call.cancelled = false) (began : call.began = s.clock) :
    IoRun.Timed { s.setCall fiber call with used := s.used + 1 } := by
  have none := timed_none timed (show (s.calls fiber).phase.timer = none by rw [idle]; rfl)
  have old (other : Nat) (different : other ≠ fiber) :
      (s.setCall fiber call).calls other = s.calls other := Function.update_of_ne different _ _
  have new : (s.setCall fiber call).calls fiber = call := Function.update_self _ _ _
  refine ⟨?_, timed.once, ?_, ?_, timed.due, ?_, ?_, timed.fair⟩
  · intro timer member
    have own := timed.own timer member
    rw [← old timer.fiber (none timer member)] at own
    exact own
  · intro timer member
    have below := timed.numbered timer member
    exact ⟨Nat.lt_succ_of_lt below.1, Nat.lt_succ_of_lt below.2⟩
  · intro timer member same
    by_cases own : timer.fiber = fiber
    · have below := (timed.numbered timer member).2
      have equal : ((s.setCall fiber call).calls timer.fiber).tinfo = timer.tinfo := same
      rw [own, new] at equal
      omega
    · have dated := timed.dated timer member
      rw [← old timer.fiber own] at dated
      exact dated same
  · intro other
    by_cases own : other = fiber
    · rw [own]
      change ((s.setCall fiber call).calls fiber).tinfo < s.used + 1 ∧
        ((s.setCall fiber call).calls fiber).began ≤ s.clock
      rw [new]
      omega
    · have below := timed.live other
      rw [← old other own] at below
      exact ⟨Nat.lt_succ_of_lt below.1, below.2⟩
  · intro other given
    by_cases own : other = fiber
    · rw [own] at given
      change ((s.setCall fiber call).calls fiber).cancelled = true at given
      rw [new, cancelled] at given
      cases given
    · have late := timed.late other
      rw [← old other own] at late
      exact late given

/-- A callback that locks its `timer_info` comes after the deadline. -/
theorem timed_callback (timed : s.Timed) {timer : IoTimer} (member : timer ∈ s.callbacks)
    (locked : s.locks timer = true) (held : Held) :
    IoRun.Timed { s.setCall timer.fiber { s.calls timer.fiber with cancelled := true } with
      callbacks := s.callbacks.erase timer, held } := by
  unfold locks at locked
  simp only [Bool.and_eq_true, decide_eq_true_eq] at locked
  obtain ⟨armed, after, before, deadline⟩ :=
    timed.dated timer (List.mem_append_right _ member) locked.1.2
  have due := timed.due timer member
  have same (other : Nat) :
      ((s.setCall timer.fiber { s.calls timer.fiber with cancelled := true }).calls other).phase =
          (s.calls other).phase ∧
        ((s.setCall timer.fiber { s.calls timer.fiber with cancelled := true }).calls other).tinfo =
          (s.calls other).tinfo ∧
        ((s.setCall timer.fiber { s.calls timer.fiber with cancelled := true }).calls other).began =
          (s.calls other).began ∧
        ((s.setCall timer.fiber { s.calls timer.fiber with cancelled := true }).calls other).timeout =
          (s.calls other).timeout := by
    unfold setCall
    dsimp only
    rw [Function.update_apply]
    split_ifs with own
    · rw [own]
      exact ⟨rfl, rfl, rfl, rfl⟩
    · exact ⟨rfl, rfl, rfl, rfl⟩
  have fewer : ∀ other ∈ s.timers ++ s.callbacks.erase timer, other ∈ s.timers ++ s.callbacks := by
    intro other inside
    rcases List.mem_append.mp inside with old | expired
    · exact List.mem_append_left _ old
    · exact List.mem_append_right _ (List.mem_of_mem_erase expired)
  refine ⟨?_, timed.once, fun other inside => timed.numbered other (fewer other inside), ?_,
    fun other inside => timed.due other (List.mem_of_mem_erase inside), ?_, ?_, timed.fair⟩
  · intro other inside
    rw [(same _).1, (same _).2.1]
    exact timed.own other inside
  · intro other inside equal
    rw [(same _).2.2.1, (same _).2.2.2]
    exact timed.dated other (fewer other inside) ((same _).2.1.symm.trans equal)
  · intro other
    rw [(same _).2.1, (same _).2.2.1]
    exact timed.live other
  · intro other cancelled
    unfold Late
    rw [(same _).2.2.1, (same _).2.2.2]
    by_cases own : other = timer.fiber
    · rw [own]
      exact ⟨armed, after, before, deadline ▸ due⟩
    · apply timed.late other
      have kept : (Function.update s.calls timer.fiber _ other).cancelled = true := cancelled
      rwa [Function.update_of_ne own] at kept

theorem begin_timed {fiber : Nat} {hooked : Hooked} {hookEnable : Bool} {ctx : Option FdCtx}
    (timed : s.Timed)
    (done : s.step (.begin fiber hooked hookEnable ctx) = some after) : after.Timed := by
  rw [step] at done
  split_ifs at done with idle
  cases done
  obtain ⟨call, rest, tinfo, cancelled, began, entered⟩ :=
    enter_cases s fiber hooked hookEnable ctx
  have fresh := timed_fresh timed idle tinfo cancelled began
  have none := timed_none timed (show (s.calls fiber).phase.timer = none by rw [idle]; rfl)
  rcases entered with closed | ⟨phase, _, _, goes⟩
  · rw [closed]
    exact timed_returns fresh none trivial
  · rw [goes]
    exact timed_goes fresh fun timer member same => absurd same (none timer member)

theorem answer_timed {fiber : Nat} {given : Answer} (timed : s.Timed)
    (done : s.step (.answer fiber given) = some after) : after.Timed := by
  obtain ⟨_, noTimer, _, cases⟩ := answer_cases done
  rcases cases with same | arms | ⟨returned, returns, final⟩
  · rwa [same]
  · rw [arms]
    exact timed_arm timed noTimer
  · rw [returns]
    exact timed_returns timed (timed_none timed noTimer) final

theorem registration_timed {caller : Caller} {epollCtl : Bool} (timed : s.Timed)
    (done : s.step (.addEvent caller epollCtl) = some after) : after.Timed := by
  obtain ⟨timer, scheduler, phase, _, held, rt, _, cases⟩ := add_event_cases done
  have none := @cancelled_none s timed caller.fiber
  rw [phase] at none
  rcases cases with ⟨_, parks⟩ | ⟨_, refused | checks⟩
  · have parked : (s.goes caller.fiber (.parked timer)).Timed := by
      apply timed_goes timed
      intro other member same
      have own := (timed.own other member).1
      rw [same, phase] at own
      exact own
    rw [parks]
    exact ⟨parked.own, parked.once, parked.numbered, parked.dated, parked.due, parked.live,
      parked.late, parked.fair⟩
  · rw [refused]
    exact timed_returns (timed_cancel timed timer) none trivial
  · rw [checks]
    exact timed_goes (timed_cancel timed timer) fun other member same =>
      absurd same (none other member)

theorem expire_timed {timer : IoTimer} (timed : s.Timed)
    (done : s.step (.expire timer) = some after) : after.Timed := by
  rw [step] at done
  split_ifs at done with armed
  cases done
  have perm : (s.timers.erase timer ++ (s.callbacks ++ [timer])).Perm (s.timers ++ s.callbacks) := by
    apply List.perm_iff_count.mpr
    intro other
    have split := (List.perm_cons_erase armed.1).count_eq other
    rw [List.count_cons] at split
    simp only [List.count_append, List.count_singleton]
    omega
  refine ⟨fun other member => timed.own other (List.mem_of_mem_erase member),
    timed.once.sublist (List.erase_sublist.map _),
    fun other member => timed.numbered other (perm.mem_iff.mp member),
    fun other member => timed.dated other (perm.mem_iff.mp member), ?_, timed.live, timed.late,
    timed.fair⟩
  intro other member
  rcases List.mem_append.mp member with old | new
  · exact timed.due other old
  · rw [List.mem_singleton.mp new]
    exact armed.2

theorem callback_timed {timer : IoTimer} {epollCtl : Bool} (timed : s.Timed)
    (done : s.step (.callback timer epollCtl) = some after) : after.Timed := by
  obtain ⟨member, same | ⟨locked, held, _, _, same⟩⟩ := callback_cases done
  · have fewer : ∀ other ∈ s.timers ++ s.callbacks.erase timer,
        other ∈ s.timers ++ s.callbacks := by
      intro other inside
      rcases List.mem_append.mp inside with old | expired
      · exact List.mem_append_left _ old
      · exact List.mem_append_right _ (List.mem_of_mem_erase expired)
    rw [same]
    exact ⟨timed.own, timed.once, fun other inside => timed.numbered other (fewer other inside),
      fun other inside => timed.dated other (fewer other inside),
      fun other inside => timed.due other (List.mem_of_mem_erase inside), timed.live, timed.late,
      timed.fair⟩
  · rw [same]
    exact timed_callback timed member locked held

theorem resume_timed {scheduler fiber : Nat} (timed : s.Timed)
    (done : s.step (.resume scheduler fiber) = some after) : after.Timed := by
  obtain ⟨timer, phase, handed, cases⟩ := resume_cases done
  have none := @cancelled_none s timed fiber
  rw [phase] at none
  have cancelled := timed_cancel timed timer
  have rest : IoRun.Timed { s.cancelTimer timer with held := { s.held with
      scheduled := s.held.scheduled.erase (scheduler, .fiber fiber) } } :=
    ⟨cancelled.own, cancelled.once, cancelled.numbered, cancelled.dated, cancelled.due,
      cancelled.live, cancelled.late, cancelled.fair⟩
  rcases cases with ⟨given, expired⟩ | ⟨_, calls | checks⟩
  · rw [expired]
    exact timed_returns rest none (timed.late fiber given)
  · rw [calls]
    exact timed_goes rest fun other member same => absurd same (none other member)
  · rw [checks]
    exact timed_goes rest fun other member same => absurd same (none other member)

theorem tick_timed {now : Nat} (timed : s.Timed)
    (done : s.step (.tick now) = some after) : after.Timed := by
  rw [step] at done
  split_ifs at done with later
  cases done
  refine ⟨timed.own, timed.once, timed.numbered, ?_, fun timer member =>
    Nat.le_trans (timed.due timer member) later, fun fiber => ⟨(timed.live fiber).1,
      Nat.le_trans (timed.live fiber).2 later⟩, ?_, timed.fair⟩
  · intro timer member same
    obtain ⟨armed, after, before, deadline⟩ := timed.dated timer member same
    exact ⟨armed, after, Nat.le_trans before later, deadline⟩
  · intro fiber cancelled
    obtain ⟨armed, after, before, due⟩ := timed.late fiber cancelled
    exact ⟨armed, after, Nat.le_trans before later, Nat.le_trans due later⟩

theorem step_timed {taken : IoStep} (timed : s.Timed) (done : s.step taken = some after) :
    after.Timed := by
  cases taken with
  | begin fiber hooked hookEnable ctx => exact begin_timed timed done
  | answer fiber given => exact answer_timed timed done
  | addEvent caller epollCtl => exact registration_timed timed done
  | expire timer => exact expire_timed timed done
  | callback timer epollCtl => exact callback_timed timed done
  | ready report epollCtl =>
      rw [step] at done
      split at done
      · cases done
      · cases done
        exact ⟨timed.own, timed.once, timed.numbered, timed.dated, timed.due, timed.live, timed.late,
          timed.fair⟩
  | cancelAll epollCtl =>
      rw [step] at done
      split at done
      · cases done
      · cases done
        exact ⟨timed.own, timed.once, timed.numbered, timed.dated, timed.due, timed.live, timed.late,
          timed.fair⟩
  | resume scheduler fiber => exact resume_timed timed done
  | tick now => exact tick_timed timed done

/-- What holds between the calls, the events and the timers of a descriptor. -/
structure Orderly (s : IoRun) : Prop where
  woken : ∀ fiber, (s.calls fiber).phase.isParked = true →
    s.held.awaited.countP (isFiber fiber) = 1
  left : ∀ fiber, (s.calls fiber).phase.isParked = false →
    ∀ job ∈ s.held.awaited, job.2 ≠ .fiber fiber
  armed : ∀ fiber, (s.timers.filter fun timer => timer.fiber = fiber).length ≤ 1
  disarmed : ∀ fiber, (s.calls fiber).phase = .idle → ∀ timer ∈ s.timers, timer.fiber ≠ fiber
  expired : ∀ result ∈ s.results, result.outcome = .expired →
    result.ended + result.call.timeout.toNat < 2 ^ 64 →
      result.call.began + result.call.timeout.toNat ≤ result.ended
  answered : ∀ result ∈ s.results, ∀ answer, result.outcome = .answered answer →
    Final result.call answer

theorem armed_once (timed : s.Timed) (fiber : Nat) :
    (s.timers.filter fun timer => timer.fiber = fiber).length ≤ 1 := by
  have same : ∀ timer ∈ s.timers.filter (fun timer => timer.fiber = fiber),
      some timer.id = (s.calls fiber).phase.timer := by
    intro timer member
    obtain ⟨inside, own⟩ := List.mem_filter.mp member
    rw [← of_decide_eq_true own]
    exact (timed.own timer inside).1.symm
  have once := timed.once.sublist
    ((List.filter_sublist (p := fun timer : IoTimer => decide (timer.fiber = fiber))).map IoTimer.id)
  cases found : s.timers.filter fun timer => timer.fiber = fiber with
  | nil => exact Nat.zero_le _
  | cons first rest =>
      cases rest with
      | nil => exact Nat.le_refl _
      | cons second rest =>
          rw [found] at same once
          have equal := (same first List.mem_cons_self).trans
            (same second (List.mem_cons_of_mem _ List.mem_cons_self)).symm
          have apart := (List.nodup_cons.mp once).1
          exact absurd (List.mem_cons.mpr (.inl (Option.some.inj equal))) apart

theorem orderly_of_sound (awaits : s.Awaits) (timed : s.Timed) : Orderly s where
  woken := fun fiber parked => by rw [awaits.counted, parked]; rfl
  left := by
    intro fiber running job member same
    have nobody := awaits.counted fiber
    rw [running] at nobody
    exact List.countP_eq_zero.mp nobody job member (decide_eq_true same)
  armed := armed_once timed
  disarmed := fun fiber idle => timed_none timed (by rw [idle]; rfl)
  expired := by
    intro result member expired small
    have fair := timed.fair result member
    rw [Fair, expired] at fair
    obtain ⟨armed, after, before, due⟩ := fair
    rw [Nat.mod_eq_of_lt (by omega)] at due
    omega
  answered := by
    intro result member answer answered
    have fair := timed.fair result member
    rw [Fair, answered] at fair
    exact fair

end IoRun

end ChatServer.Fiber
