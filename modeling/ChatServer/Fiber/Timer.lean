import ChatServer.Lib.OrderedSet
import ChatServer.Lib.Transition
import ChatServer.Machine
import Mathlib.Logic.Function.Basic

/-!
# Timers

`Timer` and `TimerManager` of `timer.cc`. Timers are objects on a heap; `m_timers` holds pointers
to some of them, ordered by a comparator that reads `m_next` through the pointers. The clock is an
argument of every call that reads it. `m_next` and the intervals are `uint64_t` and wrap.
-/

namespace ChatServer.Fiber

set_option autoImplicit false

abbrev Address := Nat

structure Timer (Callback : Type) where
  ms : UInt64
  next : UInt64
  cb : Option Callback
  recurring : Bool
  deriving DecidableEq

/-- What a `Timer::ptr` shows the comparator; a pointer to no timer counts as null. -/
abbrev TimerKey := Option (UInt64 × Address)

def Comparator : TimerKey → TimerKey → Bool
  | none, none => false
  | none, some _ => true
  | some _, none => false
  | some (lhsNext, lhs), some (rhsNext, rhs) =>
      if lhsNext < rhsNext then true
      else if lhsNext > rhsNext then false
      else lhs < rhs

abbrev TimerHeap (Callback : Type) := Address → Option (Timer Callback)

variable {Callback : Type}

def timerKey (heap : TimerHeap Callback) (address : Address) : TimerKey :=
  (heap address).map fun timer => (timer.next, address)

/-- The order of `m_timers`, under the values `m_next` has now. -/
def Earlier (heap : TimerHeap Callback) (lhs rhs : Address) : Prop :=
  Comparator (timerKey heap lhs) (timerKey heap rhs) = true

instance (heap : TimerHeap Callback) : DecidableRel (Earlier heap) :=
  fun _ _ => inferInstanceAs (Decidable (Comparator _ _ = true))

/-- `moved` is a history: the timers whose `m_next` was written while they were in `m_timers`. -/
structure TimerManager (Callback : Type) where
  heap : TimerHeap Callback
  timers : List Address
  tickled : Bool
  previousTime : UInt64
  moved : List Address

namespace TimerManager

def start (previousTime : UInt64) : TimerManager Callback :=
  ⟨fun _ => none, [], false, previousTime, []⟩

def write (manager : TimerManager Callback) (address : Address) (timer : Timer Callback) :
    TimerManager Callback :=
  { manager with heap := Function.update manager.heap address (some timer) }

def writeNext (manager : TimerManager Callback) (address : Address) (timer : Timer Callback)
    (next : UInt64) : TimerManager Callback :=
  { manager.write address { timer with next } with
    moved := if address ∈ manager.timers then address :: manager.moved else manager.moved }

/-- `m_timers.erase(it)`; erasing `end()` is undefined. -/
def erase (manager : TimerManager Callback) (position : Nat) : Result (TimerManager Callback) :=
  if position < manager.timers.length then
    .ok { manager with timers := manager.timers.eraseIdx position }
  else .error (.undefined .outOfBounds)

/-- `m_timers.insert(timer)`. -/
def insert (manager : TimerManager Callback) (address : Address) : TimerManager Callback :=
  { manager with timers := (OrderedSet.insert (Earlier manager.heap) address manager.timers).1 }

/-- The locked part of `addTimer(val, lock)`, with whether `onTimerInsertedAtFront` follows. -/
def addTimerLocked (manager : TimerManager Callback) (address : Address) :
    TimerManager Callback × Bool :=
  let position := (OrderedSet.insert (Earlier manager.heap) address manager.timers).2
  let atFront := position == 0 && !manager.tickled
  ({ manager.insert address with tickled := manager.tickled || atFront }, atFront)

def addTimer (manager : TimerManager Callback) (address : Address) (ms : UInt64)
    (cb : Option Callback) (recurring : Bool) (now : UInt64) : TimerManager Callback × Bool :=
  (manager.write address ⟨ms, now + ms, cb, recurring⟩).addTimerLocked address

def cancel (manager : TimerManager Callback) (this : Address) :
    Result (TimerManager Callback × Bool) :=
  match manager.heap this with
  | none => .error (.undefined .nullDeref)
  | some timer =>
      if timer.cb.isSome then do
        let manager := manager.write this { timer with cb := none }
        let it := OrderedSet.find (Earlier manager.heap) this manager.timers
        let manager ← manager.erase it
        .ok (manager, true)
      else .ok (manager, false)

def refresh (manager : TimerManager Callback) (this : Address) (now : UInt64) :
    Result (TimerManager Callback × Bool) :=
  match manager.heap this with
  | none => .error (.undefined .nullDeref)
  | some timer =>
      if timer.cb.isNone then .ok (manager, false)
      else
        let it := OrderedSet.find (Earlier manager.heap) this manager.timers
        if it = manager.timers.length then .ok (manager, false)
        else do
          let manager ← manager.erase it
          .ok ((manager.writeNext this timer (now + timer.ms)).insert this, true)

def reset (manager : TimerManager Callback) (this : Address) (ms : UInt64) (fromNow : Bool)
    (now : UInt64) : Result (TimerManager Callback × Bool) :=
  match manager.heap this with
  | none => .error (.undefined .nullDeref)
  | some timer =>
      if ms = timer.ms ∧ fromNow = false then .ok (manager, true)
      else if timer.cb.isNone then .ok (manager, false)
      else
        let it := OrderedSet.find (Earlier manager.heap) this manager.timers
        if it = manager.timers.length then .ok (manager, false)
        else do
          let manager ← manager.erase it
          let start := if fromNow then now else timer.next - timer.ms
          let manager := manager.writeNext this { timer with ms } (start + ms)
          .ok ((manager.addTimerLocked this).1, true)

/-- `getNextTimer`; without a timer the wait is `~0ull`. -/
def getNextTimer (manager : TimerManager Callback) (now : UInt64) :
    Result (TimerManager Callback × UInt64) :=
  let manager := { manager with tickled := false }
  match manager.timers with
  | [] => .ok (manager, ~~~0)
  | first :: _ =>
      match manager.heap first with
      | none => .error (.undefined .nullDeref)
      | some next => .ok (manager, if now ≥ next.next then 0 else next.next - now)

def detectClockRollover (manager : TimerManager Callback) (now : UInt64) :
    TimerManager Callback × Bool :=
  let rollover := now < manager.previousTime && now < manager.previousTime - 60 * 60 * 1000
  ({ manager with previousTime := now }, rollover)

/-- The loop of `listExpiredCb` that steps over the timers due at this very time. -/
def skipDue (heap : TimerHeap Callback) (now : UInt64) : List Address → Nat
  | [] => 0
  | address :: rest =>
      if (heap address).map (·.next) = some now then skipDue heap now rest + 1 else 0

def expireOne (manager : TimerManager Callback) (now : UInt64) (address : Address) :
    Result (TimerManager Callback × Option Callback) :=
  match manager.heap address with
  | none => .error (.undefined .nullDeref)
  | some timer =>
      if timer.recurring then
        .ok ((manager.writeNext address timer (now + timer.ms)).insert address, timer.cb)
      else .ok (manager.write address { timer with cb := none }, timer.cb)

def expire (manager : TimerManager Callback) (now : UInt64) :
    List Address → Result (TimerManager Callback × List (Option Callback))
  | [] => .ok (manager, [])
  | address :: rest => do
      let (manager, cb) ← manager.expireOne now address
      let (manager, cbs) ← manager.expire now rest
      .ok (manager, cb :: cbs)

/-- `listExpiredCb`; `now_timer`, which only serves the search, is at `nowTimer`. -/
def listExpiredCb (manager : TimerManager Callback) (nowTimer : Address) (now : UInt64) :
    Result (TimerManager Callback × List (Option Callback)) :=
  match manager.timers with
  | [] => .ok (manager, [])
  | first :: _ =>
      let (manager, rollover) := manager.detectClockRollover now
      match manager.heap first with
      | none => .error (.undefined .nullDeref)
      | some begin =>
          if !rollover && begin.next > now then .ok (manager, [])
          else
            let heap := Function.update manager.heap nowTimer (some ⟨0, now, none, false⟩)
            let lower :=
              if rollover then manager.timers.length
              else OrderedSet.lowerBound (Earlier heap) nowTimer manager.timers
            let it := lower + skipDue manager.heap now (manager.timers.drop lower)
            let expired := manager.timers.take it
            { manager with timers := manager.timers.drop it }.expire now expired

end TimerManager

/-- The calls, and the end of a timer that nothing points to any more. -/
inductive TimerCall (Callback : Type) where
  | addTimer (address : Address) (ms : UInt64) (cb : Option Callback) (recurring : Bool)
      (now : UInt64)
  | cancel (timer : Address)
  | refresh (timer : Address) (now : UInt64)
  | reset (timer : Address) (ms : UInt64) (fromNow : Bool) (now : UInt64)
  | getNextTimer (now : UInt64)
  | listExpiredCb (nowTimer : Address) (now : UInt64)
  | release (timer : Address)

namespace TimerCall

/-- Calls are made on timers that exist, new timers are where nothing is, and `m_timers` keeps
what it points to. -/
def Possible (manager : TimerManager Callback) : TimerCall Callback → Prop
  | .addTimer address _ _ _ _ => manager.heap address = none
  | .cancel timer | .refresh timer _ | .reset timer _ _ _ => manager.heap timer ≠ none
  | .getNextTimer _ => True
  | .listExpiredCb nowTimer _ => manager.heap nowTimer = none
  | .release timer => manager.heap timer ≠ none ∧ timer ∉ manager.timers

instance (manager : TimerManager Callback) (call : TimerCall Callback) :
    Decidable (call.Possible manager) :=
  match call with
  | .addTimer address _ _ _ _ => inferInstanceAs (Decidable (manager.heap address = none))
  | .cancel timer => inferInstanceAs (Decidable (manager.heap timer ≠ none))
  | .refresh timer _ => inferInstanceAs (Decidable (manager.heap timer ≠ none))
  | .reset timer _ _ _ => inferInstanceAs (Decidable (manager.heap timer ≠ none))
  | .getNextTimer _ => inferInstanceAs (Decidable True)
  | .listExpiredCb nowTimer _ => inferInstanceAs (Decidable (manager.heap nowTimer = none))
  | .release timer =>
      inferInstanceAs (Decidable (manager.heap timer ≠ none ∧ timer ∉ manager.timers))

def perform (manager : TimerManager Callback) :
    TimerCall Callback → Result (TimerManager Callback)
  | .addTimer address ms cb recurring now => .ok (manager.addTimer address ms cb recurring now).1
  | .cancel timer => Prod.fst <$> manager.cancel timer
  | .refresh timer now => Prod.fst <$> manager.refresh timer now
  | .reset timer ms fromNow now => Prod.fst <$> manager.reset timer ms fromNow now
  | .getNextTimer now => Prod.fst <$> manager.getNextTimer now
  | .listExpiredCb nowTimer now => Prod.fst <$> manager.listExpiredCb nowTimer now
  | .release timer => .ok { manager with heap := Function.update manager.heap timer none }

def WithCallback : TimerCall Callback → Prop
  | .addTimer _ _ cb _ _ => cb ≠ none
  | _ => True

instance (call : TimerCall Callback) : Decidable call.WithCallback :=
  match call with
  | .addTimer _ _ cb _ _ => inferInstanceAs (Decidable (cb ≠ none))
  | .cancel _ | .refresh _ _ | .reset _ _ _ _ | .getNextTimer _ | .listExpiredCb _ _
  | .release _ => inferInstanceAs (Decidable True)

end TimerCall

def timerStep : Result (TimerManager Callback) → TimerCall Callback →
    Option (Result (TimerManager Callback))
  | .error _, _ => none
  | .ok manager, call => if call.Possible manager then some (call.perform manager) else none

end ChatServer.Fiber
