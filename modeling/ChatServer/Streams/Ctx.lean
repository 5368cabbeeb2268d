import ChatServer.Lib.Transition
import Mathlib.Data.List.Basic

/-!
# Who resumes a waiting request

A request fills in its `Ctx`, enters it into `m_ctxs`, starts a timer and yields. A response, the
timer and the end of the connection each get hold of the `Ctx` in a locked section and then run
`doRsp`, which reads `scheduler`, swaps it for null and schedules the fiber. Any number of these
events run at once; they are interleaved between their locked sections and at the swap.
-/

namespace ChatServer.Streams

set_option autoImplicit false

/-- The fields that the events read and write; `timer` tells whether one is set. -/
structure Ctx where
  result : UInt32
  timed : Bool
  scheduler : Option Nat
  fiber : Option Nat
  timer : Bool
  resultStr : String
  deriving DecidableEq

namespace Ctx

def timeoutError : UInt32 := -1
def ioError : UInt32 := -2

def filled (scheduler fiber : Nat) : Ctx := ⟨0, false, some scheduler, some fiber, false, "ok"⟩

/-- `doRsp` behind its checks, up to `schedule`, which takes the fiber. -/
def respond (ctx : Ctx) : Ctx :=
  if ctx.timed then
    { ctx with timer := false, result := timeoutError, resultStr := "timeout", fiber := none }
  else { ctx with timer := false, fiber := none }

end Ctx

inductive Slot where
  | vacant
  | own
  | other
  deriving DecidableEq

inductive RequestStage where
  | filled
  | added
  | timed
  deriving DecidableEq

/-- Where an event is: behind `erase` in `onTimeOut`, behind `swap` in `innerClose`, before
`doRsp`, behind its read of `scheduler`, behind its successful swap, or at its end. An event that
did not find the `Ctx` remembers whether it was registered before. -/
inductive Event where
  | erased
  | swapped
  | entering
  | loaded (scd : Option Nat)
  | won (scd : Option Nat)
  | missed (registered : Bool)
  | finished
  deriving DecidableEq

/-- `events` holds every event since `scheduler` and `fiber` were set, and `scheduled` what
`doRsp` has scheduled. `registered` tells that `addCtx` has entered the `Ctx`, `displaced` that
the timer of another request with the same number has removed it. -/
structure Waiting where
  ctx : Ctx
  slot : Slot
  request : RequestStage
  events : List Event
  scheduled : List (Nat × Nat)
  registered : Bool
  displaced : Bool
  deriving DecidableEq

inductive WaitingAction where
  | addCtx
  | addTimer
  | response
  | timeout
  | close
  | otherAdd
  | otherTimeout
  | advance (event : Nat)

namespace Waiting

def start (scheduler fiber : Nat) : Waiting :=
  ⟨.filled scheduler fiber, .vacant, .filled, [], [], false, false⟩

def addCtx (state : Waiting) : Waiting :=
  match state.slot with
  | .vacant => { state with slot := .own, registered := true, request := .added }
  | _ => { state with request := .added }

/-- The locked section of `getAndDelCtx` or `innerClose`: the entry is taken out, and the event
goes on if it is this `Ctx`. -/
def take (state : Waiting) (found : Event) : Waiting :=
  { state with
    slot := .vacant
    events := state.events ++
      [match state.slot with
        | .own => found
        | _ => .missed state.registered] }

def deliver (state : Waiting) (event : Nat) (scd : Option Nat) : Waiting :=
  match scd, state.ctx.fiber with
  | some scd, some fiber =>
      { state with
        ctx := state.ctx.respond
        scheduled := state.scheduled ++ [(scd, fiber)]
        events := state.events.set event .finished }
  | _, _ => { state with events := state.events.set event .finished }

def compareAndSwap (state : Waiting) (event : Nat) (scd : Option Nat) : Waiting :=
  if state.ctx.scheduler = scd then
    { state with
      ctx := { state.ctx with scheduler := none }
      events := state.events.set event (.won scd) }
  else { state with events := state.events.set event .finished }

def advance (state : Waiting) (event : Nat) : Option Waiting :=
  match state.events[event]? with
  | some .erased => some
      { state with
        ctx := { state.ctx with timed := true }
        events := state.events.set event .entering }
  | some .swapped => some
      { state with
        ctx := { state.ctx with result := Ctx.ioError, resultStr := "io_error" }
        events := state.events.set event .entering }
  | some .entering => some
      { state with events := state.events.set event (.loaded state.ctx.scheduler) }
  | some (.loaded scd) => some (state.compareAndSwap event scd)
  | some (.won scd) => some (state.deliver event scd)
  | _ => none

/-- The timer runs `onTimeOut` whatever the map holds; it erases by number. The others are
requests that were given the same number. -/
def step (state : Waiting) : WaitingAction → Option Waiting
  | .addCtx => if state.request = .filled then some state.addCtx else none
  | .addTimer =>
      if state.request = .added then
        some { state with ctx := { state.ctx with timer := true }, request := .timed }
      else none
  | .response => some (state.take .entering)
  | .close => some (state.take .swapped)
  | .timeout =>
      if state.request = .timed then
        some { state with slot := .vacant, events := state.events ++ [.erased] }
      else none
  | .otherAdd => if state.slot = .vacant then some { state with slot := .other } else none
  | .otherTimeout =>
      some { state with slot := .vacant, displaced := state.displaced || state.slot == .own }
  | .advance event => state.advance event

end Waiting

namespace Event

/-- Events while nobody has swapped: those that read `scheduler` have read the right one. -/
def Early (scheduler : Nat) : Event → Prop
  | .loaded scd => scd = some scheduler
  | .won _ | .finished => False
  | _ => True

/-- Events that will not schedule any more once another one has swapped. -/
def Late (scheduler : Nat) : Event → Prop
  | .loaded (some scd) => scd = scheduler
  | .won (some _) => False
  | _ => True

theorem late_of_early {scheduler : Nat} {event : Event} (early : event.Early scheduler) :
    event.Late scheduler := by
  cases event with
  | loaded scd => cases scd with
      | none => trivial
      | some scd => exact Option.some.inj early
  | won _ => exact early.elim
  | _ => trivial

end Event

namespace Waiting

/-- The fiber waits, one event is about to schedule it, or it has been scheduled. -/
inductive Progress (scheduler fiber : Nat) (state : Waiting) : Prop where
  | waiting (same : state.ctx.scheduler = some scheduler) (there : state.ctx.fiber = some fiber)
      (none : state.scheduled = []) (early : ∀ event ∈ state.events, event.Early scheduler)
  | claimed (winner : Nat) (gone : state.ctx.scheduler = none)
      (there : state.ctx.fiber = some fiber) (none : state.scheduled = [])
      (won : state.events[winner]? = some (.won (some scheduler)))
      (late : ∀ other event, other ≠ winner → state.events[other]? = some event →
        event.Late scheduler)
  | resumed (gone : state.ctx.scheduler = none) (once : state.scheduled = [(scheduler, fiber)])
      (late : ∀ event ∈ state.events, event.Late scheduler)

variable {scheduler fiber : Nat} {state after : Waiting}

theorem progress_append (progress : Progress scheduler fiber state) {event : Event}
    (sameScheduler : after.ctx.scheduler = state.ctx.scheduler)
    (sameFiber : after.ctx.fiber = state.ctx.fiber)
    (sameScheduled : after.scheduled = state.scheduled)
    (events : after.events = state.events ++ [event]) (early : event.Early scheduler) :
    Progress scheduler fiber after := by
  cases progress with
  | waiting same there none all =>
      apply Progress.waiting (sameScheduler.trans same) (sameFiber.trans there)
        (sameScheduled.trans none)
      intro other member
      rw [events, List.mem_append, List.mem_singleton] at member
      rcases member with old | new
      · exact all other old
      · rw [new]
        exact early
  | claimed winner gone there none won late =>
      obtain ⟨inside, _⟩ := List.getElem?_eq_some_iff.mp won
      apply Progress.claimed winner (sameScheduler.trans gone) (sameFiber.trans there)
        (sameScheduled.trans none)
      · rw [events, List.getElem?_append_left inside]
        exact won
      · intro other found different at_other
        rw [events] at at_other
        by_cases old : other < state.events.length
        · rw [List.getElem?_append_left old] at at_other
          exact late other found different at_other
        · rw [List.getElem?_append_right (by omega)] at at_other
          have same := List.mem_of_getElem? at_other
          rw [List.mem_singleton.mp same]
          exact Event.late_of_early early
  | resumed gone once late =>
      apply Progress.resumed (sameScheduler.trans gone) (sameScheduled.trans once)
      intro other member
      rw [events, List.mem_append, List.mem_singleton] at member
      rcases member with old | new
      · exact late other old
      · rw [new]
        exact Event.late_of_early early

/-- An event that has not swapped `scheduler` away moves on. -/
theorem progress_set (progress : Progress scheduler fiber state) {index : Nat} {event next : Event}
    (there : state.events[index]? = some event) (loser : ∀ scd, event ≠ .won (some scd))
    (sameScheduler : after.ctx.scheduler = state.ctx.scheduler)
    (sameFiber : after.ctx.fiber = state.ctx.fiber)
    (sameScheduled : after.scheduled = state.scheduled)
    (events : after.events = state.events.set index next)
    (early : state.ctx.scheduler = some scheduler → next.Early scheduler)
    (late : next.Late scheduler) : Progress scheduler fiber after := by
  cases progress with
  | waiting same fiberThere none all =>
      apply Progress.waiting (sameScheduler.trans same) (sameFiber.trans fiberThere)
        (sameScheduled.trans none)
      intro other member
      rw [events] at member
      rcases List.mem_or_eq_of_mem_set member with old | new
      · exact all other old
      · rw [new]
        exact early same
  | claimed winner gone fiberThere none won others =>
      have different : index ≠ winner := by
        intro same
        rw [same, won, Option.some.injEq] at there
        exact loser scheduler there.symm
      apply Progress.claimed winner (sameScheduler.trans gone) (sameFiber.trans fiberThere)
        (sameScheduled.trans none)
      · rw [events, List.getElem?_set_ne different]
        exact won
      · intro other found apart at_other
        rw [events] at at_other
        by_cases same : index = other
        · rw [← same, List.getElem?_set_self (List.getElem?_eq_some_iff.mp there).1,
            Option.some.injEq] at at_other
          rw [← at_other]
          exact late
        · rw [List.getElem?_set_ne same] at at_other
          exact others other found apart at_other
  | resumed gone once others =>
      apply Progress.resumed (sameScheduler.trans gone) (sameScheduled.trans once)
      intro other member
      rw [events] at member
      rcases List.mem_or_eq_of_mem_set member with old | new
      · exact others other old
      · rw [new]
        exact late

theorem scheduler_cases (progress : Progress scheduler fiber state) :
    state.ctx.scheduler = some scheduler ∨ state.ctx.scheduler = none := by
  cases progress with
  | waiting same => exact .inl same
  | claimed _ gone => exact .inr gone
  | resumed gone => exact .inr gone

theorem compare_and_swap_progress (progress : Progress scheduler fiber state) {index : Nat}
    {scd : Option Nat} (there : state.events[index]? = some (.loaded scd)) :
    Progress scheduler fiber (state.compareAndSwap index scd) := by
  unfold compareAndSwap
  have inside := (List.getElem?_eq_some_iff.mp there).1
  have loser : ∀ other, Event.loaded scd ≠ .won (some other) := nofun
  by_cases same : state.ctx.scheduler = scd
  · rw [if_pos same]
    cases progress with
    | waiting current fiberThere none all =>
        rw [current] at same
        refine Progress.claimed index rfl fiberThere none ?_ ?_
        · simp only [List.getElem?_set_self inside, same]
        · intro other found apart at_other
          rw [List.getElem?_set_ne (Ne.symm apart)] at at_other
          exact Event.late_of_early (all found (List.mem_of_getElem? at_other))
    | claimed winner gone fiberThere none won others =>
        have progress := Progress.claimed winner gone fiberThere none won others
        refine progress_set progress there loser gone.symm rfl rfl rfl ?_ ?_
        · simp [gone]
        · rw [← same, gone]
          trivial
    | resumed gone once others =>
        have progress := Progress.resumed gone once others
        refine progress_set progress there loser gone.symm rfl rfl rfl ?_ ?_
        · simp [gone]
        · rw [← same, gone]
          trivial
  · rw [if_neg same]
    refine progress_set progress there loser rfl rfl rfl rfl ?_ trivial
    intro current
    cases progress with
    | waiting _ _ _ all =>
        have early := all _ (List.mem_of_getElem? there)
        exact absurd (current.trans early.symm) same
    | claimed _ gone => simp [gone] at current
    | resumed gone => simp [gone] at current

theorem deliver_progress (progress : Progress scheduler fiber state) {index : Nat}
    {scd : Option Nat} (there : state.events[index]? = some (.won scd)) :
    Progress scheduler fiber (state.deliver index scd) := by
  unfold deliver
  have inside := (List.getElem?_eq_some_iff.mp there).1
  cases scd with
  | none =>
      -- this event swapped null for null, another one has the fiber
      refine progress_set progress there nofun rfl rfl rfl rfl ?_ trivial
      intro current
      cases progress with
      | waiting _ _ _ all => exact (all _ (List.mem_of_getElem? there)).elim
      | claimed _ gone => simp [gone] at current
      | resumed gone => simp [gone] at current
  | some scd =>
      cases progress with
      | waiting _ _ _ all => exact (all _ (List.mem_of_getElem? there)).elim
      | resumed _ _ others => exact (others _ (List.mem_of_getElem? there)).elim
      | claimed winner gone fiberThere none won others =>
          have same : index = winner := by
            by_contra different
            exact others index _ different there
          rw [same, won, Option.some.injEq, Event.won.injEq, Option.some.injEq] at there
          rw [same, ← there, fiberThere]
          apply Progress.resumed
          · simp only [Ctx.respond]
            split <;> exact gone
          · simp [none]
          · intro other member
            obtain ⟨position, below, at_position⟩ := List.getElem_of_mem member
            have found := List.getElem?_eq_some_iff.mpr ⟨below, at_position⟩
            by_cases here : winner = position
            · rw [← here, List.getElem?_set_self (same ▸ inside), Option.some.injEq] at found
              rw [← found]
              trivial
            · rw [List.getElem?_set_ne here] at found
              exact others position other (Ne.symm here) found

theorem advance_progress (progress : Progress scheduler fiber state) {index : Nat}
    (taken : state.advance index = some after) : Progress scheduler fiber after := by
  cases there : state.events[index]? with
  | none => simp [advance, there] at taken
  | some event =>
      cases event with
      | erased =>
          simp only [advance, there, Option.some.injEq] at taken
          rw [← taken]
          exact progress_set progress there nofun rfl rfl rfl rfl (fun _ => trivial) trivial
      | swapped =>
          simp only [advance, there, Option.some.injEq] at taken
          rw [← taken]
          exact progress_set progress there nofun rfl rfl rfl rfl (fun _ => trivial) trivial
      | entering =>
          simp only [advance, there, Option.some.injEq] at taken
          rw [← taken]
          refine progress_set progress there nofun rfl rfl rfl rfl id ?_
          rcases scheduler_cases progress with current | current <;> rw [current] <;> trivial
      | loaded scd =>
          simp only [advance, there, Option.some.injEq] at taken
          rw [← taken]
          exact compare_and_swap_progress progress there
      | won scd =>
          simp only [advance, there, Option.some.injEq] at taken
          rw [← taken]
          exact deliver_progress progress there
      | missed registered => simp [advance, there] at taken
      | finished => simp [advance, there] at taken

theorem take_progress (progress : Progress scheduler fiber state) {found : Event}
    (early : found.Early scheduler) : Progress scheduler fiber (state.take found) := by
  refine progress_append progress rfl rfl rfl rfl ?_
  cases state.slot with
  | own => exact early
  | _ => trivial

theorem progress_congr (progress : Progress scheduler fiber state)
    (sameScheduler : after.ctx.scheduler = state.ctx.scheduler)
    (sameFiber : after.ctx.fiber = state.ctx.fiber)
    (sameScheduled : after.scheduled = state.scheduled)
    (sameEvents : after.events = state.events) : Progress scheduler fiber after := by
  cases progress with
  | waiting same there none early =>
      exact .waiting (sameScheduler.trans same) (sameFiber.trans there) (sameScheduled.trans none)
        (sameEvents ▸ early)
  | claimed winner gone there none won late =>
      exact .claimed winner (sameScheduler.trans gone) (sameFiber.trans there)
        (sameScheduled.trans none) (sameEvents ▸ won) (sameEvents ▸ late)
  | resumed gone once late =>
      exact .resumed (sameScheduler.trans gone) (sameScheduled.trans once) (sameEvents ▸ late)

theorem step_progress {action : WaitingAction} (progress : Progress scheduler fiber state)
    (taken : state.step action = some after) : Progress scheduler fiber after := by
  cases action with
  | addCtx =>
      rw [step] at taken
      split at taken <;> cases taken
      cases state with
      | mk ctx slot =>
          cases slot <;> exact progress_congr progress rfl rfl rfl rfl
  | addTimer =>
      rw [step] at taken
      split at taken <;> cases taken
      exact progress_congr progress rfl rfl rfl rfl
  | response =>
      cases taken
      exact take_progress progress trivial
  | close =>
      cases taken
      exact take_progress progress trivial
  | timeout =>
      rw [step] at taken
      split at taken <;> cases taken
      exact @progress_append _ _ _ _ progress .erased rfl rfl rfl rfl trivial
  | otherAdd =>
      rw [step] at taken
      split at taken <;> cases taken
      exact progress_congr progress rfl rfl rfl rfl
  | otherTimeout =>
      cases taken
      exact progress_congr progress rfl rfl rfl rfl
  | advance index => exact advance_progress progress taken

end Waiting

namespace Event

def holds : Event → Bool
  | .missed _ => false
  | _ => true

def done : Event → Bool
  | .missed _ | .finished => true
  | _ => false

end Event

namespace Waiting

variable {scheduler fiber : Nat} {state after : Waiting}

/-- Events on this `Ctx`: those that got hold of it, and those that looked for it after `addCtx`
had entered it, as long as no other request's timer has removed it. -/
def actedOn (state : Waiting) : Event → Bool
  | .missed registered => registered && !state.displaced
  | _ => true

/-- A `Ctx` that was registered is in the map, or an event has it, unless it was displaced. -/
structure Held (state : Waiting) : Prop where
  known : state.slot = .own → state.registered = true
  kept : state.registered = true → state.displaced = false → state.slot ≠ .own →
    ∃ event ∈ state.events, event.holds = true
  answered : .missed true ∈ state.events → state.displaced = false →
    ∃ event ∈ state.events, event.holds = true

theorem take_held (held : Held state) {found : Event} (holds : found.holds = true) :
    Held (state.take found) := by
  have more {event : Event} (member : event ∈ state.events) :
      event ∈ (state.take found).events := List.mem_append_left _ member
  have taken : state.registered = true → state.displaced = false →
      ∃ event ∈ (state.take found).events, event.holds = true := by
    intro registered still
    cases slot : state.slot with
    | own => exact ⟨found, by simp [take, slot], holds⟩
    | _ =>
        rcases held.kept registered still (by simp [slot]) with ⟨event, member, holder⟩
        exact ⟨event, more member, holder⟩
  refine ⟨nofun, fun registered still _ => taken registered still, ?_⟩
  intro missed still
  rcases List.mem_append.mp missed with old | new
  · rcases held.answered old still with ⟨event, member, holder⟩
    exact ⟨event, more member, holder⟩
  · apply taken _ still
    cases slot : state.slot <;> simp [slot] at new
    · exact new
    · simp [← new, Event.holds] at holds
    · exact new

/-- An event that moves on changes neither the map nor what is known of it. -/
theorem advance_events {index : Nat} (taken : state.advance index = some after) :
    ∃ next : Event, next.holds = true ∧ index < state.events.length ∧
      after.events = state.events.set index next ∧ after.slot = state.slot ∧
      after.registered = state.registered ∧ after.displaced = state.displaced := by
  cases there : state.events[index]? with
  | none => simp [advance, there] at taken
  | some event =>
      have inside := (List.getElem?_eq_some_iff.mp there).1
      cases event with
      | loaded scd =>
          simp only [advance, there, Option.some.injEq, compareAndSwap] at taken
          split at taken
          · exact ⟨.won scd, rfl, inside, by simp [← taken]⟩
          · exact ⟨.finished, rfl, inside, by simp [← taken]⟩
      | won scd =>
          simp only [advance, there, Option.some.injEq, deliver] at taken
          split at taken <;> exact ⟨.finished, rfl, inside, by simp [← taken]⟩
      | missed registered => simp [advance, there] at taken
      | finished => simp [advance, there] at taken
      | entering =>
          simp only [advance, there, Option.some.injEq] at taken
          exact ⟨.loaded state.ctx.scheduler, rfl, inside, by simp [← taken]⟩
      | _ =>
          simp only [advance, there, Option.some.injEq] at taken
          exact ⟨.entering, rfl, inside, by simp [← taken]⟩

theorem advance_held (held : Held state) {index : Nat} (taken : state.advance index = some after) :
    Held after := by
  rcases advance_events taken with ⟨next, holds, inside, events, slot, registered, displaced⟩
  have holder : ∃ event ∈ after.events, event.holds = true := by
    rw [events]
    exact ⟨next, List.mem_set inside next, holds⟩
  refine ⟨?_, fun _ _ _ => holder, fun _ _ => holder⟩
  rw [slot, registered]
  exact held.known

theorem held_congr (held : Held state) (events : after.events = state.events)
    (known : after.slot = .own → after.registered = true)
    (kept : after.registered = true → after.displaced = false → after.slot ≠ .own →
      state.registered = true ∧ state.displaced = false ∧ state.slot ≠ .own)
    (displaced : after.displaced = false → state.displaced = false) : Held after := by
  refine ⟨known, ?_, ?_⟩
  · intro registered still apart
    rw [events]
    have before := kept registered still apart
    exact held.kept before.1 before.2.1 before.2.2
  · intro missed still
    rw [events] at missed ⊢
    exact held.answered missed (displaced still)

theorem step_held {action : WaitingAction} (held : Held state)
    (taken : state.step action = some after) : Held after := by
  cases action with
  | addCtx =>
      rw [step] at taken
      split at taken <;> cases taken
      cases slot : state.slot with
      | vacant =>
          refine held_congr held ?_ ?_ ?_ ?_ <;> simp [addCtx, slot]
      | own =>
          refine held_congr held ?_ ?_ ?_ ?_ <;> simp [addCtx, slot]
          exact held.known slot
      | other =>
          refine held_congr held ?_ ?_ ?_ ?_ <;> simp [addCtx, slot]
          exact fun registered still => ⟨registered, still⟩
  | addTimer =>
      rw [step] at taken
      split at taken <;> cases taken
      exact held_congr held rfl held.known (fun registered still apart =>
        ⟨registered, still, apart⟩) id
  | response =>
      cases taken
      exact take_held held rfl
  | close =>
      cases taken
      exact take_held held rfl
  | timeout =>
      rw [step] at taken
      split at taken <;> cases taken
      have holder : ∃ event ∈ state.events ++ [.erased], event.holds = true :=
        ⟨.erased, by simp, rfl⟩
      exact ⟨nofun, fun _ _ _ => holder, fun _ _ => holder⟩
  | otherAdd =>
      rw [step] at taken
      split at taken
      · cases taken
        rename_i vacant
        refine held_congr held rfl nofun (fun registered still _ => ?_) id
        exact ⟨registered, still, by simp [vacant]⟩
      · cases taken
  | otherTimeout =>
      cases taken
      refine held_congr held rfl nofun (fun registered still _ => ?_) ?_
      · simp only [Bool.or_eq_false_iff, beq_eq_false_iff_ne] at still
        exact ⟨registered, still⟩
      · intro still
        exact (Bool.or_eq_false_iff.mp still).1
  | advance index => exact advance_held held taken

/-- Every order of these steps, from the moment the fields are set. -/
abbrev Reached (scheduler fiber : Nat) (state : Waiting) : Prop :=
  Transition.Reaches step (fun _ _ => True) (start scheduler fiber) state

theorem reached_progress (reached : Reached scheduler fiber state) :
    Progress scheduler fiber state :=
  Transition.invariant_of_reaches (.waiting rfl rfl rfl (by simp [start]))
    (fun _ _ _ progress _ taken => step_progress progress taken) reached

theorem reached_held (reached : Reached scheduler fiber state) : Held state :=
  Transition.invariant_of_reaches ⟨by simp [start], by simp [start], by simp [start]⟩
    (fun _ _ _ held _ taken => step_held held taken) reached

theorem acted_holder (held : Held state) {event : Event} (member : event ∈ state.events)
    (acted : state.actedOn event = true) : ∃ holder ∈ state.events, holder.holds = true := by
  cases event with
  | missed registered =>
      simp only [actedOn, Bool.and_eq_true, Bool.not_eq_true'] at acted
      rw [acted.1] at member
      exact held.answered member acted.2
  | _ => exact ⟨_, member, rfl⟩

/-- The fiber is scheduled at most once, and once if an event acted on the `Ctx` and all that
were started are done. -/
theorem resumed_exactly_once (reached : Reached scheduler fiber state) :
    state.scheduled.length ≤ 1 ∧
      ((∃ event ∈ state.events, state.actedOn event = true) →
        (∀ event ∈ state.events, event.done = true) → state.scheduled = [(scheduler, fiber)]) := by
  have progress := reached_progress reached
  constructor
  · cases progress with
    | waiting _ _ none => simp [none]
    | claimed _ _ _ none => simp [none]
    | resumed _ once => simp [once]
  · intro ⟨event, member, acted⟩ done
    rcases acted_holder (reached_held reached) member acted with ⟨holder, inside, holds⟩
    have finished := done holder inside
    cases progress with
    | waiting _ _ _ early =>
        have before := early holder inside
        cases holder <;> simp_all [Event.Early, Event.holds, Event.done]
    | claimed winner _ _ _ won => exact absurd (done _ (List.mem_of_getElem? won)) nofun
    | resumed _ once => exact once

/-- A response and the timer race; the timer reads `scheduler` first and swaps last. -/
theorem resumed_exactly_once_race : ∃ state, Reached 1 2 state ∧
    (∃ event ∈ state.events, state.actedOn event = true) ∧ state.events.length = 2 ∧
    state.scheduled = [(1, 2)] := by
  have reached : ∃ state, Reached 1 2 state ∧
      ((∃ event ∈ state.events, state.actedOn event = true) ∧
        (∀ event ∈ state.events, event.done = true) ∧ state.events.length = 2) :=
    Transition.exists_of_run
      [.addCtx, .addTimer, .response, .timeout, .advance 1, .advance 1, .advance 0, .advance 0,
        .advance 1, .advance 0] (by decide +kernel)
  obtain ⟨state, reached, acted, done, two⟩ := reached
  exact ⟨state, reached, acted, two, (resumed_exactly_once reached).2 acted done⟩

end Waiting
end ChatServer.Streams
