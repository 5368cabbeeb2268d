import ChatServer.Fiber.Timer
import Mathlib.Data.List.Nodup

/-!
# The timer registry

A timer is in `m_timers` exactly while it has something to call, and the set is in order under
the values `m_next` has now. Calls that change a timer's `m_next` take it out first, so between
two of their steps some timers are out of the set that belong into it; the invariant names them.
-/

namespace ChatServer.Fiber

set_option autoImplicit false

variable {Callback : Type}

theorem comparator_irrefl (key : TimerKey) : Comparator key key = false := by
  cases key with
  | none => rfl
  | some key => simp [Comparator]

theorem comparator_trans {first second third : TimerKey} (left : Comparator first second = true)
    (right : Comparator second third = true) : Comparator first third = true := by
  rcases first with _ | ⟨firstNext, first⟩ <;> rcases second with _ | ⟨secondNext, second⟩ <;>
    rcases third with _ | ⟨thirdNext, third⟩ <;>
    simp only [Comparator, Bool.ite_eq_true_distrib, if_true_left, gt_iff_lt] at left right ⊢ <;>
    grind

theorem earlier_trans (heap : TimerHeap Callback) (first second third : Address)
    (left : Earlier heap first second) (right : Earlier heap second third) :
    Earlier heap first third := comparator_trans left right

theorem earlier_irrefl (heap : TimerHeap Callback) (address : Address) :
    ¬ Earlier heap address address := by
  rw [Earlier, comparator_irrefl]
  exact Bool.false_ne_true

instance (heap : TimerHeap Callback) : Std.Irrefl (Earlier heap) := ⟨earlier_irrefl heap⟩

/-- Two timers never count as equivalent: the pointers decide at the end. -/
theorem earlier_total {heap : TimerHeap Callback} {first second : Address}
    (first_live : heap first ≠ none) (second_live : heap second ≠ none)
    (different : first ≠ second) : Earlier heap first second ∨ Earlier heap second first := by
  cases one : heap first with
  | none => exact absurd one first_live
  | some timer =>
      cases other : heap second with
      | none => exact absurd other second_live
      | some next =>
          simp only [Earlier, timerKey, one, other, Option.map_some, Comparator]
          grind

theorem earlier_congr {heap after : TimerHeap Callback} {first second : Address}
    (same_first : timerKey after first = timerKey heap first)
    (same_second : timerKey after second = timerKey heap second) :
    Earlier after first second ↔ Earlier heap first second := by
  rw [Earlier, Earlier, same_first, same_second]

namespace TimerManager

def Armed (manager : TimerManager Callback) (address : Address) : Prop :=
  ∃ timer, manager.heap address = some timer ∧ timer.cb ≠ none

/-- The registry, while the timers `out` still have to be put back. -/
structure Registered (manager : TimerManager Callback) (out : List Address) : Prop where
  ordered : manager.timers.Pairwise (Earlier manager.heap)
  exact : ∀ address, address ∈ manager.timers ∨ address ∈ out ↔ manager.Armed address
  apart : ∀ address ∈ out, address ∉ manager.timers
  distinct : out.Nodup
  unmoved : manager.moved = []

theorem start_registered (previousTime : UInt64) :
    (start previousTime : TimerManager Callback).Registered [] where
  ordered := List.Pairwise.nil
  exact := by simp [start, Armed]
  apart := by simp
  distinct := List.nodup_nil
  unmoved := rfl

theorem live_of_armed {manager : TimerManager Callback} {address : Address}
    (armed : manager.Armed address) : manager.heap address ≠ none := by
  rcases armed with ⟨timer, found, _⟩
  simp [found]

variable {manager : TimerManager Callback} {out : List Address} {this : Address}

theorem insert_split (ordered : manager.timers.Pairwise (Earlier manager.heap))
    (live : ∀ address ∈ manager.timers, manager.heap address ≠ none)
    (this_live : manager.heap this ≠ none) (absent : this ∉ manager.timers) :
    (∀ address, address ∈ (manager.insert this).timers ↔
      address = this ∨ address ∈ manager.timers) ∧
      (manager.insert this).timers.Pairwise (Earlier (manager.insert this).heap) := by
  have comparable : ∀ address ∈ manager.timers,
      Earlier manager.heap address this ∨ Earlier manager.heap this address := by
    intro address member
    apply earlier_total (live address member) this_live
    intro same
    exact absent (same ▸ member)
  rcases OrderedSet.insert_new (earlier_trans manager.heap) ordered comparable with
    ⟨front, rest, split, inserted, ordered⟩
  have timers : (manager.insert this).timers = front ++ this :: rest := by
    rw [TimerManager.insert, inserted]
  refine ⟨?_, ?_⟩
  · intro address
    rw [timers, split]
    simp only [List.mem_append, List.mem_cons]
    tauto
  · rw [timers]
    exact ordered

namespace Registered

theorem find_lt_length (registered : manager.Registered out) (member : this ∈ manager.timers) :
    OrderedSet.find (Earlier manager.heap) this manager.timers < manager.timers.length :=
  OrderedSet.find_lt_length registered.ordered (earlier_irrefl manager.heap this) member

/-- Taking a timer out where `find` has found it. -/
theorem erase (registered : manager.Registered out) (member : this ∈ manager.timers) :
    ∃ after, manager.erase (OrderedSet.find (Earlier manager.heap) this manager.timers) =
      .ok after ∧ after.heap = manager.heap ∧ after.Registered (this :: out) := by
  have inside := registered.find_lt_length member
  rcases OrderedSet.find_member registered.ordered (earlier_irrefl manager.heap this) member with
    ⟨front, rest, split, position⟩
  have left : manager.timers.eraseIdx front.length = front ++ rest := by
    rw [split, List.eraseIdx_append_of_length_le (Nat.le_refl _), Nat.sub_self]
    rfl
  have ordered := registered.ordered
  rw [split] at ordered
  have absent : this ∉ front ++ rest := by
    have apart := List.nodup_middle.mp ordered.nodup
    exact (List.nodup_cons.mp apart).1
  refine ⟨{ manager with timers := front ++ rest }, ?_, rfl, ?_⟩
  · rw [TimerManager.erase, if_pos inside, position, left]
  · refine ⟨?_, ?_, ?_, ?_, registered.unmoved⟩
    · exact ordered.sublist (List.Sublist.append_left (List.sublist_cons_self this rest) front)
    · intro address
      have before := registered.exact address
      rw [split] at before
      change _ ↔ manager.Armed address
      rw [← before]
      simp only [List.mem_append, List.mem_cons]
      tauto
    · intro address member
      rcases List.mem_cons.mp member with same | later
      · rw [same]
        exact absent
      · have before := registered.apart address later
        rw [split] at before
        simp only [List.mem_append, List.mem_cons, not_or] at before ⊢
        exact ⟨before.1, before.2.2⟩
    · exact List.nodup_cons.mpr ⟨fun later => registered.apart this later member,
        registered.distinct⟩

theorem insert (registered : manager.Registered (this :: out)) :
    (manager.insert this).Registered out := by
  have armed : ∀ address ∈ this :: manager.timers, manager.Armed address := by
    intro address member
    apply (registered.exact address).mp
    rcases List.mem_cons.mp member with same | inside
    · exact .inr (by simp [same])
    · exact .inl inside
  have absent := registered.apart this (by simp)
  rcases insert_split registered.ordered
      (fun address member => live_of_armed (armed address (by simp [member])))
      (live_of_armed (armed this (by simp))) absent with ⟨members, ordered⟩
  have distinct := List.nodup_cons.mp registered.distinct
  refine ⟨ordered, ?_, ?_, distinct.2, registered.unmoved⟩
  · intro address
    change _ ↔ manager.Armed address
    rw [members, ← registered.exact address, List.mem_cons]
    tauto
  · intro address member
    rw [members]
    rintro (same | inside)
    · exact distinct.1 (same ▸ member)
    · exact registered.apart address (by simp [member]) inside

end Registered

theorem armed_write {address : Address} {timer : Timer Callback} :
    (manager.write this timer).Armed address ↔
      (address = this ∧ timer.cb ≠ none) ∨ (address ≠ this ∧ manager.Armed address) := by
  by_cases same : address = this
  · simp [Armed, write, same]
  · simp [Armed, write, same]

theorem write_timers (timer : Timer Callback) :
    (manager.write this timer).timers = manager.timers := rfl

theorem key_update_of_ne {heap : TimerHeap Callback} {address : Address}
    (value : Option (Timer Callback)) (different : address ≠ this) :
    timerKey (Function.update heap this value) address = timerKey heap address := by
  simp [timerKey, different]

/-- What happens to objects out of the set leaves its order as it is. -/
theorem ordered_update (ordered : manager.timers.Pairwise (Earlier manager.heap))
    (absent : this ∉ manager.timers) (value : Option (Timer Callback)) :
    manager.timers.Pairwise (Earlier (Function.update manager.heap this value)) := by
  apply ordered.imp_of_mem
  intro first second first_member second_member earlier
  have keys : ∀ address ∈ manager.timers, timerKey (Function.update manager.heap this value)
      address = timerKey manager.heap address :=
    fun address inside => key_update_of_ne value fun same => absent (same ▸ inside)
  exact (earlier_congr (keys first first_member) (keys second second_member)).mpr earlier

theorem Registered.write (registered : manager.Registered out) (absent : this ∉ manager.timers)
    (timer : Timer Callback) {still : List Address}
    (exact : ∀ address, address ∈ manager.timers ∨ address ∈ still ↔
      (address = this ∧ timer.cb ≠ none) ∨ (address ≠ this ∧ manager.Armed address))
    (apart : ∀ address ∈ still, address ∉ manager.timers) (distinct : still.Nodup) :
    (manager.write this timer).Registered still where
  ordered := ordered_update registered.ordered absent (some timer)
  exact := by
    intro address
    rw [armed_write]
    exact exact address
  apart := apart
  distinct := distinct
  unmoved := registered.unmoved

theorem Registered.writeNext (registered : manager.Registered out) (member : this ∈ out)
    (timer : Timer Callback) (armed : timer.cb ≠ none) (next : UInt64) :
    (manager.writeNext this timer next).Registered out := by
  have absent := registered.apart this member
  have before := (registered.exact this).mp (.inr member)
  have exact : ∀ address, address ∈ manager.timers ∨ address ∈ out ↔
      (address = this ∧ timer.cb ≠ none) ∨ (address ≠ this ∧ manager.Armed address) := by
    intro address
    rw [registered.exact address]
    by_cases same : address = this
    · simp [same, armed, before]
    · simp [same]
  have written := registered.write absent { timer with next } exact registered.apart
    registered.distinct
  exact { written with unmoved := by simp [TimerManager.writeNext, absent, registered.unmoved] }

/-- A timer that has nothing to call any more need not be put back. -/
theorem Registered.disarm (registered : manager.Registered (this :: out)) {timer : Timer Callback}
    (disarmed : timer.cb = none) : (manager.write this timer).Registered out := by
  have absent := registered.apart this (by simp)
  have distinct := List.nodup_cons.mp registered.distinct
  apply registered.write absent timer _ _ distinct.2
  · intro address
    rw [← registered.exact address, List.mem_cons]
    by_cases same : address = this
    · simp [same, disarmed, absent, distinct.1]
    · simp [same]
  · intro address member
    exact registered.apart address (by simp [member])

theorem add_timer_locked_registered (registered : manager.Registered (this :: out)) :
    (manager.addTimerLocked this).1.Registered out :=
  { registered.insert with }

theorem add_timer_registered (registered : manager.Registered []) (free : manager.heap this = none)
    (ms : UInt64) {cb : Option Callback} (callable : cb ≠ none) (recurring : Bool) (now : UInt64) :
    (manager.addTimer this ms cb recurring now).1.Registered [] := by
  have absent : this ∉ manager.timers := by
    intro member
    exact live_of_armed ((registered.exact this).mp (.inl member)) free
  apply add_timer_locked_registered
  apply registered.write absent _ _ _ (List.nodup_singleton this)
  · intro address
    rw [← registered.exact address, List.mem_singleton]
    by_cases same : address = this
    · simp [same, callable]
    · simp [same]
  · intro address member
    rw [List.mem_singleton.mp member]
    exact absent

theorem erase_armed (registered : manager.Registered []) {timer : Timer Callback}
    (found : manager.heap this = some timer) (callable : timer.cb ≠ none) :
    OrderedSet.find (Earlier manager.heap) this manager.timers < manager.timers.length ∧
      ∃ erased, manager.erase (OrderedSet.find (Earlier manager.heap) this manager.timers) =
        .ok erased ∧ erased.heap = manager.heap ∧ erased.Registered [this] := by
  have member : this ∈ manager.timers := by
    simpa using (registered.exact this).mpr ⟨timer, found, callable⟩
  exact ⟨registered.find_lt_length member, registered.erase member⟩

/-- `cancel` clears `m_cb` before it looks for the timer; the order does not see that. -/
theorem find_write (timer : Timer Callback) {before : Timer Callback}
    (found : manager.heap this = some before) (same : timer.next = before.next) :
    OrderedSet.find (Earlier (manager.write this timer).heap) this
        (manager.write this timer).timers =
      OrderedSet.find (Earlier manager.heap) this manager.timers := by
  have keys : timerKey (manager.write this timer).heap = timerKey manager.heap := by
    funext address
    by_cases here : address = this
    · simp [timerKey, TimerManager.write, here, found, same]
    · exact key_update_of_ne (some timer) here
  have order : Earlier (manager.write this timer).heap = Earlier manager.heap := by
    funext lhs rhs
    rw [Earlier, Earlier, keys]
  simp only [order, write_timers]

theorem erase_write (this : Address) (timer : Timer Callback) {position : Nat}
    {erased : TimerManager Callback} (done : manager.erase position = .ok erased) :
    (manager.write this timer).erase position = .ok (erased.write this timer) := by
  unfold erase at done ⊢
  split at done
  · cases done
    exact if_pos ‹_›
  · cases done

theorem cancel_registered (registered : manager.Registered []) (live : manager.heap this ≠ none) :
    ∃ after cancelled, manager.cancel this = .ok (after, cancelled) ∧ after.Registered [] := by
  cases found : manager.heap this with
  | none => exact absurd found live
  | some timer =>
      cases callable : timer.cb with
      | none => exact ⟨manager, false, by simp [cancel, found, callable], registered⟩
      | some cb =>
          rcases erase_armed registered found (by simp [callable]) with
            ⟨inside, erased, done, heap, registered⟩
          have disarmed : (erased.write this { timer with cb := none }).Registered [] :=
            registered.disarm rfl
          refine ⟨_, true, ?_, disarmed⟩
          have position := find_write { timer with cb := none } found rfl
          have removed := erase_write this { timer with cb := none } done
          simp only [cancel, found, callable, Option.isSome_some, if_true]
          rw [← position] at removed
          rw [removed, bind_ok]

theorem refresh_registered (registered : manager.Registered []) (live : manager.heap this ≠ none)
    (now : UInt64) : ∃ after refreshed, manager.refresh this now = .ok (after, refreshed) ∧
      after.Registered [] := by
  cases found : manager.heap this with
  | none => exact absurd found live
  | some timer =>
      by_cases callable : timer.cb = none
      · exact ⟨manager, false, by simp [refresh, found, callable], registered⟩
      · rcases erase_armed registered found callable with ⟨inside, erased, done, heap, registered⟩
        have moved := registered.writeNext List.mem_cons_self timer callable (now + timer.ms)
        refine ⟨_, true, ?_, moved.insert⟩
        simp [refresh, found, callable, Nat.ne_of_lt inside, done, bind_ok]

theorem reset_registered (registered : manager.Registered []) (live : manager.heap this ≠ none)
    (ms : UInt64) (fromNow : Bool) (now : UInt64) :
    ∃ after known, manager.reset this ms fromNow now = .ok (after, known) ∧
      after.Registered [] := by
  cases found : manager.heap this with
  | none => exact absurd found live
  | some timer =>
      by_cases same : ms = timer.ms ∧ fromNow = false
      · exact ⟨manager, true, by simp [reset, found, same], registered⟩
      · by_cases callable : timer.cb = none
        · exact ⟨manager, false, by simp [reset, found, callable, same], registered⟩
        · rcases erase_armed registered found callable with ⟨inside, erased, done, heap, registered⟩
          let start := if fromNow then now else timer.next - timer.ms
          have moved : (erased.writeNext this { timer with ms } (start + ms)).Registered [this] :=
            registered.writeNext List.mem_cons_self { timer with ms } callable (start + ms)
          refine ⟨_, true, ?_, add_timer_locked_registered moved⟩
          simp [reset, found, callable, same, Nat.ne_of_lt inside, done, bind_ok, start]

theorem Registered.split (registered : manager.Registered []) (position : Nat)
    (previousTime : UInt64) :
    ({ manager with timers := manager.timers.drop position, previousTime } :
      TimerManager Callback).Registered (manager.timers.take position) where
  ordered := registered.ordered.sublist (List.drop_sublist position manager.timers)
  exact := by
    intro address
    have before := registered.exact address
    rw [← List.take_append_drop position manager.timers, List.mem_append] at before
    change _ ↔ manager.Armed address
    rw [← before]
    simp only [List.not_mem_nil, or_false]
    exact or_comm
  apart := by
    have distinct := registered.ordered.nodup
    rw [← List.take_append_drop position manager.timers] at distinct
    exact List.disjoint_of_nodup_append distinct
  distinct := registered.ordered.nodup.sublist (List.take_sublist position manager.timers)
  unmoved := registered.unmoved

theorem expire_one_registered (registered : manager.Registered (this :: out)) (now : UInt64) :
    ∃ after cb, manager.expireOne now this = .ok (after, cb) ∧ after.Registered out := by
  rcases (registered.exact this).mp (.inr List.mem_cons_self) with ⟨timer, found, callable⟩
  cases recurring : timer.recurring with
  | true =>
      have moved := registered.writeNext List.mem_cons_self timer callable (now + timer.ms)
      exact ⟨_, timer.cb, by simp [expireOne, found, recurring], moved.insert⟩
  | false =>
      have disarmed : (manager.write this { timer with cb := none }).Registered out :=
        registered.disarm rfl
      exact ⟨_, timer.cb, by simp [expireOne, found, recurring], disarmed⟩

theorem expire_registered (now : UInt64) (expired : List Address) :
    ∀ manager : TimerManager Callback, manager.Registered expired →
      ∃ after cbs, manager.expire now expired = .ok (after, cbs) ∧ after.Registered [] := by
  induction expired with
  | nil =>
      intro manager registered
      exact ⟨manager, [], rfl, registered⟩
  | cons address rest induction =>
      intro manager registered
      rcases expire_one_registered registered now with ⟨next, cb, turn, registered⟩
      rcases induction next registered with ⟨after, cbs, done, registered⟩
      refine ⟨after, cb :: cbs, ?_, registered⟩
      rw [expire, turn, bind_ok]
      simp only [done, bind_ok]

theorem list_expired_cb_registered (registered : manager.Registered []) (nowTimer : Address)
    (now : UInt64) : ∃ after cbs, manager.listExpiredCb nowTimer now = .ok (after, cbs) ∧
      after.Registered [] := by
  cases timers : manager.timers with
  | nil => exact ⟨manager, [], by rw [listExpiredCb, timers], registered⟩
  | cons first rest =>
      have armed : manager.Armed first := (registered.exact first).mp (.inl (by simp [timers]))
      rcases armed with ⟨begin, found, _⟩
      have split := fun position => registered.split position now
      have kept : ({ manager with previousTime := now } : TimerManager Callback).Registered [] :=
        { registered with }
      simp only [listExpiredCb, timers, detectClockRollover, found]
      rw [← timers]
      split
      · exact ⟨_, _, rfl, kept⟩
      · exact expire_registered now _ _ (split _)

theorem get_next_timer_registered (registered : manager.Registered []) (now : UInt64) :
    ∃ after wait, manager.getNextTimer now = .ok (after, wait) ∧ after.Registered [] := by
  have kept : ({ manager with tickled := false } : TimerManager Callback).Registered [] :=
    { registered with }
  cases timers : manager.timers with
  | nil => exact ⟨_, ~~~0, by simp only [getNextTimer, timers], kept⟩
  | cons first rest =>
      have armed : manager.Armed first := (registered.exact first).mp (.inl (by simp [timers]))
      rcases armed with ⟨timer, found, _⟩
      let wait := if now ≥ timer.next then 0 else timer.next - now
      exact ⟨_, wait, by simp only [getNextTimer, timers, found, wait], kept⟩

theorem release_registered (registered : manager.Registered []) (absent : this ∉ manager.timers) :
    ({ manager with heap := Function.update manager.heap this none } :
      TimerManager Callback).Registered [] where
  ordered := ordered_update registered.ordered absent none
  exact := by
    intro address
    rw [registered.exact address]
    have unarmed : ¬ manager.Armed this := by
      rw [← registered.exact this]
      simp [absent]
    by_cases same : address = this
    · rw [same]
      simpa [Armed] using unarmed
    · simp [Armed, same]
  apart := by simp
  distinct := List.nodup_nil
  unmoved := registered.unmoved

end TimerManager

open TimerManager

theorem perform_registered {manager : TimerManager Callback} {call : TimerCall Callback}
    (registered : manager.Registered []) (possible : call.Possible manager)
    (callable : call.WithCallback) :
    ∃ after, call.perform manager = .ok after ∧ after.Registered [] := by
  cases call with
  | addTimer address ms cb recurring now =>
      exact ⟨_, rfl, add_timer_registered registered possible ms callable recurring now⟩
  | cancel timer =>
      rcases cancel_registered registered possible with ⟨after, result, done, kept⟩
      exact ⟨after, by rw [TimerCall.perform, done]; rfl, kept⟩
  | refresh timer now =>
      rcases refresh_registered registered possible now with ⟨after, result, done, kept⟩
      exact ⟨after, by rw [TimerCall.perform, done]; rfl, kept⟩
  | reset timer ms fromNow now =>
      rcases reset_registered registered possible ms fromNow now with ⟨after, result, done, kept⟩
      exact ⟨after, by rw [TimerCall.perform, done]; rfl, kept⟩
  | getNextTimer now =>
      rcases get_next_timer_registered registered now with ⟨after, result, done, kept⟩
      exact ⟨after, by rw [TimerCall.perform, done]; rfl, kept⟩
  | listExpiredCb nowTimer now =>
      rcases list_expired_cb_registered registered nowTimer now with ⟨after, result, done, kept⟩
      exact ⟨after, by rw [TimerCall.perform, done]; rfl, kept⟩
  | release timer => exact ⟨_, rfl, release_registered registered possible.2⟩

/-- Every sequence of calls is a run of these steps. -/
abbrev TimerReached (previousTime : UInt64) (state : Result (TimerManager Callback)) : Prop :=
  Transition.Reaches timerStep (fun _ call => call.WithCallback) (.ok (start previousTime)) state

theorem reached_registered {previousTime : UInt64} {state : Result (TimerManager Callback)}
    (reached : TimerReached previousTime state) :
    ∃ manager, state = .ok manager ∧ manager.Registered [] := by
  apply Transition.invariant_of_reaches ⟨_, rfl, start_registered previousTime⟩ _ reached
  intro state call after sound callable taken
  rcases sound with ⟨manager, same, registered⟩
  rw [same, timerStep] at taken
  split at taken
  · rcases perform_registered registered ‹_› callable with ⟨next, done, kept⟩
    rw [done] at taken
    exact ⟨next, (Option.some.inj taken).symm, kept⟩
  · cases taken

/-- First by `m_next`, then by address. -/
def Before (heap : TimerHeap Callback) (lhs rhs : Address) : Prop :=
  ∃ first second, heap lhs = some first ∧ heap rhs = some second ∧
    (first.next < second.next ∨ first.next = second.next ∧ lhs < rhs)

theorem before_of_earlier {heap : TimerHeap Callback} {lhs rhs : Address}
    (lhs_live : heap lhs ≠ none) (rhs_live : heap rhs ≠ none) (earlier : Earlier heap lhs rhs) :
    Before heap lhs rhs := by
  cases one : heap lhs with
  | none => exact absurd one lhs_live
  | some first =>
      cases other : heap rhs with
      | none => exact absurd other rhs_live
      | some second =>
          refine ⟨first, second, one, other, ?_⟩
          simp only [Earlier, timerKey, one, other, Option.map_some, Comparator] at earlier
          grind

/-- No call goes wrong, `m_timers` holds the timers with something to call, in order, and nobody
has written `m_next` of a timer in it; so a timer with something to call is found. -/
theorem timers_registered {previousTime : UInt64} {state : Result (TimerManager Callback)}
    (reached : TimerReached previousTime state) :
    ∃ manager, state = .ok manager ∧
      (∀ address timer, manager.heap address = some timer →
        (address ∈ manager.timers ↔ timer.cb ≠ none)) ∧
      manager.timers.Pairwise (Before manager.heap) ∧ manager.moved = [] ∧
      ∀ address timer, manager.heap address = some timer → timer.cb ≠ none →
        let it := OrderedSet.find (Earlier manager.heap) address manager.timers
        it < manager.timers.length ∧ manager.timers[it]? = some address := by
  rcases reached_registered reached with ⟨manager, same, registered⟩
  have live : ∀ address ∈ manager.timers, manager.heap address ≠ none :=
    fun address member => live_of_armed ((registered.exact address).mp (.inl member))
  have exact : ∀ address timer, manager.heap address = some timer →
      (address ∈ manager.timers ↔ timer.cb ≠ none) := by
    intro address timer found
    have armed := registered.exact address
    simpa [Armed, found] using armed
  refine ⟨manager, same, exact, ?_, registered.unmoved, ?_⟩
  · apply registered.ordered.imp_of_mem
    intro first second first_member second_member earlier
    exact before_of_earlier (live first first_member) (live second second_member) earlier
  · intro address timer found callable
    have member := (exact address timer found).mpr callable
    rcases OrderedSet.find_member registered.ordered (earlier_irrefl manager.heap address) member
      with ⟨front, rest, split, position⟩
    refine ⟨registered.find_lt_length member, ?_⟩
    rw [position, split]
    simp

/-- A timer that comes round, one that was cancelled, and one that was reset. -/
theorem timers_registered_three : ∃ state : Result (TimerManager Nat), TimerReached 1000 state ∧
    state.toOption.map TimerManager.timers = some [2, 0] ∧
    ∃ manager, state = .ok manager ∧
      (∀ address timer, manager.heap address = some timer →
        (address ∈ manager.timers ↔ timer.cb ≠ none)) ∧
      manager.timers.Pairwise (Before manager.heap) ∧ manager.moved = [] ∧
      ∀ address timer, manager.heap address = some timer → timer.cb ≠ none →
        let it := OrderedSet.find (Earlier manager.heap) address manager.timers
        it < manager.timers.length ∧ manager.timers[it]? = some address := by
  have reached : ∃ state : Result (TimerManager Nat), TimerReached 1000 state ∧
      state.toOption.map TimerManager.timers = some [2, 0] := by
    apply Transition.exists_of_run [.addTimer 0 5 (some 0) true 1000,
      .addTimer 1 10 (some 1) false 1000, .addTimer 2 20 (some 2) false 1000,
      .listExpiredCb 3 1005, .cancel 1, .reset 2 10 false 1005, .reset 0 20 true 1006]
    decide +kernel
  rcases reached with ⟨state, reached, timers⟩
  exact ⟨state, reached, timers, timers_registered reached⟩

end ChatServer.Fiber
