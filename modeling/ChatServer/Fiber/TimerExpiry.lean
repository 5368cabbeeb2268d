import ChatServer.Fiber.TimerRegistry
import Mathlib.Data.List.Perm.Subperm

/-!
# Which timers expire

`listExpiredCb` takes the first timers out of `m_timers`, up to a position that it finds with a
probe, and puts the recurring ones back one by one. The set is in order in every state that calls
reach, also with timers that have nothing to call, so the first timers are the ones that are due.
-/

namespace ChatServer.Fiber

set_option autoImplicit false

variable {Callback : Type}

namespace TimerManager

structure Sorted (manager : TimerManager Callback) : Prop where
  ordered : manager.timers.Pairwise (Earlier manager.heap)
  live : ∀ address ∈ manager.timers, manager.heap address ≠ none

theorem start_sorted (previousTime : UInt64) :
    (start previousTime : TimerManager Callback).Sorted where
  ordered := List.Pairwise.nil
  live := by simp [start]

variable {manager : TimerManager Callback} {this : Address}

namespace Sorted

theorem write_out (sorted : manager.Sorted) (absent : this ∉ manager.timers)
    (timer : Timer Callback) : (manager.write this timer).Sorted where
  ordered := ordered_update sorted.ordered absent (some timer)
  live := by
    intro address member
    have other : address ≠ this := fun same => absent (same ▸ member)
    simpa [TimerManager.write, other] using sorted.live address member

theorem write_same (sorted : manager.Sorted) {before : Timer Callback}
    (found : manager.heap this = some before) {timer : Timer Callback}
    (same : timer.next = before.next) : (manager.write this timer).Sorted where
  ordered := by
    apply sorted.ordered.imp
    intro first second earlier
    have keys : ∀ address, timerKey (manager.write this timer).heap address =
        timerKey manager.heap address := by
      intro address
      by_cases here : address = this
      · simp [timerKey, TimerManager.write, here, found, same]
      · exact key_update_of_ne (some timer) here
    exact (earlier_congr (keys first) (keys second)).mpr earlier
  live := by
    intro address member
    by_cases here : address = this
    · simp [TimerManager.write, here]
    · simpa [TimerManager.write, here] using sorted.live address member

theorem writeNext (sorted : manager.Sorted) (absent : this ∉ manager.timers)
    (timer : Timer Callback) (next : UInt64) : (manager.writeNext this timer next).Sorted :=
  { sorted.write_out absent { timer with next } with }

theorem erase {position : Nat} {erased : TimerManager Callback} (sorted : manager.Sorted)
    (done : manager.erase position = .ok erased) : erased.Sorted := by
  unfold TimerManager.erase at done
  split at done
  · cases done
    have part := List.eraseIdx_sublist manager.timers position
    exact ⟨sorted.ordered.sublist part, fun address member =>
      sorted.live address (part.subset member)⟩
  · cases done

/-- What `find` has found and `erase` has taken out is this timer. -/
theorem erase_found (sorted : manager.Sorted) (this_live : manager.heap this ≠ none)
    (inside : OrderedSet.find (Earlier manager.heap) this manager.timers < manager.timers.length) :
    ∃ erased, manager.erase (OrderedSet.find (Earlier manager.heap) this manager.timers) =
      .ok erased ∧ erased.heap = manager.heap ∧ erased.Sorted ∧ this ∉ erased.timers ∧
      (∀ address, address ∈ manager.timers ↔ address = this ∨ address ∈ erased.timers) ∧
      erased.previousTime = manager.previousTime := by
  have separates : ∀ element ∈ manager.timers, ¬ Earlier manager.heap element this →
      ¬ Earlier manager.heap this element → element = this := by
    intro element member below above
    by_contra different
    rcases earlier_total (sorted.live element member) this_live different with left | right
    · exact below left
    · exact above right
  rcases OrderedSet.find_split separates inside with ⟨front, rest, split, position⟩
  have done : manager.erase (OrderedSet.find (Earlier manager.heap) this manager.timers) =
      .ok { manager with timers := front ++ rest } := by
    have left : manager.timers.eraseIdx front.length = front ++ rest := by
      rw [split, List.eraseIdx_append_of_length_le (Nat.le_refl _), Nat.sub_self]
      rfl
    rw [TimerManager.erase, if_pos inside, position, left]
  have distinct := sorted.ordered.nodup
  rw [split] at distinct
  refine ⟨_, done, rfl, sorted.erase done, ?_, ?_, rfl⟩
  · exact (List.nodup_cons.mp (List.nodup_middle.mp distinct)).1
  · intro address
    rw [split]
    simp only [List.mem_append, List.mem_cons]
    tauto

theorem insert (sorted : manager.Sorted) (this_live : manager.heap this ≠ none)
    (absent : this ∉ manager.timers) : (manager.insert this).Sorted := by
  rcases insert_split sorted.ordered sorted.live this_live absent with ⟨members, ordered⟩
  refine ⟨ordered, ?_⟩
  intro address member
  rcases (members address).mp member with same | inside
  · rw [same]
    exact this_live
  · exact sorted.live address inside

theorem addTimerLocked (sorted : manager.Sorted) (this_live : manager.heap this ≠ none)
    (absent : this ∉ manager.timers) : (manager.addTimerLocked this).1.Sorted :=
  { sorted.insert this_live absent with }

theorem addTimer (sorted : manager.Sorted) (free : manager.heap this = none) (ms : UInt64)
    (cb : Option Callback) (recurring : Bool) (now : UInt64) :
    (manager.addTimer this ms cb recurring now).1.Sorted := by
  have absent : this ∉ manager.timers := fun member => sorted.live this member free
  apply (sorted.write_out absent ⟨ms, now + ms, cb, recurring⟩).addTimerLocked
  · simp [TimerManager.write]
  · exact absent

end Sorted

structure Moved (manager : TimerManager Callback) (this : Address) (timer : Timer Callback)
    (after : TimerManager Callback) : Prop where
  sorted : after.Sorted
  heap : after.heap = Function.update manager.heap this (some timer)
  timers : ∀ address, address ∈ after.timers ↔ address ∈ manager.timers
  previousTime : after.previousTime = manager.previousTime

theorem erase_insert_moved (sorted : manager.Sorted) (this_live : manager.heap this ≠ none)
    (inside : OrderedSet.find (Earlier manager.heap) this manager.timers < manager.timers.length) :
    ∃ erased, manager.erase (OrderedSet.find (Earlier manager.heap) this manager.timers) =
      .ok erased ∧ ∀ timer next, manager.Moved this { timer with next }
        ((erased.writeNext this timer next).insert this) := by
  rcases sorted.erase_found this_live inside with
    ⟨erased, done, heap, kept, absent, members, previousTime⟩
  refine ⟨erased, done, ?_⟩
  intro timer next
  have written := kept.writeNext absent timer next
  have live : (erased.writeNext this timer next).heap this ≠ none := by
    simp [TimerManager.writeNext, TimerManager.write]
  have inserted := insert_split written.ordered written.live live absent
  refine ⟨written.insert live absent, ?_, ?_, previousTime⟩
  · rw [← heap]
    rfl
  · intro address
    rw [members]
    exact inserted.1 address

theorem find_le_length (heap : TimerHeap Callback) (timers : List Address)
    (missed : OrderedSet.find (Earlier heap) this timers ≠ timers.length) :
    OrderedSet.find (Earlier heap) this timers < timers.length := by
  apply Nat.lt_of_le_of_ne _ missed
  exact OrderedSet.find_le this timers

theorem cancel_cases (sorted : manager.Sorted) {after : TimerManager Callback} {cancelled : Bool}
    (done : manager.cancel this = .ok (after, cancelled)) :
    after = manager ∨ ∃ timer, manager.heap this = some timer ∧ after.Sorted ∧
      after.heap = Function.update manager.heap this (some { timer with cb := none }) ∧
      after.timers ⊆ manager.timers ∧ after.previousTime = manager.previousTime := by
  cases found : manager.heap this with
  | none => simp [cancel, found] at done
  | some timer =>
      simp only [cancel, found] at done
      split at done
      · rcases bind_eq_ok done with ⟨erased, taken, rest⟩
        cases rest
        have written : (manager.write this { timer with cb := none }).Sorted :=
          sorted.write_same found rfl
        have kept := written.erase taken
        refine .inr ⟨timer, rfl, kept, ?_⟩
        unfold erase at taken
        split at taken
        · cases taken
          exact ⟨rfl, (List.eraseIdx_sublist manager.timers _).subset, rfl⟩
        · cases taken
      · cases done
        exact .inl rfl

theorem refresh_cases (sorted : manager.Sorted) {now : UInt64} {after : TimerManager Callback}
    {refreshed : Bool} (done : manager.refresh this now = .ok (after, refreshed)) :
    after = manager ∨ ∃ timer, manager.heap this = some timer ∧
      manager.Moved this { timer with next := now + timer.ms } after := by
  cases found : manager.heap this with
  | none => simp [refresh, found] at done
  | some timer =>
      have live : manager.heap this ≠ none := by simp [found]
      simp only [refresh, found] at done
      split at done
      · cases done
        exact .inl rfl
      · split at done
        · cases done
          exact .inl rfl
        · rcases erase_insert_moved sorted live (find_le_length _ _ ‹_›) with
            ⟨erased, taken, moved⟩
          rw [taken, bind_ok] at done
          cases done
          exact .inr ⟨timer, rfl, moved timer (now + timer.ms)⟩

theorem get_next_timer_same {now wait : UInt64} {after : TimerManager Callback}
    (done : manager.getNextTimer now = .ok (after, wait)) :
    after = { manager with tickled := false } := by
  unfold getNextTimer at done
  dsimp only at done
  split at done
  · cases done
    rfl
  · split at done
    · cases done
    · cases done
      rfl

def resetStart (timer : Timer Callback) (fromNow : Bool) (now : UInt64) : UInt64 :=
  if fromNow then now else timer.next - timer.ms

theorem reset_cases (sorted : manager.Sorted) {ms now : UInt64} {fromNow : Bool}
    {after : TimerManager Callback} {known : Bool}
    (done : manager.reset this ms fromNow now = .ok (after, known)) :
    after = manager ∧ (known = true → fromNow = false ∧
      ∃ timer, manager.heap this = some timer ∧ timer.ms = ms) ∨
    ∃ timer, manager.heap this = some timer ∧ known = true ∧
      manager.Moved this { timer with ms, next := resetStart timer fromNow now + ms } after := by
  cases found : manager.heap this with
  | none => simp [reset, found] at done
  | some timer =>
      have live : manager.heap this ≠ none := by simp [found]
      simp only [reset, found] at done
      split at done
      · cases done
        have same : ms = timer.ms ∧ fromNow = false := ‹_›
        exact .inl ⟨rfl, fun _ => ⟨same.2, timer, rfl, same.1.symm⟩⟩
      · split at done
        · cases done
          exact .inl ⟨rfl, by simp⟩
        · split at done
          · cases done
            exact .inl ⟨rfl, by simp⟩
          · rcases erase_insert_moved sorted live (find_le_length _ _ ‹_›) with
              ⟨erased, taken, moved⟩
            rw [taken, bind_ok] at done
            cases done
            have written := moved { timer with ms } (resetStart timer fromNow now + ms)
            exact .inr ⟨timer, rfl, rfl, { written.sorted with }, written.heap, written.timers,
              written.previousTime⟩

def expiredTimer (now : UInt64) (timer : Timer Callback) : Timer Callback :=
  if timer.recurring then { timer with next := now + timer.ms } else { timer with cb := none }

def callbackAt (heap : TimerHeap Callback) (address : Address) : Option Callback :=
  (heap address).bind (·.cb)

/-- The timers `due`, which are out of the set, have been dealt with. -/
structure Expired (manager : TimerManager Callback) (now : UInt64) (due : List Address)
    (after : TimerManager Callback) (cbs : List (Option Callback)) : Prop where
  sorted : after.Sorted
  heap : ∀ address, after.heap address =
    if address ∈ due then (manager.heap address).map (expiredTimer now) else manager.heap address
  timers : ∀ address, address ∈ after.timers ↔ address ∈ manager.timers ∨
    address ∈ due ∧ ∃ timer, manager.heap address = some timer ∧ timer.recurring = true
  callbacks : cbs = due.map (callbackAt manager.heap)
  previousTime : after.previousTime = manager.previousTime

theorem expire_one_cases (sorted : manager.Sorted) (absent : this ∉ manager.timers)
    {timer : Timer Callback} (found : manager.heap this = some timer) (now : UInt64) :
    ∃ after, manager.expireOne now this = .ok (after, timer.cb) ∧ after.Sorted ∧
      after.heap = Function.update manager.heap this (some (expiredTimer now timer)) ∧
      (∀ address, address ∈ after.timers ↔
        address ∈ manager.timers ∨ address = this ∧ timer.recurring = true) ∧
      after.previousTime = manager.previousTime := by
  cases recurring : timer.recurring with
  | true =>
      have written := sorted.writeNext absent timer (now + timer.ms)
      have live : (manager.writeNext this timer (now + timer.ms)).heap this ≠ none := by
        simp [TimerManager.writeNext, write]
      have inserted := insert_split written.ordered written.live live absent
      refine ⟨_, by rw [expireOne, found]; exact if_pos recurring, written.insert live absent,
        ?_, ?_, rfl⟩
      · rw [expiredTimer, if_pos recurring]
        rfl
      · intro address
        rw [inserted.1 address]
        simp only [and_true]
        exact or_comm
  | false =>
      refine ⟨_, by rw [expireOne, found]; exact if_neg (by simp [recurring]),
        sorted.write_out absent _, ?_, ?_, rfl⟩
      · rw [expiredTimer, if_neg (by simp [recurring])]
        rfl
      · intro address
        simp [write]

theorem expire_expired (now : UInt64) (due : List Address) :
    ∀ manager : TimerManager Callback, manager.Sorted → due.Nodup →
      (∀ address ∈ due, address ∉ manager.timers ∧ manager.heap address ≠ none) →
      ∃ after cbs, manager.expire now due = .ok (after, cbs) ∧
        manager.Expired now due after cbs := by
  induction due with
  | nil =>
      intro manager sorted _ _
      exact ⟨manager, [], rfl, sorted, by simp, by simp, rfl, rfl⟩
  | cons address rest induction =>
      intro manager sorted distinct outside
      have distinct := List.nodup_cons.mp distinct
      have here := outside address (by simp)
      rcases Option.ne_none_iff_exists'.mp here.2 with ⟨timer, found⟩
      rcases expire_one_cases sorted here.1 found now with
        ⟨next, turn, kept, heap, timers, previousTime⟩
      have others : ∀ other ∈ rest, next.heap other = manager.heap other := by
        intro other member
        rw [heap, Function.update_of_ne]
        intro same
        exact distinct.1 (same ▸ member)
      have still : ∀ other ∈ rest, other ∉ next.timers ∧ next.heap other ≠ none := by
        intro other member
        have before := outside other (by simp [member])
        rw [timers, others other member]
        refine ⟨?_, before.2⟩
        rintro (inside | ⟨same, _⟩)
        · exact before.1 inside
        · exact distinct.1 (same ▸ member)
      rcases induction next kept distinct.2 still with ⟨after, cbs, done, expired⟩
      refine ⟨after, timer.cb :: cbs, ?_, expired.sorted, ?_, ?_, ?_, ?_⟩
      · rw [expire, turn, bind_ok]
        simp only [done, bind_ok]
      · intro other
        rw [expired.heap, heap]
        by_cases same : other = address
        · simp [same, distinct.1, found]
        · simp [same]
      · intro other
        rw [expired.timers, timers, heap]
        by_cases same : other = address
        · simp [same, distinct.1, found]
        · simp [same]
      · have callbacks : rest.map (callbackAt next.heap) = rest.map (callbackAt manager.heap) := by
          apply List.map_congr_left
          intro other member
          rw [callbackAt, callbackAt, others other member]
        rw [expired.callbacks, callbacks, List.map_cons, callbackAt, found]
        rfl
      · rw [expired.previousTime, previousTime]

def isDue (heap : TimerHeap Callback) (now : UInt64) (address : Address) : Bool :=
  (heap address).any fun timer => timer.next ≤ now

theorem is_due_of_found {heap : TimerHeap Callback} {now : UInt64} {address : Address}
    {timer : Timer Callback} (found : heap address = some timer) :
    isDue heap now address = decide (timer.next ≤ now) := by
  rw [isDue, found, Option.any_some]

theorem next_le_of_earlier {heap : TimerHeap Callback} {first second : Address}
    {timer later : Timer Callback} (found : heap first = some timer)
    (next : heap second = some later) (earlier : Earlier heap first second) :
    timer.next ≤ later.next := by
  simp only [Earlier, timerKey, found, next, Option.map_some, Comparator] at earlier
  grind

theorem not_due_behind {heap : TimerHeap Callback} {now : UInt64} {first : Address}
    {rest : List Address} (ordered : (first :: rest).Pairwise (Earlier heap))
    (live : ∀ address ∈ first :: rest, heap address ≠ none)
    (later : isDue heap now first = false) : ∀ address ∈ first :: rest,
      isDue heap now address = false := by
  rcases Option.ne_none_iff_exists'.mp (live first (by simp)) with ⟨timer, found⟩
  rw [is_due_of_found found, decide_eq_false_iff_not, UInt64.not_le] at later
  intro address member
  rcases Option.ne_none_iff_exists'.mp (live address member) with ⟨other, next⟩
  rw [is_due_of_found next, decide_eq_false_iff_not, UInt64.not_le]
  rcases List.mem_cons.mp member with same | behind
  · rw [same, found] at next
    cases next
    exact later
  · have earlier := List.rel_of_pairwise_cons ordered behind
    exact UInt64.lt_of_lt_of_le later (next_le_of_earlier found next earlier)

/-- Of timers that are due at this time or later, `skipDue` passes the former. -/
theorem skip_due_split {heap : TimerHeap Callback} {now : UInt64} (timers : List Address)
    (ordered : timers.Pairwise (Earlier heap)) (live : ∀ address ∈ timers, heap address ≠ none)
    (notBefore : ∀ address timer, address ∈ timers → heap address = some timer →
      now ≤ timer.next) :
    (∀ address ∈ timers.take (skipDue heap now timers), isDue heap now address = true) ∧
      ∀ address ∈ timers.drop (skipDue heap now timers), isDue heap now address = false := by
  induction timers with
  | nil => simp
  | cons first rest induction =>
      rcases Option.ne_none_iff_exists'.mp (live first (by simp)) with ⟨timer, found⟩
      rw [skipDue, found, Option.map_some]
      split
      · have same : timer.next = now := Option.some.inj ‹_›
        have behind := induction (List.Pairwise.of_cons ordered)
          (fun address member => live address (by simp [member]))
          (fun address timer member => notBefore address timer (by simp [member]))
        rw [List.take_succ_cons, List.drop_succ_cons]
        refine ⟨?_, behind.2⟩
        intro address member
        rcases List.mem_cons.mp member with here | later
        · rw [here, is_due_of_found found, same]
          simp
        · exact behind.1 address later
      · have different : timer.next ≠ now := fun same => ‹¬ _› (congrArg some same)
        have later : isDue heap now first = false := by
          rw [is_due_of_found found, decide_eq_false_iff_not, UInt64.not_le]
          exact UInt64.lt_of_le_of_ne (notBefore first timer (by simp) found) different.symm
        refine ⟨by simp, ?_⟩
        rw [List.drop_zero]
        exact not_due_behind ordered live later

/-- The position that the probe and the loop behind it lead to. -/
theorem probe_split (sorted : manager.Sorted) {nowTimer : Address}
    (free : manager.heap nowTimer = none) (now : UInt64) :
    let heap := Function.update manager.heap nowTimer (some ⟨0, now, none, false⟩)
    let lower := OrderedSet.lowerBound (Earlier heap) nowTimer manager.timers
    let it := lower + skipDue manager.heap now (manager.timers.drop lower)
    (∀ address ∈ manager.timers.take it, isDue manager.heap now address = true) ∧
      ∀ address ∈ manager.timers.drop it, isDue manager.heap now address = false := by
  intro heap lower it
  have parts := @OrderedSet.lower_bound_split Address (Earlier heap) _ nowTimer manager.timers
  rcases parts with ⟨front, rest, split, position, below, above⟩
  have probe : heap nowTimer = some ⟨0, now, none, false⟩ := Function.update_self _ _ _
  have kept : ∀ address ∈ manager.timers, heap address = manager.heap address := by
    intro address member
    apply Function.update_of_ne
    intro same
    exact sorted.live address member (same ▸ free)
  have ordered := sorted.ordered
  rw [split] at ordered
  have behind := (List.pairwise_append.mp ordered).2.1
  have live : ∀ address ∈ rest, manager.heap address ≠ none := by
    intro address member
    exact sorted.live address (by simp [split, member])
  have notBefore : ∀ address timer, address ∈ rest → manager.heap address = some timer →
      now ≤ timer.next := by
    cases rest with
    | nil => simp
    | cons first rest =>
        rcases Option.ne_none_iff_exists'.mp (live first (by simp)) with ⟨begin, begins⟩
        have first_kept : heap first = some begin := by
          rw [kept first (by simp [split]), begins]
        have reached : now ≤ begin.next := by
          have notEarlier := above first rfl
          simp only [Earlier, timerKey, first_kept, probe, Option.map_some, Comparator]
            at notEarlier
          grind
        intro address timer member found
        rcases List.mem_cons.mp member with same | later
        · rw [same, begins] at found
          cases found
          exact reached
        · have earlier := List.rel_of_pairwise_cons behind later
          exact UInt64.le_trans reached (next_le_of_earlier begins found earlier)
  have skipped := skip_due_split rest behind live notBefore
  have drop : manager.timers.drop lower = rest := by
    rw [show lower = front.length from position, split, List.drop_left]
  have total : it = front.length + skipDue manager.heap now rest := by
    rw [show it = lower + skipDue manager.heap now (manager.timers.drop lower) from rfl, drop,
      show lower = front.length from position]
  rw [total, split, List.take_length_add_append, List.drop_length_add_append]
  refine ⟨?_, skipped.2⟩
  intro address member
  rcases List.mem_append.mp member with before | later
  · have inside : address ∈ manager.timers := by simp [split, before]
    rcases Option.ne_none_iff_exists'.mp (sorted.live address inside) with ⟨timer, found⟩
    have same : heap address = some timer := by rw [kept address inside, found]
    rw [is_due_of_found found, decide_eq_true_iff]
    exact next_le_of_earlier same probe (below address before)
  · exact skipped.1 address later

theorem filter_of_split {Element : Type} {holds : Element → Bool} {front rest : List Element}
    (inside : ∀ element ∈ front, holds element = true)
    (outside : ∀ element ∈ rest, holds element = false) :
    (front ++ rest).filter holds = front := by
  have none : rest.filter holds = [] := by
    rw [List.filter_eq_nil_iff]
    intro element member
    simp [outside element member]
  rw [List.filter_append, none, List.append_nil, List.filter_eq_self.mpr inside]

/-- `detectClockRollover`, as `listExpiredCb` sees it. -/
def rolledOver (manager : TimerManager Callback) (now : UInt64) : Bool :=
  (manager.detectClockRollover now).2

def expiring (manager : TimerManager Callback) (now : UInt64) : List Address :=
  manager.timers.filter fun address => manager.rolledOver now || isDue manager.heap now address

theorem expire_split (sorted : manager.Sorted) {front rest : List Address}
    (split : manager.timers = front ++ rest) (previousTime now : UInt64) :
    ∃ after cbs, ({ manager with timers := rest, previousTime } : TimerManager Callback).expire
        now front = .ok (after, cbs) ∧
      ({ manager with timers := rest, previousTime } : TimerManager Callback).Expired now front
        after cbs := by
  have ordered := sorted.ordered
  have distinct := sorted.ordered.nodup
  rw [split] at ordered distinct
  have live : ∀ address ∈ front ++ rest, manager.heap address ≠ none := split ▸ sorted.live
  have kept : ({ manager with timers := rest, previousTime } : TimerManager Callback).Sorted :=
    ⟨(List.pairwise_append.mp ordered).2.1, fun address member => live address (by simp [member])⟩
  apply expire_expired now front _ kept (List.nodup_append.mp distinct).1
  intro address member
  refine ⟨List.disjoint_of_nodup_append distinct member, live address (by simp [member])⟩

theorem list_expired_cb_cons {first : Address} {rest : List Address} {begin : Timer Callback}
    (timers : manager.timers = first :: rest) (found : manager.heap first = some begin)
    (nowTimer : Address) (now : UInt64) :
    manager.listExpiredCb nowTimer now =
      if !manager.rolledOver now && begin.next > now then
        .ok ({ manager with previousTime := now }, [])
      else
        let heap := Function.update manager.heap nowTimer (some ⟨0, now, none, false⟩)
        let lower :=
          if manager.rolledOver now then manager.timers.length
          else OrderedSet.lowerBound (Earlier heap) nowTimer manager.timers
        let it := lower + skipDue manager.heap now (manager.timers.drop lower)
        ({ manager with timers := manager.timers.drop it, previousTime := now } :
          TimerManager Callback).expire now (manager.timers.take it) := by
  rw [listExpiredCb]
  simp only [timers, detectClockRollover, found]
  rfl

theorem expired_nothing {first : Address} {begin : Timer Callback} {rest : List Address}
    (sorted : manager.Sorted) {now : UInt64} (timers : manager.timers = first :: rest)
    (found : manager.heap first = some begin) (rollover : manager.rolledOver now = false)
    (early : begin.next > now) : manager.expiring now = [] := by
  have later : isDue manager.heap now first = false := by
    rw [is_due_of_found found, decide_eq_false_iff_not, UInt64.not_le]
    exact early
  have ordered := sorted.ordered
  have live := sorted.live
  rw [timers] at ordered live
  have none := not_due_behind ordered live later
  rw [expiring, timers, rollover, List.filter_eq_nil_iff]
  intro address member
  simp [none address member]

/-- `listExpiredCb` deals with the timers that are due, with all of them after a rollover. -/
theorem list_expired_cb_expired (sorted : manager.Sorted) {nowTimer : Address}
    (free : manager.heap nowTimer = none) (now : UInt64) :
    ∃ rest previousTime after cbs, manager.listExpiredCb nowTimer now = .ok (after, cbs) ∧
      manager.timers = manager.expiring now ++ rest ∧
      (previousTime = manager.previousTime ∨ previousTime = now) ∧
      ({ manager with timers := rest, previousTime } : TimerManager Callback).Expired now
        (manager.expiring now) after cbs := by
  cases timers : manager.timers with
  | nil =>
      have nothing : manager.expiring now = [] := by rw [expiring, timers, List.filter_nil]
      rw [nothing]
      refine ⟨[], manager.previousTime, manager, [], by rw [listExpiredCb, timers], rfl, .inl rfl,
        sorted, by simp, ?_, rfl, rfl⟩
      simp [timers]
  | cons first rest =>
      have first_member : first ∈ manager.timers := by simp [timers]
      rcases Option.ne_none_iff_exists'.mp (sorted.live first first_member) with ⟨begin, found⟩
      rw [list_expired_cb_cons timers found, ← timers]
      cases rollover : manager.rolledOver now with
      | true =>
          have all : manager.expiring now = manager.timers := by
            simp [expiring, rollover]
          have dropped : manager.timers.drop manager.timers.length = [] := List.drop_length
          rcases expire_split sorted (List.append_nil manager.timers).symm now now with
            ⟨after, cbs, done, expired⟩
          refine ⟨[], now, after, cbs, ?_, ?_, .inr rfl, ?_⟩
          · simpa [dropped, skipDue] using done
          · rw [all, List.append_nil]
          · rw [all]
            exact expired
      | false =>
          by_cases early : begin.next > now
          · have nothing := expired_nothing sorted timers found rollover early
            rw [nothing]
            refine ⟨manager.timers, now, _, [], if_pos (by simp [early]), rfl, .inr rfl,
              { sorted with }, by simp, by simp, rfl, rfl⟩
          · have parts := probe_split sorted free now
            rw [if_neg (by simp [early])]
            simp only [Bool.false_eq_true, if_false]
            dsimp only at parts
            generalize OrderedSet.lowerBound (Earlier (Function.update manager.heap nowTimer
              (some ⟨0, now, none, false⟩))) nowTimer manager.timers = lower at parts ⊢
            generalize lower + skipDue manager.heap now (manager.timers.drop lower) = it
              at parts ⊢
            have due : manager.expiring now = manager.timers.take it := by
              conv_lhs => rw [expiring, ← List.take_append_drop it manager.timers, rollover]
              exact filter_of_split (by simpa using parts.1) (by simpa using parts.2)
            have split := (List.take_append_drop it manager.timers).symm
            rcases expire_split sorted split now now with ⟨after, cbs, done, expired⟩
            rw [due]
            exact ⟨_, now, after, cbs, done, split, .inr rfl, expired⟩

/-- The clock is more than an hour behind the time of the last check. -/
def HourBack (manager : TimerManager Callback) (now : UInt64) : Prop :=
  now.toNat + 60 * 60 * 1000 < manager.previousTime.toNat

instance (manager : TimerManager Callback) (now : UInt64) : Decidable (manager.HourBack now) :=
  inferInstanceAs (Decidable (_ < _))

theorem rolled_over_iff (manager : TimerManager Callback) (now : UInt64) :
    manager.rolledOver now = true ↔
      now < manager.previousTime ∧ now < manager.previousTime - 60 * 60 * 1000 := by
  simp [rolledOver, detectClockRollover]

theorem rolled_over_of_hour {now : UInt64}
    (hour : 60 * 60 * 1000 ≤ manager.previousTime.toNat) :
    manager.rolledOver now = true ↔ manager.HourBack now := by
  have difference : (manager.previousTime - 60 * 60 * 1000).toNat =
      manager.previousTime.toNat - 60 * 60 * 1000 :=
    UInt64.toNat_sub_of_le manager.previousTime _ (UInt64.le_iff_toNat_le.mpr hour)
  rw [rolled_over_iff, UInt64.lt_iff_toNat_lt, UInt64.lt_iff_toNat_lt, difference, HourBack]
  omega

theorem rolled_over_of_first_hour {now : UInt64}
    (early : manager.previousTime.toNat < 60 * 60 * 1000) (back : now < manager.previousTime) :
    manager.rolledOver now = true := by
  have difference : (manager.previousTime - 60 * 60 * 1000).toNat =
      2 ^ 64 - 60 * 60 * 1000 + manager.previousTime.toNat := by
    have wrapped := UInt64.toNat_sub manager.previousTime (60 * 60 * 1000)
    rw [wrapped, show (60 * 60 * 1000 : UInt64).toNat = 60 * 60 * 1000 from rfl]
    exact Nat.mod_eq_of_lt (by omega)
  have smaller := UInt64.lt_iff_toNat_lt.mp back
  rw [rolled_over_iff]
  refine ⟨back, UInt64.lt_iff_toNat_lt.mpr ?_⟩
  rw [difference]
  omega

theorem rolled_over_of_forward {now : UInt64} (forward : manager.previousTime ≤ now) :
    manager.rolledOver now = false := by
  have notBack : ¬ manager.rolledOver now = true := by
    rw [rolled_over_iff]
    rintro ⟨back, _⟩
    exact UInt64.not_le.mpr back forward
  simpa using notBack

/-- The callbacks are those of the timers that are due, or of all after a step back of more than
an hour, and nothing but these timers changes. -/
def ExpiresExactly (manager : TimerManager Callback) (now : UInt64)
    (after : TimerManager Callback) (cbs : List (Option Callback)) : Prop :=
  ∃ due : List Address, due.Nodup ∧
    (∀ address, address ∈ due ↔ address ∈ manager.timers ∧
      (manager.HourBack now ∨
        ∃ timer, manager.heap address = some timer ∧ timer.next ≤ now)) ∧
    due.Pairwise (Before manager.heap) ∧
    cbs = due.map (callbackAt manager.heap) ∧
    (∀ address ∈ due, ∀ timer, manager.heap address = some timer →
      if timer.recurring then address ∈ after.timers ∧
        after.heap address = some { timer with next := now + timer.ms }
      else address ∉ after.timers ∧ after.heap address = some { timer with cb := none }) ∧
    ∀ address, address ∉ due → after.heap address = manager.heap address ∧
      (address ∈ after.timers ↔ address ∈ manager.timers)

theorem is_due_iff {heap : TimerHeap Callback} {now : UInt64} {address : Address} :
    isDue heap now address = true ↔ ∃ timer, heap address = some timer ∧ timer.next ≤ now := by
  simp [isDue, Option.any_eq_true]

theorem expires_exactly_of_agree (sorted : manager.Sorted) {now previousTime : UInt64}
    {rest : List Address} {after : TimerManager Callback} {cbs : List (Option Callback)}
    (split : manager.timers = manager.expiring now ++ rest)
    (expired : ({ manager with timers := rest, previousTime } : TimerManager Callback).Expired now
      (manager.expiring now) after cbs)
    (agree : ∀ address ∈ manager.timers,
      (manager.rolledOver now = true ∨ isDue manager.heap now address = true ↔
        manager.HourBack now ∨ isDue manager.heap now address = true)) :
    manager.ExpiresExactly now after cbs := by
  have distinct := sorted.ordered.nodup
  have part : (manager.expiring now).Sublist manager.timers := List.filter_sublist
  have members : ∀ address, address ∈ manager.timers ↔
      address ∈ manager.expiring now ∨ address ∈ rest := by
    intro address
    conv_lhs => rw [split]
    exact List.mem_append
  have outside : ∀ address ∈ manager.expiring now, address ∉ rest := by
    rw [split] at distinct
    exact List.disjoint_of_nodup_append distinct
  refine ⟨manager.expiring now, distinct.sublist part, ?_, ?_, expired.callbacks, ?_, ?_⟩
  · intro address
    rw [expiring, List.mem_filter, Bool.or_eq_true]
    constructor
    · rintro ⟨member, due⟩
      exact ⟨member, ((agree address member).mp due).imp_right is_due_iff.mp⟩
    · rintro ⟨member, due⟩
      exact ⟨member, (agree address member).mpr (due.imp_right is_due_iff.mpr)⟩
  · apply (sorted.ordered.sublist part).imp_of_mem
    intro first second first_member second_member earlier
    exact before_of_earlier (sorted.live first (part.subset first_member))
      (sorted.live second (part.subset second_member)) earlier
  · intro address member timer found
    have heap := expired.heap address
    rw [if_pos member, show manager.heap address = some timer from found, Option.map_some,
      expiredTimer] at heap
    cases recurring : timer.recurring with
    | true =>
        rw [recurring, if_pos rfl] at heap
        rw [if_pos rfl]
        refine ⟨(expired.timers address).mpr (.inr ⟨member, timer, found, recurring⟩), heap⟩
    | false =>
        rw [recurring, if_neg Bool.false_ne_true] at heap
        rw [if_neg Bool.false_ne_true]
        refine ⟨?_, heap⟩
        rw [expired.timers]
        rintro (still | ⟨_, other, here, comes⟩)
        · exact outside address member still
        · rw [show manager.heap address = some other from here] at found
          cases found
          rw [recurring] at comes
          cases comes
  · intro address absent
    have heap := expired.heap address
    rw [if_neg absent] at heap
    refine ⟨heap, ?_⟩
    rw [expired.timers, members]
    simp [absent]

theorem expires_exactly_iff (sorted : manager.Sorted) {nowTimer : Address}
    (free : manager.heap nowTimer = none) (now : UInt64) :
    ∃ after cbs, manager.listExpiredCb nowTimer now = .ok (after, cbs) ∧
      (manager.ExpiresExactly now after cbs ↔
        60 * 60 * 1000 ≤ manager.previousTime.toNat ∨ manager.previousTime ≤ now ∨
          ∀ address ∈ manager.timers, isDue manager.heap now address = true) := by
  rcases list_expired_cb_expired sorted free now with
    ⟨rest, previousTime, after, cbs, done, split, _, expired⟩
  refine ⟨after, cbs, done, ?_, ?_⟩
  · rintro ⟨due, distinct, exact, _, callbacks, _⟩
    by_contra neither
    simp only [not_or, not_forall, Nat.not_le, UInt64.not_le] at neither
    rcases neither with ⟨early, back, address, member, later⟩
    have all : manager.expiring now = manager.timers := by
      simp [expiring, rolled_over_of_first_hour early back]
    -- All callbacks are there, but not all timers are due.
    have lengths : due.length = manager.timers.length := by
      have other := expired.callbacks
      rw [callbacks, all] at other
      simpa using congrArg List.length other
    have inside : due ⊆ manager.timers := fun other here => ((exact other).mp here).1
    have same : due.Perm manager.timers :=
      (List.subperm_of_subset distinct inside).perm_of_length_le (Nat.le_of_eq lengths.symm)
    rcases ((exact address).mp (same.mem_iff.mpr member)).2 with hour | due
    · rw [HourBack] at hour
      omega
    · exact later (is_due_iff.mpr due)
  · intro condition
    apply expires_exactly_of_agree sorted split expired
    intro address member
    rcases condition with hour | forward | all
    · rw [rolled_over_of_hour hour]
    · have steady : ¬ manager.HourBack now := by
        have order := UInt64.le_iff_toNat_le.mp forward
        rw [HourBack]
        omega
      simp [rolled_over_of_forward forward, steady]
    · simp [all address member]

end TimerManager

open TimerManager

/-- The states that calls lead to, also with timers that have nothing to call. -/
abbrev TimersReached (previousTime : UInt64) (state : Result (TimerManager Callback)) : Prop :=
  Transition.Reaches timerStep (fun _ _ => True) (.ok (start previousTime)) state

theorem perform_sorted {manager after : TimerManager Callback} {call : TimerCall Callback}
    (sorted : manager.Sorted) (possible : call.Possible manager)
    (done : call.perform manager = .ok after) : after.Sorted := by
  cases call with
  | addTimer address ms cb recurring now =>
      cases done
      exact sorted.addTimer possible ms cb recurring now
  | cancel timer =>
      rcases map_eq_ok done with ⟨⟨next, cancelled⟩, called, same⟩
      rw [← same]
      rcases cancel_cases sorted called with unchanged | ⟨_, _, kept, _⟩
      · rw [unchanged]
        exact sorted
      · exact kept
  | refresh timer now =>
      rcases map_eq_ok done with ⟨⟨next, refreshed⟩, called, same⟩
      rw [← same]
      rcases refresh_cases sorted called with unchanged | ⟨_, _, moved⟩
      · rw [unchanged]
        exact sorted
      · exact moved.sorted
  | reset timer ms fromNow now =>
      rcases map_eq_ok done with ⟨⟨next, known⟩, called, same⟩
      rw [← same]
      rcases reset_cases sorted called with ⟨unchanged, _⟩ | ⟨_, _, _, moved⟩
      · rw [unchanged]
        exact sorted
      · exact moved.sorted
  | getNextTimer now =>
      rcases map_eq_ok done with ⟨⟨next, wait⟩, called, same⟩
      rw [← same, get_next_timer_same called]
      exact { sorted with }
  | listExpiredCb nowTimer now =>
      rcases map_eq_ok done with ⟨⟨next, cbs⟩, called, same⟩
      rcases list_expired_cb_expired sorted possible now with
        ⟨_, _, other, otherCbs, also, _, _, expired⟩
      rw [called] at also
      cases also
      rw [← same]
      exact expired.sorted
  | release timer =>
      cases done
      refine ⟨ordered_update sorted.ordered possible.2 none, ?_⟩
      intro address member
      have other : address ≠ timer := fun same => possible.2 (same ▸ member)
      simpa [other] using sorted.live address member

theorem reached_sorted {previousTime : UInt64} {state : Result (TimerManager Callback)}
    (reached : TimersReached previousTime state) {manager : TimerManager Callback}
    (same : state = .ok manager) : manager.Sorted := by
  have kept : ∀ manager, state = .ok manager → manager.Sorted := by
    apply Transition.invariant_of_reaches _ _ reached
    · intro manager same
      cases same
      exact start_sorted previousTime
    · intro state call after sound _ taken manager same
      cases state with
      | error fault => cases taken
      | ok before =>
          rw [timerStep] at taken
          split at taken
          · cases taken
            exact perform_sorted (sound before rfl) ‹_› same
          · cases taken
  exact kept manager same

/-- In the first hour behind the epoch the test for a rollover wraps, and a step back by any
time expires timers that are not due; that is the only way in which expiry is not exact. -/
theorem expiry_exact_iff {previousTime : UInt64} {manager : TimerManager Callback}
    (reached : TimersReached previousTime (.ok manager)) {nowTimer : Address}
    (free : manager.heap nowTimer = none) (now : UInt64) :
    ∃ after cbs, manager.listExpiredCb nowTimer now = .ok (after, cbs) ∧
      (manager.ExpiresExactly now after cbs ↔
        60 * 60 * 1000 ≤ manager.previousTime.toNat ∨ manager.previousTime ≤ now ∨
          ∀ address ∈ manager.timers, isDue manager.heap now address = true) :=
  expires_exactly_iff (reached_sorted reached rfl) free now

/-- A timer that fires once and a recurring one; both are due at this very time. -/
theorem expiry_exact_iff_two : ∃ manager : TimerManager Nat,
    TimersReached 4000000 (.ok manager) ∧ manager.timers = [0, 1] ∧
    ∃ after cbs, manager.listExpiredCb 2 4000005 = .ok (after, cbs) ∧
      (manager.ExpiresExactly 4000005 after cbs ↔
        60 * 60 * 1000 ≤ manager.previousTime.toNat ∨ manager.previousTime ≤ 4000005 ∨
          ∀ address ∈ manager.timers, isDue manager.heap 4000005 address = true) := by
  let one := ((start 4000000).addTimer 1 5 (some 7) true 4000000).1
  let two := (one.addTimer 0 5 (some 8) false 4000000).1
  have reached : TimersReached 4000000 (.ok two) :=
    .next (.addTimer 0 5 (some 8) false 4000000)
      (.next (.addTimer 1 5 (some 7) true 4000000) .start trivial rfl) trivial rfl
  have free : two.heap 2 = none := rfl
  exact ⟨two, reached, by decide +kernel, expiry_exact_iff reached free 4000005⟩

/-- A second behind the epoch the clock goes back by half a second, and a timer that is due five
seconds later expires. -/
theorem expiry_in_first_hour : ∃ manager : TimerManager Nat, TimersReached 1000 (.ok manager) ∧
    manager.timers = [0] ∧ (manager.heap 0).map (·.next) = some 6000 ∧
    ¬ manager.HourBack 500 ∧
    ∃ after, manager.listExpiredCb 1 500 = .ok (after, [some 7]) ∧
      ¬ manager.ExpiresExactly 500 after [some 7] := by
  let manager := ((start 1000).addTimer 0 5000 (some 7) false 1000).1
  have reached : TimersReached 1000 (.ok manager) :=
    .next (.addTimer 0 5000 (some 7) false 1000) .start trivial rfl
  rcases expires_exactly_iff (reached_sorted reached rfl) (show manager.heap 1 = none from rfl) 500
    with ⟨after, cbs, done, exact⟩
  have listed : (manager.listExpiredCb 1 500).toOption.map Prod.snd = some [some 7] := by
    decide +kernel
  rw [done] at listed
  have same : cbs = [some 7] := Option.some.inj listed
  rw [same] at done exact
  refine ⟨manager, reached, by decide +kernel, by decide +kernel, by decide +kernel, after, done,
    ?_⟩
  rw [exact]
  decide +kernel

end ChatServer.Fiber
