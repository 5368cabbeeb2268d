import ChatServer.Fiber.EventTable
import ChatServer.Fiber.EventRegistry

/-!
# Contexts stay in the table

As long as no `addEvent` resizes the table to less than it has, the context that was created for a
descriptor stays at its index and every look-up is in range. The size is computed from the
caller's own descriptor and was compared under another lock, so a late caller can do otherwise.
-/

namespace ChatServer.Fiber

set_option autoImplicit false

def InRange {Value : Type} (result : Result Value) : Prop :=
  result ≠ .error (.undefined .outOfBounds)

theorem InRange.bind {Value Next : Type} {first : Result Value} {next : Value → Result Next}
    (left : InRange first) (right : ∀ value, InRange (next value)) : InRange (first >>= next) := by
  cases first with
  | error fault => exact fun same => left (congrArg Except.error (Except.error.inj same))
  | ok value => exact right value

theorem InRange.ok {Value : Type} (value : Value) : InRange (.ok value) := by simp [InRange]

namespace Held

theorem trigger_event_in_range (held : Held) (event : Event) :
    InRange (held.triggerEvent event) := by
  rw [triggerEvent]
  split
  · exact .ok held
  · simp only
    split
    · simp [InRange]
    · split <;> exact .ok _

theorem trigger_counted_in_range (held : Held) (event : Event) :
    InRange (held.triggerCounted event) :=
  (trigger_event_in_range held event).bind fun _ => .ok _

theorem trigger_if_in_range (held : Held) (registered : Bool) (event : Event) :
    InRange (held.triggerIf registered event) := by
  rw [triggerIf]
  split
  · exact trigger_counted_in_range held event
  · exact .ok held

theorem dispatch_in_range (held : Held) (report : Report) (epollCtl : Bool) :
    InRange (held.dispatch report epollCtl) := by
  rw [dispatch]
  split
  · exact .ok held
  · split
    · exact .ok held
    · exact (trigger_if_in_range held _ _).bind fun next => trigger_if_in_range next _ _

theorem cancel_all_in_range (held : Held) (epollCtl : Bool) :
    InRange (held.cancelAll epollCtl) := by
  rw [cancelAll]
  split
  · exact .ok _
  · split
    · exact .ok _
    · apply (trigger_if_in_range held _ _).bind
      intro next
      apply (trigger_if_in_range next _ _).bind
      intro last
      split
      · simp [InRange]
      · exact .ok _

theorem run_in_range (held : Held) (operation : Operation) (epollCtl : Bool) :
    InRange (operation.run held epollCtl) := by
  cases operation with
  | addEvent event cb caller =>
      apply InRange.bind _ fun _ => .ok _
      simp only [addEvent]
      split
      · simp [InRange]
      · split
        · exact .ok _
        · split
          · simp [InRange]
          · exact .ok _
  | delEvent event =>
      apply InRange.bind _ fun _ => .ok _
      rw [delEvent]
      split
      · exact .ok _
      · split <;> exact .ok _
  | cancelEvent event =>
      apply InRange.bind _ fun _ => .ok _
      rw [cancelEvent]
      split
      · exact .ok _
      · split
        · exact .ok _
        · exact (trigger_counted_in_range held event).bind fun _ => .ok _
  | cancelAll => exact (cancel_all_in_range held epollCtl).bind fun _ => .ok _

end Held

namespace EventTable

variable {table : EventTable} {action : TableAction} {after : Result EventTable}

/-- The table is what was created, in the order of the descriptors. -/
structure Arranged (table : EventTable) : Prop where
  entries : table.fdcontexts = List.range table.objects.length
  descriptors : ∀ (context : Nat) (ctx : FdContext), table.objects[context]? = some ctx →
    ctx.fd = context
  long : 32 ≤ table.objects.length

theorem arranged_length (arranged : table.Arranged) :
    table.fdcontexts.length = table.objects.length := by
  rw [arranged.entries, List.length_range]

theorem context_resize_arranged {size : Nat}
    (entries : table.fdcontexts = List.range table.objects.length)
    (descriptors : ∀ (context : Nat) (ctx : FdContext), table.objects[context]? = some ctx →
      ctx.fd = context)
    (growing : table.objects.length ≤ size) (long : 32 ≤ size) :
    (table.contextResize size).Arranged ∧ (table.contextResize size).objects.length = size := by
  have kept : table.fdcontexts.take size = List.range table.objects.length := by
    rw [entries, List.take_of_length_le]
    rwa [List.length_range]
  have objects : (table.contextResize size).objects = table.objects ++
      (List.range' table.objects.length (size - table.objects.length)).map FdContext.new := by
    rw [contextResize, kept, List.length_range]
  have length : (table.contextResize size).objects.length = size := by
    rw [objects, List.length_append, List.length_map, List.length_range']
    omega
  refine ⟨⟨?_, ?_, ?_⟩, length⟩
  · rw [length, contextResize, kept, List.length_range, List.length_range']
    simp only
    have joined : List.range' 0 table.objects.length ++
        List.range' (0 + table.objects.length) (size - table.objects.length) =
          List.range' 0 (table.objects.length + (size - table.objects.length)) :=
      List.range'_append_1
    rw [Nat.zero_add, Nat.add_sub_cancel' growing] at joined
    rw [List.range_eq_range', List.range_eq_range', joined]
  · intro context ctx found
    rw [objects] at found
    by_cases old : context < table.objects.length
    · rw [List.getElem?_append_left old] at found
      exact descriptors context ctx found
    · have behind : table.objects.length ≤ context := by omega
      rw [List.getElem?_append_right behind, List.getElem?_map, Option.map_eq_some_iff] at found
      rcases found with ⟨fd, fresh, same⟩
      rcases List.getElem?_eq_some_iff.mp fresh with ⟨_, index⟩
      rw [List.getElem_range'] at index
      rw [← same, FdContext.new]
      simp only
      omega
  · rw [length]
    exact long

theorem start_arranged : start.Arranged :=
  (context_resize_arranged rfl (by simp) (by simp) (Nat.le_refl 32)).1

theorem goto_arranged (arranged : table.Arranged) (thread : Nat) (stage : CallStage) :
    (table.goto thread stage).Arranged :=
  ⟨arranged.entries, arranged.descriptors, arranged.long⟩

theorem locked_arranged (arranged : table.Arranged) {thread context : Nat}
    {body : Held → Result Held} {stage : CallStage}
    (kept : ∀ (ctx : FdContext) held, body ⟨ctx, table.pending, table.scheduled⟩ = .ok held →
      held.ctx.fd = ctx.fd)
    {next : EventTable} (done : table.locked thread context body stage = .ok next) :
    next.Arranged ∧ table.objects.length ≤ next.objects.length := by
  rcases locked_ok done with ⟨ctx, held, found, ran, locked⟩
  cases locked
  have same := kept ctx held ran
  refine ⟨⟨?_, ?_, ?_⟩, by simp⟩
  · simpa using arranged.entries
  · intro other object member
    simp only at member
    by_cases here : context = other
    · rw [← here, List.getElem?_set_self (List.getElem?_eq_some_iff.mp found).1] at member
      cases member
      rw [same, ← here]
      exact arranged.descriptors context ctx found
    · rw [List.getElem?_set_ne here] at member
      exact arranged.descriptors other object member
  · simpa using arranged.long

theorem locked_in_range (table : EventTable) (thread context : Nat) {body : Held → Result Held}
    (stage : CallStage) (inside : ∀ held, InRange (body held)) :
    InRange (table.locked thread context body stage) := by
  rw [locked]
  split
  · simp [InRange]
  · exact (inside _).bind fun _ => .ok _

/-- One section keeps the table arranged and no shorter, and reads it in range. -/
theorem effect_arranged (arranged : table.Arranged) (growing : table.growing action = true)
    (effect : Effect table action after) : InRange after ∧
      ∀ next, after = .ok next → next.Arranged ∧ table.objects.length ≤ next.objects.length := by
  cases effect with
  | stays =>
      refine ⟨.ok _, ?_⟩
      intro next done
      cases done
      exact ⟨arranged, Nat.le_refl _⟩
  | looksUp | waits | leaves | reports =>
      refine ⟨.ok _, ?_⟩
      intro next done
      cases done
      exact ⟨goto_arranged arranged _ _, Nat.le_refl _⟩
  | resizes thread fd operation waiting fits =>
      simp only [EventTable.growing, waiting, decide_eq_true_eq] at growing
      have length := arranged_length arranged
      have long := arranged.long
      rw [length] at growing
      rcases context_resize_arranged arranged.entries arranged.descriptors growing (by omega) with
        ⟨resized, size⟩
      have inside : fd < (table.contextResize (fd * 3 / 2)).fdcontexts.length := by
        rw [arranged_length resized, size]
        omega
      rw [resize, lookup, List.getElem?_eq_getElem inside]
      refine ⟨.ok _, ?_⟩
      intro next done
      cases done
      refine ⟨goto_arranged resized _ _, ?_⟩
      change table.objects.length ≤ (table.contextResize (fd * 3 / 2)).objects.length
      rw [size]
      exact growing
  | runs thread context operation epollCtl found =>
      refine ⟨?_, ?_⟩
      · exact locked_in_range table thread context _ fun held =>
          Held.run_in_range held operation epollCtl
      · intro next done
        apply locked_arranged arranged _ done
        intro ctx held ran
        exact (Held.run_balanced ran).fd
  | dispatches thread context report rest epollCtl reported =>
      refine ⟨?_, ?_⟩
      · exact locked_in_range table thread context _ fun held =>
          Held.dispatch_in_range held report epollCtl
      · intro next done
        apply locked_arranged arranged _ done
        intro ctx held ran
        exact Held.dispatch_fd ran

theorem onward_arranged (arranged : table.Arranged) {state : Result EventTable}
    (onward : Transition.Reaches step (Where growing) (.ok table) state) :
    InRange state ∧ ∀ next, state = .ok next →
      next.Arranged ∧ table.objects.length ≤ next.objects.length := by
  apply Transition.invariant_of_reaches _ _ onward
  · refine ⟨.ok table, ?_⟩
    intro next same
    cases same
    exact ⟨arranged, Nat.le_refl _⟩
  · intro before action after invariant permitted taken
    cases before with
    | error fault => cases taken
    | ok middle =>
        have kept := invariant.2 middle rfl
        have effect := effect_arranged kept.1 permitted (act_effect taken)
        refine ⟨effect.1, ?_⟩
        intro next done
        have grown := effect.2 next done
        exact ⟨grown.1, Nat.le_trans kept.2 grown.2⟩

/-- While no call resizes the table to less than it has, it never shrinks, whatever was created
stays at the index of its descriptor, and every index is in range. -/
theorem contexts_stay {earlier later : Result EventTable}
    (reached : Transition.Reaches step (Where growing) (.ok start) earlier)
    (onward : Transition.Reaches step (Where growing) earlier later) :
    later ≠ .error (.undefined .outOfBounds) ∧
      ∀ before after, earlier = .ok before → later = .ok after →
        before.fdcontexts <+: after.fdcontexts ∧
        ∀ (context : Nat) (ctx : FdContext), before.objects[context]? = some ctx →
          after.fdcontexts[ctx.fd]? = some context := by
  have first := onward_arranged start_arranged reached
  have whole := onward_arranged start_arranged (reached.trans onward)
  refine ⟨whole.1, ?_⟩
  intro before after same last
  rw [same] at onward
  have arranged := (first.2 before same).1
  have kept := (onward_arranged arranged onward).2 after last
  constructor
  · rw [arranged.entries, kept.1.entries]
    rw [List.prefix_iff_eq_take, List.length_range, List.take_range, Nat.min_eq_left kept.2]
  · intro context ctx found
    have inside := (List.getElem?_eq_some_iff.mp found).1
    rw [arranged.descriptors context ctx found, kept.1.entries,
      List.getElem?_range (Nat.lt_of_lt_of_le inside kept.2)]

/-- The table grows for descriptor 40 and then for descriptor 100. -/
theorem contexts_stay_two : ∃ earlier later : Result EventTable,
    (earlier.toOption.map fun table => table.fdcontexts.length) = some 60 ∧
    (later.toOption.map fun table => table.fdcontexts.length) = some 150 ∧
    later ≠ .error (.undefined .outOfBounds) ∧
      ∀ before after, earlier = .ok before → later = .ok after →
        before.fdcontexts <+: after.fdcontexts ∧
        ∀ (context : Nat) (ctx : FdContext), before.objects[context]? = some ctx →
          after.fdcontexts[ctx.fd]? = some context := by
  have reached : ∃ earlier later : Result EventTable,
      Transition.Reaches step (Where growing) (.ok start) earlier ∧
      Transition.Reaches step (Where growing) earlier later ∧
      (earlier.toOption.map fun table => table.fdcontexts.length) = some 60 ∧
      (later.toOption.map fun table => table.fdcontexts.length) = some 150 := by
    apply Transition.exists_of_run_run
      [.enter 0 40 (.addEvent .read none ⟨some 0, 7⟩), .resize 0, .run 0 true]
      [.enter 1 100 (.addEvent .read none ⟨some 0, 8⟩), .resize 1, .run 1 true]
    decide +kernel
  rcases reached with ⟨earlier, later, reached, onward, short, long⟩
  exact ⟨earlier, later, short, long, contexts_stay reached onward⟩

/-- Both calls find 32 slots. The one for descriptor 100 makes 150 of them and registers its
event; the other then cuts the table to 60, and descriptor 100 is not in it any more. -/
theorem contexts_cut_off : ∃ earlier later : Result EventTable,
    Transition.Reaches step (fun _ _ => True) (.ok start) earlier ∧
    Transition.Reaches step (fun _ _ => True) earlier later ∧
    (earlier.toOption.map fun table => (table.fdcontexts.length, table.fdcontexts[100]?)) =
      some (150, some 100) ∧
    (later.toOption.map fun table => (table.fdcontexts.length, table.fdcontexts[100]?)) =
      some (60, none) ∧
    (later.toOption.bind fun table => table.objects[100]?.map fun ctx =>
      (ctx.fd, ctx.events .read)) = some (100, true) := by
  apply Transition.exists_of_run_run
    [.enter 0 100 (.addEvent .read none ⟨some 0, 7⟩),
      .enter 1 40 (.addEvent .read none ⟨some 0, 8⟩), .resize 0, .run 0 true]
    [.resize 1, .run 1 true]
  decide +kernel

end EventTable
end ChatServer.Fiber
