import ChatServer.Fiber.EventTable

/-!
# Registered events over whole runs

In every context of the table the bits of `m_events` and the event contexts agree, whatever the
threads do. `m_pendingEventCount` agrees with the bits as long as nobody dispatches a report of
which one event is still registered and another is not any more.
-/

namespace ChatServer.Fiber

set_option autoImplicit false

namespace CallStage

def Within (size : Nat) : CallStage → Prop
  | .found context _ => context < size
  | .dispatching reports => ∀ reported ∈ reports, reported.1 < size
  | .idle | .resizing _ _ => True

theorem within_mono {size larger : Nat} {stage : CallStage} (within : stage.Within size)
    (grown : size ≤ larger) : stage.Within larger := by
  cases stage with
  | idle => trivial
  | resizing fd operation => trivial
  | found context operation => exact Nat.lt_of_lt_of_le within grown
  | dispatching reports =>
      intro reported member
      exact Nat.lt_of_lt_of_le (within reported member) grown

end CallStage

namespace EventTable

/-- What one section does to the table. -/
inductive Effect (table : EventTable) : TableAction → Result EventTable → Prop where
  | stays (action : TableAction) : Effect table action (.ok table)
  | looksUp (action : TableAction) (thread fd context : Nat) (operation : Operation)
      (entry : table.fdcontexts[fd]? = some context) :
      Effect table action (.ok (table.goto thread (.found context operation)))
  | waits (action : TableAction) (thread fd : Nat) (operation : Operation) :
      Effect table action (.ok (table.goto thread (.resizing fd operation)))
  | leaves (action : TableAction) (thread : Nat) :
      Effect table action (.ok (table.goto thread .idle))
  | reports (action : TableAction) (thread : Nat) (reports : List (Nat × Report))
      (reportable : ∀ reported ∈ reports, table.Reportable reported = true) :
      Effect table action (.ok (table.goto thread (.dispatching reports)))
  | resizes (thread fd : Nat) (operation : Operation)
      (waiting : table.stages thread = .resizing fd operation)
      (fits : (table.contextResize (fd * 3 / 2)).objects.length ≤ maxObjects) :
      Effect table (.resize thread) (table.resize thread fd operation)
  | runs (thread context : Nat) (operation : Operation) (epollCtl : Bool)
      (found : table.stages thread = .found context operation) :
      Effect table (.run thread epollCtl)
        (table.locked thread context (fun held => operation.run held epollCtl) .idle)
  | dispatches (thread context : Nat) (report : Report) (rest : List (Nat × Report))
      (epollCtl : Bool)
      (reported : table.stages thread = .dispatching ((context, report) :: rest)) :
      Effect table (.dispatch thread epollCtl)
        (table.locked thread context (fun held => held.dispatch report epollCtl)
          (.dispatching rest))

variable {table : EventTable} {action : TableAction} {after : Result EventTable}

theorem enter_effect (table : EventTable) (action : TableAction) (thread fd : Nat)
    (operation : Operation) : Effect table action (table.enter thread fd operation) := by
  rw [enter.eq_def]
  split
  · have inside : fd < table.fdcontexts.length := by
      have bounds := int32_bounds table.fdcontexts.length
      rcases int32_wraps table.fdcontexts.length with ⟨turns, same⟩
      omega
    rw [lookup, List.getElem?_eq_getElem inside]
    exact .looksUp action thread fd _ operation (List.getElem?_eq_getElem inside)
  · cases operation with
    | addEvent event cb caller => exact .waits action thread fd _
    | delEvent event => exact .stays action
    | cancelEvent event => exact .stays action
    | cancelAll => exact .stays action

theorem act_effect (taken : table.act action = some after) : Effect table action after := by
  cases action with
  | enter thread fd operation =>
      rw [act] at taken
      split at taken
      · rw [← Option.some.inj taken]
        exact enter_effect table _ thread fd operation
      · cases taken
  | resize thread =>
      rw [act] at taken
      split at taken
      · split at taken
        · cases taken
          exact .resizes thread _ _ ‹_› ‹_›
        · cases taken
      · cases taken
  | run thread epollCtl =>
      rw [act] at taken
      split at taken
      · cases taken
        exact .runs thread _ _ epollCtl ‹_›
      · cases taken
  | epollWait thread reports =>
      rw [act] at taken
      split at taken
      · cases taken
        exact .reports _ thread reports (List.all_eq_true.mp (And.right ‹_›))
      · cases taken
  | dispatch thread epollCtl =>
      rw [act] at taken
      split at taken
      · cases taken
        exact .leaves _ thread
      · cases taken
        exact .dispatches thread _ _ _ epollCtl ‹_›
      · cases taken

theorem locked_cases (table : EventTable) (thread context : Nat) (body : Held → Result Held)
    (stage : CallStage) :
    (table.objects[context]? = none ∧
      table.locked thread context body stage = .error (.undefined .nullDeref)) ∨
    ∃ ctx, table.objects[context]? = some ctx ∧
      ((∃ fault, body ⟨ctx, table.pending, table.scheduled⟩ = .error fault ∧
        table.locked thread context body stage = .error fault) ∨
      ∃ held, body ⟨ctx, table.pending, table.scheduled⟩ = .ok held ∧
        table.locked thread context body stage = .ok
          { objects := table.objects.set context held.ctx
            fdcontexts := table.fdcontexts
            pending := held.pending
            scheduled := held.scheduled
            stages := Function.update table.stages thread stage }) := by
  rw [locked]
  cases found : table.objects[context]? with
  | none => exact .inl ⟨rfl, rfl⟩
  | some ctx =>
      right
      refine ⟨ctx, rfl, ?_⟩
      cases done : body ⟨ctx, table.pending, table.scheduled⟩ with
      | error fault => exact .inl ⟨fault, rfl, by simp only [done]; rfl⟩
      | ok held => exact .inr ⟨held, rfl, by simp only [done]; rfl⟩

theorem locked_ok {table next : EventTable} {thread context : Nat} {body : Held → Result Held}
    {stage : CallStage} (done : table.locked thread context body stage = .ok next) :
    ∃ ctx held, table.objects[context]? = some ctx ∧
      body ⟨ctx, table.pending, table.scheduled⟩ = .ok held ∧
      next = { objects := table.objects.set context held.ctx
               fdcontexts := table.fdcontexts
               pending := held.pending
               scheduled := held.scheduled
               stages := Function.update table.stages thread stage } := by
  rcases locked_cases table thread context body stage with ⟨_, failed⟩ | ⟨ctx, found, outcome⟩
  · rw [failed] at done
    cases done
  · rcases outcome with ⟨fault, _, failed⟩ | ⟨held, ran, locked⟩
    · rw [failed] at done
      cases done
    · rw [locked] at done
      exact ⟨ctx, held, found, ran, (Except.ok.inj done).symm⟩

theorem lookup_cases (table : EventTable) (thread fd : Nat) (operation : Operation) :
    table.lookup thread fd operation = .error (.undefined .outOfBounds) ∨
      ∃ context, table.fdcontexts[fd]? = some context ∧
        table.lookup thread fd operation = .ok (table.goto thread (.found context operation)) := by
  rw [lookup]
  cases entry : table.fdcontexts[fd]? with
  | none => exact .inl rfl
  | some context => exact .inr ⟨context, rfl, rfl⟩

theorem context_resize_objects (table : EventTable) (size : Nat) :
    ∃ fds : List Nat, (table.contextResize size).objects = table.objects ++ fds.map FdContext.new :=
  ⟨_, rfl⟩

structure Pointers (table : EventTable) : Prop where
  stages : ∀ thread, (table.stages thread).Within table.objects.length
  entries : ∀ context ∈ table.fdcontexts, context < table.objects.length

theorem Pointers.goto (pointers : table.Pointers) (thread : Nat) {stage : CallStage}
    (within : stage.Within table.objects.length) : (table.goto thread stage).Pointers where
  stages := by
    intro other
    by_cases same : other = thread
    · simpa [EventTable.goto, same] using within
    · simpa [EventTable.goto, same] using pointers.stages other
  entries := pointers.entries

theorem context_resize_pointers (pointers : table.Pointers) (size : Nat) :
    (table.contextResize size).Pointers where
  stages := by
    intro thread
    apply CallStage.within_mono (pointers.stages thread)
    rcases context_resize_objects table size with ⟨fds, objects⟩
    rw [objects, List.length_append]
    exact Nat.le_add_right _ _
  entries := by
    intro context member
    simp only [contextResize, List.mem_append, List.mem_range'_1, List.length_append,
      List.length_map, List.length_range'] at member ⊢
    rcases member with kept | ⟨_, bound⟩
    · have before := pointers.entries context (List.mem_of_mem_take kept)
      omega
    · exact bound

theorem entry_within (pointers : table.Pointers) {fd context : Nat}
    (entry : table.fdcontexts[fd]? = some context) : context < table.objects.length :=
  pointers.entries context (List.mem_of_getElem? entry)

theorem reported_within {reported : Nat × Report} (reportable : table.Reportable reported = true) :
    reported.1 < table.objects.length := by
  cases found : table.objects[reported.1]? with
  | none => simp [Reportable, found] at reportable
  | some ctx => exact (List.getElem?_eq_some_iff.mp found).1

theorem locked_pointers (pointers : table.Pointers) {thread context : Nat} {held : Held}
    {stage : CallStage} (within : stage.Within table.objects.length) :
    Pointers
      { objects := table.objects.set context held.ctx
        fdcontexts := table.fdcontexts
        pending := held.pending
        scheduled := held.scheduled
        stages := Function.update table.stages thread stage } where
  stages := by
    intro other
    rw [List.length_set]
    exact (pointers.goto thread within).stages other
  entries := by
    intro other member
    rw [List.length_set]
    exact pointers.entries other member

structure Sound (table : EventTable) : Prop where
  pointers : table.Pointers
  consistent : ∀ ctx ∈ table.objects, ctx.Consistent

theorem Sound.goto (sound : table.Sound) (thread : Nat) {stage : CallStage}
    (within : stage.Within table.objects.length) : (table.goto thread stage).Sound :=
  ⟨sound.pointers.goto thread within, sound.consistent⟩

theorem context_resize_sound (sound : table.Sound) (size : Nat) :
    (table.contextResize size).Sound where
  pointers := context_resize_pointers sound.pointers size
  consistent := by
    intro ctx member
    rcases context_resize_objects table size with ⟨fds, objects⟩
    rw [objects, List.mem_append] at member
    rcases member with before | new
    · exact sound.consistent ctx before
    · rcases List.mem_map.mp new with ⟨fd, _, same⟩
      rw [← same]
      exact FdContext.new_consistent fd

theorem start_sound : start.Sound := by
  apply context_resize_sound
  exact ⟨⟨fun _ => trivial, by simp⟩, by simp⟩

/-- A locked section that is right about its context is right about the table. -/
theorem locked_sound (sound : table.Sound) {thread context : Nat} {body : Held → Result Held}
    {stage : CallStage} (inside : context < table.objects.length)
    (within : stage.Within table.objects.length)
    (right : ∀ ctx, table.objects[context]? = some ctx → ctx.Consistent →
      ∃ held, body ⟨ctx, table.pending, table.scheduled⟩ = .ok held ∧ held.ctx.Consistent) :
    ∃ next, table.locked thread context body stage = .ok next ∧ next.Sound := by
  rcases locked_cases table thread context body stage with ⟨missing, _⟩ | ⟨ctx, found, outcome⟩
  · rw [List.getElem?_eq_getElem inside] at missing
    cases missing
  · have before := sound.consistent ctx (List.mem_of_getElem? found)
    rcases right ctx found before with ⟨held, done, kept⟩
    rcases outcome with ⟨fault, failed, _⟩ | ⟨next, ran, locked⟩
    · rw [done] at failed
      cases failed
    · rw [done] at ran
      cases ran
      refine ⟨_, locked, locked_pointers sound.pointers within, ?_⟩
      intro other member
      rcases List.mem_or_eq_of_mem_set member with old | same
      · exact sound.consistent other old
      · rw [same]
        exact kept

theorem effect_sound (sound : table.Sound) (proper : table.proper action = true)
    (effect : Effect table action after) :
    after = .error (.undefined .outOfBounds) ∨ ∃ next, after = .ok next ∧ next.Sound := by
  cases effect with
  | stays => exact .inr ⟨table, rfl, sound⟩
  | looksUp _ thread fd context operation entry =>
      exact .inr ⟨_, rfl, sound.goto thread (entry_within sound.pointers entry)⟩
  | waits _ thread fd operation => exact .inr ⟨_, rfl, sound.goto thread trivial⟩
  | leaves _ thread => exact .inr ⟨_, rfl, sound.goto thread trivial⟩
  | reports _ thread reports reportable =>
      refine .inr ⟨_, rfl, sound.goto thread ?_⟩
      intro reported member
      exact reported_within (reportable reported member)
  | resizes thread fd operation waiting fits =>
      have resized := context_resize_sound sound (fd * 3 / 2)
      rcases lookup_cases (table.contextResize (fd * 3 / 2)) thread fd operation with
        outside | ⟨context, entry, found⟩
      · exact .inl outside
      · exact .inr ⟨_, found, resized.goto thread (entry_within resized.pointers entry)⟩
  | runs thread context operation epollCtl found =>
      right
      have inside := sound.pointers.stages thread
      rw [found] at inside
      apply locked_sound sound inside
      · trivial
      · intro ctx object consistent
        simp only [EventTable.proper, found, object, decide_eq_true_eq] at proper
        exact Held.run_consistent consistent proper epollCtl
  | dispatches thread context report rest epollCtl reported =>
      right
      have inside := sound.pointers.stages thread
      rw [reported] at inside
      apply locked_sound sound (inside _ List.mem_cons_self)
      · intro other member
        exact inside other (List.mem_cons_of_mem _ member)
      · intro ctx object consistent
        exact Held.dispatch_consistent consistent report epollCtl

/-- Whatever the threads do, in any order, a bit is set where someone waits and nowhere else, and
no assertion fails. -/
theorem events_registered {state : Result EventTable}
    (reached : Transition.Reaches step (Where proper) (.ok start) state) :
    (∀ fault, state = .error fault → fault = .undefined .outOfBounds) ∧
      ∀ table, state = .ok table → ∀ ctx ∈ table.objects, ∀ event,
        (ctx.events event = true ↔ (ctx.contexts event).Waits) ∧
          (ctx.events event = false → ctx.contexts event = .empty) := by
  have sound : state = .error (.undefined .outOfBounds) ∨
      ∃ table, state = .ok table ∧ table.Sound := by
    apply Transition.invariant_of_reaches (.inr ⟨start, rfl, start_sound⟩) _ reached
    intro before action after invariant permitted taken
    rcases invariant with failed | ⟨table, same, sound⟩
    · rw [failed] at taken
      cases taken
    · rw [same] at taken permitted
      exact effect_sound sound permitted (act_effect taken)
  rcases sound with failed | ⟨table, same, sound⟩
  · rw [failed]
    exact ⟨by simp, by simp⟩
  · rw [same]
    refine ⟨by simp, ?_⟩
    intro other equal ctx member event
    cases equal
    have consistent := sound.consistent ctx member
    refine ⟨⟨consistent.registered event, ?_⟩, consistent.clear event⟩
    intro waits
    cases set : ctx.events event with
    | true => rfl
    | false =>
        rw [consistent.clear event set] at waits
        exact absurd rfl waits.1

/-- A fiber waits to read, a callback to write; a hangup wakes both. -/
theorem events_registered_hangup : ∃ state : Result EventTable,
    Transition.Reaches step (Where proper) (.ok start) state ∧
    state.toOption.map scheduled = some [(0, .fiber 7), (0, .cb 3)] ∧
    (∀ fault, state = .error fault → fault = .undefined .outOfBounds) ∧
      ∀ table, state = .ok table → ∀ ctx ∈ table.objects, ∀ event,
        (ctx.events event = true ↔ (ctx.contexts event).Waits) ∧
          (ctx.events event = false → ctx.contexts event = .empty) := by
  have reached : ∃ state : Result EventTable,
      Transition.Reaches step (Where proper) (.ok start) state ∧
      state.toOption.map scheduled = some [(0, .fiber 7), (0, .cb 3)] := by
    apply Transition.exists_of_run [.enter 0 5 (.addEvent .read none ⟨some 0, 7⟩), .run 0 true,
      .enter 0 5 (.addEvent .write (some 3) ⟨some 0, 7⟩), .run 0 true,
      .epollWait 1 [(5, ⟨false, false, false, true⟩)], .dispatch 1 true]
    decide +kernel
  rcases reached with ⟨state, reached, scheduled⟩
  exact ⟨state, reached, scheduled, events_registered reached⟩

theorem sum_bits_set (objects : List FdContext) (after : FdContext) :
    ∀ (context : Nat) (ctx : FdContext), objects[context]? = some ctx →
      ((objects.set context after).map FdContext.bits).sum + ctx.bits =
        (objects.map FdContext.bits).sum + after.bits := by
  induction objects with
  | nil => simp
  | cons first rest induction =>
      intro context ctx found
      cases context with
      | zero =>
          cases found
          simp only [List.set_cons_zero, List.map_cons, List.sum_cons]
          omega
      | succ context =>
          have later := induction context ctx found
          simp only [List.set_cons_succ, List.map_cons, List.sum_cons]
          omega

/-- The counter is the number of bits, which is a `size_t`. -/
structure Counted (table : EventTable) : Prop where
  pending : table.pending = UInt64.ofNat table.bits
  objects : table.objects.length ≤ maxObjects

theorem bits_context_resize (table : EventTable) (size : Nat) :
    (table.contextResize size).bits = table.bits := by
  rcases context_resize_objects table size with ⟨fds, objects⟩
  have none : ((fds.map FdContext.new).map FdContext.bits).sum = 0 := by
    clear objects
    induction fds with
    | nil => rfl
    | cons fd rest induction => simpa [FdContext.new, FdContext.bits] using induction
  rw [bits, bits, objects, List.map_append, List.sum_append, none, Nat.add_zero]

theorem locked_counted (counted : table.Counted) {thread context : Nat}
    {body : Held → Result Held} {stage : CallStage} {next : EventTable}
    (balanced : ∀ ctx held, table.objects[context]? = some ctx →
      body ⟨ctx, table.pending, table.scheduled⟩ = .ok held →
      Held.Balanced ⟨ctx, table.pending, table.scheduled⟩ held)
    (done : table.locked thread context body stage = .ok next) : next.Counted := by
  rcases locked_ok done with ⟨ctx, held, found, ran, same⟩
  cases same
  have moved := (balanced ctx held found ran).counted
  have sum := sum_bits_set table.objects held.ctx context ctx found
  refine ⟨?_, by simpa using counted.objects⟩
  have words := congrArg UInt64.ofNat sum
  rw [UInt64.ofNat_add, UInt64.ofNat_add] at words
  have before := counted.pending
  simp only [bits] at before words moved ⊢
  grind

theorem effect_counted (counted : table.Counted) (timely : table.timely action = true)
    (effect : Effect table action after) : ∀ next, after = .ok next → next.Counted := by
  intro next done
  cases effect with
  | stays | looksUp | waits | leaves | reports =>
      cases done
      exact ⟨counted.pending, counted.objects⟩
  | resizes thread fd operation waiting fits =>
      rcases lookup_cases (table.contextResize (fd * 3 / 2)) thread fd operation with
        outside | ⟨context, entry, found⟩
      · rw [resize, outside] at done
        cases done
      · rw [resize, found] at done
        cases done
        have same := bits_context_resize table (fd * 3 / 2)
        refine ⟨?_, fits⟩
        change table.pending = UInt64.ofNat (table.contextResize (fd * 3 / 2)).bits
        rw [same, counted.pending]
  | runs thread context operation epollCtl found =>
      apply locked_counted counted _ done
      intro ctx held object ran
      exact Held.run_balanced ran
  | dispatches thread context report rest epollCtl reported =>
      apply locked_counted counted _ done
      intro ctx held object ran
      apply Held.dispatch_balanced _ ran
      intro succeeds reaches
      simp only [EventTable.timely, reported, object, succeeds, reaches] at timely
      simpa using timely

theorem start_counted : start.Counted where
  pending := by
    rw [start, bits_context_resize]
    rfl
  objects := by
    have length : start.objects.length = 32 := by decide +kernel
    rw [length, maxObjects]
    decide

theorem bits_le (table : EventTable) : table.bits ≤ 2 * table.objects.length := by
  have each : ∀ ctx : FdContext, ctx.bits ≤ 2 := by
    intro ctx
    have read := Bool.toNat_le (ctx.events .read)
    have write := Bool.toNat_le (ctx.events .write)
    rw [FdContext.bits]
    omega
  rw [bits]
  induction table.objects with
  | nil => exact Nat.zero_le _
  | cons first rest induction =>
      have one := each first
      simp only [List.map_cons, List.sum_cons, List.length_cons]
      omega

theorem counted_toNat (counted : table.Counted) : table.pending.toNat = table.bits := by
  have bound := bits_le table
  have few := counted.objects
  rw [maxObjects] at few
  rw [counted.pending, UInt64.toNat_ofNat_of_lt']
  have size : UInt64.size = 2 ^ 64 := rfl
  omega

theorem bits_eq_zero_iff (table : EventTable) :
    table.bits = 0 ↔ ∀ ctx ∈ table.objects, ctx.anyEvent = false := by
  rw [bits, List.sum_eq_zero_iff_forall_eq_nat]
  simp only [List.mem_map, forall_exists_index, and_imp, forall_apply_eq_imp_iff₂]
  apply forall₂_congr
  intro ctx _
  cases read : ctx.events .read <;> cases write : ctx.events .write <;>
    simp [FdContext.bits, FdContext.anyEvent, read, write]

/-- As long as reports are dispatched in time, the counter is the number of registered events, so
`stopping()` sees zero when there is none and only then. -/
theorem pending_events_counted {state : Result EventTable}
    (reached : Transition.Reaches step (Where timely) (.ok start) state) :
    ∀ table, state = .ok table → table.pending.toNat = table.bits ∧
      (table.pending = 0 ↔ ∀ ctx ∈ table.objects, ctx.anyEvent = false) := by
  have counted : ∀ table, state = .ok table → table.Counted := by
    apply Transition.invariant_of_reaches _ _ reached
    · intro table same
      cases same
      exact start_counted
    · intro before action after invariant permitted taken
      cases before with
      | error fault => cases taken
      | ok table => exact effect_counted (invariant table rfl) permitted (act_effect taken)
  intro table same
  have exact := counted_toNat (counted table same)
  refine ⟨exact, ?_⟩
  rw [← bits_eq_zero_iff, ← exact, ← UInt64.toNat_inj]
  rfl

/-- Reading is cancelled between the report and its dispatch, which then finds nothing left. -/
theorem pending_events_counted_late : ∃ state : Result EventTable,
    Transition.Reaches step (Where timely) (.ok start) state ∧
    state.toOption.map bits = some 1 ∧
    ∀ table, state = .ok table → table.pending.toNat = table.bits ∧
      (table.pending = 0 ↔ ∀ ctx ∈ table.objects, ctx.anyEvent = false) := by
  have reached : ∃ state : Result EventTable,
      Transition.Reaches step (Where timely) (.ok start) state ∧
      state.toOption.map bits = some 1 := by
    apply Transition.exists_of_run [.enter 0 5 (.addEvent .read none ⟨some 0, 7⟩), .run 0 true,
      .enter 0 5 (.addEvent .write none ⟨some 0, 8⟩), .run 0 true,
      .epollWait 1 [(5, ⟨true, false, false, false⟩)], .enter 0 5 (.cancelEvent .read),
      .run 0 true, .dispatch 1 true]
    decide +kernel
  rcases reached with ⟨state, reached, bits⟩
  exact ⟨state, reached, bits, pending_events_counted reached⟩

/-- Both events are reported and one is cancelled before the dispatch: two are taken off for the
one that is left. -/
theorem pending_events_underflow : ∃ state : Result EventTable,
    Transition.Reaches step (fun _ _ => True) (.ok start) state ∧
    state.toOption.map (fun table => (table.pending, table.bits)) =
      some (18446744073709551615, 0) := by
  apply Transition.exists_of_run [.enter 0 5 (.addEvent .read none ⟨some 0, 7⟩), .run 0 true,
    .enter 0 5 (.addEvent .write none ⟨some 0, 8⟩), .run 0 true,
    .epollWait 1 [(5, ⟨true, true, false, false⟩)], .enter 0 5 (.cancelEvent .read),
    .run 0 true, .dispatch 1 true]
  decide +kernel

end EventTable
end ChatServer.Fiber
