import ChatServer.Fiber.FdManager

/-!
# One context for a descriptor

`get` returns one context for a descriptor until `del`, for any threads in any order, as long as a
context is only created for one of the 64 slots and no other thread has filled it in the meantime.
-/

namespace ChatServer.Fiber

set_option autoImplicit false

namespace FdManager

variable {manager : FdManager}

theorem length_as_int (sized : manager.datas.length = 64) :
    int32 (manager.datas.length : Int) = 64 := by
  rw [sized]
  exact int32_of_small (by decide)

theorem find_cases (sized : manager.datas.length = 64) (fd : Nat) (autoCreate : Bool) :
    manager.find fd autoCreate = .ok .creates ∨
      ∃ ctx, manager.find fd autoCreate = .ok (.returns ctx) ∧
        (∀ id, ctx = some id ↔ manager.datas[fd]? = some (some id)) ∧
        (autoCreate = true → ctx ≠ none) := by
  rw [find, length_as_int sized]
  split
  · have outside : manager.datas[fd]? = none := by
      apply List.getElem?_eq_none
      omega
    cases autoCreate with
    | false => exact .inr ⟨none, rfl, by simp [outside]⟩
    | true => exact .inl rfl
  · have inside : fd < manager.datas.length := by omega
    rw [List.getElem?_eq_getElem inside]
    simp only
    cases manager.datas[fd] with
    | some id => exact .inr ⟨some id, rfl, by simp⟩
    | none =>
        cases autoCreate with
        | false => exact .inr ⟨none, rfl, by simp⟩
        | true => exact .inl rfl

theorem create_vacant {fd : Nat} (vacant : manager.datas[fd]? = some none) (stat : Option Bool) :
    manager.create fd stat = .ok (⟨manager.objects ++ [FdCtx.new fd stat],
      manager.datas.set fd (some manager.objects.length)⟩, manager.objects.length) :=
  if_pos (List.getElem?_eq_some_iff.mp vacant).1

theorem del_cases (sized : manager.datas.length = 64) (fd : Nat) :
    ∃ datas, manager.del fd = .ok { manager with datas } ∧ datas.length = 64 ∧
      (∀ other ≠ fd, datas[other]? = manager.datas[other]?) ∧
      ∀ id, datas[fd]? ≠ some (some id) := by
  rw [del, length_as_int sized]
  split
  · have outside : manager.datas[fd]? = none := by
      apply List.getElem?_eq_none
      omega
    exact ⟨manager.datas, rfl, sized, fun _ _ => rfl, by simp [outside]⟩
  · have inside : fd < manager.datas.length := by omega
    refine ⟨manager.datas.set fd none, if_pos inside, ?_, ?_, ?_⟩
    · rw [List.length_set, sized]
    · intro other different
      exact List.getElem?_set_ne (Ne.symm different)
    · simp [inside]

end FdManager

namespace FdRegistry

/-- Between two calls without a `del`, the later one returns what the earlier one did. -/
def Agreed (log : List RegistryEntry) : Prop :=
  ∀ (newer middle older : List RegistryEntry) (fd : Nat) (create before : Bool)
    (ctx : Option Nat) (id : Nat),
    log = newer ++ .got fd create ctx :: (middle ++ .got fd before (some id) :: older) →
      .deleted fd ∉ middle → ctx = some id

/-- What was returned last, and not deleted, is in the table. -/
def Current (log : List RegistryEntry) (datas : List (Option Nat)) : Prop :=
  ∀ (newer older : List RegistryEntry) (fd : Nat) (create : Bool) (id : Nat),
    log = newer ++ .got fd create (some id) :: older → .deleted fd ∉ newer →
      datas[fd]? = some (some id)

variable {log : List RegistryEntry} {datas after : List (Option Nat)} {fd : Nat}

theorem agreed_got (agreed : Agreed log) (current : Current log datas) {create : Bool}
    {ctx : Option Nat} (same : ∀ id, datas[fd]? = some (some id) → ctx = some id) :
    Agreed (.got fd create ctx :: log) := by
  intro newer middle older other flag before result id split kept
  cases newer with
  | nil =>
      rw [List.nil_append] at split
      cases split
      exact same id (current middle older fd before id rfl kept)
  | cons entry newer =>
      cases split
      exact agreed newer middle older other flag before result id rfl kept

theorem agreed_deleted (agreed : Agreed log) (fd : Nat) : Agreed (.deleted fd :: log) := by
  intro newer middle older other flag before result id split kept
  cases newer with
  | nil => cases split
  | cons entry newer =>
      cases split
      exact agreed newer middle older other flag before result id rfl kept

theorem current_got (current : Current log datas) {create : Bool} {ctx : Option Nat}
    (filled : ∀ fd id : Nat, datas[fd]? = some (some id) → after[fd]? = some (some id))
    (returned : ∀ id, ctx = some id → after[fd]? = some (some id)) :
    Current (.got fd create ctx :: log) after := by
  intro newer older other flag id split kept
  cases newer with
  | nil =>
      rw [List.nil_append] at split
      cases split
      exact returned id rfl
  | cons entry newer =>
      cases split
      exact filled other id
        (current newer older other flag id rfl fun member => kept (List.mem_cons_of_mem _ member))

theorem current_deleted (current : Current log datas)
    (others : ∀ other ≠ fd, after[other]? = datas[other]?) :
    Current (.deleted fd :: log) after := by
  intro newer older other flag id split kept
  cases newer with
  | nil => cases split
  | cons entry newer =>
      cases split
      have different : other ≠ fd := fun same => kept (by simp [same])
      rw [others other different]
      exact current newer older other flag id rfl fun member =>
        kept (List.mem_cons_of_mem _ member)

structure Sound (registry : FdRegistry) : Prop where
  sized : registry.manager.datas.length = 64
  owned : ∀ (fd id : Nat), registry.manager.datas[fd]? = some (some id) →
    ∃ ctx, registry.manager.objects[id]? = some ctx ∧ ctx.fd = fd
  agreed : Agreed registry.log
  current : Current registry.log registry.manager.datas
  results : ∀ (fd : Nat) (create : Bool) (ctx : Option Nat), .got fd create ctx ∈ registry.log →
    (create = true → ctx ≠ none) ∧ ∀ id, ctx = some id →
      ∃ object, registry.manager.objects[id]? = some object ∧ object.fd = fd

theorem start_sound : start.Sound where
  sized := List.length_replicate
  owned := by
    intro fd id filled
    cases List.eq_of_mem_replicate (List.mem_of_getElem? filled)
  agreed := by
    intro newer middle older fd create before ctx id split
    simp [start] at split
  current := by
    intro newer older fd create id split
    simp [start] at split
  results := by simp [start]

variable {registry : FdRegistry}

theorem returned_sound (sound : registry.Sound) {create : Bool} {ctx : Option Nat}
    (slot : ∀ id, ctx = some id ↔ registry.manager.datas[fd]? = some (some id))
    (given : create = true → ctx ≠ none) :
    Sound { registry with log := .got fd create ctx :: registry.log } where
  sized := sound.sized
  owned := sound.owned
  agreed := agreed_got sound.agreed sound.current fun id filled => (slot id).mpr filled
  current := current_got sound.current (fun _ _ filled => filled) fun id same => (slot id).mp same
  results := by
    intro other flag result member
    rcases List.mem_cons.mp member with same | before
    · cases same
      exact ⟨given, fun id same => sound.owned fd id ((slot id).mp same)⟩
    · exact sound.results other flag result before

theorem created_sound (sound : registry.Sound)
    (vacant : registry.manager.datas[fd]? = some none) (stat : Option Bool)
    (creating : Nat → Option Nat) :
    Sound ⟨⟨registry.manager.objects ++ [FdCtx.new fd stat],
      registry.manager.datas.set fd (some registry.manager.objects.length)⟩, creating,
      .got fd true (some registry.manager.objects.length) :: registry.log⟩ := by
  have inside := (List.getElem?_eq_some_iff.mp vacant).1
  have own : (registry.manager.datas.set fd (some registry.manager.objects.length))[fd]? =
      some (some registry.manager.objects.length) := List.getElem?_set_self inside
  have others : ∀ other ≠ fd, (registry.manager.datas.set fd
      (some registry.manager.objects.length))[other]? = registry.manager.datas[other]? :=
    fun other different => List.getElem?_set_ne (Ne.symm different)
  have older : ∀ (id : Nat) (ctx : FdCtx), registry.manager.objects[id]? = some ctx →
      (registry.manager.objects ++ [FdCtx.new fd stat])[id]? = some ctx := by
    intro id ctx found
    rw [List.getElem?_append_left (List.getElem?_eq_some_iff.mp found).1, found]
  have newest : (registry.manager.objects ++ [FdCtx.new fd stat])[
      registry.manager.objects.length]? = some (FdCtx.new fd stat) := by
    rw [List.getElem?_append_right (Nat.le_refl _), Nat.sub_self]
    rfl
  refine ⟨?_, ?_, ?_, ?_, ?_⟩
  · rw [List.length_set, sound.sized]
  · intro other id filled
    by_cases same : other = fd
    · rw [same] at filled ⊢
      rw [own] at filled
      cases filled
      exact ⟨_, newest, rfl⟩
    · rw [others other same] at filled
      rcases sound.owned other id filled with ⟨ctx, found, descriptor⟩
      exact ⟨ctx, older id ctx found, descriptor⟩
  · apply agreed_got sound.agreed sound.current
    intro id filled
    rw [vacant] at filled
    cases filled
  · apply current_got sound.current
    · intro other id filled
      have different : other ≠ fd := by
        intro same
        rw [same, vacant] at filled
        cases filled
      rw [others other different]
      exact filled
    · intro id same
      cases same
      exact own
  · intro other flag result member
    rcases List.mem_cons.mp member with same | before
    · cases same
      refine ⟨by simp, ?_⟩
      intro id same
      cases same
      exact ⟨_, newest, rfl⟩
    · rcases sound.results other flag result before with ⟨given, objects⟩
      refine ⟨given, ?_⟩
      intro id same
      rcases objects id same with ⟨ctx, found, descriptor⟩
      exact ⟨ctx, older id ctx found, descriptor⟩

theorem deleted_sound (sound : registry.Sound) {datas : List (Option Nat)}
    (sized : datas.length = 64)
    (others : ∀ other ≠ fd, datas[other]? = registry.manager.datas[other]?)
    (empty : ∀ id, datas[fd]? ≠ some (some id)) :
    Sound { registry with
      manager := { registry.manager with datas }
      log := .deleted fd :: registry.log } where
  sized := sized
  owned := by
    intro other id filled
    by_cases same : other = fd
    · rw [same] at filled
      exact absurd filled (empty id)
    · apply sound.owned other id
      rw [← others other same]
      exact filled
  agreed := agreed_deleted sound.agreed fd
  current := current_deleted sound.current others
  results := by
    intro other flag result member
    rcases List.mem_cons.mp member with same | before
    · cases same
    · exact sound.results other flag result before

theorem act_sound {action : RegistryAction} {state : Result FdRegistry} (sound : registry.Sound)
    (vacant : registry.vacant action = true) (taken : registry.act action = some state) :
    ∃ next, state = .ok next ∧ next.Sound := by
  cases action with
  | get thread fd autoCreate =>
      cases creating : registry.creating thread with
      | some other => simp [act, creating] at taken
      | none =>
          simp only [act, creating] at taken
          rcases FdManager.find_cases sound.sized fd autoCreate with
            creates | ⟨ctx, found, slot, given⟩
          · rw [creates] at taken
            exact ⟨_, (Option.some.inj taken).symm, { sound with }⟩
          · rw [found] at taken
            exact ⟨_, (Option.some.inj taken).symm, returned_sound sound slot given⟩
  | create thread stat =>
      cases creating : registry.creating thread with
      | none => simp [act, creating] at taken
      | some fd =>
          simp only [FdRegistry.vacant, creating, beq_iff_eq] at vacant
          simp only [act, creating, FdManager.create_vacant vacant] at taken
          exact ⟨_, (Option.some.inj taken).symm, created_sound sound vacant stat _⟩
  | del fd =>
      rcases FdManager.del_cases sound.sized fd with ⟨datas, done, sized, others, empty⟩
      simp only [act, done] at taken
      exact ⟨_, (Option.some.inj taken).symm, deleted_sound sound sized others empty⟩

/-- An action leaves the contexts of other descriptors, and their slots, as they are. -/
theorem act_frame {action : RegistryAction} {next : FdRegistry}
    (taken : registry.act action = some (.ok next)) :
    (∀ other : Nat, registry.concerns action ≠ some other →
      next.manager.datas[other]? = registry.manager.datas[other]?) ∧
    ∀ (id : Nat) (ctx : FdCtx), registry.manager.objects[id]? = some ctx →
      next.manager.objects[id]? = some ctx := by
  cases action with
  | get thread fd autoCreate =>
      have same : next.manager = registry.manager := by
        cases creating : registry.creating thread with
        | some other => simp [act, creating] at taken
        | none =>
            simp only [act, creating, Option.some.injEq] at taken
            rcases bind_eq_ok taken with ⟨found, _, rest⟩
            cases found <;> cases rest <;> rfl
      rw [same]
      exact ⟨fun _ _ => rfl, fun _ _ found => found⟩
  | create thread stat =>
      cases creating : registry.creating thread with
      | none => simp [act, creating] at taken
      | some fd =>
          simp only [act, creating, Option.some.injEq] at taken
          rcases bind_eq_ok taken with ⟨⟨manager, id⟩, done, rest⟩
          rw [FdManager.create] at done
          split at done
          · cases done
            cases rest
            constructor
            · intro other elsewhere
              have different : fd ≠ other := by simpa [concerns, creating] using elsewhere
              exact List.getElem?_set_ne different
            · intro id ctx found
              rw [List.getElem?_append_left (List.getElem?_eq_some_iff.mp found).1, found]
          · cases done
  | del fd =>
      simp only [act, Option.some.injEq] at taken
      rcases bind_eq_ok taken with ⟨manager, done, rest⟩
      cases rest
      rw [FdManager.del] at done
      split at done
      · cases done
        exact ⟨fun _ _ => rfl, fun _ _ found => found⟩
      · split at done
        · cases done
          refine ⟨?_, fun _ _ found => found⟩
          intro other elsewhere
          have different : fd ≠ other := by simpa [concerns] using elsewhere
          exact List.getElem?_set_ne different
        · cases done

theorem reached_sound {state : Result FdRegistry}
    (reached : Transition.Reaches step Vacant (.ok start) state) :
    ∃ registry, state = .ok registry ∧ registry.Sound := by
  apply Transition.invariant_of_reaches ⟨start, rfl, start_sound⟩ _ reached
  intro before action after sound permitted taken
  rcases sound with ⟨registry, same, sound⟩
  rw [same] at permitted taken
  exact act_sound sound permitted taken

/-- No index is out of range; `get` with `auto_create` returns a context, and always for the right
descriptor; all calls between two `del` that return one return the same; and other descriptors
are left alone. -/
theorem one_context_each {state : Result FdRegistry}
    (reached : Transition.Reaches step Vacant (.ok start) state) :
    ∃ registry, state = .ok registry ∧ Agreed registry.log ∧
      (∀ (fd : Nat) (create : Bool) (ctx : Option Nat), .got fd create ctx ∈ registry.log →
        (create = true → ctx ≠ none) ∧ ∀ id, ctx = some id →
          ∃ object, registry.manager.objects[id]? = some object ∧ object.fd = fd) ∧
      ∀ action next, step (.ok registry) action = some (.ok next) →
        (∀ other : Nat, registry.concerns action ≠ some other →
          next.manager.datas[other]? = registry.manager.datas[other]?) ∧
        ∀ (id : Nat) (ctx : FdCtx), registry.manager.objects[id]? = some ctx →
          next.manager.objects[id]? = some ctx := by
  rcases reached_sound reached with ⟨registry, same, sound⟩
  exact ⟨registry, same, sound.agreed, sound.results, fun action next taken => act_frame taken⟩

/-- Two threads get the context of descriptor 5, one of them before and after a `del`. -/
theorem one_context_each_two : ∃ state : Result FdRegistry,
    Transition.Reaches step Vacant (.ok start) state ∧
    state.toOption.map FdRegistry.log =
      some [.got 5 true (some 1), .deleted 5, .got 5 false (some 0), .got 5 true (some 0)] ∧
    ∃ registry, state = .ok registry ∧ Agreed registry.log ∧
      (∀ (fd : Nat) (create : Bool) (ctx : Option Nat), .got fd create ctx ∈ registry.log →
        (create = true → ctx ≠ none) ∧ ∀ id, ctx = some id →
          ∃ object, registry.manager.objects[id]? = some object ∧ object.fd = fd) ∧
      ∀ action next, step (.ok registry) action = some (.ok next) →
        (∀ other : Nat, registry.concerns action ≠ some other →
          next.manager.datas[other]? = registry.manager.datas[other]?) ∧
        ∀ (id : Nat) (ctx : FdCtx), registry.manager.objects[id]? = some ctx →
          next.manager.objects[id]? = some ctx := by
  have reached : ∃ state : Result FdRegistry,
      Transition.Reaches step Vacant (.ok start) state ∧
      state.toOption.map FdRegistry.log =
        some [.got 5 true (some 1), .deleted 5, .got 5 false (some 0), .got 5 true (some 0)] := by
    apply Transition.exists_of_run [.get 0 5 true, .create 0 (some true), .get 1 5 false, .del 5,
      .get 0 5 true, .create 0 (some true)]
    decide +kernel
  rcases reached with ⟨state, reached, log⟩
  exact ⟨state, reached, log, one_context_each reached⟩

/-- The context of descriptor 64 is written behind the end of the table; and two threads that both
have found slot 5 empty get a context each. -/
theorem contexts_out_of_range_and_doubled :
    (∃ state : Result FdRegistry, Transition.Reaches step (fun _ _ => True) (.ok start) state ∧
      faultOf state = some (.undefined .outOfBounds)) ∧
    ∃ state : Result FdRegistry, Transition.Reaches step (fun _ _ => True) (.ok start) state ∧
      state.toOption.map FdRegistry.log = some [.got 5 true (some 1), .got 5 true (some 0)] := by
  constructor
  · apply Transition.exists_of_run [.get 0 64 true, .create 0 (some true)]
    decide +kernel
  · apply Transition.exists_of_run [.get 0 5 true, .get 1 5 true, .create 0 (some true),
      .create 1 (some true)]
    decide +kernel

end FdRegistry
end ChatServer.Fiber
