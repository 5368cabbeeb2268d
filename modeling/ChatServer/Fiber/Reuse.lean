import ChatServer.Fiber.FdRegistry
import ChatServer.Fiber.Hook

/-!
# Descriptors that are used again

With hooks enabled `close` leaves the registry and the events alone, so it is right about a
descriptor exactly when neither knows anything of it. As long as only such descriptors are closed,
whatever the kernel gives out starts as new.
-/

namespace ChatServer.Fiber

set_option autoImplicit false

namespace Hooks

/-- After `close` the registry knows nothing of the descriptor, no event of it is left, and who
waited for one has been scheduled. -/
structure Closed (before after : Hooks) (fd : Nat) : Prop where
  unregistered : after.registered fd = false
  clear : ∀ event, (after.contexts fd).events event = false
  woken : ∀ event, (before.contexts fd).events event = true →
    ∃ job, ((before.contexts fd).contexts event).job = some job ∧ job ∈ after.scheduled

/-- A socket as it starts: default timeouts, non-blocking for the system and not for the user, and
no event. -/
structure Fresh (hooks : Hooks) (fd : Nat) : Prop where
  registered : ∃ id ctx, hooks.manager.datas[fd]? = some (some id) ∧
    hooks.manager.objects[id]? = some ctx ∧ ctx.recvTimeout = ~~~0 ∧ ctx.sendTimeout = ~~~0 ∧
      ctx.sysNonblock = true ∧ ctx.userNonblock = false
  nonblock : hooks.kernel fd = some ⟨true, true⟩
  clear : ∀ event, (hooks.contexts fd).events event = false

structure Sound (hooks : Hooks) : Prop where
  sized : hooks.manager.datas.length = 64
  unregistered : ∀ fd, hooks.kernel fd = none → hooks.registered fd = false
  clear : ∀ fd, hooks.kernel fd = none → ∀ event, (hooks.contexts fd).events event = false

variable {hooks next : Hooks} {fd : Nat}

theorem registered_iff : hooks.registered fd = true ↔
    ∃ id, hooks.manager.datas[fd]? = some (some id) := by
  rw [registered]
  cases hooks.manager.datas[fd]? with
  | none => simp
  | some slot => cases slot <;> simp

theorem any_event_iff {ctx : FdContext} :
    ctx.anyEvent = false ↔ ∀ event, ctx.events event = false := by
  rw [FdContext.anyEvent, Bool.or_eq_false_iff]
  constructor
  · intro both event
    cases event with
    | read => exact both.1
    | write => exact both.2
  · intro none
    exact ⟨none .read, none .write⟩

theorem start_sound : start.Sound where
  sized := List.length_replicate
  unregistered := by
    intro fd _
    cases found : start.registered fd with
    | false => rfl
    | true =>
        rcases registered_iff.mp found with ⟨id, filled⟩
        cases List.eq_of_mem_replicate (List.mem_of_getElem? filled)
  clear := fun _ _ _ => rfl

theorem with_held_ok {body : Held → Result Held} (done : hooks.withHeld fd body = .ok next) :
    ∃ held, body ⟨hooks.contexts fd, hooks.pending, hooks.scheduled⟩ = .ok held ∧
      next.kernel = hooks.kernel ∧ next.manager = hooks.manager ∧
        next.contexts = Function.update hooks.contexts fd held.ctx := by
  rcases bind_eq_ok done with ⟨held, ran, rest⟩
  cases rest
  exact ⟨held, ran, rfl, rfl, rfl⟩

theorem with_held_sound (sound : hooks.Sound) {body : Held → Result Held}
    (done : hooks.withHeld fd body = .ok next)
    (right : hooks.kernel fd = none → ∀ held,
      body ⟨hooks.contexts fd, hooks.pending, hooks.scheduled⟩ = .ok held →
        ∀ event, held.ctx.events event = false) : next.Sound := by
  rcases with_held_ok done with ⟨held, ran, kernel, manager, contexts⟩
  refine ⟨?_, ?_, ?_⟩
  · rw [manager, sound.sized]
  · intro other closed
    rw [kernel] at closed
    rw [registered, manager]
    exact sound.unregistered other closed
  · intro other closed event
    rw [kernel] at closed
    rw [contexts]
    by_cases same : other = fd
    · rw [same] at closed ⊢
      rw [Function.update_self]
      exact right closed held ran event
    · rw [Function.update_of_ne same]
      exact sound.clear other closed event

/-- The kernel's flags and the objects of the registry may change. -/
theorem rewrite_sound (sound : hooks.Sound) (datas : next.manager.datas = hooks.manager.datas)
    (contexts : next.contexts = hooks.contexts)
    (kernel : ∀ fd, next.kernel fd = none → hooks.kernel fd = none) : next.Sound := by
  refine ⟨?_, ?_, ?_⟩
  · rw [datas, sound.sized]
  · intro other closed
    rw [registered, datas]
    exact sound.unregistered other (kernel other closed)
  · intro other closed
    rw [contexts]
    exact sound.clear other (kernel other closed)

theorem set_nonblock_kernel (hooks : Hooks) (fd : Nat) (nonblock : Bool) (other : Nat)
    (closed : (hooks.setNonblock fd nonblock).kernel other = none) :
    hooks.kernel other = none := by
  by_cases same : other = fd
  · rw [same] at closed ⊢
    simpa [setNonblock] using closed
  · simpa [setNonblock, same] using closed

theorem slot_vacant (sound : hooks.Sound) (unregistered : hooks.registered fd = false)
    (small : fd < 64) : hooks.manager.datas[fd]? = some none := by
  have inside : fd < hooks.manager.datas.length := by
    rw [sound.sized]
    exact small
  rw [registered, List.getElem?_eq_getElem inside] at unregistered
  rw [List.getElem?_eq_getElem inside]
  simpa using unregistered

theorem find_creates (sound : hooks.Sound) (unregistered : hooks.registered fd = false) :
    hooks.manager.find fd true = .ok .creates := by
  rcases FdManager.find_cases sound.sized fd true with creates | ⟨ctx, _, slot, given⟩
  · exact creates
  · cases ctx with
    | none => exact absurd rfl (given rfl)
    | some id =>
        have filled := registered_iff.mpr ⟨id, (slot id).mp rfl⟩
        rw [unregistered] at filled
        cases filled

theorem socket_fresh (sound : hooks.Sound) (free : hooks.kernel fd = none) (small : fd < 64)
    (nonblock : Bool) : ∃ next, hooks.socket fd nonblock = .ok next ∧ next.Sound ∧
      next.Fresh fd := by
  have unregistered := sound.unregistered fd free
  have vacant := slot_vacant sound unregistered small
  have inside := (List.getElem?_eq_some_iff.mp vacant).1
  let manager : FdManager := ⟨hooks.manager.objects ++ [FdCtx.new fd (some true)],
    hooks.manager.datas.set fd (some hooks.manager.objects.length)⟩
  let kernel := Function.update hooks.kernel fd (some ⟨true, nonblock⟩)
  let next : Hooks := { hooks with
    manager
    kernel := Function.update kernel fd (some ⟨true, true⟩) }
  have done : hooks.socket fd nonblock = .ok next := by
    simp only [socket, register, find_creates sound unregistered, bind_ok, Function.update_self,
      Option.map_some, FdManager.create_vacant vacant, if_true, setNonblock, next, kernel, manager]
  refine ⟨next, done, ⟨?_, ?_, ?_⟩, ?_, ?_, sound.clear fd free⟩
  · simp only [next, manager, List.length_set, sound.sized]
  · intro other closed
    have different : other ≠ fd := by
      intro same
      simp [next, same] at closed
    have before : hooks.kernel other = none := by simpa [next, kernel, different] using closed
    rw [registered]
    simp only [next, manager]
    rw [List.getElem?_set_ne (Ne.symm different)]
    exact sound.unregistered other before
  · intro other closed
    have different : other ≠ fd := by
      intro same
      simp [next, same] at closed
    exact sound.clear other (by simpa [next, kernel, different] using closed)
  · refine ⟨hooks.manager.objects.length, FdCtx.new fd (some true), ?_, ?_, rfl, rfl, rfl, rfl⟩
    · exact List.getElem?_set_self inside
    · simp [next, manager]
  · simp [next]

theorem await_sound (sound : hooks.Sound) {event : Event} {caller : Caller} {epollCtl : Bool}
    (opened : hooks.kernel fd ≠ none) (done : hooks.await fd event caller epollCtl = .ok next) :
    next.Sound := by
  rw [await] at done
  split at done
  · cases done
  · exact with_held_sound sound done fun closed => absurd closed opened

theorem do_io_sound (sound : hooks.Sound) {event : Event} {caller : Caller} {epollCtl : Bool}
    (opened : hooks.kernel fd ≠ none) (done : hooks.doIo fd event caller epollCtl = .ok next) :
    next.Sound := by
  rcases bind_eq_ok done with ⟨ctx, _, rest⟩
  cases ctx with
  | none =>
      cases rest
      exact sound
  | some found =>
      simp only at rest
      split at rest
      · cases rest
        exact sound
      · exact await_sound sound opened rest

theorem fcntl_sound (sound : hooks.Sound) {nonblock : Bool}
    (done : hooks.fcntl fd nonblock = .ok next) : next.Sound := by
  rcases bind_eq_ok done with ⟨ctx, _, rest⟩
  cases ctx with
  | none =>
      cases rest
      exact rewrite_sound sound rfl rfl (set_nonblock_kernel hooks fd nonblock)
  | some found =>
      simp only at rest
      split at rest
      · cases rest
        exact rewrite_sound sound rfl rfl (set_nonblock_kernel hooks fd nonblock)
      · cases rest
        exact rewrite_sound sound rfl rfl (set_nonblock_kernel hooks fd _)

theorem setsockopt_sound (sound : hooks.Sound) {type : TimeoutType} {ms : UInt64}
    (done : hooks.setsockopt fd type ms = .ok next) : next.Sound := by
  rcases bind_eq_ok done with ⟨ctx, _, rest⟩
  cases ctx with
  | none =>
      cases rest
      exact sound
  | some found =>
      cases rest
      exact rewrite_sound sound rfl rfl fun _ closed => closed

theorem close_f_sound (sound : hooks.Sound) (unregistered : hooks.registered fd = false)
    (clear : ∀ event, (hooks.contexts fd).events event = false) : (hooks.closeF fd).Sound where
  sized := sound.sized
  unregistered := by
    intro other closed
    by_cases same : other = fd
    · rw [same]
      exact unregistered
    · exact sound.unregistered other (by simpa [closeF, same] using closed)
  clear := by
    intro other closed
    by_cases same : other = fd
    · rw [same]
      exact clear
    · exact sound.clear other (by simpa [closeF, same] using closed)

theorem perform_sound {call : HookCall} (sound : hooks.Sound)
    (possible : hooks.possible call = true) (untouched : hooks.untouched call = true)
    (done : hooks.perform call = .ok next) : next.Sound := by
  cases call with
  | socket fd nonblock =>
      have free : hooks.kernel fd = none := by simpa [Hooks.possible] using possible
      have small : fd < 64 := by simpa [Hooks.untouched] using untouched
      rcases socket_fresh sound free small nonblock with ⟨after, same, kept, _⟩
      rw [perform, same] at done
      cases done
      exact kept
  | accept fd =>
      have free : hooks.kernel fd = none := by simpa [Hooks.possible] using possible
      have small : fd < 64 := by simpa [Hooks.untouched] using untouched
      rcases socket_fresh sound free small false with ⟨after, same, kept, _⟩
      rw [perform, same] at done
      cases done
      exact kept
  | doIo fd event caller epollCtl =>
      exact do_io_sound sound (by simpa [Hooks.possible] using possible) done
  | retry fd event caller epollCtl =>
      simp only [Hooks.possible, Bool.and_eq_true, bne_iff_ne] at possible
      exact await_sound sound possible.1 done
  | timeout fd event epollCtl =>
      rw [perform] at done
      apply with_held_sound sound done
      intro closed held ran
      have clear := sound.clear fd closed
      rw [Held.cancelEvent, if_pos (clear event)] at ran
      cases ran
      exact clear
  | ready fd report epollCtl =>
      rw [perform] at done
      apply with_held_sound sound done
      intro closed
      exact absurd closed (by simpa [Hooks.possible] using possible)
  | fcntl fd nonblock => exact fcntl_sound sound done
  | setsockopt fd type ms => exact setsockopt_sound sound done
  | close fd =>
      cases done
      simp only [Hooks.untouched, Bool.and_eq_true, Bool.not_eq_true'] at untouched
      exact close_f_sound sound untouched.1 (any_event_iff.mp untouched.2)

theorem reached_sound {state : Result Hooks}
    (reached : Transition.Reaches step Untouched (.ok start) state) :
    ∀ hooks, state = .ok hooks → hooks.Sound := by
  apply Transition.invariant_of_reaches _ _ reached
  · intro hooks same
    cases same
    exact start_sound
  · intro before call after invariant permitted taken hooks same
    cases before with
    | error fault => cases taken
    | ok earlier =>
        rw [step] at taken
        split at taken
        · rw [same] at taken
          exact perform_sound (invariant earlier rfl) ‹_› permitted (Option.some.inj taken)
        · cases taken

def opens (fd : Nat) : HookCall → Bool
  | .socket opened _ | .accept opened => opened == fd
  | _ => false

/-- With hooks enabled `close` is right about a descriptor if and only if nobody knows it; and as
long as only such descriptors are closed, and the numbers fit the registry, a socket that is
opened starts as new. -/
theorem closed_descriptors_forgotten (hooks : Hooks) (iom epollCtl : Bool) (fd : Nat) :
    (∃ after, hooks.close true iom epollCtl fd = .ok after ∧
      (Closed hooks after fd ↔
        hooks.registered fd = false ∧ (hooks.contexts fd).anyEvent = false)) ∧
    ∀ state : Result Hooks, Transition.Reaches step Untouched (.ok start) state →
      ∀ (call : HookCall) (after : Result Hooks), opens fd call = true →
        Untouched state call → step state call = some after →
          ∃ next, after = .ok next ∧ next.Fresh fd := by
  constructor
  · refine ⟨hooks.closeF fd, rfl, ?_, ?_⟩
    · intro closed
      exact ⟨closed.unregistered, any_event_iff.mpr closed.clear⟩
    · intro unknown
      have clear := any_event_iff.mp unknown.2
      refine ⟨unknown.1, clear, ?_⟩
      intro event set
      rw [clear event] at set
      cases set
  · intro state reached call after handed untouched taken
    cases state with
    | error fault => cases taken
    | ok hooks =>
        have sound := reached_sound reached hooks rfl
        simp only [Untouched] at untouched
        rw [step] at taken
        split at taken
        · have possible : hooks.possible call = true := ‹_›
          rw [← Option.some.inj taken]
          cases call with
          | socket opened nonblock =>
              have same : opened = fd := by simpa [opens] using handed
              rw [same] at possible untouched ⊢
              rcases socket_fresh sound (by simpa [Hooks.possible] using possible)
                (by simpa [Hooks.untouched] using untouched) nonblock with ⟨next, done, _, fresh⟩
              exact ⟨next, done, fresh⟩
          | accept opened =>
              have same : opened = fd := by simpa [opens] using handed
              rw [same] at possible untouched ⊢
              rcases socket_fresh sound (by simpa [Hooks.possible] using possible)
                (by simpa [Hooks.untouched] using untouched) false with ⟨next, done, _, fresh⟩
              exact ⟨next, done, fresh⟩
          | doIo | retry | timeout | ready | fcntl | setsockopt | close => cases handed
        · cases taken

/-- Standard input is closed, which no hooked call has opened, and a socket gets its number. -/
theorem closed_descriptors_forgotten_stdin :
    (∃ after, start.close true true true 0 = .ok after ∧ Closed start after 0) ∧
    ∃ next : Hooks, Transition.Reaches step Untouched (.ok start) (.ok next) ∧ next.Fresh 0 := by
  constructor
  · rcases (closed_descriptors_forgotten start true true 0).1 with ⟨after, done, exactly⟩
    exact ⟨after, done, exactly.mpr ⟨by decide, by decide⟩⟩
  · have closed : Transition.Reaches step Untouched (.ok start) (.ok (start.closeF 0)) :=
      .next (.close 0) .start (by decide) rfl
    have taken : step (.ok (start.closeF 0)) (.socket 0 false) =
        some ((start.closeF 0).perform (.socket 0 false)) := rfl
    have untouched : Untouched (.ok (start.closeF 0)) (.socket 0 false) := by decide
    rcases (closed_descriptors_forgotten start true true 0).2 _ closed (.socket 0 false) _
      (by decide) untouched taken with ⟨next, same, fresh⟩
    rw [same] at taken
    exact ⟨next, .next (.socket 0 false) closed untouched taken, fresh⟩

def remembered (hooks : Hooks) (fd : Nat) : Option FdCtx × Bool × Bool :=
  (hooks.manager.datas[fd]?.join.bind fun id => hooks.manager.objects[id]?,
    (hooks.contexts fd).events .read, (hooks.contexts fd).events .write)

set_option synthInstance.maxSize 512 in
/-- A socket with a receive timeout is closed while a fiber waits to read from it. The fiber is not
scheduled, and the next socket with the number has the timeout of the first, blocks in the
kernel and has its reading registered. -/
theorem closed_descriptor_remembered : ∃ closed reused : Result Hooks,
    Transition.Reaches step (fun _ _ => True) (.ok start) closed ∧
    Transition.Reaches step (fun _ _ => True) closed reused ∧
    (closed.toOption.map fun hooks => (hooks.remembered 5, hooks.scheduled)) =
      some ((some ⟨true, true, true, false, false, 5, 3000, ~~~0⟩, true, false), []) ∧
    (reused.toOption.map fun hooks => (hooks.remembered 5, hooks.kernel 5)) =
      some ((some ⟨true, true, true, false, false, 5, 3000, ~~~0⟩, true, false),
        some ⟨true, false⟩) := by
  apply Transition.exists_of_run_run [.socket 5 false, .setsockopt 5 .rcvTimeo 3000,
    .doIo 5 .read ⟨some 0, 7⟩ true, .close 5] [.socket 5 false]
  decide +kernel

end Hooks
end ChatServer.Fiber
