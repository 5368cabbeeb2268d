import ChatServer.Fiber.DynaThread
import Mathlib.Data.List.Nodup

/-!
# Refused dispatches

A dispatch pushes before it sends, and a send that fails takes nothing back. A caller to whom it
was refused may dispatch again, so a callback is counted against the dispatches that were not
refused.
-/

namespace ChatServer.Fiber

set_option autoImplicit false

namespace DynaThread

variable {Cb : Type}

def ran (thread : DynaThread Cb) : List (Option Cb) :=
  thread.executed.map some ++ if thread.loopbreak then [none] else []

def runnable : List (Option Cb) → List (Option Cb)
  | [] => []
  | none :: _ => [none]
  | some cb :: rest => some cb :: runnable rest

def alive (thread : DynaThread Cb) : List (Option Cb) :=
  thread.ran ++ runnable thread.hand ++ thread.callbacks

variable [DecidableEq Cb] {thread after : DynaThread Cb} {action : ThreadAction Cb}

/-- No callback is alive more often than it was pushed without being refused. -/
def NoEffect (thread : DynaThread Cb) : Prop :=
  ∀ cb, thread.alive.count cb + thread.refused.count cb ≤ thread.pushed.count cb

/-- The step leaves no refused callback alive. -/
def Unharmed (thread : DynaThread Cb) (action : ThreadAction Cb) : Prop :=
  ∀ after, thread.step action = some after → after.NoEffect

/-- A send fails only if nothing was pushed, or if the callbacks, with those that were refused
before, are among the ones that lay behind a null callback when the thread took them. -/
def Permitted (thread : DynaThread Cb) (action : ThreadAction Cb) : Prop :=
  ∀ place cbs, action = .send place false → thread.sending[place]? = some cbs → cbs ≠ [] →
    ∀ cb, (thread.refused ++ cbs).count cb ≤ thread.dropped.count cb

theorem refused_not_alive (distinct : thread.pushed.Nodup) (noEffect : thread.NoEffect) :
    ∀ cb ∈ thread.refused, cb ∉ thread.alive := by
  intro cb refused alive
  have once := List.nodup_iff_count_le_one.mp distinct cb
  have counted := noEffect cb
  have first := List.count_pos_iff.mpr refused
  have second := List.count_pos_iff.mpr alive
  omega

/-- Everything that was pushed is alive or was dropped, and behind the null callback the thread
takes no list any more. -/
structure Accounted (thread : DynaThread Cb) : Prop where
  counted : ∀ cb, thread.alive.count cb + thread.dropped.count cb = thread.pushed.count cb
  broken : thread.loopbreak = true → thread.hand = [] ∧ thread.stage ≠ .received

theorem alive_count (thread : DynaThread Cb) (cb : Option Cb) :
    thread.alive.count cb =
      thread.ran.count cb + (runnable thread.hand).count cb + thread.callbacks.count cb := by
  rw [alive, List.count_append, List.count_append]

theorem runnable_behind (cbs : List (Option Cb)) (cb : Option Cb) :
    (runnable cbs).count cb + (behindNull cbs).count cb = cbs.count cb := by
  induction cbs with
  | nil => rfl
  | cons front rest induction =>
      cases front with
      | none =>
          rw [runnable, behindNull, List.count_cons, List.count_cons, List.count_nil]
          omega
      | some other =>
          rw [runnable, behindNull, List.count_cons, List.count_cons]
          omega

theorem started_accounted : (started : DynaThread Cb).Accounted :=
  ⟨fun _ => rfl, fun broken => absurd broken Bool.false_ne_true⟩

theorem push_accounted (accounted : thread.Accounted) (cbs : List (Option Cb)) :
    (thread.push cbs).Accounted := by
  refine ⟨fun cb => ?_, accounted.broken⟩
  have before := accounted.counted cb
  have callbacks : (thread.push cbs).callbacks = thread.callbacks ++ cbs := rfl
  have pushed : (thread.push cbs).pushed = thread.pushed ++ cbs := rfl
  have ran : (thread.push cbs).ran = thread.ran := rfl
  have hand : (thread.push cbs).hand = thread.hand := rfl
  have dropped : (thread.push cbs).dropped = thread.dropped := rfl
  rw [alive_count] at before ⊢
  rw [callbacks, pushed, ran, hand, dropped, List.count_append, List.count_append]
  omega

theorem swap_accounted (accounted : thread.Accounted) (received : thread.stage = .received) :
    thread.swap.Accounted := by
  refine ⟨fun cb => ?_, fun broken => absurd received (accounted.broken broken).2⟩
  have before := accounted.counted cb
  have parts := runnable_behind thread.callbacks cb
  have callbacks : thread.swap.callbacks = [] := rfl
  have ran : thread.swap.ran = thread.ran := rfl
  have taken : thread.swap.hand = thread.callbacks := rfl
  have pushed : thread.swap.pushed = thread.pushed := rfl
  have dropped : thread.swap.dropped = thread.dropped ++ behindNull thread.callbacks := rfl
  have empty : thread.hand = [] := by rw [hand, received]
  rw [alive_count, empty, runnable, List.count_nil] at before
  rw [alive_count, callbacks, ran, taken, pushed, dropped, List.count_append, List.count_nil]
  omega

theorem run_accounted {rest : List (Option Cb)} {size : Nat} (accounted : thread.Accounted)
    (running : thread.stage = .running rest size) : (thread.run size rest).Accounted := by
  have held : thread.hand = rest := by rw [hand, running]
  cases rest with
  | nil =>
      refine ⟨fun cb => ?_, fun _ => ⟨rfl, by simp [run]⟩⟩
      have before := accounted.counted cb
      rw [alive_count, held] at before
      rw [alive_count]
      exact before
  | cons front rest =>
      have going : thread.loopbreak = false := by
        by_contra broken
        have empty := (accounted.broken (Bool.not_eq_false _ ▸ broken)).1
        rw [held] at empty
        cases empty
      have sofar : thread.ran = thread.executed.map some := by
        rw [ran, going, if_neg Bool.false_ne_true, List.append_nil]
      cases front with
      | none =>
          refine ⟨fun cb => ?_, fun _ => ⟨rfl, by simp [run]⟩⟩
          have before := accounted.counted cb
          have left : (thread.run size (none :: rest)).hand = [] := rfl
          have callbacks : (thread.run size (none :: rest)).callbacks = thread.callbacks := rfl
          have pushed : (thread.run size (none :: rest)).pushed = thread.pushed := rfl
          have dropped : (thread.run size (none :: rest)).dropped = thread.dropped := rfl
          have ended : (thread.run size (none :: rest)).ran =
              thread.executed.map some ++ [none] := rfl
          rw [alive_count, held, sofar, runnable] at before
          rw [alive_count, left, callbacks, pushed, dropped, ended, runnable, List.count_append,
            List.count_nil]
          omega
      | some cb =>
          refine ⟨fun other => ?_, fun broken => ?_⟩
          · have before := accounted.counted other
            have left : (thread.run size (some cb :: rest)).hand = rest := rfl
            have callbacks : (thread.run size (some cb :: rest)).callbacks = thread.callbacks := rfl
            have pushed : (thread.run size (some cb :: rest)).pushed = thread.pushed := rfl
            have dropped : (thread.run size (some cb :: rest)).dropped = thread.dropped := rfl
            have more : (thread.run size (some cb :: rest)).ran =
                (thread.executed ++ [cb]).map some ++
                  if thread.loopbreak then [none] else [] := rfl
            rw [alive_count, held, sofar, runnable, List.count_cons] at before
            rw [alive_count, left, callbacks, pushed, dropped, more, going,
              if_neg Bool.false_ne_true, List.append_nil, List.map_append, List.map_singleton,
              List.count_append, List.count_singleton]
            omega
          · have set : thread.loopbreak = true := broken
            rw [going] at set
            cases set

theorem step_accounted (accounted : thread.Accounted) (taken : thread.step action = some after) :
    after.Accounted := by
  cases action with
  | dispatch cb =>
      cases taken
      exact push_accounted accounted [cb]
  | batchDispatch cbs =>
      cases taken
      exact push_accounted accounted cbs
  | send place sent =>
      rcases Option.map_eq_some_iff.mp taken with ⟨cbs, _, same⟩
      rw [← same]
      exact ⟨accounted.counted, accounted.broken⟩
  | recv count =>
      rw [step] at taken
      split at taken
      · split at taken
        · cases taken
          rename_i waiting met
          have empty : thread.hand = [] := by rw [hand, waiting]
          refine ⟨fun cb => ?_, fun broken => ?_⟩
          · have before := accounted.counted cb
            rw [alive_count, empty] at before
            rw [alive_count]
            exact before
          · have set : thread.loopbreak = true := broken
            rw [met.1] at set
            cases set
        · cases taken
      · cases taken
  | swap =>
      rw [step] at taken
      split at taken
      · cases taken
        exact swap_accounted accounted ‹_›
      · cases taken
  | run =>
      rw [step] at taken
      split at taken
      · cases taken
        exact run_accounted accounted ‹_›
      · cases taken

theorem no_effect_iff (accounted : thread.Accounted) :
    thread.NoEffect ↔ ∀ cb, thread.refused.count cb ≤ thread.dropped.count cb := by
  constructor
  · intro noEffect cb
    have here := noEffect cb
    have all := accounted.counted cb
    omega
  · intro among cb
    have here := among cb
    have all := accounted.counted cb
    omega

omit [DecidableEq Cb] in
/-- Only a send that fails refuses anything, and what was dropped stays dropped. -/
theorem step_refused (taken : thread.step action = some after) :
    (∃ place cbs, action = .send place false ∧ thread.sending[place]? = some cbs ∧
        after.refused = thread.refused ++ cbs ∧ after.dropped = thread.dropped) ∨
      (∀ place, action ≠ .send place false) ∧ after.refused = thread.refused ∧
        thread.dropped <+: after.dropped := by
  cases action with
  | dispatch cb | batchDispatch cbs =>
      cases taken
      exact .inr ⟨by simp, rfl, List.prefix_rfl⟩
  | send place sent =>
      rcases Option.map_eq_some_iff.mp taken with ⟨cbs, found, same⟩
      rw [← same]
      cases sent with
      | false => exact .inl ⟨place, cbs, rfl, found, rfl, rfl⟩
      | true => exact .inr ⟨by simp, rfl, List.prefix_rfl⟩
  | recv count =>
      rw [step] at taken
      split at taken
      · split at taken
        · cases taken
          exact .inr ⟨by simp, rfl, List.prefix_rfl⟩
        · cases taken
      · cases taken
  | swap =>
      rw [step] at taken
      split at taken
      · cases taken
        exact .inr ⟨by simp, rfl, List.prefix_append _ _⟩
      · cases taken
  | run =>
      rw [step] at taken
      split at taken
      · rename_i rest size running
        cases taken
        refine .inr ⟨by simp, ?_⟩
        cases rest with
        | nil => exact ⟨rfl, List.prefix_rfl⟩
        | cons front rest => cases front <;> exact ⟨rfl, List.prefix_rfl⟩
      · cases taken

theorem started_no_effect : (started : DynaThread Cb).NoEffect := fun _ => Nat.le_refl 0

theorem unharmed_iff (accounted : thread.Accounted) (before : thread.NoEffect)
    (action : ThreadAction Cb) : thread.Unharmed action ↔ thread.Permitted action := by
  constructor
  · rintro unharmed place cbs same found _ cb
    have taken : thread.step action = some (thread.send place cbs false) := by
      rw [same, step, found]
      rfl
    exact (no_effect_iff (step_accounted accounted taken)).mp (unharmed _ taken) cb
  · intro permitted after taken
    apply (no_effect_iff (step_accounted accounted taken)).mpr
    intro cb
    have among := (no_effect_iff accounted).mp before cb
    rcases step_refused taken with
      ⟨place, cbs, same, found, refused, dropped⟩ | ⟨-, refused, dropped⟩
    · rw [refused, dropped]
      by_cases empty : cbs = []
      · rw [empty, List.append_nil]
        exact among
      · exact permitted place cbs same found empty cb
    · rw [refused]
      exact Nat.le_trans among (dropped.sublist.count_le cb)

/-- In a run, no callback of a refused dispatch is on its way or executed exactly if no send
fails for a callback that the thread has not dropped. -/
theorem refused_no_effect_iff (actions : List (ThreadAction Cb)) (last : DynaThread Cb) :
    Transition.Runs step Unharmed started actions last ↔
      Transition.Runs step Permitted started actions last := by
  have agree : ∀ (thread : DynaThread Cb) (action : ThreadAction Cb),
      thread.Accounted ∧ thread.NoEffect → (Unharmed thread action ↔ Permitted thread action) := by
    rintro thread action ⟨accounted, before⟩
    exact unharmed_iff accounted before action
  apply Transition.runs_congr agree
  · rintro thread action after ⟨accounted, -⟩ unharmed taken
    exact ⟨step_accounted accounted taken, unharmed after taken⟩
  · exact ⟨started_accounted, started_no_effect⟩

/-- A refused callback is run with the byte of a later dispatch. -/
theorem refused_callback_run : ∃ thread : DynaThread Nat,
    Transition.Reaches step (fun _ _ => True) started thread ∧
      some 1 ∈ thread.refused ∧ 1 ∈ thread.executed ∧ ¬thread.NoEffect := by
  have reached : ∃ thread : DynaThread Nat,
      Transition.Reaches step (fun _ _ => True) started thread ∧
        thread.refused = [some 1] ∧ thread.executed = [1] ∧
          thread.pushed = [some 1, some 2] := by
    apply Transition.exists_of_run [.dispatch (some 1), .send 0 false, .dispatch (some 2),
      .send 0 true, .recv 1, .swap, .run]
    decide +kernel
  rcases reached with ⟨thread, reached, refused, executed, pushed⟩
  have distinct : thread.pushed.Nodup := by
    rw [pushed]
    decide
  have isRefused : some 1 ∈ thread.refused := by
    rw [refused]
    decide
  refine ⟨thread, reached, isRefused, by rw [executed]; decide, fun noEffect => ?_⟩
  apply refused_not_alive distinct noEffect (some 1) isRefused
  rw [alive, ran, executed]
  exact List.mem_append_left _ (List.mem_append_left _ List.mem_cons_self)

end DynaThread
end ChatServer.Fiber
