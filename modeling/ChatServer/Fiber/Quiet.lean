import ChatServer.Fiber.Scheduler

/-!
# Workers without anything to do

Only `pick` gives a worker something to execute. When nothing is queued, no worker executes
anything and no `READY` fiber is about to be scheduled again, then the workers alone never come to
anything either.
-/

namespace ChatServer.Scheduler

set_option autoImplicit false

variable {Worker Fiber : Type}

def Pc.executes : Pc Fiber → Bool
  | .free => false
  | .pickedCb => true
  | .busy stage _ => stage ≠ .returned ∧ stage ≠ .requeueing ∧ stage ≠ .holding

/-- The fiber was swapped out in state `READY` and is not back in `m_fibers`. -/
def Requeues (s : State Worker Fiber) (worker : Worker) : Prop :=
  ∃ stage job, s.pc worker = .busy stage job ∧
    (stage = .requeueing ∨ stage = .returned ∧ s.status job.fiber = some .ready)

/-- No worker has anything to do. -/
structure Quiet (s : State Worker Fiber) : Prop where
  queue : s.queue = []
  executes : ∀ worker, (s.pc worker).executes = false
  requeues : ∀ worker, ¬Requeues s worker

variable {s after : State Worker Fiber} {action : Action Worker Fiber}

/-- A step moves one worker at most, and only `pick` gives it something to execute. -/
def Moves (s after : State Worker Fiber) (action : Action Worker Fiber) : Prop :=
  ∀ worker, (after.pc worker).executes = true →
    (s.pc worker).executes = true ∨ action = .pick worker

theorem quiet_stage {worker : Worker} {stage : Stage}
    {next : Job Fiber → Option (State Worker Fiber)}
    (quiet : Quiet s) (executes : ∀ job : Job Fiber, (Pc.busy stage job).executes = true) :
    s.atStage worker stage next ≠ some after := by
  intro taken
  rcases State.at_stage_some taken with ⟨job, busy, _⟩
  have resting := quiet.executes worker
  rw [busy, executes job] at resting
  cases resting

variable [DecidableEq Worker]

theorem moves_goto {worker : Worker} {pc : Pc Fiber}
    (pcs : after.pc = Function.update s.pc worker pc)
    (executes : pc.executes = true → (s.pc worker).executes = true ∨ action = .pick worker) :
    Moves s after action := by
  intro other busy
  rw [pcs] at busy
  by_cases same : other = worker
  · subst same
    rw [Function.update_self] at busy
    exact executes busy
  · rw [Function.update_of_ne same] at busy
    exact .inl busy

theorem moves_stage {worker : Worker} {stage : Stage}
    {next : Job Fiber → Option (State Worker Fiber)}
    (executes : ∀ job : Job Fiber, (Pc.busy stage job).executes = true)
    (pcs : ∀ job result, next job = some result →
      ∃ pc, result.pc = Function.update s.pc worker pc)
    (taken : s.atStage worker stage next = some after) : Moves s after action := by
  rcases State.at_stage_some taken with ⟨job, busy, result⟩
  rcases pcs job after result with ⟨pc, pcs⟩
  apply moves_goto pcs
  intro _
  rw [busy]
  exact .inl (executes job)

/-- A worker that has dealt with a fiber, or is about to set `HOLD`, leaves the others quiet. -/
theorem quiet_goto {worker : Worker} {pc : Pc Fiber} (quiet : Quiet s)
    (queue : after.queue = s.queue) (pcs : after.pc = Function.update s.pc worker pc)
    (done : pc = .free ∨ ∃ job, pc = .busy .holding job)
    (status : ∀ fiber, after.status fiber = some .ready → s.status fiber = some .ready) :
    Quiet after := by
  constructor
  · exact queue.trans quiet.queue
  · intro other
    rw [pcs]
    by_cases same : other = worker
    · rw [same, Function.update_self]
      rcases done with free | ⟨job, holding⟩
      · rw [free]
        rfl
      · rw [holding]
        rfl
    · rw [Function.update_of_ne same]
      exact quiet.executes other
  · rintro other ⟨stage, job, busy, ready⟩
    rw [pcs] at busy
    by_cases same : other = worker
    · rw [same, Function.update_self] at busy
      rcases done with free | ⟨_, holding⟩
      · rw [free] at busy
        cases busy
      · rw [holding] at busy
        cases busy
        simp at ready
    · rw [Function.update_of_ne same] at busy
      apply quiet.requeues other
      refine ⟨stage, job, busy, ?_⟩
      rcases ready with requeueing | ⟨returned, ready⟩
      · exact .inl requeueing
      · exact .inr ⟨returned, status _ ready⟩

variable [DecidableEq Fiber]

theorem step_moves (taken : step s action = some after) : Moves s after action := by
  cases action with
  | spawn fiber thread =>
      simp only [step] at taken
      split_ifs at taken
      cases taken
      exact fun _ busy => .inl busy
  | post thread =>
      cases taken
      exact fun _ busy => .inl busy
  | wake fiber thread =>
      simp only [step] at taken
      split_ifs at taken
      cases taken
      exact fun _ busy => .inl busy
  | pick worker =>
      simp only [step] at taken
      split at taken
      · cases taken
        exact moves_goto rfl fun _ => .inr rfl
      · cases taken
        exact moves_goto rfl fun _ => .inr rfl
      · cases taken
  | prepare worker new =>
      simp only [step] at taken
      split at taken
      next fiber picked kept =>
        split_ifs at taken
        cases taken
        apply moves_goto rfl
        simp [picked, Pc.executes]
      next picked kept =>
        split_ifs at taken
        cases taken
        apply moves_goto rfl
        simp [picked, Pc.executes]
      next => cases taken
  | enter worker =>
      apply moves_stage _ _ taken
      · exact fun _ => rfl
      · intro job result chosen
        split_ifs at chosen <;> cases chosen <;> exact ⟨_, rfl⟩
  | yieldToHold worker | yieldToReady worker =>
      apply moves_stage _ _ taken
      · exact fun _ => rfl
      · intro job result chosen
        split_ifs at chosen
        cases chosen
        exact ⟨_, rfl⟩
  | load worker | register worker | finish worker failed | save worker =>
      apply moves_stage _ _ taken
      · exact fun _ => rfl
      · intro job result chosen
        cases chosen
        exact ⟨_, rfl⟩
  | inspect worker =>
      rcases State.at_stage_some taken with ⟨job, busy, chosen⟩
      split_ifs at chosen <;> cases chosen
      all_goals
        apply moves_goto rfl
        simp [Pc.executes]
  | settle worker =>
      simp only [step] at taken
      split at taken
      next job busy =>
        cases taken
        apply moves_goto rfl
        simp [Pc.executes]
      next job busy =>
        cases taken
        apply moves_goto rfl
        simp [Pc.executes]
      next => cases taken

omit [DecidableEq Worker] in
theorem set_status_ready {fiber other : Fiber} {written : FiberState} (unready : written ≠ .ready)
    (ready : (s.setStatus fiber written).status other = some .ready) :
    s.status other = some .ready := by
  by_cases same : other = fiber
  · rw [same, State.set_status_self] at ready
    exact absurd (Option.some.inj ready) unready
  · rwa [State.set_status_of_ne s written same] at ready

/-- Workers without anything to do stay so by themselves. -/
theorem step_quiet {worker : Worker} (quiet : Quiet s) (own : action.worker = some worker)
    (taken : step s action = some after) : Quiet after := by
  cases action with
  | spawn fiber thread | post thread | wake fiber thread => cases own
  | pick worker =>
      have nothing : takeFirst (s.eligible worker) s.queue = none := by
        rw [quiet.queue]
        rfl
      simp only [step, nothing] at taken
      split at taken
      next found => cases found
      next found => cases found
      next => cases taken
  | prepare worker new =>
      have resting := quiet.executes worker
      simp only [step] at taken
      split at taken
      next fiber picked kept =>
        rw [picked] at resting
        cases resting
      next picked kept =>
        rw [picked] at resting
        cases resting
      next => cases taken
  | enter worker | load worker | register worker | yieldToHold worker | yieldToReady worker
  | finish worker failed | save worker => exact absurd taken (quiet_stage quiet fun _ => rfl)
  | inspect worker =>
      rcases State.at_stage_some taken with ⟨job, busy, chosen⟩
      split_ifs at chosen with ready ended isCb
      · exact absurd ⟨_, job, busy, .inr ⟨rfl, ready⟩⟩ (quiet.requeues worker)
      · cases chosen
        exact quiet_goto quiet rfl rfl (.inl rfl) fun _ => set_status_ready (by decide)
      · cases chosen
        exact quiet_goto quiet rfl rfl (.inl rfl) fun _ => id
      · cases chosen
        exact quiet_goto quiet rfl rfl (.inr ⟨job, rfl⟩) fun _ => id
  | settle worker =>
      simp only [step] at taken
      split at taken
      next job busy => exact absurd ⟨_, job, busy, .inl rfl⟩ (quiet.requeues worker)
      next job busy =>
        cases taken
        exact quiet_goto quiet rfl rfl (.inl rfl) fun _ => set_status_ready (by decide)
      next => cases taken

end ChatServer.Scheduler
