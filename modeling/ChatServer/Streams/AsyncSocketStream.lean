import ChatServer.Machine
import ChatServer.Streams.SendQueue

/-!
# The connections of a stream, one after the other

`start`, `doRead`, `doWrite`, `innerClose` and `close` of `async_socket_stream.cc`. A stream goes
through many connections. `m_waitSem` has two permits, one for the fiber of `doRead` and one for
the fiber of `doWrite`, and `start` takes both, in two waits, before it touches the socket.
`start` is called by the application, by a timer of the last `doRead` and by `m_timer`, on any
thread.
-/

namespace ChatServer.Streams

set_option autoImplicit false

/-- Where a call of `start` is: before its first or second wait, parked in it, woken from it,
behind `waitFiber`, between the callback and `startRead`, between `startRead` and `startWrite`,
in the branch that fails with so many permits left to give back, or gone. -/
inductive StartStage where
  | waiting (second : Bool)
  | parked (second : Bool)
  | woken (second : Bool)
  | running
  | opening
  | halfOpen
  | failing (left : Nat)
  | returned (connected : Bool)
  deriving DecidableEq

namespace StartStage

def permits : StartStage → Nat
  | .waiting second | .parked second => second.toNat
  | .woken second => second.toNat + 1
  | .running | .opening => 2
  | .halfOpen => 1
  | .failing left => left
  | .returned _ => 0

def half : StartStage → Nat
  | .halfOpen => 1
  | _ => 0

def driving : StartStage → Nat
  | .halfOpen | .returned _ => 0
  | _ => 1

/-- The next wait, or the code behind `waitFiber`. -/
def passed (second : Bool) : StartStage := if second then .running else .waiting true

/-- What `notify` does to a call that is parked. -/
def wake : StartStage → StartStage
  | .parked second => .woken second
  | stage => stage

end StartStage

/-- `starts` are the calls of `start` so far. `timer` is `m_timer` while it is armed, with its
milliseconds, `delayed` the timers of `doRead`. Fibers of `doRead` are in their loop, behind
`innerClose`, or behind `notify`; those of `doWrite` are in their loop or behind it. -/
structure AsyncSocketStream where
  waitSem : FiberSemaphore Nat
  starts : List StartStage
  connected : Bool
  autoConnect : Bool
  tryConnectCount : UInt16
  timer : Option UInt64
  delayed : Nat
  reading : Nat
  closing : Nat
  rearming : Nat
  writing : Nat
  deriving DecidableEq

inductive LifeStep where
  | start
  | delayedStart
  | retryStart
  | wait (id : Nat)
  | resume (id : Nat)
  | connects (id : Nat) (ok : Bool)
  | startRead (id : Nat)
  | startWrite (id : Nat)
  | notify (id : Nat)
  | retry (id : Nat)
  | lost
  | readerCloses
  | readerNotifies
  | readerRearms
  | writerNotifies
  | close
  | setAutoConnect (v : Bool)

namespace AsyncSocketStream

/-- The constructor, with a socket that is connected or not. -/
def new (connected : Bool) : AsyncSocketStream where
  waitSem := ⟨2, []⟩
  starts := []
  connected
  autoConnect := false
  tryConnectCount := 0
  timer := none
  delayed := 0
  reading := 0
  closing := 0
  rearming := 0
  writing := 0

def setStart (s : AsyncSocketStream) (id : Nat) (stage : StartStage) : AsyncSocketStream :=
  { s with starts := s.starts.set id stage }

def notifySem (s : AsyncSocketStream) : AsyncSocketStream :=
  match s.waitSem.notify with
  | (waitSem, some id) =>
      { s with waitSem, starts := s.starts.set id ((s.starts.getD id (.returned false)).wake) }
  | (waitSem, none) => { s with waitSem }

def waitTs (tryConnectCount : UInt16) : UInt64 :=
  let wait_ts := UInt64.ofNat (tryConnectCount.toNat * 2 * 50)
  if wait_ts > 2000 then 2000 else wait_ts

def begins (s : AsyncSocketStream) : AsyncSocketStream :=
  { s with starts := s.starts ++ [.waiting false] }

def step (s : AsyncSocketStream) : LifeStep → Option AsyncSocketStream
  | .start => some s.begins
  | .delayedStart => if 0 < s.delayed then some { s.begins with delayed := s.delayed - 1 } else none
  | .retryStart => if s.timer.isSome then some { s.begins with timer := none } else none
  | .wait id =>
      match s.starts[id]? with
      | some (.waiting second) =>
          match s.waitSem.wait id with
          | (waitSem, true) => some { s.setStart id (.passed second) with waitSem }
          | (waitSem, false) => some { s.setStart id (.parked second) with waitSem }
      | _ => none
  | .resume id =>
      match s.starts[id]? with
      | some (.woken second) => some (s.setStart id (.passed second))
      | _ => none
  | .connects id ok =>
      -- `isConnected()` or `reconnect()`, and the callback; a failure runs `innerClose`
      match s.starts[id]? with
      | some .running =>
          let s := { s with timer := none, connected := ok }
          some (s.setStart id (if ok then .opening else .failing 2))
      | _ => none
  | .startRead id =>
      match s.starts[id]? with
      | some .opening => some { s.setStart id .halfOpen with reading := s.reading + 1 }
      | _ => none
  | .startWrite id =>
      match s.starts[id]? with
      | some .halfOpen =>
          some { s.setStart id (.returned true) with writing := s.writing + 1, tryConnectCount := 0 }
      | _ => none
  | .notify id =>
      match s.starts[id]? with
      | some (.failing (left + 1)) => some (s.setStart id (.failing left)).notifySem
      | _ => none
  | .retry id =>
      match s.starts[id]? with
      | some (.failing 0) =>
          let tryConnectCount := s.tryConnectCount + 1
          let s := { s.setStart id (.returned false) with tryConnectCount }
          some (if s.autoConnect then { s with timer := some (waitTs tryConnectCount) } else s)
      | _ => none
  | .lost => some { s with connected := false }
  | .readerCloses =>
      -- the loop has ended, or `doRecv` has thrown
      if 0 < s.reading then
        some { s with reading := s.reading - 1, closing := s.closing + 1, connected := false }
      else none
  | .readerNotifies =>
      if 0 < s.closing then
        some { s with closing := s.closing - 1, rearming := s.rearming + 1 }.notifySem
      else none
  | .readerRearms =>
      if 0 < s.rearming then
        let s := { s with rearming := s.rearming - 1 }
        some (if s.autoConnect then { s with delayed := s.delayed + 1 } else s)
      else none
  | .writerNotifies =>
      if 0 < s.writing then some { s with writing := s.writing - 1 }.notifySem else none
  | .close => some { s with autoConnect := false, timer := none, connected := false }
  | .setAutoConnect v => some { s with autoConnect := v }

theorem sum_set {Entry : Type} (value : Entry → Nat) (entries : List Entry) (new : Entry) :
    ∀ (place : Nat) (old : Entry), entries[place]? = some old →
      ((entries.set place new).map value).sum + value old = (entries.map value).sum + value new := by
  induction entries with
  | nil =>
      intro place old found
      cases found
  | cons first rest induction =>
      intro place old found
      cases place with
      | zero =>
          cases found
          simp only [List.set_cons_zero, List.map_cons, List.sum_cons]
          omega
      | succ place =>
          have later := induction place old found
          simp only [List.set_cons_succ, List.map_cons, List.sum_cons]
          omega

def taken (s : AsyncSocketStream) : Nat := (s.starts.map StartStage.permits).sum

def halves (s : AsyncSocketStream) : Nat := (s.starts.map StartStage.half).sum

/-- Both permits are accounted for, except for those that are just being given back. -/
structure Permits (s : AsyncSocketStream) (missing : Nat) : Prop where
  total : s.waitSem.concurrency + s.taken + s.reading + s.closing + s.writing + missing = 2
  parked : ∀ id, id ∈ s.waitSem.waiters ↔ ∃ second, s.starts[id]? = some (.parked second)
  once : s.waitSem.waiters.Nodup
  free : 0 < s.waitSem.concurrency → s.waitSem.waiters = []
  readers : s.reading + s.closing ≤ 1
  writers : s.writing + s.halves ≤ 1

variable {s after : AsyncSocketStream} {missing : Nat}

theorem half_le_permits (stages : List StartStage) :
    (stages.map StartStage.half).sum ≤ (stages.map StartStage.permits).sum := by
  induction stages with
  | nil => exact Nat.le_refl _
  | cons stage rest induction =>
      have one : stage.half ≤ stage.permits := by
        cases stage with
        | halfOpen => exact Nat.le_refl _
        | _ => exact Nat.zero_le _
      simp only [List.map_cons, List.sum_cons]
      omega

theorem alone {id : Nat} {stage : StartStage} (permits : s.Permits missing)
    (found : s.starts[id]? = some stage) (both : stage.permits = 2) :
    s.reading = 0 ∧ s.closing = 0 ∧ s.writing = 0 ∧ s.halves = 0 ∧ missing = 0 ∧
      s.waitSem.concurrency = 0 ∧
      ∀ other, other ≠ id → ∀ rest, s.starts[other]? = some rest → rest.permits = 0 := by
  have total := permits.total
  have without := sum_set StartStage.permits s.starts (.returned false) id stage found
  rw [both] at without
  have none : StartStage.permits (.returned false) = 0 := rfl
  have held : s.taken = (s.starts.map StartStage.permits).sum := rfl
  have halves := sum_set StartStage.half s.starts (.returned false) id stage found
  have bound := half_le_permits (s.starts.set id (.returned false))
  have own : stage.half = 0 := by cases stage <;> first | rfl | cases both
  have noHalf : StartStage.half (.returned false) = 0 := rfl
  have all : s.halves = (s.starts.map StartStage.half).sum := rfl
  refine ⟨by omega, by omega, by omega, by omega, by omega, by omega, ?_⟩
  intro other different rest place
  have kept : (s.starts.set id (.returned false))[other]? = some rest := by
    rw [List.getElem?_set_ne different.symm, place]
  have one := sum_set StartStage.permits (s.starts.set id (.returned false)) (.returned false) other
    rest kept
  omega

theorem permits_set {id : Nat} {old new : StartStage} (permits : s.Permits missing)
    (found : s.starts[id]? = some old) (before : ∀ second, old ≠ .parked second)
    (behind : ∀ second, new ≠ .parked second) (id_other : Nat) :
    id_other ∈ s.waitSem.waiters ↔
      ∃ second, (s.starts.set id new)[id_other]? = some (.parked second) := by
  have inside : id < s.starts.length := (List.getElem?_eq_some_iff.mp found).1
  rw [permits.parked]
  by_cases same : id_other = id
  · rw [same, found, List.getElem?_set_self inside]
    constructor
    · rintro ⟨second, equal⟩
      exact absurd (Option.some.inj equal) (before second)
    · rintro ⟨second, equal⟩
      exact absurd (Option.some.inj equal) (behind second)
  · rw [List.getElem?_set_ne (Ne.symm same)]

theorem notify_permits (permits : s.Permits (missing + 1)) : s.notifySem.Permits missing := by
  have total := permits.total
  unfold notifySem FiberSemaphore.notify
  cases queue : s.waitSem.waiters with
  | nil =>
      have waiters := permits.parked
      rw [queue] at waiters
      refine ⟨?_, waiters, List.nodup_nil, fun _ => rfl, permits.readers, permits.writers⟩
      change s.waitSem.concurrency + 1 + s.taken + s.reading + s.closing + s.writing + missing = 2
      omega
  | cons id rest =>
      obtain ⟨second, found⟩ := (permits.parked id).mp (by rw [queue]; exact List.mem_cons_self)
      have once := permits.once
      rw [queue] at once
      have inside : id < s.starts.length := (List.getElem?_eq_some_iff.mp found).1
      have stage : (s.starts.getD id (.returned false)).wake = .woken second := by
        rw [List.getD_eq_getElem?_getD, found]
        rfl
      dsimp only
      rw [stage]
      have held := sum_set StartStage.permits s.starts (.woken second) id _ found
      have halves := sum_set StartStage.half s.starts (.woken second) id _ found
      have taken : s.taken = (s.starts.map StartStage.permits).sum := rfl
      have all : s.halves = (s.starts.map StartStage.half).sum := rfl
      have writers := permits.writers
      have busy : s.waitSem.concurrency = 0 := by
        by_contra some
        have empty := permits.free (Nat.pos_of_ne_zero some)
        rw [queue] at empty
        cases empty
      have one : StartStage.permits (.woken second) = StartStage.permits (.parked second) + 1 := rfl
      have none : StartStage.half (.woken second) = StartStage.half (.parked second) := rfl
      refine ⟨?_, ?_, (List.nodup_cons.mp once).2, ?_, permits.readers, ?_⟩
      · change s.waitSem.concurrency + ((s.starts.set id _).map StartStage.permits).sum + s.reading +
          s.closing + s.writing + missing = 2
        omega
      · intro other
        change other ∈ rest ↔ ∃ second, (s.starts.set id _)[other]? = some (.parked second)
        have listed := permits.parked other
        rw [queue, List.mem_cons] at listed
        by_cases same : other = id
        · rw [same, List.getElem?_set_self inside]
          constructor
          · exact fun member => absurd member (List.nodup_cons.mp once).1
          · rintro ⟨_, equal⟩
            cases equal
        · rw [List.getElem?_set_ne (Ne.symm same), ← listed]
          exact ⟨Or.inr, fun either => either.resolve_left same⟩
      · intro positive
        exact absurd (show 0 < s.waitSem.concurrency from positive) (by omega)
      · change s.writing + ((s.starts.set id _).map StartStage.half).sum ≤ 1
        omega

theorem permits_stage {id next : Nat} {old new : StartStage} (permits : s.Permits missing)
    (found : s.starts[id]? = some old) (before : ∀ second, old ≠ .parked second)
    (behind : ∀ second, new ≠ .parked second) (sem : after.waitSem = s.waitSem)
    (starts : after.starts = s.starts.set id new)
    (balance : new.permits + after.reading + after.closing + after.writing + next =
      old.permits + s.reading + s.closing + s.writing + missing)
    (readers : after.reading + after.closing ≤ 1)
    (writers : after.writing + new.half ≤ s.writing + old.half ∨ after.writing + new.half ≤ 1 ∧
      s.halves = 0) : after.Permits next := by
  have total := permits.total
  have held := sum_set StartStage.permits s.starts new id old found
  have halves := sum_set StartStage.half s.starts new id old found
  have taken : s.taken = (s.starts.map StartStage.permits).sum := rfl
  have all : s.halves = (s.starts.map StartStage.half).sum := rfl
  have bound := permits.writers
  refine ⟨?_, ?_, by rw [sem]; exact permits.once, by rw [sem]; exact permits.free, readers, ?_⟩
  · rw [sem, AsyncSocketStream.taken, starts]
    omega
  · intro other
    rw [sem, starts]
    exact permits_set permits found before behind other
  · rw [AsyncSocketStream.halves, starts]
    omega

theorem permits_same (permits : s.Permits missing) (sem : after.waitSem = s.waitSem)
    (starts : after.starts = s.starts) (reading : after.reading = s.reading)
    (closing : after.closing = s.closing) (writing : after.writing = s.writing) :
    after.Permits missing := by
  constructor
  · rw [sem, taken, starts, reading, closing, writing]
    exact permits.total
  · rw [sem, starts]
    exact permits.parked
  · rw [sem]
    exact permits.once
  · rw [sem]
    exact permits.free
  · rw [reading, closing]
    exact permits.readers
  · rw [writing, halves, starts]
    exact permits.writers

theorem begins_permits (permits : s.Permits missing) : s.begins.Permits missing := by
  have total := permits.total
  have taken : s.begins.taken = s.taken := by
    unfold AsyncSocketStream.taken begins
    rw [List.map_append, List.sum_append]
    rfl
  have halves : s.begins.halves = s.halves := by
    unfold AsyncSocketStream.halves begins
    rw [List.map_append, List.sum_append]
    rfl
  refine ⟨taken ▸ total, ?_, permits.once, permits.free, permits.readers, halves ▸ permits.writers⟩
  intro id
  change id ∈ s.waitSem.waiters ↔ ∃ second, (s.starts ++ [.waiting false])[id]? = some (.parked second)
  rw [permits.parked]
  by_cases inside : id < s.starts.length
  · rw [List.getElem?_append_left inside]
  · rw [List.getElem?_eq_none (Nat.not_lt.mp inside), List.getElem?_append_right (Nat.not_lt.mp inside)]
    constructor
    · rintro ⟨_, none⟩
      cases none
    · rintro ⟨_, found⟩
      have member := List.mem_of_getElem? found
      cases List.mem_singleton.mp member

/-- The locked part of `wait`: a permit or a place among the waiters. -/
theorem wait_permits {id : Nat} {second : Bool} (permits : s.Permits missing)
    (found : s.starts[id]? = some (.waiting second)) (done : s.step (.wait id) = some after) :
    after.Permits missing := by
  have total := permits.total
  have inside : id < s.starts.length := (List.getElem?_eq_some_iff.mp found).1
  have taken : s.taken = (s.starts.map StartStage.permits).sum := rfl
  have all : s.halves = (s.starts.map StartStage.half).sum := rfl
  have writers := permits.writers
  rw [step, found] at done
  dsimp only at done
  unfold FiberSemaphore.wait at done
  by_cases positive : 0 < s.waitSem.concurrency
  · rw [if_pos positive] at done
    cases done
    have held := sum_set StartStage.permits s.starts (.passed second) id _ found
    have halves := sum_set StartStage.half s.starts (.passed second) id _ found
    have more : (StartStage.passed second).permits = (StartStage.waiting second).permits + 1 := by
      cases second <;> rfl
    have none : (StartStage.passed second).half = (StartStage.waiting second).half := by
      cases second <;> rfl
    have moved := permits_set permits found (fun _ equal => by cases equal)
      (show ∀ other, StartStage.passed second ≠ .parked other by
        intro other equal
        cases second <;> cases equal)
    refine ⟨?_, moved, permits.once, fun _ => permits.free positive, permits.readers, ?_⟩
    · change s.waitSem.concurrency - 1 + ((s.starts.set id _).map StartStage.permits).sum +
        s.reading + s.closing + s.writing + missing = 2
      omega
    · change s.writing + ((s.starts.set id _).map StartStage.half).sum ≤ 1
      omega
  · rw [if_neg positive] at done
    cases done
    have held := sum_set StartStage.permits s.starts (.parked second) id _ found
    have halves := sum_set StartStage.half s.starts (.parked second) id _ found
    have same : (StartStage.parked second).permits = (StartStage.waiting second).permits := rfl
    have none : (StartStage.parked second).half = (StartStage.waiting second).half := rfl
    have fresh : id ∉ s.waitSem.waiters := by
      intro member
      obtain ⟨_, parked⟩ := (permits.parked id).mp member
      rw [found] at parked
      cases parked
    refine ⟨?_, ?_, ?_, fun positive' => absurd positive' positive, permits.readers, ?_⟩
    · change s.waitSem.concurrency + ((s.starts.set id _).map StartStage.permits).sum +
        s.reading + s.closing + s.writing + missing = 2
      omega
    · intro other
      change other ∈ s.waitSem.waiters ++ [id] ↔ ∃ second, (s.starts.set id _)[other]? =
        some (.parked second)
      rw [List.mem_append, List.mem_singleton, permits.parked]
      by_cases equal : other = id
      · rw [equal, List.getElem?_set_self inside]
        exact ⟨fun _ => ⟨second, rfl⟩, fun _ => Or.inr rfl⟩
      · rw [List.getElem?_set_ne (Ne.symm equal)]
        exact ⟨fun either => either.resolve_right equal, Or.inl⟩
    · refine List.nodup_append.mpr ⟨permits.once, List.pairwise_singleton _ _, ?_⟩
      intro earlier member other new equal
      rw [List.mem_singleton.mp new] at equal
      exact fresh (equal ▸ member)
    · change s.writing + ((s.starts.set id _).map StartStage.half).sum ≤ 1
      omega

theorem stage_of_step {taken : LifeStep} (done : s.step taken = some after) :
    match taken with
    | .wait id => ∃ second, s.starts[id]? = some (.waiting second)
    | .resume id => ∃ second, s.starts[id]? = some (.woken second) ∧
        after = s.setStart id (.passed second)
    | .connects id ok => s.starts[id]? = some .running ∧
        after = { s with timer := none, connected := ok }.setStart id
          (if ok then .opening else .failing 2)
    | .startRead id => s.starts[id]? = some .opening ∧
        after = { s.setStart id .halfOpen with reading := s.reading + 1 }
    | .startWrite id => s.starts[id]? = some .halfOpen ∧
        after = { s.setStart id (.returned true) with writing := s.writing + 1, tryConnectCount := 0 }
    | .notify id => ∃ left, s.starts[id]? = some (.failing (left + 1)) ∧
        after = (s.setStart id (.failing left)).notifySem
    | .retry id => s.starts[id]? = some (.failing 0) ∧
        ∃ tryConnectCount timer, (timer = s.timer ∨
            s.autoConnect = true ∧ timer = some (waitTs tryConnectCount)) ∧
          after = { s.setStart id (.returned false) with tryConnectCount, timer }
    | _ => True := by
  cases taken <;> try trivial
  all_goals
    rw [step] at done
    split at done <;> try cases done
    rename_i found
  · exact ⟨_, found⟩
  · exact ⟨_, found, rfl⟩
  · exact ⟨found, rfl⟩
  · exact ⟨found, rfl⟩
  · exact ⟨found, rfl⟩
  · exact ⟨_, found, rfl⟩
  · refine ⟨found, s.tryConnectCount + 1, ?_⟩
    split_ifs with auto
    · exact ⟨_, .inr ⟨auto, rfl⟩, rfl⟩
    · exact ⟨_, .inl rfl, rfl⟩

theorem resume_permits {id : Nat} (permits : s.Permits 0)
    (done : s.step (.resume id) = some after) : after.Permits 0 := by
  obtain ⟨second, found, same⟩ := stage_of_step done
  have more : (StartStage.passed second).permits = (StartStage.woken second).permits := by
    cases second <;> rfl
  have none : (StartStage.passed second).half = (StartStage.woken second).half := by
    cases second <;> rfl
  rw [same]
  refine permits_stage permits found (fun _ equal => by cases equal) ?_ rfl rfl ?_
    permits.readers (.inl (by rw [none]; exact Nat.le_refl _))
  · intro other equal
    cases second <;> cases equal
  · rw [more]
    rfl

theorem start_read_permits {id : Nat} (permits : s.Permits 0)
    (done : s.step (.startRead id) = some after) : after.Permits 0 := by
  have total := permits.total
  obtain ⟨found, same⟩ := stage_of_step done
  obtain ⟨reading, closing, writing, halves, _⟩ := alone permits found rfl
  rw [same]
  refine permits_stage permits found (fun _ equal => by cases equal)
    (fun _ equal => by cases equal) rfl rfl ?_ ?_ ?_
  · change 1 + (s.reading + 1) + s.closing + s.writing + 0 =
      2 + s.reading + s.closing + s.writing + 0
    omega
  · change s.reading + 1 + s.closing ≤ 1
    omega
  · exact .inr ⟨by change s.writing + 1 ≤ 1; omega, halves⟩

theorem start_write_permits {id : Nat} (permits : s.Permits 0)
    (done : s.step (.startWrite id) = some after) : after.Permits 0 := by
  obtain ⟨found, same⟩ := stage_of_step done
  rw [same]
  refine permits_stage permits found (fun _ equal => by cases equal)
    (fun _ equal => by cases equal) rfl rfl ?_ permits.readers (.inl (Nat.le_refl _))
  change 0 + s.reading + s.closing + (s.writing + 1) + 0 =
    1 + s.reading + s.closing + s.writing + 0
  omega

theorem notified_permits {id : Nat} (permits : s.Permits 0)
    (done : s.step (.notify id) = some after) : after.Permits 0 := by
  obtain ⟨left, found, same⟩ := stage_of_step done
  rw [same]
  apply notify_permits
  refine permits_stage permits found (fun _ equal => by cases equal)
    (fun _ equal => by cases equal) rfl rfl ?_ permits.readers (.inl (Nat.le_refl _))
  change left + s.reading + s.closing + s.writing + (0 + 1) =
    left + 1 + s.reading + s.closing + s.writing + 0
  omega

theorem reader_closes_permits (permits : s.Permits 0)
    (done : s.step .readerCloses = some after) : after.Permits 0 := by
  have total := permits.total
  rw [step] at done
  split_ifs at done with active
  cases done
  have readers := permits.readers
  refine ⟨?_, permits.parked, permits.once, permits.free, ?_, permits.writers⟩
  · change s.waitSem.concurrency + s.taken + (s.reading - 1) + (s.closing + 1) + s.writing + 0 = 2
    omega
  · change s.reading - 1 + (s.closing + 1) ≤ 1
    omega

theorem reader_notifies_permits (permits : s.Permits 0)
    (done : s.step .readerNotifies = some after) : after.Permits 0 := by
  have total := permits.total
  rw [step] at done
  split_ifs at done with active
  cases done
  have readers := permits.readers
  apply notify_permits
  refine ⟨?_, permits.parked, permits.once, permits.free, ?_, permits.writers⟩
  · change s.waitSem.concurrency + s.taken + s.reading + (s.closing - 1) + s.writing + 1 = 2
    omega
  · change s.reading + (s.closing - 1) ≤ 1
    omega

theorem writer_notifies_permits (permits : s.Permits 0)
    (done : s.step .writerNotifies = some after) : after.Permits 0 := by
  have total := permits.total
  rw [step] at done
  split_ifs at done with active
  cases done
  have writers := permits.writers
  apply notify_permits
  refine ⟨?_, permits.parked, permits.once, permits.free, permits.readers, ?_⟩
  · change s.waitSem.concurrency + s.taken + s.reading + s.closing + (s.writing - 1) + 1 = 2
    omega
  · change s.writing - 1 + s.halves ≤ 1
    omega

theorem step_permits {action : LifeStep} (permits : s.Permits 0)
    (done : s.step action = some after) : after.Permits 0 := by
  cases action with
  | start =>
      cases done
      exact begins_permits permits
  | delayedStart | retryStart =>
      rw [step] at done
      split_ifs at done
      cases done
      exact permits_same (begins_permits permits) rfl rfl rfl rfl rfl
  | wait id =>
      obtain ⟨second, found⟩ := stage_of_step done
      exact wait_permits permits found done
  | resume id => exact resume_permits permits done
  | connects id ok =>
      obtain ⟨found, same⟩ := stage_of_step done
      rw [same]
      cases ok with
      | true | false =>
          exact permits_stage permits found (fun _ equal => by cases equal)
            (fun _ equal => by cases equal) rfl rfl rfl permits.readers (.inl (Nat.le_refl _))
  | startRead id => exact start_read_permits permits done
  | startWrite id => exact start_write_permits permits done
  | notify id => exact notified_permits permits done
  | retry id =>
      obtain ⟨found, tryConnectCount, timer, _, same⟩ := stage_of_step done
      rw [same]
      exact permits_stage permits found (fun _ equal => by cases equal)
        (fun _ equal => by cases equal) rfl rfl rfl permits.readers (.inl (Nat.le_refl _))
  | lost =>
      cases done
      exact permits_same permits rfl rfl rfl rfl rfl
  | readerCloses => exact reader_closes_permits permits done
  | readerNotifies => exact reader_notifies_permits permits done
  | readerRearms =>
      rw [step] at done
      split_ifs at done
      dsimp only at done
      split_ifs at done <;> cases done <;> exact permits_same permits rfl rfl rfl rfl rfl
  | writerNotifies => exact writer_notifies_permits permits done
  | close =>
      cases done
      exact permits_same permits rfl rfl rfl rfl rfl
  | setAutoConnect v =>
      cases done
      exact permits_same permits rfl rfl rfl rfl rfl

theorem exists_of_sum {Entry : Type} (value : Entry → Nat) (entries : List Entry)
    (positive : 0 < (entries.map value).sum) :
    ∃ (place : Nat) (entry : Entry), entries[place]? = some entry ∧ 0 < value entry := by
  induction entries with
  | nil => cases positive
  | cons first rest induction =>
      by_cases own : 0 < value first
      · exact ⟨0, first, rfl, own⟩
      · rw [List.map_cons, List.sum_cons] at positive
        obtain ⟨place, entry, found, more⟩ := induction (by omega)
        exact ⟨place + 1, entry, found, more⟩

def Goes (s : AsyncSocketStream) : Prop :=
  ∃ (id : Nat) (stage : StartStage), s.starts[id]? = some stage ∧ 0 < stage.permits ∧
    ∀ second, stage ≠ .parked second

/-- What the two permits are for. A call that waits for one waits for fibers of the last
connection or for another call, which goes on unless two calls have taken one permit each. -/
structure OneConnection (s : AsyncSocketStream) : Prop where
  readers : s.reading + s.closing ≤ 1
  writers : s.writing ≤ 1
  exclusive : ∀ (id : Nat) (stage : StartStage), s.starts[id]? = some stage →
    stage = .running ∨ stage = .opening → s.reading = 0 ∧ s.closing = 0 ∧ s.writing = 0 ∧
      ∀ other, other ≠ id → ∀ rest : StartStage, s.starts[other]? = some rest → rest.permits = 0
  blocked : ∀ (id : Nat) (second : Bool), s.starts[id]? = some (.parked second) →
    0 < s.reading + s.closing + s.writing ∨ s.Goes ∨
      ∃ first other : Nat, first ≠ other ∧ s.starts[first]? = some (.parked true) ∧
        s.starts[other]? = some (.parked true)

theorem one_connection_of_permits (permits : s.Permits 0) : s.OneConnection := by
  have total := permits.total
  have writers := permits.writers
  refine ⟨permits.readers, by omega, ?_, ?_⟩
  · intro id stage found either
    have both : stage.permits = 2 := by
      rcases either with same | same <;> rw [same] <;> rfl
    obtain ⟨reading, closing, writing, _, _, _, others⟩ := alone permits found both
    exact ⟨reading, closing, writing, others⟩
  · intro id second found
    by_cases active : 0 < s.reading + s.closing + s.writing
    · exact .inl active
    · by_cases goes : s.Goes
      · exact .inr (.inl goes)
      · refine .inr (.inr ?_)
        have waits : id ∈ s.waitSem.waiters := (permits.parked id).mpr ⟨second, found⟩
        have busy : s.waitSem.concurrency = 0 := by
          by_contra some
          rw [permits.free (Nat.pos_of_ne_zero some)] at waits
          cases waits
        have parked : ∀ (place : Nat) (stage : StartStage), s.starts[place]? = some stage →
            0 < stage.permits → stage = .parked true := by
          intro place stage found positive
          by_contra different
          apply goes
          refine ⟨place, stage, found, positive, ?_⟩
          intro second same
          rw [same] at different positive
          cases second with
          | true => exact different rfl
          | false => exact absurd positive (Nat.lt_irrefl 0)
        have sum : (s.starts.map StartStage.permits).sum = 2 := by
          have taken : s.taken = (s.starts.map StartStage.permits).sum := rfl
          omega
        obtain ⟨first, stage, firstFound, some⟩ :=
          exists_of_sum StartStage.permits s.starts (by omega)
        have firstParked := parked first stage firstFound some
        rw [firstParked] at firstFound
        have rest := sum_set StartStage.permits s.starts (.returned false) first _ firstFound
        have one : (StartStage.parked true).permits = 1 := rfl
        have none : (StartStage.returned false).permits = 0 := rfl
        obtain ⟨other, stage, otherFound, more⟩ := exists_of_sum StartStage.permits
          (s.starts.set first (.returned false)) (by omega)
        have inside : first < s.starts.length := (List.getElem?_eq_some_iff.mp firstFound).1
        have different : first ≠ other := by
          intro same
          rw [← same, List.getElem?_set_self inside] at otherFound
          cases otherFound
          exact absurd more (Nat.lt_irrefl 0)
        rw [List.getElem?_set_ne different] at otherFound
        have otherParked := parked other stage otherFound more
        rw [otherParked] at otherFound
        exact ⟨first, other, different, firstFound, otherFound⟩

theorem new_permits (connected : Bool) : (new connected).Permits 0 :=
  ⟨rfl, fun id => ⟨fun member => absurd member List.not_mem_nil, fun ⟨_, found⟩ => by cases found⟩,
    List.nodup_nil, fun _ => rfl, Nat.zero_le _, Nat.zero_le _⟩

/-- Calls of `start` before their `startRead`, timers that will call it, and the `doRead` that will
set one. -/
def drivers (s : AsyncSocketStream) : Nat :=
  (s.starts.map StartStage.driving).sum + s.delayed + s.timer.isSome.toNat + s.reading + s.closing +
    s.rearming

def added : LifeStep → Nat
  | .start => 1
  | _ => 0

/-- The application calls `start` when nothing else is going to. -/
def OneDriver (s : AsyncSocketStream) : LifeStep → Prop
  | .start => s.drivers = 0
  | _ => True

instance (s : AsyncSocketStream) (action : LifeStep) : Decidable (s.OneDriver action) :=
  match action with
  | .start => inferInstanceAs (Decidable (s.drivers = 0))
  | .delayedStart | .retryStart | .wait _ | .resume _ | .connects _ _ | .startRead _
  | .startWrite _ | .notify _ | .retry _ | .lost | .readerCloses | .readerNotifies
  | .readerRearms | .writerNotifies | .close | .setAutoConnect _ => inferInstanceAs (Decidable True)

theorem begins_drivers (s : AsyncSocketStream) : s.begins.drivers = s.drivers + 1 := by
  unfold drivers begins
  rw [List.map_append, List.sum_append]
  have one : ([StartStage.waiting false].map StartStage.driving).sum = 1 := rfl
  dsimp only
  omega

theorem notify_drivers (s : AsyncSocketStream) : s.notifySem.drivers = s.drivers := by
  unfold notifySem FiberSemaphore.notify
  cases s.waitSem.waiters with
  | nil => rfl
  | cons id rest =>
      dsimp only
      unfold drivers
      dsimp only
      cases found : s.starts[id]? with
      | none =>
          rw [List.set_eq_of_length_le (List.getElem?_eq_none_iff.mp found)]
      | some stage =>
          have same : stage.wake.driving = stage.driving := by cases stage <;> rfl
          have exchanged := sum_set StartStage.driving s.starts stage.wake id stage found
          rw [List.getD_eq_getElem?_getD, found, Option.getD_some]
          omega

def apart (s : AsyncSocketStream) : Nat :=
  s.delayed + s.timer.isSome.toNat + s.reading + s.closing + s.rearming

theorem drivers_eq (s : AsyncSocketStream) :
    s.drivers = (s.starts.map StartStage.driving).sum + s.apart := by
  unfold drivers apart
  omega

theorem stage_drivers {id : Nat} {old new : StartStage} (found : s.starts[id]? = some old)
    (starts : after.starts = s.starts.set id new)
    (fewer : after.apart + new.driving ≤ s.apart + old.driving) : after.drivers ≤ s.drivers := by
  have exchanged := sum_set StartStage.driving s.starts new id old found
  rw [drivers_eq, drivers_eq, starts]
  omega

theorem apart_drivers (starts : after.starts = s.starts) (fewer : after.apart ≤ s.apart) :
    after.drivers ≤ s.drivers := by
  rw [drivers_eq, drivers_eq, starts]
  exact Nat.add_le_add_left fewer _

theorem begins_apart (starts : after.starts = s.begins.starts) (fewer : after.apart + 1 ≤ s.apart) :
    after.drivers ≤ s.drivers := by
  have begun := begins_drivers s
  rw [drivers_eq, ← starts] at begun
  have same : s.begins.apart = s.apart := rfl
  rw [drivers_eq after]
  omega

theorem untimed_apart (s : AsyncSocketStream) (connected autoConnect : Bool) :
    AsyncSocketStream.apart { s with timer := none, connected, autoConnect } ≤ s.apart := by
  unfold apart
  simp only [Option.isSome_none, Bool.toNat_false]
  omega

theorem passed_driving (second : Bool) : (StartStage.passed second).driving = 1 := by
  cases second <;> rfl

/-- Only the application adds a driver. -/
theorem step_drivers {action : LifeStep} (done : s.step action = some after) :
    after.drivers ≤ s.drivers + added action := by
  have stage := stage_of_step done
  cases action with
  | start =>
      cases done
      exact Nat.le_of_eq (begins_drivers s)
  | delayedStart =>
      rw [step] at done
      split_ifs at done with some
      cases done
      refine begins_apart rfl ?_
      unfold apart
      dsimp only [begins]
      omega
  | retryStart =>
      rw [step] at done
      split_ifs at done with armed
      cases done
      refine begins_apart rfl ?_
      unfold apart
      rw [armed]
      simp only [begins, Option.isSome_none, Bool.toNat_false, Bool.toNat_true]
      omega
  | wait id =>
      obtain ⟨second, found⟩ := stage
      rw [step, found] at done
      dsimp only at done
      split at done <;> cases done
      · exact stage_drivers found rfl (Nat.le_of_eq (congrArg (s.apart + ·) (passed_driving second)))
      · exact stage_drivers found rfl (Nat.le_refl _)
  | resume id =>
      obtain ⟨second, found, same⟩ := stage
      rw [same]
      exact stage_drivers found rfl (Nat.le_of_eq (congrArg (s.apart + ·) (passed_driving second)))
  | connects id ok =>
      obtain ⟨found, same⟩ := stage
      have one : (if ok then StartStage.opening else .failing 2).driving = 1 := by cases ok <;> rfl
      rw [same]
      refine stage_drivers found rfl ?_
      rw [one]
      exact Nat.add_le_add_right (untimed_apart s ok s.autoConnect) 1
  | startRead id =>
      obtain ⟨found, same⟩ := stage
      rw [same]
      refine stage_drivers found rfl ?_
      unfold apart
      dsimp only [setStart, StartStage.driving]
      omega
  | startWrite id =>
      obtain ⟨found, same⟩ := stage
      rw [same]
      exact stage_drivers found rfl (Nat.le_refl _)
  | notify id =>
      obtain ⟨left, found, same⟩ := stage
      rw [same, notify_drivers]
      exact stage_drivers found rfl (Nat.le_refl _)
  | retry id =>
      obtain ⟨found, tryConnectCount, timer, _, same⟩ := stage
      have one : timer.isSome.toNat ≤ 1 := Bool.toNat_le _
      rw [same]
      refine stage_drivers found rfl ?_
      unfold apart
      dsimp only [setStart, StartStage.driving]
      omega
  | readerCloses =>
      rw [step] at done
      split_ifs at done with active
      cases done
      refine apart_drivers rfl ?_
      unfold apart
      dsimp only
      omega
  | readerNotifies =>
      rw [step] at done
      split_ifs at done with active
      cases done
      rw [notify_drivers]
      refine apart_drivers rfl ?_
      unfold apart
      dsimp only
      omega
  | readerRearms =>
      rw [step] at done
      split_ifs at done with active
      dsimp only at done
      split_ifs at done <;> cases done <;> refine apart_drivers rfl ?_ <;> unfold apart <;> dsimp only
      · omega
      · omega
  | writerNotifies =>
      rw [step] at done
      split_ifs at done with active
      cases done
      rw [notify_drivers]
      exact Nat.le_refl _
  | close =>
      cases done
      exact apart_drivers rfl (untimed_apart s false false)
  | lost | setAutoConnect =>
      cases done
      exact Nat.le_refl _

/-- Calls that drive nothing have only the permit of the `doWrite` they are to start. -/
theorem permits_of_idle (stages : List StartStage) (idle : (stages.map StartStage.driving).sum = 0) :
    (stages.map StartStage.permits).sum = (stages.map StartStage.half).sum := by
  induction stages with
  | nil => rfl
  | cons stage rest induction =>
      rw [List.map_cons, List.sum_cons] at idle
      have one : stage.permits = stage.half := by
        have none : stage.driving = 0 := by omega
        cases stage <;> first | rfl | cases none
      have others := induction (by omega)
      simp only [List.map_cons, List.sum_cons]
      omega

theorem drivers_of_reaches {connected : Bool}
    (reached : Transition.Reaches step OneDriver (new connected) s) :
    s.Permits 0 ∧ s.drivers ≤ 1 := by
  apply @Transition.invariant_of_reaches _ _ _ _ (fun s => s.Permits 0 ∧ s.drivers ≤ 1) _ _ _ _ reached
  · exact ⟨new_permits connected, Nat.zero_le _⟩
  · rintro before action next ⟨permits, few⟩ allowed done
    refine ⟨step_permits permits done, ?_⟩
    have more := step_drivers done
    cases action with
    | start =>
        have none : before.drivers = 0 := allowed
        rw [none] at more
        exact more
    | _ => exact Nat.le_trans more few

end AsyncSocketStream
end ChatServer.Streams
