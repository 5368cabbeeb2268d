import ChatServer.Fiber.FdRegistry
import ChatServer.Fiber.Hook

/-!
# `fcntl` and `O_NONBLOCK`

`fcntl` of `hook.cc` with `F_SETFL` and `F_GETFL`, with whole words of status flags. A socket is
made non-blocking when it is registered, behind the back of the user, who should find the mode
that he has asked for. `getSysNonblock` returns what the user has asked for, so `F_SETFL` passes
that on to the kernel, and `F_GETFL` does not look at it at all.
-/

namespace ChatServer.Fiber

set_option autoImplicit false

def O_NONBLOCK : BitVec 32 := 0x800

/-- `O_APPEND`, `O_ASYNC`, `O_DIRECT`, `O_NOATIME` and `O_NONBLOCK`, which `F_SETFL` can change. -/
def settableFlags : BitVec 32 := 0x46c00

def hasNonblock (flags : BitVec 32) : Bool := flags &&& O_NONBLOCK != 0

/-- What the kernel makes of the flags of a file on `F_SETFL`. -/
def changedFlags (flags arg : BitVec 32) : BitVec 32 :=
  (arg &&& settableFlags) ||| (flags &&& ~~~settableFlags)

theorem has_nonblock_bit (flags : BitVec 32) : hasNonblock flags = flags.getLsbD 11 := by
  have single : O_NONBLOCK = BitVec.twoPow 32 11 := by decide
  rw [hasNonblock, single, BitVec.and_twoPow]
  cases flags.getLsbD 11 with
  | true => decide
  | false => decide

@[simp] theorem has_nonblock_or (flags : BitVec 32) :
    hasNonblock (flags ||| O_NONBLOCK) = true := by
  rw [has_nonblock_bit, BitVec.getLsbD_or]
  exact Bool.or_true _

@[simp] theorem has_nonblock_and_not (flags : BitVec 32) :
    hasNonblock (flags &&& ~~~O_NONBLOCK) = false := by
  rw [has_nonblock_bit, BitVec.getLsbD_and]
  exact Bool.and_false _

@[simp] theorem has_nonblock_changed (flags arg : BitVec 32) :
    hasNonblock (changedFlags flags arg) = hasNonblock arg := by
  have set : settableFlags.getLsbD 11 = true := by decide
  have kept : (~~~settableFlags).getLsbD 11 = false := by decide
  rw [has_nonblock_bit, has_nonblock_bit, changedFlags, BitVec.getLsbD_or, BitVec.getLsbD_and,
    BitVec.getLsbD_and, set, kept, Bool.and_true, Bool.and_false, Bool.or_false]

structure File where
  isSocket : Bool
  flags : BitVec 32
  deriving DecidableEq

structure FileTable where
  kernel : Nat → Option File
  manager : FdManager

def FdManager.ctxOf (manager : FdManager) (fd : Nat) : Result (Option (Nat × FdCtx)) := do
  match ← manager.find fd false with
  | .returns (some id) =>
      match manager.objects[id]? with
      | some ctx => .ok (some (id, ctx))
      | none => .error (.undefined .nullDeref)
  | _ => .ok none

namespace FileTable

/-- `fcntl_f` with `F_SETFL`, which the kernel may refuse. -/
def setflF (table : FileTable) (fd : Nat) (arg : BitVec 32) (accepted : Bool) :
    FileTable × Int :=
  match table.kernel fd with
  | none => (table, -1)
  | some file =>
      if accepted then
        let file := { file with flags := changedFlags file.flags arg }
        ({ table with kernel := Function.update table.kernel fd (some file) }, 0)
      else (table, -1)

/-- `fcntl_f` with `F_GETFL`; -1 if nothing is open. -/
def getflF (table : FileTable) (fd : Nat) : BitVec 32 :=
  match table.kernel fd with
  | none => BitVec.allOnes 32
  | some file => file.flags

def writeCtx (table : FileTable) (id : Nat) (ctx : FdCtx) : FileTable :=
  { table with manager := { table.manager with objects := table.manager.objects.set id ctx } }

def setfl (table : FileTable) (fd : Nat) (arg : BitVec 32) (accepted : Bool) :
    Result (FileTable × Int) := do
  match ← table.manager.ctxOf fd with
  | none => .ok (table.setflF fd arg accepted)
  | some (id, ctx) =>
      if ctx.isClosed then .ok (table.setflF fd arg accepted)
      else
        let ctx := ctx.setUserNonblock (hasNonblock arg)
        let arg := if ctx.getSysNonblock then arg ||| O_NONBLOCK else arg &&& ~~~O_NONBLOCK
        .ok ((table.writeCtx id ctx).setflF fd arg accepted)

/-- What `F_SETFL` passes on for a context that is not closed. -/
def passedFlags (ctx : FdCtx) (arg : BitVec 32) : BitVec 32 :=
  if (ctx.setUserNonblock (hasNonblock arg)).getSysNonblock then arg ||| O_NONBLOCK
  else arg &&& ~~~O_NONBLOCK

@[simp] theorem passed_flags_nonblock (ctx : FdCtx) (arg : BitVec 32) :
    hasNonblock (passedFlags ctx arg) = hasNonblock arg := by
  cases bit : hasNonblock arg with
  | true => simp [passedFlags, bit, FdCtx.setUserNonblock, FdCtx.getSysNonblock]
  | false => simp [passedFlags, bit, FdCtx.setUserNonblock, FdCtx.getSysNonblock]

/-- `fcntl` with `F_GETFL`. -/
def getfl (table : FileTable) (fd : Nat) : Result (BitVec 32) := do
  let arg := table.getflF fd
  match ← table.manager.ctxOf fd with
  | none => .ok (arg ||| O_NONBLOCK)
  | some (_, ctx) =>
      if ctx.isClosed || !ctx.isSocket then .ok (arg ||| O_NONBLOCK)
      else .ok (arg &&& ~~~O_NONBLOCK)

def initFlags (table : FileTable) (fd : Nat) : FileTable :=
  let flags := table.getflF fd
  if hasNonblock flags then table else (table.setflF fd (flags ||| O_NONBLOCK) true).1

def register (table : FileTable) (fd : Nat) : Result FileTable := do
  match ← table.manager.find fd true with
  | .returns _ => .ok table
  | .creates =>
      let stat := (table.kernel fd).map (·.isSocket)
      let (manager, _) ← table.manager.create fd stat
      let table := { table with manager }
      .ok (if stat = some true then table.initFlags fd else table)

/-- The same registry, and of the flags of a file nothing but `O_NONBLOCK`. -/
def Shown (table : FileTable) (hooks : Hooks) : Prop :=
  hooks.manager = table.manager ∧
    ∀ fd, hooks.kernel fd = (table.kernel fd).map fun file =>
      ⟨file.isSocket, hasNonblock file.flags⟩

theorem setfl_f_shown {table : FileTable} {hooks : Hooks} (shown : table.Shown hooks) (fd : Nat)
    (arg : BitVec 32) :
    (table.setflF fd arg true).1.Shown (hooks.setNonblock fd (hasNonblock arg)) := by
  rcases shown with ⟨manager, kernel⟩
  rw [setflF]
  cases found : table.kernel fd with
  | none =>
      refine ⟨manager, ?_⟩
      intro other
      by_cases same : other = fd
      · simp [Hooks.setNonblock, same, kernel, found]
      · simp [Hooks.setNonblock, same, kernel]
  | some file =>
      refine ⟨manager, ?_⟩
      intro other
      by_cases same : other = fd
      · simp [Hooks.setNonblock, same, kernel, found]
      · simp [Hooks.setNonblock, same, kernel]

theorem ctx_of_hooks (hooks : Hooks) (fd : Nat) : hooks.ctxOf fd = hooks.manager.ctxOf fd := rfl

/-- `F_SETFL`, when the kernel accepts it, is the one of the coarser model. -/
theorem setfl_shown {table : FileTable} {hooks : Hooks} (shown : table.Shown hooks) (fd : Nat)
    (arg : BitVec 32) {after : FileTable} {answer : Int}
    (done : table.setfl fd arg true = .ok (after, answer)) :
    ∃ next, hooks.fcntl fd (hasNonblock arg) = .ok next ∧ after.Shown next := by
  rw [setfl] at done
  rcases bind_eq_ok done with ⟨looked, found, rest⟩
  rw [Hooks.fcntl, ctx_of_hooks, shown.1, found, bind_ok]
  cases looked with
  | none =>
      have result : (table.setflF fd arg true).1 = after := congrArg Prod.fst (Except.ok.inj rest)
      exact ⟨_, rfl, result ▸ setfl_f_shown shown fd arg⟩
  | some entry =>
      rcases entry with ⟨id, ctx⟩
      dsimp only at rest ⊢
      cases closed : ctx.isClosed with
      | true =>
          rw [closed, if_pos rfl] at rest
          have result : (table.setflF fd arg true).1 = after :=
            congrArg Prod.fst (Except.ok.inj rest)
          exact ⟨_, rfl, result ▸ setfl_f_shown shown fd arg⟩
      | false =>
          rw [closed, if_neg Bool.false_ne_true] at rest
          rw [if_neg Bool.false_ne_true]
          have written : (table.writeCtx id (ctx.setUserNonblock (hasNonblock arg))).Shown
              (hooks.writeCtx id (ctx.setUserNonblock (hasNonblock arg))) := by
            refine ⟨?_, shown.2⟩
            rw [Hooks.writeCtx, writeCtx, shown.1]
          have set := setfl_f_shown written fd (passedFlags ctx arg)
          have result : ((table.writeCtx id (ctx.setUserNonblock (hasNonblock arg))).setflF fd
              (passedFlags ctx arg) true).1 = after := congrArg Prod.fst (Except.ok.inj rest)
          rw [passed_flags_nonblock] at set
          exact ⟨_, rfl, result ▸ set⟩

end FileTable

/-- `modes` is a history: for every descriptor that was registered with an open file, whether the
file was non-blocking before, and then what each `F_SETFL` that was successful has asked for, the
latest first. -/
structure FcntlRun where
  table : FileTable
  modes : Nat → List Bool

inductive FcntlAction where
  /-- The kernel gives out a number that is free. -/
  | opens (fd : Nat) (file : File)
  /-- `get(fd, true)` for a descriptor that is open. -/
  | register (fd : Nat)
  | setfl (fd : Nat) (arg : BitVec 32) (accepted : Bool)
  | getfl (fd : Nat)

namespace FcntlRun

def start : FcntlRun := ⟨⟨fun _ => none, .start⟩, fun _ => []⟩

def registers (run : FcntlRun) (fd : Nat) (file : File) : Nat → List Bool :=
  if run.modes fd = [] then Function.update run.modes fd [hasNonblock file.flags] else run.modes

def asks (run : FcntlRun) (fd : Nat) (mode : Bool) : Nat → List Bool :=
  if run.modes fd = [] then run.modes
  else Function.update run.modes fd (mode :: run.modes fd)

def step (run : FcntlRun) : FcntlAction → Option FcntlRun
  | .opens fd file =>
      if run.table.kernel fd = none then
        some { run with
          table := { run.table with kernel := Function.update run.table.kernel fd (some file) } }
      else none
  | .register fd =>
      (run.table.kernel fd).bind fun file =>
        (run.table.register fd).toOption.map fun table => ⟨table, run.registers fd file⟩
  | .setfl fd arg accepted =>
      (run.table.setfl fd arg accepted).toOption.map fun (table, answer) =>
        ⟨table, if answer = 0 then run.asks fd (hasNonblock arg) else run.modes⟩
  | .getfl fd => (run.table.getfl fd).toOption.map fun _ => run

def SocketsNonblock (run : FcntlRun) : Prop :=
  ∀ fd file, run.modes fd ≠ [] → run.table.kernel fd = some file → file.isSocket = true →
    hasNonblock file.flags = true

/-- What the user should see of a step: `F_GETFL` answers with the mode asked for last, and
registered sockets stay as they have to be. -/
def Faithful (run : FcntlRun) (action : FcntlAction) : Prop :=
  ∀ after, run.step action = some after → after.SocketsNonblock ∧
    ∀ fd mode, action = .getfl fd → (run.modes fd).head? = some mode →
      ∃ answer, run.table.getfl fd = .ok answer ∧ hasNonblock answer = mode

/-- `F_SETFL` asks for non-blocking, if it is about a registered socket and is accepted; and
`F_GETFL` is called for a socket while the mode asked for is blocking, for another file while it
is non-blocking. -/
def Plain (run : FcntlRun) (action : FcntlAction) : Prop :=
  match action with
  | .opens _ _ | .register _ => True
  | .setfl fd arg accepted => ∀ file ∈ run.table.kernel fd, run.modes fd ≠ [] →
      file.isSocket = true → accepted = true → hasNonblock arg = true
  | .getfl fd => ∀ file ∈ run.table.kernel fd, ∀ mode ∈ (run.modes fd).head?,
      mode = !file.isSocket

def Describes (manager : FdManager) (fd : Nat) (isSocket : Bool) : Prop :=
  ∃ id ctx, manager.datas[fd]? = some (some id) ∧ manager.objects[id]? = some ctx ∧
    ctx.isClosed = false ∧ ctx.isSocket = isSocket

structure Known (run : FcntlRun) : Prop where
  sized : run.table.manager.datas.length = 64
  present : ∀ fd, run.modes fd ≠ [] →
    ∃ file, run.table.kernel fd = some file ∧ Describes run.table.manager fd file.isSocket
  absent : ∀ fd, run.modes fd = [] → ∀ id, run.table.manager.datas[fd]? ≠ some (some id)

theorem start_known : start.Known where
  sized := List.length_replicate
  present := by simp [start]
  absent := by
    intro fd _ id filled
    exact absurd (List.mem_of_getElem? filled) (by simp [start, FdManager.start])

theorem find_filled {manager : FdManager} (sized : manager.datas.length = 64) {fd id : Nat}
    (filled : manager.datas[fd]? = some (some id)) (autoCreate : Bool) :
    manager.find fd autoCreate = .ok (.returns (some id)) := by
  have inside := (List.getElem?_eq_some_iff.mp filled).1
  rw [FdManager.find, FdManager.length_as_int sized, if_neg (by omega), filled]
  rfl

theorem ctx_of_described {manager : FdManager} (sized : manager.datas.length = 64) {fd : Nat}
    {isSocket : Bool} (describes : Describes manager fd isSocket) :
    ∃ id ctx, manager.ctxOf fd = .ok (some (id, ctx)) ∧ ctx.isClosed = false ∧
      ctx.isSocket = isSocket := by
  rcases describes with ⟨id, ctx, filled, object, closed, socket⟩
  refine ⟨id, ctx, ?_, closed, socket⟩
  rw [FdManager.ctxOf, find_filled sized filled, bind_ok]
  simp only [object]

theorem ctx_of_object {manager : FdManager} {fd id : Nat} {ctx : FdCtx}
    (looked : manager.ctxOf fd = .ok (some (id, ctx))) : manager.objects[id]? = some ctx := by
  rw [FdManager.ctxOf] at looked
  rcases bind_eq_ok looked with ⟨found, _, rest⟩
  split at rest
  · split at rest
    · cases rest
      assumption
    · cases rest
  · cases rest

/-- What the user sets of a context changes nothing of what it says of the file. -/
theorem describes_write_ctx {table : FileTable} {fd id : Nat} {isSocket : Bool} {ctx : FdCtx}
    (mode : Bool) (object : table.manager.objects[id]? = some ctx)
    (describes : Describes table.manager fd isSocket) :
    Describes (table.writeCtx id (ctx.setUserNonblock mode)).manager fd isSocket := by
  rcases describes with ⟨other, before, filled, found, closed, socket⟩
  by_cases same : id = other
  · subst same
    rw [object] at found
    cases found
    refine ⟨id, ctx.setUserNonblock mode, filled, ?_, closed, socket⟩
    have inside := (List.getElem?_eq_some_iff.mp object).1
    exact List.getElem?_set_self inside
  · exact ⟨other, before, filled, (List.getElem?_set_ne same).trans found, closed, socket⟩

theorem setfl_f_cases (table : FileTable) (fd : Nat) (arg : BitVec 32) (accepted : Bool) :
    (table.setflF fd arg accepted).1.manager = table.manager ∧
    ((table.setflF fd arg accepted).2 = 0 ∧ accepted = true ∧
      (∃ file, table.kernel fd = some file ∧ (table.setflF fd arg accepted).1.kernel =
        Function.update table.kernel fd
          (some { file with flags := changedFlags file.flags arg })) ∨
    (table.setflF fd arg accepted).2 = -1 ∧ (table.setflF fd arg accepted).1 = table ∧
      (accepted = true → table.kernel fd = none)) := by
  cases found : table.kernel fd with
  | none => simp [FileTable.setflF, found]
  | some file =>
      cases accepted with
      | true => simp [FileTable.setflF, found]
      | false => simp [FileTable.setflF, found]

/-- What an `F_SETFL` leaves behind: where the kernel accepts it, the file has the mode that was
asked for. -/
theorem setfl_cases {table after : FileTable} {fd : Nat} {arg : BitVec 32} {accepted : Bool}
    {answer : Int} (done : table.setfl fd arg accepted = .ok (after, answer)) :
    after.manager.datas = table.manager.datas ∧
    (∀ other isSocket, Describes table.manager other isSocket →
      Describes after.manager other isSocket) ∧
    (answer = 0 ∧ accepted = true ∧
      (∃ file flags, table.kernel fd = some file ∧ hasNonblock flags = hasNonblock arg ∧
        after.kernel = Function.update table.kernel fd (some { file with flags })) ∨
    answer = -1 ∧ after.kernel = table.kernel ∧ (accepted = true → table.kernel fd = none)) := by
  have plain : ∀ (before : FileTable) (passed : BitVec 32), before.kernel = table.kernel →
      hasNonblock passed = hasNonblock arg → before.setflF fd passed accepted = (after, answer) →
      after.manager = before.manager ∧
      (answer = 0 ∧ accepted = true ∧
        (∃ file flags, table.kernel fd = some file ∧ hasNonblock flags = hasNonblock arg ∧
          after.kernel = Function.update table.kernel fd (some { file with flags })) ∨
      answer = -1 ∧ after.kernel = table.kernel ∧ (accepted = true → table.kernel fd = none)) := by
    intro before passed kernel mode called
    have parts := setfl_f_cases before fd passed accepted
    rw [called, kernel] at parts
    rcases parts with ⟨manager, ⟨zero, taken, file, found, written⟩ | ⟨refused, same, closed⟩⟩
    · refine ⟨manager, .inl ⟨zero, taken, file, changedFlags file.flags passed, found, ?_, written⟩⟩
      rw [has_nonblock_changed, mode]
    · refine ⟨manager, .inr ⟨refused, ?_, closed⟩⟩
      rw [show after = before from same, kernel]
  rw [FileTable.setfl] at done
  rcases bind_eq_ok done with ⟨looked, found, rest⟩
  cases looked with
  | none =>
      have effect := plain table arg rfl rfl (Except.ok.inj rest)
      rw [effect.1]
      exact ⟨rfl, fun _ _ describes => describes, effect.2⟩
  | some entry =>
      rcases entry with ⟨id, ctx⟩
      dsimp only at rest
      split at rest
      · have effect := plain table arg rfl rfl (Except.ok.inj rest)
        rw [effect.1]
        exact ⟨rfl, fun _ _ describes => describes, effect.2⟩
      · have effect := plain (table.writeCtx id (ctx.setUserNonblock (hasNonblock arg)))
          (FileTable.passedFlags ctx arg) rfl (FileTable.passed_flags_nonblock ctx arg)
          (Except.ok.inj rest)
        rw [effect.1]
        refine ⟨rfl, ?_, effect.2⟩
        intro other isSocket describes
        exact describes_write_ctx _ (ctx_of_object found) describes

theorem init_flags_cases {table : FileTable} {fd : Nat} {file : File}
    (found : table.kernel fd = some file) :
    (table.initFlags fd).manager = table.manager ∧ ∃ flags, hasNonblock flags = true ∧
      (table.initFlags fd).kernel = Function.update table.kernel fd (some { file with flags }) := by
  have read : table.getflF fd = file.flags := by rw [FileTable.getflF, found]
  rw [FileTable.initFlags, read]
  cases bit : hasNonblock file.flags with
  | true =>
      refine ⟨rfl, file.flags, bit, ?_⟩
      rw [if_pos rfl]
      exact (Function.update_eq_self_iff.mpr found.symm).symm
  | false =>
      rw [if_neg Bool.false_ne_true]
      have parts := setfl_f_cases table fd (file.flags ||| O_NONBLOCK) true
      rcases parts with ⟨manager, ⟨_, _, other, here, written⟩ | ⟨_, _, closed⟩⟩
      · rw [found] at here
        cases here
        exact ⟨manager, _, by simp, written⟩
      · rw [closed rfl] at found
        cases found

theorem create_cases {manager after : FdManager} {fd id : Nat} {stat : Option Bool}
    (sized : manager.datas.length = 64)
    (vacant : ∀ id, manager.datas[fd]? ≠ some (some id))
    (created : manager.create fd stat = .ok (after, id)) :
    after.datas.length = 64 ∧ Describes after fd (stat == some true) ∧
    (∀ other isSocket, Describes manager other isSocket → Describes after other isSocket) ∧
    ∀ other ≠ fd, after.datas[other]? = manager.datas[other]? := by
  rw [FdManager.create] at created
  split at created
  · cases created
    refine ⟨by rw [List.length_set, sized], ?_, ?_, ?_⟩
    · exact ⟨manager.objects.length, _, List.getElem?_set_self ‹_›, List.getElem?_concat_length,
        rfl, rfl⟩
    · rintro other isSocket ⟨id, ctx, filled, object, described⟩
      have different : fd ≠ other := fun same => vacant id (same ▸ filled)
      have inside := (List.getElem?_eq_some_iff.mp object).1
      refine ⟨id, ctx, (List.getElem?_set_ne different).trans filled, ?_, described⟩
      exact (List.getElem?_append_left inside).trans object
    · intro other different
      exact List.getElem?_set_ne (Ne.symm different)
  · cases created

/-- A first `get(fd, true)` makes a context for the file, and a socket non-blocking; a later one
does nothing. -/
theorem register_cases {table after : FileTable} {fd : Nat} {file : File}
    (sized : table.manager.datas.length = 64) (found : table.kernel fd = some file)
    (done : table.register fd = .ok after) :
    after.manager.datas.length = 64 ∧
    (∀ other isSocket, Describes table.manager other isSocket →
      Describes after.manager other isSocket) ∧
    (∀ other ≠ fd, after.manager.datas[other]? = table.manager.datas[other]?) ∧
    ((∃ id, table.manager.datas[fd]? = some (some id)) ∧ after.kernel = table.kernel ∨
      Describes after.manager fd file.isSocket ∧ ∃ flags,
        (file.isSocket = true → hasNonblock flags = true) ∧
        after.kernel = Function.update table.kernel fd (some { file with flags })) := by
  rw [FileTable.register] at done
  rcases bind_eq_ok done with ⟨looked, searched, rest⟩
  rcases FdManager.find_cases sized fd true with creates | ⟨ctx, returns, slot, given⟩
  · rw [searched] at creates
    cases creates
    dsimp only at rest
    rcases bind_eq_ok rest with ⟨⟨manager, id⟩, created, ended⟩
    have vacant : ∀ id, table.manager.datas[fd]? ≠ some (some id) := by
      intro id filled
      rw [find_filled sized filled true] at searched
      cases searched
    rcases create_cases sized vacant created with ⟨length, new, kept, others⟩
    rw [found, Option.map_some] at new ended
    dsimp only at ended
    cases socket : file.isSocket with
    | true =>
        rw [socket] at new ended
        rw [if_pos rfl] at ended
        rcases @init_flags_cases { table with manager } fd file found with
          ⟨same, flags, mode, kernel⟩
        rw [Except.ok.inj ended] at same kernel
        rw [same]
        rw [socket] at kernel
        exact ⟨length, kept, others, .inr ⟨new, flags, fun _ => mode, kernel⟩⟩
    | false =>
        rw [socket] at new ended
        rw [if_neg (by simp)] at ended
        rw [← Except.ok.inj ended]
        have unchanged : (⟨false, file.flags⟩ : File) = file := by rw [← socket]
        refine ⟨length, kept, others, .inr ⟨new, file.flags, by simp, ?_⟩⟩
        rw [unchanged]
        exact (Function.update_eq_self_iff.mpr found.symm).symm
  · rw [searched] at returns
    cases returns
    cases rest
    rcases Option.ne_none_iff_exists'.mp (given rfl) with ⟨id, same⟩
    exact ⟨sized, fun _ _ describes => describes, fun _ _ => rfl,
      .inl ⟨⟨id, (slot id).mp same⟩, rfl⟩⟩

theorem getfl_of_described {table : FileTable} (sized : table.manager.datas.length = 64)
    {fd : Nat} {isSocket : Bool} (describes : Describes table.manager fd isSocket) :
    ∃ answer, table.getfl fd = .ok answer ∧ hasNonblock answer = !isSocket := by
  rcases ctx_of_described sized describes with ⟨id, ctx, looked, closed, socket⟩
  rw [FileTable.getfl, looked, bind_ok]
  simp only [closed, socket, Bool.false_or]
  cases isSocket with
  | true => exact ⟨_, rfl, by simp⟩
  | false => exact ⟨_, rfl, by simp⟩

theorem setfl_of_described {table : FileTable} (sized : table.manager.datas.length = 64)
    {fd : Nat} {isSocket : Bool} (describes : Describes table.manager fd isSocket)
    (arg : BitVec 32) (accepted : Bool) :
    ∃ after answer, table.setfl fd arg accepted = .ok (after, answer) := by
  rcases ctx_of_described sized describes with ⟨id, ctx, looked, closed, _⟩
  rw [FileTable.setfl, looked, bind_ok]
  simp only [closed, Bool.false_eq_true, if_false]
  exact ⟨_, _, rfl⟩

variable {run after : FcntlRun}

theorem asks_eq_nil {fd other : Nat} {mode : Bool} :
    run.asks fd mode other = [] ↔ run.modes other = [] := by
  rw [asks]
  split
  · rfl
  · by_cases same : other = fd
    · subst same
      simpa using ‹_›
    · rw [Function.update_of_ne same]

theorem registers_eq_nil {fd other : Nat} {file : File} :
    run.registers fd file other = [] ↔ other ≠ fd ∧ run.modes other = [] := by
  rw [registers]
  split
  · by_cases same : other = fd
    · simp [same]
    · simp [same]
  · by_cases same : other = fd
    · subst same
      simpa using ‹_›
    · simp [same]

namespace Known

theorem opens (known : run.Known) {fd : Nat} (free : run.table.kernel fd = none) (file : File) :
    Known { run with
      table := { run.table with kernel := Function.update run.table.kernel fd (some file) } } where
  sized := known.sized
  present := by
    intro other registered
    rcases known.present other registered with ⟨before, found, describes⟩
    have different : other ≠ fd := by
      intro same
      rw [same, free] at found
      cases found
    exact ⟨before, (Function.update_of_ne different _ _).trans found, describes⟩
  absent := known.absent

theorem register (known : run.Known) {fd : Nat} {file : File} {table : FileTable}
    (found : run.table.kernel fd = some file) (done : run.table.register fd = .ok table) :
    Known ⟨table, run.registers fd file⟩ := by
  rcases register_cases known.sized found done with ⟨sized, kept, others, slot⟩
  refine ⟨sized, ?_, ?_⟩
  · intro other registered
    rw [ne_eq, registers_eq_nil, not_and_or, not_not] at registered
    by_cases same : other = fd
    · subst same
      rcases slot with ⟨⟨id, filled⟩, kernel⟩ | ⟨describes, flags, _, kernel⟩
      · have before : run.modes other ≠ [] := fun empty => known.absent other empty id filled
        rcases known.present other before with ⟨file, here, describes⟩
        exact ⟨file, (congrFun kernel other).trans here, kept other _ describes⟩
      · refine ⟨{ file with flags }, ?_, describes⟩
        rw [kernel, Function.update_self]
    · rcases known.present other (registered.resolve_left same) with ⟨before, here, describes⟩
      refine ⟨before, ?_, kept other _ describes⟩
      rcases slot with ⟨_, kernel⟩ | ⟨_, _, _, kernel⟩
      · rw [kernel, here]
      · rw [kernel, Function.update_of_ne same, here]
  · intro other empty id filled
    rcases registers_eq_nil.mp empty with ⟨different, before⟩
    rw [others other different] at filled
    exact known.absent other before id filled

theorem setfl (known : run.Known) {fd : Nat} {arg : BitVec 32} {accepted : Bool}
    {table : FileTable} {answer : Int}
    (done : run.table.setfl fd arg accepted = .ok (table, answer)) :
    Known ⟨table, if answer = 0 then run.asks fd (hasNonblock arg) else run.modes⟩ := by
  rcases setfl_cases done with ⟨datas, kept, effect⟩
  have empty : ∀ other, (if answer = 0 then run.asks fd (hasNonblock arg) else run.modes) other =
      [] ↔ run.modes other = [] := by
    intro other
    split
    · exact asks_eq_nil
    · rfl
  refine ⟨?_, ?_, ?_⟩
  · rw [datas, known.sized]
  · intro other registered
    rw [ne_eq, empty] at registered
    rcases known.present other registered with ⟨before, found, describes⟩
    rcases effect with ⟨_, _, file, flags, here, _, kernel⟩ | ⟨_, kernel, _⟩
    · by_cases same : other = fd
      · subst same
        rw [found] at here
        cases here
        refine ⟨{ before with flags }, ?_, kept other _ describes⟩
        rw [kernel, Function.update_self]
      · refine ⟨before, ?_, kept other _ describes⟩
        rw [kernel, Function.update_of_ne same, found]
    · exact ⟨before, (congrFun kernel other).trans found, kept other _ describes⟩
  · intro other none id filled
    rw [datas] at filled
    exact known.absent other ((empty other).mp none) id filled

end Known

theorem ok_of_to_option {Value : Type} {result : Result Value} {value : Value}
    (returned : result.toOption = some value) : result = .ok value := by
  cases result with
  | error fault => cases returned
  | ok other => exact congrArg Except.ok (Option.some.inj returned)

theorem step_opens {fd : Nat} {file : File} (taken : run.step (.opens fd file) = some after) :
    run.table.kernel fd = none ∧ after = { run with
      table := { run.table with kernel := Function.update run.table.kernel fd (some file) } } := by
  rw [step] at taken
  split at taken
  · exact ⟨‹_›, (Option.some.inj taken).symm⟩
  · cases taken

theorem step_register {fd : Nat} (taken : run.step (.register fd) = some after) :
    ∃ file table, run.table.kernel fd = some file ∧ run.table.register fd = .ok table ∧
      after = ⟨table, run.registers fd file⟩ := by
  rw [step] at taken
  rcases Option.bind_eq_some_iff.mp taken with ⟨file, found, rest⟩
  rcases Option.map_eq_some_iff.mp rest with ⟨table, returned, same⟩
  exact ⟨file, table, found, ok_of_to_option returned, same.symm⟩

theorem step_setfl {fd : Nat} {arg : BitVec 32} {accepted : Bool}
    (taken : run.step (.setfl fd arg accepted) = some after) :
    ∃ table answer, run.table.setfl fd arg accepted = .ok (table, answer) ∧
      after = ⟨table, if answer = 0 then run.asks fd (hasNonblock arg) else run.modes⟩ := by
  rw [step] at taken
  rcases Option.map_eq_some_iff.mp taken with ⟨⟨table, answer⟩, returned, same⟩
  exact ⟨table, answer, ok_of_to_option returned, same.symm⟩

theorem step_getfl {fd : Nat} (taken : run.step (.getfl fd) = some after) : after = run := by
  rw [step] at taken
  rcases Option.map_eq_some_iff.mp taken with ⟨_, _, same⟩
  exact same.symm

theorem step_known {action : FcntlAction} (known : run.Known)
    (taken : run.step action = some after) : after.Known := by
  cases action with
  | opens fd file =>
      rcases step_opens taken with ⟨free, same⟩
      rw [same]
      exact known.opens free file
  | register fd =>
      rcases step_register taken with ⟨file, table, found, done, same⟩
      rw [same]
      exact known.register found done
  | setfl fd arg accepted =>
      rcases step_setfl taken with ⟨table, answer, done, same⟩
      rw [same]
      exact known.setfl done
  | getfl fd =>
      rw [step_getfl taken]
      exact known

theorem faithful_opens (known : run.Known) (sockets : run.SocketsNonblock) (fd : Nat)
    (file : File) : run.Faithful (.opens fd file) := by
  intro after taken
  refine ⟨?_, by simp⟩
  rcases step_opens taken with ⟨free, same⟩
  rw [same]
  intro other before registered found socket
  have different : other ≠ fd := by
    intro same
    rcases known.present other registered with ⟨_, here, _⟩
    rw [same, free] at here
    cases here
  simp only [Function.update_of_ne different] at found
  exact sockets other before registered found socket

theorem faithful_register (known : run.Known) (sockets : run.SocketsNonblock) (fd : Nat) :
    run.Faithful (.register fd) := by
  intro after taken
  refine ⟨?_, by simp⟩
  rcases step_register taken with ⟨file, table, found, done, same⟩
  rw [same]
  rcases register_cases known.sized found done with ⟨_, _, _, slot⟩
  intro other before registered here socket
  rw [ne_eq, registers_eq_nil, not_and_or, not_not] at registered
  rcases slot with ⟨⟨id, filled⟩, kernel⟩ | ⟨_, flags, mode, kernel⟩
  · have earlier : run.modes other ≠ [] := by
      rcases registered with same | earlier
      · intro empty
        exact known.absent fd (same ▸ empty) id filled
      · exact earlier
    exact sockets other before earlier ((congrFun kernel other).symm.trans here) socket
  · by_cases same : other = fd
    · subst same
      simp only [kernel, Function.update_self, Option.some.injEq] at here
      rw [← here] at socket ⊢
      exact mode socket
    · simp only [kernel, Function.update_of_ne same] at here
      exact sockets other before (registered.resolve_left same) here socket

/-- After an `F_SETFL` a registered socket is non-blocking just if the user has asked for it. -/
theorem faithful_setfl_iff (known : run.Known) (sockets : run.SocketsNonblock) (fd : Nat)
    (arg : BitVec 32) (accepted : Bool) :
    run.Faithful (.setfl fd arg accepted) ↔ run.Plain (.setfl fd arg accepted) := by
  constructor
  · intro faithful file found registered socket taken
    rcases known.present fd registered with ⟨other, here, describes⟩
    rcases setfl_of_described known.sized describes arg accepted with ⟨table, answer, done⟩
    have stepped : run.step (.setfl fd arg accepted) = some ⟨table,
        if answer = 0 then run.asks fd (hasNonblock arg) else run.modes⟩ := by
      rw [step, done]
      rfl
    have still := (faithful _ stepped).1
    rcases (setfl_cases done).2.2 with ⟨zero, _, before, flags, present, mode, kernel⟩ |
      ⟨_, _, closed⟩
    · rw [Option.mem_def.mp found] at present
      cases present
      have same : table.kernel fd = some { file with flags } := by
        rw [kernel, Function.update_self]
      have kept : (if answer = 0 then run.asks fd (hasNonblock arg) else run.modes) fd ≠ [] := by
        rw [if_pos zero, ne_eq, asks_eq_nil]
        exact registered
      rw [← mode]
      exact still fd _ kept same socket
    · rw [closed taken] at here
      cases here
  · intro plain after stepped
    refine ⟨?_, by simp⟩
    rcases step_setfl stepped with ⟨table, answer, done, same⟩
    rw [same]
    intro other before registered here socket
    have earlier : run.modes other ≠ [] := by
      by_cases zero : answer = 0
      · simpa [zero, asks_eq_nil] using registered
      · simpa [zero] using registered
    rcases (setfl_cases done).2.2 with ⟨zero, taken, file, flags, present, mode, kernel⟩ |
      ⟨_, kernel, _⟩
    · by_cases same : other = fd
      · subst same
        simp only [kernel, Function.update_self, Option.some.injEq] at here
        rw [← here] at socket ⊢
        rw [show hasNonblock flags = hasNonblock arg from mode]
        exact plain file present earlier socket taken
      · simp only [kernel, Function.update_of_ne same] at here
        exact sockets other before earlier here socket
    · exact sockets other before earlier ((congrFun kernel other).symm.trans here) socket

theorem faithful_getfl_iff (known : run.Known) (sockets : run.SocketsNonblock) (fd : Nat) :
    run.Faithful (.getfl fd) ↔ run.Plain (.getfl fd) := by
  constructor
  · intro faithful file found mode asked
    have registered : run.modes fd ≠ [] := by
      intro empty
      simp [empty] at asked
    rcases known.present fd registered with ⟨other, here, describes⟩
    rw [Option.mem_def.mp found] at here
    cases here
    rcases getfl_of_described known.sized describes with ⟨answer, done, bit⟩
    have stepped : run.step (.getfl fd) = some run := by
      rw [step, done]
      rfl
    rcases (faithful run stepped).2 fd mode rfl asked with ⟨other, again, same⟩
    rw [done] at again
    cases again
    rw [← same, bit]
  · intro plain after stepped
    rw [step_getfl stepped]
    refine ⟨sockets, ?_⟩
    intro other mode same asked
    cases same
    have registered : run.modes fd ≠ [] := by
      intro empty
      simp [empty] at asked
    rcases known.present fd registered with ⟨file, here, describes⟩
    rcases getfl_of_described known.sized describes with ⟨answer, again, bit⟩
    exact ⟨answer, again, bit.trans (plain file here mode asked).symm⟩

theorem faithful_iff (known : run.Known) (sockets : run.SocketsNonblock)
    (action : FcntlAction) : run.Faithful action ↔ run.Plain action := by
  cases action with
  | opens fd file => exact iff_of_true (faithful_opens known sockets fd file) trivial
  | register fd => exact iff_of_true (faithful_register known sockets fd) trivial
  | setfl fd arg accepted => exact faithful_setfl_iff known sockets fd arg accepted
  | getfl fd => exact faithful_getfl_iff known sockets fd

end FcntlRun

open FcntlRun

/-- In a run the user sees the modes that were asked for and sockets stay non-blocking just if
every step is one in which the mode of the user need not be told from the one of the system. -/
theorem fcntl_view_iff (actions : List FcntlAction) (last : FcntlRun) :
    Transition.Runs FcntlRun.step Faithful start actions last ↔
      Transition.Runs FcntlRun.step Plain start actions last := by
  have agree : ∀ run action, FcntlRun.Known run ∧ run.SocketsNonblock →
      (run.Faithful action ↔ run.Plain action) :=
    fun run action holds => faithful_iff holds.1 holds.2 action
  apply Transition.runs_congr agree
  · intro run action after holds faithful taken
    exact ⟨step_known holds.1 taken, (faithful after taken).1⟩
  · exact ⟨start_known, by simp [SocketsNonblock, start]⟩

/-- A socket that was made non-blocking reads as blocking, and one that was set to blocking is
blocking in the kernel; a pipe that is blocking reads as non-blocking. -/
theorem fcntl_view_lost :
    (∃ run, Transition.Reaches FcntlRun.step (fun _ _ => True) start run ∧
      (run.modes 5).head? = some true ∧
      (run.table.getfl 5).toOption.map hasNonblock = some false) ∧
    (∃ run, Transition.Reaches FcntlRun.step (fun _ _ => True) start run ∧
      run.modes 5 = [false, false] ∧
      (run.table.kernel 5).any (fun file => file.isSocket && !hasNonblock file.flags) = true) ∧
    ∃ run, Transition.Reaches FcntlRun.step (fun _ _ => True) start run ∧
      run.modes 6 = [false] ∧
      (run.table.getfl 6).toOption.map hasNonblock = some true := by
  refine ⟨?_, ?_, ?_⟩
  · apply Transition.exists_of_run [.opens 5 ⟨true, 2⟩, .register 5, .setfl 5 0x802 true]
    decide +kernel
  · apply Transition.exists_of_run [.opens 5 ⟨true, 2⟩, .register 5, .setfl 5 2 true]
    decide +kernel
  · apply Transition.exists_of_run [.opens 6 ⟨false, 0⟩, .register 6]
    decide +kernel

end ChatServer.Fiber
