import ChatServer.Machine
import Mathlib.Data.List.Basic

/-!
# Compressing through buffers of one size

`ZlibStream` of `zlib_stream.cc`. Each piece that is written is given to zlib once for every buffer
that it fills; the last buffer is filled up before a new one is made. What `deflate` and `inflate`
promise is taken from the manual: they stop when the input is empty or the output is full, and with
`Z_FINISH` and room left the output is complete.
-/

namespace ChatServer.Streams

set_option autoImplicit false

structure ZStep (State : Type) where
  ret : Int
  state : State
  consumed : Nat
  output : Str

/-- `deflate` or `inflate`, given the input, `avail_out`, and whether `flush` is `Z_FINISH`. -/
structure Zlib (State : Type) where
  init : State
  run : State → Str → Nat → Bool → ZStep State

def zStreamError : Int := -2

structure ZlibStream (State : Type) where
  buffs : List Str
  zstream : State
  buffSize : Nat

namespace ZlibStream

variable {State : Type}

def create (zlib : Zlib State) (buffSize : Nat) : ZlibStream State := ⟨[], zlib.init, buffSize⟩

def nextBuffer (self : ZlibStream State) : List Str × Str :=
  match self.buffs.getLast? with
  | none => (self.buffs, [])
  | some last =>
      if last.length ≠ self.buffSize then (self.buffs.dropLast, last) else (self.buffs, [])

def fill (zlib : Zlib State) (finish : Bool) :
    Nat → ZlibStream State → Str → Result (Int × ZlibStream State)
  | 0, _, _ => .error (.undefined .endlessLoop)
  | rounds + 1, self, input =>
      let (front, ivc) := self.nextBuffer
      let availOut := self.buffSize - ivc.length
      let step := zlib.run self.zstream input availOut finish
      if step.ret = zStreamError then
        .ok (step.ret, { self with buffs := front ++ [ivc], zstream := step.state })
      else
        let self := { self with buffs := front ++ [ivc ++ step.output], zstream := step.state }
        if step.output.length = availOut then fill zlib finish rounds self (input.drop step.consumed)
        else .ok (0, self)

/-- `encode` and `decode`; `avail_in` has 32 bits. -/
def encode (zlib : Zlib State) (rounds : Nat) (finish : Bool) :
    ZlibStream State → List Str → Result (Int × ZlibStream State)
  | self, [] => .ok (0, self)
  | self, piece :: later => do
      let (ret, self) ←
        fill zlib (finish && later.isEmpty) rounds self (piece.take (piece.length % 2 ^ 32))
      if ret = zStreamError then .ok (ret, self) else encode zlib rounds finish self later

def flush (zlib : Zlib State) (rounds : Nat) (self : ZlibStream State) :
    Result (Int × ZlibStream State) :=
  encode zlib rounds true self [[]]

def getResult (self : ZlibStream State) : Str := self.buffs.flatten

/-- Calls of `write`, each with its pieces, and `close`. Nobody looks at what they return. -/
def writeAll (zlib : Zlib State) (rounds : Nat) :
    ZlibStream State → List (List Str) → Result (ZlibStream State)
  | self, [] => do
      let (_, self) ← flush zlib rounds self
      .ok self
  | self, pieces :: later => do
      let (_, self) ← encode zlib rounds false self pieces
      writeAll zlib rounds self later

/-- A whole text, in one write, through a stream with buffers of the default size. -/
def convert (zlib : Zlib State) (rounds : Nat) (pieces : List Str) : Result Str := do
  let self ← writeAll zlib rounds (create zlib 4096) [pieces]
  .ok self.getResult

/-- With `Z_FINISH` the input ends, and calls behind it bring no other one. -/
def Ordered (mode : Option Str) (finish : Bool) (whole : Str) : Prop :=
  ∀ ended ∈ mode, finish = true ∧ whole = ended

/-- `holds` says what was taken and given so far, and what the input is altogether once `Z_FINISH`
was there. `takes` are the inputs that are sensible, `done` is what is known when a call leaves
room. -/
structure WorksBy (zlib : Zlib State) (takes : Str → Prop) (done : Bool → Str → Str → Prop)
    (holds : State → Option Str → Str → Str → Prop) (limit : Str → Nat) : Prop where
  start : holds zlib.init none [] []
  step : ∀ {state mode fed out finish input availOut}, holds state mode fed out →
    Ordered mode finish (fed ++ input) → takes (fed ++ input) → 0 < availOut →
      let next := zlib.run state input availOut finish
      next.ret ≠ zStreamError ∧ next.output.length ≤ availOut ∧
      holds next.state (if finish then some (fed ++ input) else none)
        (fed ++ input.take next.consumed) (out ++ next.output) ∧
      (next.output.length < availOut →
        input.length ≤ next.consumed ∧ done finish (fed ++ input) (out ++ next.output))
  bounded : ∀ {state mode fed out whole}, holds state mode fed out → fed <+: whole →
    takes whole → out.length ≤ limit whole

def Works (zlib : Zlib State) (takes : Str → Prop) (done : Bool → Str → Str → Prop) : Prop :=
  ∃ holds limit, WorksBy zlib takes done holds limit

/-- Every buffer but the last one is full, and the last one is not too large. -/
structure Packed (stream : ZlibStream State) : Prop where
  room : 0 < stream.buffSize
  full : ∀ buff ∈ stream.buffs.dropLast, buff.length = stream.buffSize
  last : ∀ buff ∈ stream.buffs, buff.length ≤ stream.buffSize

variable {zlib : Zlib State} {takes : Str → Prop} {done : Bool → Str → Str → Prop}
  {holds : State → Option Str → Str → Str → Prop} {limit : Str → Nat} {self : ZlibStream State}

/-- The next buffer has room, and everything in front of it is full. -/
theorem next_buffer_packed (packed : self.Packed) :
    (self.nextBuffer.1 ++ [self.nextBuffer.2]).flatten = self.getResult ∧
      self.nextBuffer.2.length < self.buffSize ∧
      ∀ buff ∈ self.nextBuffer.1, buff.length = self.buffSize := by
  rw [nextBuffer]
  cases filled : self.buffs.getLast? with
  | none =>
      have empty := List.getLast?_eq_none_iff.mp filled
      rw [empty, getResult, empty]
      exact ⟨rfl, packed.room, nofun⟩
  | some last =>
      obtain ⟨front, same⟩ := List.getLast?_eq_some_iff.mp filled
      dsimp only
      by_cases full : last.length = self.buffSize
      · rw [if_neg (not_not.mpr full)]
        refine ⟨?_, packed.room, ?_⟩
        · rw [List.flatten_append, getResult, List.flatten_singleton, List.append_nil]
        · intro buff member
          rw [same] at member
          rcases List.mem_append.mp member with early | final
          · apply packed.full
            rw [same, List.dropLast_concat]
            exact early
          · rw [List.mem_singleton.mp final]
            exact full
      · rw [if_pos full]
        have short := packed.last last (List.mem_of_getLast? filled)
        refine ⟨?_, Nat.lt_of_le_of_ne short full, packed.full⟩
        rw [getResult]
        dsimp only
        rw [same, List.dropLast_concat]

structure Stands (holds : State → Option Str → Str → Str → Prop) (stream : ZlibStream State)
    (mode : Option Str) (fed : Str) : Prop where
  holds : holds stream.zstream mode fed stream.getResult
  packed : stream.Packed

/-- What `deflate` or `inflate` does with the next buffer. -/
def nextStep (zlib : Zlib State) (finish : Bool) (self : ZlibStream State) (input : Str) :
    ZStep State :=
  zlib.run self.zstream input (self.buffSize - self.nextBuffer.2.length) finish

def fillNext (zlib : Zlib State) (finish : Bool) (self : ZlibStream State) (input : Str) :
    ZlibStream State :=
  { self with
    buffs := self.nextBuffer.1 ++ [self.nextBuffer.2 ++ (nextStep zlib finish self input).output]
    zstream := (nextStep zlib finish self input).state }

theorem fill_next_works (works : WorksBy zlib takes done holds limit) {mode : Option Str}
    {finish : Bool} {fed input : Str} (ordered : Ordered mode finish (fed ++ input))
    (sensible : takes (fed ++ input)) (stands : Stands holds self mode fed) :
    let step := nextStep zlib finish self input
    let after := fillNext zlib finish self input
    let availOut := self.buffSize - self.nextBuffer.2.length
    step.ret ≠ zStreamError ∧ 0 < availOut ∧
      Stands holds after (if finish then some (fed ++ input) else none)
        (fed ++ input.take step.consumed) ∧
      after.getResult.length = self.getResult.length + step.output.length ∧
      (step.output.length ≠ availOut →
        input.length ≤ step.consumed ∧ done finish (fed ++ input) after.getResult) := by
  intro step after availOut
  obtain ⟨joined, short, full⟩ := next_buffer_packed stands.packed
  have room : 0 < availOut := Nat.sub_pos_of_lt short
  obtain ⟨fine, fits, follows, left⟩ := works.step stands.holds ordered sensible room
  have result : after.getResult = self.getResult ++ step.output := by
    rw [← joined, getResult]
    simp only [after, fillNext, List.flatten_append, List.flatten_singleton, List.append_assoc]
    rfl
  refine ⟨fine, room, ⟨?_, stands.packed.room, ?_, ?_⟩, ?_, ?_⟩
  · rw [result]
    exact follows
  · intro buff member
    apply full
    simp only [after, fillNext, List.dropLast_concat] at member
    exact member
  · intro buff member
    rcases List.mem_append.mp member with early | final
    · exact Nat.le_of_eq (full buff early)
    · rw [List.mem_singleton.mp final, List.length_append]
      have fits : step.output.length ≤ self.buffSize - self.nextBuffer.2.length := fits
      change self.nextBuffer.2.length + step.output.length ≤ self.buffSize
      omega
  · rw [result, List.length_append]
  · intro unfilled
    rw [result]
    exact left (Nat.lt_of_le_of_ne fits unfilled)

theorem fill_eq (zlib : Zlib State) (finish : Bool) (rounds : Nat) (self : ZlibStream State)
    (input : Str) (fine : (nextStep zlib finish self input).ret ≠ zStreamError) :
    fill zlib finish (rounds + 1) self input =
      if (nextStep zlib finish self input).output.length =
          self.buffSize - self.nextBuffer.2.length then
        fill zlib finish rounds (fillNext zlib finish self input)
          (input.drop (nextStep zlib finish self input).consumed)
      else .ok (0, fillNext zlib finish self input) := by
  rw [fill]
  exact if_neg fine

theorem ordered_again (finish : Bool) (whole : Str) :
    Ordered (if finish then some whole else none) finish whole := by
  intro ended member
  cases finish with
  | false => cases member
  | true => exact ⟨rfl, Option.some.inj member⟩

/-- The whole piece is taken, and the last call leaves room. -/
theorem fill_works (works : WorksBy zlib takes done holds limit) {finish : Bool} {whole : Str}
    (sensible : takes whole) (count : Nat) :
    ∀ {self : ZlibStream State} {mode : Option Str} {fed input : Str}, Ordered mode finish whole →
      fed ++ input = whole → Stands holds self mode fed →
      limit whole < self.getResult.length + count →
      ∃ after, (∀ rounds, count ≤ rounds → fill zlib finish rounds self input = .ok (0, after)) ∧
        Stands holds after (if finish then some whole else none) whole ∧
        done finish whole after.getResult := by
  induction count with
  | zero =>
      intro self mode fed input _ same stands few
      have bound := works.bounded stands.holds ⟨input, same⟩ sensible
      omega
  | succ count induction =>
      intro self mode fed input ordered same stands few
      rw [← same] at sensible ordered
      obtain ⟨fine, room, follows, grown, left⟩ :=
        fill_next_works works ordered sensible stands
      rw [same] at follows
      by_cases filled : (nextStep zlib finish self input).output.length =
          self.buffSize - self.nextBuffer.2.length
      · have rest : fed ++ input.take (nextStep zlib finish self input).consumed ++
            input.drop (nextStep zlib finish self input).consumed = whole := by
          rw [List.append_assoc, List.take_append_drop, same]
        obtain ⟨after, looped, stands, finished⟩ :=
          induction (ordered_again finish whole) rest follows (by omega)
        refine ⟨after, ?_, stands, finished⟩
        intro rounds enough
        obtain ⟨more, rfl⟩ := Nat.exists_eq_add_of_le' enough
        rw [← Nat.add_assoc, fill_eq zlib finish _ self input fine, if_pos filled]
        exact looped _ (Nat.le_add_left _ _)
      · obtain ⟨all, finished⟩ := left filled
        rw [List.take_of_length_le all, same] at follows
        rw [same] at finished
        refine ⟨_, ?_, follows, finished⟩
        intro rounds enough
        obtain ⟨more, rfl⟩ := Nat.exists_eq_add_of_le' enough
        rw [← Nat.add_assoc, fill_eq zlib finish _ self input fine, if_neg filled]

theorem ordered_none (finish : Bool) (whole : Str) : Ordered none finish whole := by
  intro ended member
  cases member

/-- Pieces that `avail_in` can count. -/
def Short (pieces : List Str) : Prop := ∀ piece ∈ pieces, piece.length < 2 ^ 32

instance (pieces : List Str) : Decidable (Short pieces) := List.decidableBAll _ pieces

theorem take_short {piece : Str} (short : piece.length < 2 ^ 32) :
    piece.take (piece.length % 2 ^ 32) = piece := by
  rw [Nat.mod_eq_of_lt short, List.take_length]

def Begins (takes : Str → Prop) : Prop := ∀ {first second : Str}, takes (first ++ second) → takes first

theorem encode_works (works : WorksBy zlib takes done holds limit) (begins : Begins takes)
    (pieces : List Str) : ∀ {self : ZlibStream State} {fed : Str}, Short pieces →
      takes (fed ++ pieces.flatten) → Stands holds self none fed →
      ∃ after enough, (∀ rounds, enough ≤ rounds →
          encode zlib rounds false self pieces = .ok (0, after)) ∧
        Stands holds after none (fed ++ pieces.flatten) := by
  induction pieces with
  | nil =>
      intro self fed _ _ stands
      refine ⟨self, 0, fun rounds _ => rfl, ?_⟩
      rw [List.flatten_nil, List.append_nil]
      exact stands
  | cons piece later induction =>
      intro self fed short sensible stands
      rw [List.flatten_cons, ← List.append_assoc] at sensible ⊢
      obtain ⟨middle, looped, stands, _⟩ := fill_works works (begins sensible)
        (limit (fed ++ piece) + 1) (ordered_none false _) rfl stands (by omega)
      obtain ⟨after, enough, others, stands⟩ := induction
        (fun other member => short other (List.mem_cons_of_mem _ member)) sensible stands
      refine ⟨after, max (limit (fed ++ piece) + 1) enough, ?_, stands⟩
      intro rounds both
      rw [encode, Bool.false_and, take_short (short piece List.mem_cons_self),
        looped rounds (Nat.le_trans (Nat.le_max_left _ _) both), bind_ok]
      exact others rounds (Nat.le_trans (Nat.le_max_right _ _) both)

theorem flush_works (works : WorksBy zlib takes done holds limit) {fed : Str}
    (sensible : takes fed) (stands : Stands holds self none fed) :
    ∃ after enough, (∀ rounds, enough ≤ rounds → flush zlib rounds self = .ok (0, after)) ∧
      after.Packed ∧ done true fed after.getResult := by
  obtain ⟨after, looped, stands, finished⟩ := fill_works works sensible
    (limit fed + 1) (ordered_none true _) (List.append_nil fed) stands (by omega)
  refine ⟨after, limit fed + 1, ?_, stands.packed, finished⟩
  intro rounds enough
  rw [flush, encode, List.isEmpty_nil, Bool.and_true, List.take_nil, looped rounds enough, bind_ok]
  rfl

theorem write_all_works (works : WorksBy zlib takes done holds limit) (begins : Begins takes)
    (writes : List (List Str)) : ∀ {self : ZlibStream State} {fed : Str},
      (∀ pieces ∈ writes, Short pieces) → takes (fed ++ writes.flatten.flatten) →
      Stands holds self none fed →
      ∃ after enough, (∀ rounds, enough ≤ rounds → writeAll zlib rounds self writes = .ok after) ∧
        after.Packed ∧ done true (fed ++ writes.flatten.flatten) after.getResult := by
  induction writes with
  | nil =>
      intro self fed _ sensible stands
      rw [List.flatten_nil, List.flatten_nil, List.append_nil] at sensible ⊢
      obtain ⟨after, enough, flushed, packed, finished⟩ := flush_works works sensible stands
      refine ⟨after, enough, ?_, packed, finished⟩
      intro rounds many
      rw [writeAll, flushed rounds many, bind_ok]
  | cons pieces later induction =>
      intro self fed short sensible stands
      rw [List.flatten_cons, List.flatten_append, ← List.append_assoc] at sensible ⊢
      obtain ⟨middle, few, encoded, stands⟩ := encode_works works begins pieces
        (short pieces List.mem_cons_self) (begins sensible) stands
      obtain ⟨after, enough, others, packed, finished⟩ := induction
        (fun other member => short other (List.mem_cons_of_mem _ member)) sensible stands
      refine ⟨after, max few enough, ?_, packed, finished⟩
      intro rounds both
      rw [writeAll, encoded rounds (Nat.le_trans (Nat.le_max_left _ _) both), bind_ok]
      exact others rounds (Nat.le_trans (Nat.le_max_right _ _) both)

theorem create_stands (works : WorksBy zlib takes done holds limit) {buffSize : Nat}
    (room : 0 < buffSize) : Stands holds (create zlib buffSize) none [] :=
  ⟨works.start, room, nofun, nofun⟩

end ZlibStream

end ChatServer.Streams
