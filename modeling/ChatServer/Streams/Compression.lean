import ChatServer.Streams.ZlibStream

/-!
# Compressing and reading back

What a `ZlibStream` has compressed another one decompresses. A codec that knows only the stored
blocks of the deflate format, as `deflate` makes them at level 0, keeps what the manual promises.
-/

namespace ChatServer.Streams

set_option autoImplicit false

namespace ZlibStream

/-- The bit of the last block, the type 00, the length and its complement, and the bytes. -/
def storedBlock (final : Bool) (data : Str) : Str :=
  let low := UInt8.ofNat data.length
  let high := UInt8.ofNat (data.length / 256)
  (if final then 1 else 0) :: low :: high :: ~~~low :: ~~~high :: data

/-- The text consists of stored blocks with these data. -/
inductive Stored : Str → Str → Prop where
  | last (data : Str) (short : data.length < 2 ^ 16) : Stored data (storedBlock true data)
  | more (data : Str) {later packed : Str} (short : data.length < 2 ^ 16)
      (rest : Stored later packed) : Stored (data ++ later) (storedBlock false data ++ packed)

def packStored (data : Str) : Str :=
  if _short : data.length < 2 ^ 16 then storedBlock true data
  else storedBlock false (data.take 65535) ++ packStored (data.drop 65535)
termination_by data.length
decreasing_by
  rw [List.length_drop]
  omega

theorem pack_stored (data : Str) : Stored data (packStored data) := by
  induction data using packStored.induct with
  | case1 data short =>
      rw [packStored, dif_pos short]
      exact .last data short
  | case2 data long induction =>
      rw [packStored, dif_neg long]
      have cut : data.take 65535 ++ data.drop 65535 = data := List.take_append_drop _ _
      have short : (data.take 65535).length < 2 ^ 16 := by
        rw [List.length_take]
        omega
      have more := Stored.more (data.take 65535) short induction
      rwa [cut] at more

theorem stored_block_length (final : Bool) (data : Str) :
    (storedBlock final data).length = data.length + 5 := rfl

theorem pack_stored_length (data : Str) : (packStored data).length ≤ 6 * data.length + 5 := by
  induction data using packStored.induct with
  | case1 data short =>
      rw [packStored, dif_pos short, stored_block_length]
      omega
  | case2 data long induction =>
      rw [packStored, dif_neg long, List.length_append, stored_block_length, List.length_take]
      rw [List.length_drop] at induction
      omega

example : packStored [1, 2, 3] = [1, 3, 0, 252, 255, 1, 2, 3] := by
  rw [packStored]
  decide

structure StoredDeflate where
  text : Str
  given : Nat

/-- `deflate` at level 0 on a text that its window holds: the blocks come with `Z_FINISH`. -/
def deflateStored : Zlib StoredDeflate where
  init := ⟨[], 0⟩
  run := fun state input availOut finish =>
    let text := state.text ++ input
    let output := if finish then ((packStored text).drop state.given).take availOut else []
    let given := state.given + output.length
    { ret := if finish && given = (packStored text).length then 1 else 0
      state := ⟨text, given⟩
      consumed := input.length
      output }

/-- Where `inflate` is: in the five bytes before a block, in its data, behind the last block, or at
something that is no stored block. -/
inductive StoredInflate where
  | head (seen : Str)
  | copy (left : Nat) (final : Bool)
  | done
  | bad
  deriving DecidableEq

namespace StoredInflate

def entered (left : Nat) (final : Bool) : StoredInflate :=
  if left = 0 then if final then .done else .head [] else .copy left final

def opened (type low high notLow notHigh : UInt8) : StoredInflate :=
  if type &&& 6 = 0 ∧ notLow = ~~~low ∧ notHigh = ~~~high then
    entered (low.toNat + 256 * high.toNat) (type &&& 1 = 1)
  else .bad

def headed (seen : Str) (byte : UInt8) : StoredInflate :=
  match seen with
  | [type, low, high, notLow] => opened type low high notLow byte
  | _ => .head (seen ++ [byte])

/-- The state behind an input, how much of it was taken, and the output. -/
def take : StoredInflate → Str → Nat → StoredInflate × Nat × Str
  | state, [], _ => (state, 0, [])
  | .head seen, byte :: rest, room =>
      let (next, consumed, output) := take (headed seen byte) rest room
      (next, consumed + 1, output)
  | .copy left final, byte :: rest, room =>
      if room = 0 then (.copy left final, 0, [])
      else
        let (next, consumed, output) := take (entered (left - 1) final) rest (room - 1)
        (next, consumed + 1, byte :: output)
  | .done, _ :: _, _ => (.done, 0, [])
  | .bad, _ :: _, _ => (.bad, 0, [])

end StoredInflate

/-- `inflate`, with `Z_STREAM_END`, `Z_DATA_ERROR` and `Z_BUF_ERROR`. -/
def inflateStored : Zlib StoredInflate where
  init := .head []
  run := fun state input availOut finish =>
    let (next, consumed, output) := state.take input availOut
    { ret :=
        if next = .done then 1
        else if next = .bad then -3
        else if finish = true ∨ consumed = 0 ∧ output = [] then -5
        else 0
      state := next
      consumed
      output }

/-- `deflate` gives a text that `packs` what it took. -/
def Deflates {State : Type} (zlib : Zlib State) (packs : Str → Str → Prop) : Prop :=
  Works zlib (fun _ => True) fun finish fed out => finish = true → packs fed out

/-- `inflate` gives back what a text packs. -/
def Inflates {State : Type} (zlib : Zlib State) (packs : Str → Str → Prop) : Prop :=
  ∀ data packed, packs data packed →
    Works zlib (fun fed => fed <+: packed) fun _ fed out => fed = packed → out = data

structure Given (state : StoredDeflate) (mode : Option Str) (fed out : Str) : Prop where
  text : state.text = fed
  given : state.given = out.length
  early : mode = none → out = []
  ended : ∀ whole ∈ mode, fed = whole ∧ out <+: packStored whole

theorem given_begins {state : StoredDeflate} {mode : Option Str} {fed out input : Str}
    {finish : Bool} (given : Given state mode fed out) (ordered : Ordered mode finish (fed ++ input)) :
    out <+: packStored (fed ++ input) := by
  cases mode with
  | none =>
      rw [given.early rfl]
      exact List.nil_prefix
  | some whole =>
      rw [(ordered whole rfl).2]
      exact (given.ended whole rfl).2

theorem deflate_stored : Deflates deflateStored Stored := by
  refine ⟨Given, fun whole => 6 * whole.length + 5, ⟨⟨rfl, rfl, fun _ => rfl, nofun⟩, ?_, ?_⟩⟩
  · intro state mode fed out finish input availOut given ordered _ room
    have fine : ∀ ended : Bool, (if ended then 1 else 0) ≠ zStreamError := by decide
    refine ⟨fine _, ?_⟩
    have all : fed ++ input.take input.length = fed ++ input := by rw [List.take_length]
    simp only [deflateStored, given.text, given.given, all]
    cases finish with
    | false =>
        have none : mode = none := by
          cases mode with
          | none => rfl
          | some whole => exact absurd (ordered whole rfl).1 Bool.false_ne_true
        have empty := given.early none
        refine ⟨Nat.zero_le _, ⟨rfl, ?_, fun _ => ?_, nofun⟩, fun _ => ⟨Nat.le_refl _, nofun⟩⟩
        · rw [empty]
          rfl
        · rw [empty]
          rfl
    | true =>
        obtain ⟨rest, blocks⟩ := given_begins given ordered
        simp only [if_true, ← blocks, List.drop_left]
        refine ⟨List.length_take_le _ _, ⟨rfl, ?_, nofun, ?_⟩, ?_⟩
        · rw [List.length_append]
        · intro whole member
          cases member
          refine ⟨rfl, ?_⟩
          rw [← blocks]
          exact (List.prefix_append_right_inj out).mpr (List.take_prefix _ _)
        · intro unfilled
          rw [List.length_take] at unfilled
          refine ⟨Nat.le_refl _, fun _ => ?_⟩
          rw [List.take_of_length_le (by omega), blocks]
          exact pack_stored _
  · intro state mode fed out whole given begins _
    have within := begins.length_le
    cases mode with
    | none =>
        rw [given.early rfl]
        exact Nat.zero_le _
    | some ended =>
        obtain ⟨same, out⟩ := given.ended ended rfl
        have blocks := pack_stored_length ended
        have shorter := out.length_le
        rw [same] at within
        omega

namespace StoredInflate

def Leads : StoredInflate → Str → Str → Prop
  | .head seen, rest, later => seen.length < 5 ∧ Stored later (seen ++ rest)
  | .copy left final, rest, later => 0 < left ∧ ∃ data behind packed, data.length = left ∧
      rest = data ++ packed ∧ later = data ++ behind ∧
      if final then packed = [] ∧ behind = [] else Stored behind packed
  | .done, rest, later => rest = [] ∧ later = []
  | .bad, _, _ => False

theorem stored_split {later packed : Str} (stored : Stored later packed) :
    ∃ final data behind after, data.length < 2 ^ 16 ∧ packed = storedBlock final data ++ after ∧
      later = data ++ behind ∧
      if final then after = [] ∧ behind = [] else Stored behind after := by
  cases stored with
  | last _ short => exact ⟨true, later, [], [], short, (List.append_nil _).symm,
      (List.append_nil _).symm, rfl, rfl⟩
  | more data short rest => exact ⟨false, data, _, _, short, rfl, rfl, rest⟩

theorem leads_entered {final : Bool} {data behind after : Str}
    (rest : if final then after = [] ∧ behind = [] else Stored behind after) :
    Leads (entered data.length final) (data ++ after) (data ++ behind) := by
  rw [entered]
  by_cases empty : data.length = 0
  · rw [if_pos empty, List.length_eq_zero_iff.mp empty]
    cases final with
    | true => exact rest
    | false => exact ⟨by decide, rest⟩
  · rw [if_neg empty]
    exact ⟨Nat.pos_of_ne_zero empty, data, behind, after, rfl, rfl, rfl, rest⟩

theorem opened_block (final : Bool) {data : Str} (short : data.length < 2 ^ 16) :
    opened (if final then 1 else 0) (UInt8.ofNat data.length) (UInt8.ofNat (data.length / 256))
      (~~~(UInt8.ofNat data.length)) (~~~(UInt8.ofNat (data.length / 256))) =
        entered data.length final := by
  have length : (UInt8.ofNat data.length).toNat + 256 * (UInt8.ofNat (data.length / 256)).toNat =
      data.length := by
    rw [UInt8.toNat_ofNat', UInt8.toNat_ofNat']
    omega
  rw [opened, length]
  cases final with
  | true => exact if_pos ⟨by decide, rfl, rfl⟩
  | false => exact if_pos ⟨by decide, rfl, rfl⟩

theorem leads_headed {seen rest later : Str} {byte : UInt8}
    (leads : Leads (.head seen) (byte :: rest) later) : Leads (headed seen byte) rest later := by
  obtain ⟨short, stored⟩ := leads
  obtain ⟨final, data, behind, after, small, packed, rfl, more⟩ := stored_split stored
  have four : seen.length = 4 → Leads (headed seen byte) rest (data ++ behind) := by
    intro full
    obtain ⟨type, low, high, notLow, rfl⟩ : ∃ type low high notLow, seen = [type, low, high, notLow] :=
      List.length_eq_four.mp full
    simp only [storedBlock, List.cons_append, List.nil_append, List.cons.injEq] at packed
    obtain ⟨rfl, rfl, rfl, rfl, rfl, rfl⟩ := packed
    rw [headed, opened_block final small]
    exact leads_entered more
  by_cases full : seen.length = 4
  · exact four full
  · have kept : headed seen byte = .head (seen ++ [byte]) := by
      unfold headed
      split
      · exact absurd rfl full
      · rfl
    rw [kept]
    refine ⟨?_, ?_⟩
    · rw [List.length_append, List.length_singleton]
      omega
    · rw [List.append_assoc]
      exact stored

theorem leads_copied {left : Nat} {final : Bool} {rest later : Str} {byte : UInt8}
    (leads : Leads (.copy left final) (byte :: rest) later) :
    ∃ more, later = byte :: more ∧ Leads (entered (left - 1) final) rest more := by
  obtain ⟨positive, data, behind, packed, length, front, rfl, more⟩ := leads
  cases data with
  | nil =>
      rw [← length] at positive
      exact absurd positive (Nat.lt_irrefl 0)
  | cons first data =>
      obtain ⟨rfl, rfl⟩ := List.cons.inj front
      refine ⟨data ++ behind, rfl, ?_⟩
      rw [← length, List.length_cons, Nat.add_sub_cancel]
      exact leads_entered more

theorem take_leads (input : Str) : ∀ {state : StoredInflate} {rest later : Str} (room : Nat),
    Leads state (input ++ rest) later →
      (state.take input room).2.2.length ≤ room ∧
        (∃ more, later = (state.take input room).2.2 ++ more ∧
          Leads (state.take input room).1 (input.drop (state.take input room).2.1 ++ rest) more) ∧
        ((state.take input room).2.2.length < room → input.length ≤ (state.take input room).2.1) := by
  induction input with
  | nil =>
      intro state rest later room leads
      rw [take]
      exact ⟨Nat.zero_le _, ⟨later, rfl, leads⟩, fun _ => Nat.le_refl _⟩
  | cons byte input induction =>
      intro state rest later room leads
      cases state with
      | head seen =>
          obtain ⟨fits, follows, whole⟩ := induction room (leads_headed leads)
          rw [take]
          exact ⟨fits, follows, fun unfilled => Nat.succ_le_succ (whole unfilled)⟩
      | copy left final =>
          obtain ⟨more, rfl, after⟩ := leads_copied leads
          rw [take]
          by_cases full : room = 0
          · rw [if_pos full]
            exact ⟨Nat.zero_le _, ⟨_, rfl, leads⟩, fun unfilled => absurd unfilled (by omega)⟩
          · obtain ⟨fits, ⟨last, same, follows⟩, whole⟩ := induction (room - 1) after
            rw [if_neg full]
            refine ⟨?_, ⟨last, congrArg (byte :: ·) same, follows⟩, ?_⟩
            · exact Nat.add_le_of_le_sub (Nat.pos_of_ne_zero full) fits
            · exact fun unfilled => Nat.succ_le_succ (whole (Nat.lt_sub_of_add_lt unfilled))
      | done => exact absurd leads.1 (List.cons_ne_nil _ _)
      | bad => exact leads.elim

end StoredInflate

theorem stored_long {later packed : Str} (stored : Stored later packed) : 5 ≤ packed.length := by
  obtain ⟨final, data, behind, after, _, rfl, _⟩ := StoredInflate.stored_split stored
  rw [List.length_append, stored_block_length]
  omega

theorem leads_nil {state : StoredInflate} {later : Str} (leads : state.Leads [] later) :
    later = [] := by
  cases state with
  | head seen =>
      have long := stored_long leads.2
      have short := leads.1
      rw [List.append_nil] at long
      omega
  | copy left final =>
      obtain ⟨positive, data, behind, packed, length, front, _⟩ := leads
      rw [(List.append_eq_nil_iff.mp front.symm).1] at length
      exact absurd positive (by rw [← length]; exact Nat.lt_irrefl 0)
  | done => exact leads.2
  | bad => exact leads.elim

theorem inflate_stored : Inflates inflateStored Stored := by
  intro data packed stored
  refine ⟨fun state _ fed out => ∃ rest later, fed ++ rest = packed ∧ out ++ later = data ∧
    state.Leads rest later, fun _ => data.length, ⟨⟨packed, data, rfl, rfl, by decide, stored⟩, ?_, ?_⟩⟩
  · rintro state mode fed out finish input availOut ⟨rest, later, text, whole, leads⟩ _ ⟨behind, sensible⟩ _
    have front : rest = input ++ behind := by
      rw [← text, List.append_assoc] at sensible
      exact (List.append_cancel_left sensible).symm
    rw [front] at leads text
    obtain ⟨fits, ⟨more, same, follows⟩, all⟩ := StoredInflate.take_leads input availOut leads
    have taken : fed ++ input.take (state.take input availOut).2.1 ++
        (input.drop (state.take input availOut).2.1 ++ behind) = packed := by
      rw [List.append_assoc, ← List.append_assoc (input.take _), List.take_append_drop, text]
    have given : out ++ (state.take input availOut).2.2 ++ more = data := by
      rw [List.append_assoc, ← same, whole]
    refine ⟨?_, fits, ⟨_, more, taken, given, follows⟩, ?_⟩
    · simp only [inflateStored]
      split_ifs <;> decide
    · intro unfilled
      have consumed := all unfilled
      refine ⟨consumed, ?_⟩
      intro ends
      rw [List.drop_eq_nil_of_le consumed, List.nil_append] at follows
      have none : behind = [] := by
        rw [← List.append_assoc, ends] at text
        exact List.append_right_eq_self.mp text
      rw [none] at follows
      rw [← given, leads_nil follows, List.append_nil]
      rfl
  · rintro state mode fed out whole ⟨rest, later, _, same, _⟩ _ _
    rw [← same, List.length_append]
    exact Nat.le_add_right _ _

/-- What a stream gives back for a text that packs some data, in whatever pieces. -/
theorem inflates_writes {State : Type} {inflate : Zlib State} {packs : Str → Str → Prop}
    (inflates : Inflates inflate packs) {data packed : Str} (packing : packs data packed)
    (cuts : List (List Str)) (whole : cuts.flatten.flatten = packed)
    (short : ∀ pieces ∈ cuts, Short pieces) {buffSize : Nat} (room : 0 < buffSize) :
    ∃ last enough, (∀ rounds, enough ≤ rounds →
        writeAll inflate rounds (create inflate buffSize) cuts = .ok last) ∧
      last.Packed ∧ last.getResult = data := by
  obtain ⟨holds, limit, works⟩ := inflates data packed packing
  have begins : Begins fun fed => fed <+: packed :=
    fun begins => List.IsPrefix.trans (List.prefix_append _ _) begins
  have all : [] ++ cuts.flatten.flatten = packed := (List.nil_append _).trans whole
  obtain ⟨last, enough, read, filled, finished⟩ := write_all_works works begins cuts short
    ⟨[], (List.append_nil _).trans all⟩ (create_stands works room)
  exact ⟨last, enough, read, filled, finished all⟩

/-- A packed text in one piece, as the receivers of messages decompress it. -/
theorem convert_inflates {State : Type} {inflate : Zlib State} {packs : Str → Str → Prop}
    (inflates : Inflates inflate packs) {data packed : Str} (packing : packs data packed)
    (short : packed.length < 2 ^ 32) :
    ∃ enough, ∀ rounds, enough ≤ rounds → convert inflate rounds [packed] = .ok data := by
  have pieces : ∀ pieces ∈ [[packed]], Short pieces := by
    intro pieces member piece inside
    rw [List.mem_singleton.mp member] at inside
    rw [List.mem_singleton.mp inside]
    exact short
  obtain ⟨last, enough, read, _, result⟩ := inflates_writes inflates packing [[packed]]
    (by simp) pieces (show 0 < 4096 by decide)
  refine ⟨enough, ?_⟩
  intro rounds many
  rw [convert, read rounds many, bind_ok, result]

/-- Whatever is written, in whatever pieces and through buffers of whatever size, comes back from
the result, in whatever pieces that is written, and through buffers of whatever size. -/
theorem compressed_reads_back {Deflating Inflating : Type} {deflate : Zlib Deflating}
    {inflate : Zlib Inflating} {packs : Str → Str → Prop} (deflates : Deflates deflate packs)
    (inflates : Inflates inflate packs) (writes : List (List Str))
    (short : ∀ pieces ∈ writes, Short pieces) {buffSize other : Nat} (room : 0 < buffSize)
    (also : 0 < other) :
    ∃ after enough, (∀ rounds, enough ≤ rounds →
        writeAll deflate rounds (create deflate buffSize) writes = .ok after) ∧
      after.Packed ∧ packs writes.flatten.flatten after.getResult ∧
      ∀ cuts : List (List Str), cuts.flatten.flatten = after.getResult →
        (∀ pieces ∈ cuts, Short pieces) →
        ∃ last enough, (∀ rounds, enough ≤ rounds →
            writeAll inflate rounds (create inflate other) cuts = .ok last) ∧
          last.Packed ∧ last.getResult = writes.flatten.flatten := by
  obtain ⟨holds, limit, works⟩ := deflates
  obtain ⟨after, enough, wrote, packed, finished⟩ := write_all_works works (fun _ => trivial) writes
    short trivial (create_stands works room)
  refine ⟨after, enough, wrote, packed, finished rfl, ?_⟩
  intro cuts whole shortCuts
  exact inflates_writes inflates (finished rfl) cuts whole shortCuts also

/-- Two writes, compressed into a stored block through buffers of three bytes and read back through
buffers of two. -/
theorem compressed_reads_back_stored :
    ∃ after enough, (∀ rounds, enough ≤ rounds →
        writeAll deflateStored rounds (create deflateStored 3) [[[1, 2], [3, 4]], [[5]]] =
          .ok after) ∧
      after.Packed ∧ Stored [1, 2, 3, 4, 5] after.getResult ∧
      ∀ cuts : List (List Str), cuts.flatten.flatten = after.getResult →
        (∀ pieces ∈ cuts, Short pieces) →
        ∃ last enough, (∀ rounds, enough ≤ rounds →
            writeAll inflateStored rounds (create inflateStored 2) cuts = .ok last) ∧
          last.Packed ∧ last.getResult = [1, 2, 3, 4, 5] :=
  compressed_reads_back deflate_stored inflate_stored [[[1, 2], [3, 4]], [[5]]] (by decide)
    (by decide) (by decide)

end ZlibStream

end ChatServer.Streams
