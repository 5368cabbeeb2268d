import ChatServer.Http.Dump
import Mathlib.Logic.Function.Basic

/-!
# Trackers

A `Tracker` has a counter for each dimension and each second of its interval. A second shares
its counters with every second that is a multiple of the interval away, and the timer clears
those of the next second. `m_interval` is not zero, and the timer runs only behind `init`.
-/

namespace ChatServer.Util

set_option autoImplicit false

open ChatServer.Http (decimal)
open ChatServer.Http2 (ascii)

structure Tracker where
  dims : List Str
  interval : UInt32
  dimCount : UInt32 := 0
  /-- `none` while `m_datas` is null. -/
  datas : Option (List Int64) := none

/-- The `std::map` that a report is written into. -/
abbrev Data := Str → Option Int

def label (name : Str) (n : Nat) : Str := name ++ ascii "." ++ decimal n

namespace Tracker

def init (tracker : Tracker) : Tracker :=
  let dimCount := UInt32.ofNat (tracker.dims.length * tracker.interval.toNat)
  { tracker with dimCount, datas := some (List.replicate dimCount.toNat 0) }

/-- What `inc` and `dec` do at the time `now`, with the operation on the counter. -/
def change (tracker : Tracker) (now : Nat) (key : UInt32) (fetch : Int64 → Int64) :
    Int64 × Tracker :=
  match tracker.datas with
  | none => (0, tracker)
  | some datas =>
      let idx := (key * tracker.interval).toNat + now % tracker.interval.toNat
      if idx < tracker.dimCount.toNat then
        (fetch (datas.getD idx 0), { tracker with datas := some (datas.modify idx fetch) })
      else (0, tracker)

def inc (tracker : Tracker) (now : Nat) (key : UInt32) (v : Int64) : Int64 × Tracker :=
  tracker.change now key (· + v)

def dec (tracker : Tracker) (now : Nat) (key : UInt32) (v : Int64) : Int64 × Tracker :=
  tracker.change now key (· - v)

/-- Clearing the counter at `offset` of the dimension `i`. -/
def clear (tracker : Tracker) (offset : UInt32) (datas : List Int64) (i : Nat) : List Int64 :=
  let idx := UInt32.ofNat i * tracker.interval + offset
  if idx < tracker.dimCount then datas.set idx.toNat 0 else datas

def onTimer (tracker : Tracker) (now : Nat) : Tracker :=
  let offset := UInt32.ofNat ((now + 1) % tracker.interval.toNat)
  { tracker with
    datas := tracker.datas.map ((List.range tracker.dims.length).foldl (tracker.clear offset)) }

def read (tracker : Tracker) (cur : Int) : Result Int64 :=
  match tracker.datas with
  | none => .error (.undefined .nullDeref)
  | some datas =>
      if 0 ≤ cur ∧ cur < datas.length then .ok (datas.getD cur.toNat 0)
      else .error (.undefined .outOfBounds)

/-- `cur`, where `%` keeps the sign of `now - n`. -/
def cur (tracker : Tracker) (now : Int) (i n : Nat) : Int :=
  int32 ((UInt32.ofNat i * tracker.interval).toNat + (now - n).tmod tracker.interval.toNat)

/-- `total` of the dimension `i` behind so many rounds. -/
def total (tracker : Tracker) (now : Int) (i : Nat) : Nat → Result Int
  | 0 => .ok 0
  | n + 1 => do
      let total ← tracker.total now i n
      let value ← tracker.read (tracker.cur now i n)
      checkedLong (total + value.toInt)

/-- The loop over the dimensions from `i` on; those without a name are left out. -/
def dimsLoop (report : Nat → Str → Data → Result Data) : Nat → List Str → Data → Result Data
  | _, [], data => .ok data
  | i, name :: dims, data =>
      if name = [] then dimsLoop report (i + 1) dims data
      else do
        let data ← report i name data
        dimsLoop report (i + 1) dims data

def durationReport (tracker : Tracker) (now : Int) (duration : Nat) (withTime : Bool) (i : Nat)
    (name : Str) (data : Data) : Result Data := do
  let total ← tracker.total now i duration
  .ok (Function.update data (if withTime then label name duration else name) (some total))

def toDurationData (tracker : Tracker) (clock : Nat) (data : Data) (duration : UInt32)
    (withTime : Bool) : Result Data :=
  let duration := if tracker.interval < duration then tracker.interval else duration
  dimsLoop (tracker.durationReport (clock - 1) duration.toNat withTime) 0 tracker.dims data

/-- `total` and the map behind so many rounds of `toData` for a dimension. -/
def totals (tracker : Tracker) (now : Int) (times : List UInt32) (i : Nat) (name : Str)
    (data : Data) : Nat → Result (Int × Data)
  | 0 => .ok (0, data)
  | n + 1 => do
      let (total, data) ← tracker.totals now times i name data n
      let value ← tracker.read (tracker.cur now i n)
      let total ← checkedLong (total + value.toInt)
      .ok (total, if times.contains (UInt32.ofNat (n + 1)) then
        Function.update data (label name (n + 1)) (some total) else data)

def dataReport (tracker : Tracker) (now : Int) (times : List UInt32) (i : Nat) (name : Str)
    (data : Data) : Result Data := do
  let (total, data) ← tracker.totals now times i name data tracker.interval.toNat
  .ok (if times.isEmpty then
    Function.update data (label name tracker.interval.toNat) (some total) else data)

def toData (tracker : Tracker) (clock : Nat) (data : Data) (times : List UInt32) : Result Data :=
  dimsLoop (tracker.dataReport (clock - 1) times) 0 tracker.dims data

structure Ready (tracker : Tracker) : Prop where
  wide : 3 ≤ tracker.interval.toNat
  sized : tracker.dims.length * tracker.interval.toNat < 2 ^ 31
  counted : tracker.dimCount.toNat = tracker.dims.length * tracker.interval.toNat
  stored : ∃ datas, tracker.datas = some datas ∧
    datas.length = tracker.dims.length * tracker.interval.toNat

/-- The counter of a dimension for the seconds that are `rest` modulo the interval. -/
def counter (tracker : Tracker) (key rest : Nat) : Int64 :=
  (tracker.datas.getD []).getD (key * tracker.interval.toNat + rest) 0

theorem init_ready {dims : List Str} {interval : UInt32} (wide : 3 ≤ interval.toNat)
    (sized : dims.length * interval.toNat < 2 ^ 31) :
    (init { dims, interval }).Ready := by
  have counted : (UInt32.ofNat (dims.length * interval.toNat)).toNat =
      dims.length * interval.toNat := by
    rw [UInt32.toNat_ofNat']
    exact Nat.mod_eq_of_lt (by omega)
  exact ⟨wide, sized, counted, _, rfl, by rw [List.length_replicate]; exact counted⟩

theorem init_counter (dims : List Str) (interval : UInt32) (key rest : Nat) :
    (init { dims, interval }).counter key rest = 0 := by
  rw [counter, init, Option.getD_some, List.getD_eq_getElem?_getD, List.getElem?_replicate]
  split
  · rfl
  · rfl

theorem place_same (key other : Nat) {n rest left : Nat} (below : rest < n) (within : left < n) :
    key * n + rest = other * n + left ↔ key = other ∧ rest = left := by
  constructor
  · intro same
    have rests := congrArg (· % n) same
    have keys := congrArg (· / n) same
    simp only [Nat.mul_add_mod', Nat.mod_eq_of_lt below, Nat.mod_eq_of_lt within] at rests
    have positive : 0 < n := by omega
    rw [Nat.add_comm, Nat.add_comm (other * n)] at keys
    simp only [Nat.add_mul_div_right _ _ positive, Nat.div_eq_of_lt below,
      Nat.div_eq_of_lt within, Nat.zero_add] at keys
    exact ⟨keys, rests⟩
  · rintro ⟨keys, rests⟩
    rw [keys, rests]

theorem place_lt {n key rest count : Nat} (known : key < count) (below : rest < n) :
    key * n + rest < count * n := by
  have next : (key + 1) * n ≤ count * n := Nat.mul_le_mul_right n known
  rw [Nat.succ_mul] at next
  omega

/-- The product does not wrap for a dimension of the tracker. -/
theorem key_product {tracker : Tracker} (ready : tracker.Ready) (key : UInt32)
    (known : key.toNat < tracker.dims.length) :
    (key * tracker.interval).toNat = key.toNat * tracker.interval.toNat := by
  have sized := ready.sized
  have below := Nat.mul_le_mul_right tracker.interval.toNat known.le
  rw [UInt32.toNat_mul]
  exact Nat.mod_eq_of_lt (by omega)

def Aimed (tracker : Tracker) (key : UInt32) : Prop :=
  key.toNat < tracker.dims.length ∨
    tracker.dims.length * tracker.interval.toNat ≤ (key * tracker.interval).toNat

variable {tracker : Tracker}

theorem get_modify (datas : List Int64) (place : Nat) (fetch : Int64 → Int64) {other : Nat}
    (inside : other < datas.length) :
    (datas.modify place fetch).getD other 0 =
      if place = other then fetch (datas.getD other 0) else datas.getD other 0 := by
  rw [List.getD_eq_getElem?_getD, List.getD_eq_getElem?_getD, List.getElem?_modify,
    List.getElem?_eq_getElem inside]
  by_cases here : place = other
  · rw [if_pos here]
    exact if_pos here
  · rw [if_neg here]
    exact if_neg here

theorem get_set (datas : List Int64) (place other : Nat) :
    (datas.set place 0).getD other 0 = if place = other then 0 else datas.getD other 0 := by
  rw [List.getD_eq_getElem?_getD, List.getD_eq_getElem?_getD, List.getElem?_set]
  by_cases here : place = other
  · rw [if_pos here, if_pos here]
    split
    · rfl
    · rfl
  · rw [if_neg here, if_neg here]

theorem counter_eq {datas : List Int64} (stored : tracker.datas = some datas) (key rest : Nat) :
    tracker.counter key rest = datas.getD (key * tracker.interval.toNat + rest) 0 := by
  rw [counter, stored, Option.getD_some]

theorem change_frame (now : Nat) (key : UInt32) (fetch : Int64 → Int64) :
    (tracker.change now key fetch).2.dims = tracker.dims ∧
      (tracker.change now key fetch).2.interval = tracker.interval := by
  rw [change]
  cases tracker.datas with
  | none => exact ⟨rfl, rfl⟩
  | some datas =>
      dsimp only
      split
      · exact ⟨rfl, rfl⟩
      · exact ⟨rfl, rfl⟩

theorem change_ready (ready : tracker.Ready) (now : Nat) (key : UInt32) (fetch : Int64 → Int64) :
    (tracker.change now key fetch).2.Ready := by
  rcases ready.stored with ⟨datas, stored, length⟩
  rw [change, stored]
  dsimp only
  split
  · exact ⟨ready.wide, ready.sized, ready.counted, _, rfl, by rw [List.length_modify, length]⟩
  · exact ready

/-- A call changes the counter of its dimension and second, and no other one. -/
theorem change_counter (ready : tracker.Ready) {key : UInt32} (aimed : tracker.Aimed key)
    (now : Nat) (fetch : Int64 → Int64) {dim rest : Nat} (known : dim < tracker.dims.length)
    (below : rest < tracker.interval.toNat) :
    (tracker.change now key fetch).2.counter dim rest =
      if key.toNat = dim ∧ now % tracker.interval.toNat = rest then
        fetch (tracker.counter dim rest)
      else tracker.counter dim rest := by
  have wide := ready.wide
  have within := Nat.mod_lt now (show 0 < tracker.interval.toNat by omega)
  have inside := place_lt known below
  rcases ready.stored with ⟨datas, stored, length⟩
  rw [change, stored]
  dsimp only
  rcases aimed with own | beyond
  · have hit := place_lt own within
    have product := key_product ready key own
    have same := place_same key.toNat dim within below
    rw [product, ready.counted, if_pos hit, counter_eq stored, counter_eq rfl]
    dsimp only
    rw [get_modify datas _ fetch (by omega)]
    by_cases here : key.toNat = dim ∧ now % tracker.interval.toNat = rest
    · rw [if_pos here, if_pos (same.mpr here)]
    · rw [if_neg here, if_neg fun place => here (same.mp place)]
  · have miss : ¬(key * tracker.interval).toNat + now % tracker.interval.toNat <
        tracker.dimCount.toNat := by
      rw [ready.counted]
      omega
    have other : ¬(key.toNat = dim ∧ now % tracker.interval.toNat = rest) := by
      rintro ⟨same, -⟩
      rw [key_product ready key (by omega), same] at beyond
      have next := Nat.mul_le_mul_right tracker.interval.toNat (Nat.succ_le_of_lt known)
      rw [Nat.succ_mul] at next
      omega
    rw [if_neg miss, if_neg other]

theorem clear_place (ready : tracker.Ready) {offset i : Nat} (known : i < tracker.dims.length)
    (within : offset < tracker.interval.toNat) (datas : List Int64) :
    tracker.clear (UInt32.ofNat offset) datas i =
      datas.set (i * tracker.interval.toNat + offset) 0 := by
  have sized := ready.sized
  have wide := ready.wide
  have inside := place_lt known within
  have keySmall : i < 2 ^ 32 := by
    have scaled := Nat.le_mul_of_pos_right i (show 0 < tracker.interval.toNat by omega)
    omega
  have product : (UInt32.ofNat i * tracker.interval).toNat = i * tracker.interval.toNat := by
    rw [UInt32.toNat_mul, UInt32.toNat_ofNat', Nat.mod_eq_of_lt keySmall]
    exact Nat.mod_eq_of_lt (by omega)
  have place : (UInt32.ofNat i * tracker.interval + UInt32.ofNat offset).toNat =
      i * tracker.interval.toNat + offset := by
    rw [UInt32.toNat_add, product, UInt32.toNat_ofNat', Nat.mod_eq_of_lt (a := offset) (by omega)]
    exact Nat.mod_eq_of_lt (by omega)
  rw [clear, place, if_pos]
  rw [UInt32.lt_iff_toNat_lt, place, ready.counted]
  exact inside

theorem clear_fold (ready : tracker.Ready) {offset : Nat}
    (within : offset < tracker.interval.toNat) (datas : List Int64) : ∀ count : Nat,
    count ≤ tracker.dims.length →
    ((List.range count).foldl (tracker.clear (UInt32.ofNat offset)) datas).length =
        datas.length ∧
      ∀ (dim : Nat) {rest : Nat}, rest < tracker.interval.toNat →
        ((List.range count).foldl (tracker.clear (UInt32.ofNat offset)) datas).getD
            (dim * tracker.interval.toNat + rest) 0 =
          if dim < count ∧ offset = rest then 0
          else datas.getD (dim * tracker.interval.toNat + rest) 0 := by
  intro count
  induction count with
  | zero =>
      intro _
      exact ⟨rfl, fun _ _ _ => (if_neg (by omega)).symm⟩
  | succ count induction =>
      intro known
      rcases induction (by omega) with ⟨length, cleared⟩
      rw [List.range_succ, List.foldl_append, List.foldl_cons, List.foldl_nil,
        clear_place ready known within]
      refine ⟨by rw [List.length_set, length], fun dim rest below => ?_⟩
      have same := place_same count dim within below
      rw [get_set, cleared dim below]
      by_cases here : count = dim ∧ offset = rest
      · rw [if_pos (same.mpr here), if_pos (by omega)]
      · rw [if_neg fun place => here (same.mp place)]
        by_cases before : dim < count ∧ offset = rest
        · rw [if_pos before, if_pos (by omega)]
        · rw [if_neg before, if_neg (by omega)]

theorem timer_ready (ready : tracker.Ready) (now : Nat) : (tracker.onTimer now).Ready := by
  have wide := ready.wide
  have within := Nat.mod_lt (now + 1) (show 0 < tracker.interval.toNat by omega)
  rcases ready.stored with ⟨datas, stored, length⟩
  have kept := (clear_fold ready within datas tracker.dims.length (Nat.le_refl _)).1
  refine ⟨ready.wide, ready.sized, ready.counted, _, ?_, kept.trans length⟩
  rw [onTimer, stored]
  rfl

theorem timer_counter (ready : tracker.Ready) (now : Nat) {dim rest : Nat}
    (known : dim < tracker.dims.length) (below : rest < tracker.interval.toNat) :
    (tracker.onTimer now).counter dim rest =
      if (now + 1) % tracker.interval.toNat = rest then 0 else tracker.counter dim rest := by
  have wide := ready.wide
  have within := Nat.mod_lt (now + 1) (show 0 < tracker.interval.toNat by omega)
  rcases ready.stored with ⟨datas, stored, length⟩
  have cleared := (clear_fold ready within datas tracker.dims.length (Nat.le_refl _)).2 dim
    below
  have after : (tracker.onTimer now).datas = some ((List.range tracker.dims.length).foldl
      (tracker.clear (UInt32.ofNat ((now + 1) % tracker.interval.toNat))) datas) := by
    rw [onTimer, stored]
    rfl
  have frame : (tracker.onTimer now).interval = tracker.interval := rfl
  rw [counter_eq after, frame, cleared, counter_eq stored]
  by_cases here : (now + 1) % tracker.interval.toNat = rest
  · rw [if_pos here, if_pos ⟨known, here⟩]
  · rw [if_neg here, if_neg fun both => here both.2]

/-- A second that is not before the epoch is read at its counter. -/
theorem read_counter (ready : tracker.Ready) {key clock n : Nat}
    (known : key < tracker.dims.length) (late : n < clock) :
    tracker.read (tracker.cur (clock - 1) key n) =
      .ok (tracker.counter key ((clock - 1 - n) % tracker.interval.toNat)) := by
  have sized := ready.sized
  have wide := ready.wide
  have within := Nat.mod_lt (clock - 1 - n) (show 0 < tracker.interval.toNat by omega)
  have inside := place_lt known within
  have keySmall : key < 2 ^ 32 := by
    have scaled := Nat.le_mul_of_pos_right key (show 0 < tracker.interval.toNat by omega)
    omega
  have keyNat : (UInt32.ofNat key).toNat = key := by
    rw [UInt32.toNat_ofNat']
    exact Nat.mod_eq_of_lt keySmall
  have product := key_product ready (UInt32.ofNat key) (by rwa [keyNat])
  rw [keyNat] at product
  have second : ((clock : Int) - 1 - (n : Int)) = ((clock - 1 - n : Nat) : Int) := by omega
  have place : tracker.cur (clock - 1) key n =
      ((key * tracker.interval.toNat + (clock - 1 - n) % tracker.interval.toNat : Nat) : Int) := by
    rw [cur, product, second, ← Int.ofNat_tmod, ← Int.natCast_add]
    exact int32_of_small (by omega)
  rcases ready.stored with ⟨datas, stored, length⟩
  rw [place, read, stored]
  dsimp only
  rw [if_pos (by omega), Int.toNat_natCast, counter_eq stored]

def shownSum (tracker : Tracker) (clock key : Nat) : Nat → Int
  | 0 => 0
  | n + 1 => tracker.shownSum clock key n +
      (tracker.counter key ((clock - 1 - n) % tracker.interval.toNat)).toInt

/-- No sum of a report overflows. -/
def Fits (tracker : Tracker) (clock : Nat) : Prop :=
  ∀ key < tracker.dims.length, ∀ n ≤ tracker.interval.toNat,
    -2 ^ 63 ≤ tracker.shownSum clock key n ∧ tracker.shownSum clock key n < 2 ^ 63

theorem round_eq {Next : Type} (ready : tracker.Ready) {clock key n : Nat}
    (fits : tracker.Fits clock) (late : tracker.interval.toNat ≤ clock)
    (known : key < tracker.dims.length) (within : n < tracker.interval.toNat)
    (next : Int → Result Next) :
    (do
      let value ← tracker.read (tracker.cur (clock - 1) key n)
      let total ← checkedLong (tracker.shownSum clock key n + value.toInt)
      next total) = next (tracker.shownSum clock key (n + 1)) := by
  rw [read_counter ready known (by omega), bind_ok]
  have total : checkedLong (tracker.shownSum clock key (n + 1)) =
      .ok (tracker.shownSum clock key (n + 1)) := if_pos (fits key known (n + 1) within)
  rw [shownSum] at total ⊢
  rw [total, bind_ok]

theorem total_eq (ready : tracker.Ready) {clock key : Nat} (fits : tracker.Fits clock)
    (late : tracker.interval.toNat ≤ clock) (known : key < tracker.dims.length) : ∀ n : Nat,
    n ≤ tracker.interval.toNat →
    tracker.total (clock - 1) key n = .ok (tracker.shownSum clock key n) := by
  intro n
  induction n with
  | zero => exact fun _ => rfl
  | succ n induction =>
      intro within
      have step := round_eq ready fits late known (show n < tracker.interval.toNat by omega)
        Except.ok
      rw [total, induction (by omega), bind_ok]
      refine Eq.trans ?_ step
      cases tracker.read (tracker.cur (clock - 1) key n) with
      | error fault => rfl
      | ok value =>
          rw [bind_ok, bind_ok]
          cases checkedLong (tracker.shownSum clock key n + value.toInt) with
          | error fault => rfl
          | ok total => rfl

theorem append_mark_inj {mark : UInt8} {front other back rest : Str}
    (same : front ++ mark :: back = other ++ mark :: rest) (plain : mark ∉ back)
    (free : mark ∉ rest) : front = other ∧ back = rest := by
  rcases List.append_eq_append_iff.mp same with ⟨more, split, behind⟩ | ⟨more, split, behind⟩
  · cases more with
    | nil =>
        rw [List.append_nil] at split
        exact ⟨split.symm, (List.cons.inj behind).2⟩
    | cons first more =>
        rw [(List.cons.inj behind).2] at plain
        exact absurd (List.mem_append_right more List.mem_cons_self) plain
  · cases more with
    | nil =>
        rw [List.append_nil] at split
        exact ⟨split, (List.cons.inj behind).2.symm⟩
    | cons first more =>
        rw [(List.cons.inj behind).2] at free
        exact absurd (List.mem_append_right more List.mem_cons_self) free

theorem decimal_undotted (n : Nat) : 0x2E ∉ decimal n := by
  intro dot
  have digit := ChatServer.Http.decimal_digit dot
  exact absurd digit.1 (by decide)

theorem label_inj {name other : Str} {n m : Nat} (same : label name n = label other m) :
    name = other ∧ decimal n = decimal m := by
  have dot : ascii "." = [0x2E] := rfl
  rw [label, label, dot, List.append_assoc, List.append_assoc] at same
  exact append_mark_inj same (decimal_undotted n) (decimal_undotted m)

theorem decimal_inj {n m : Nat} (same : decimal n = decimal m) : n = m := by
  have values := congrArg ChatServer.Http.digitsValue same
  rwa [ChatServer.Http.digits_value_decimal, ChatServer.Http.digits_value_decimal] at values

/-- A value that the report of one dimension stores stays when no later one has the name. -/
theorem dims_loop {report : Nat → Str → Data → Result Data} {bound key : Nat} {target text : Str}
    {value : Int}
    (each : ∀ i name data, i < bound → ∃ after, report i name data = .ok after ∧
      (name ≠ target → after text = data text) ∧
      (i = key → name = target → after text = some value))
    (named : target ≠ []) : ∀ (dims : List Str) (i : Nat) (data : Data),
    i + dims.length ≤ bound →
    ∃ after, dimsLoop report i dims data = .ok after ∧
      ((∀ name ∈ dims, name ≠ target) → after text = data text) ∧
      ∀ k, i + k = key → dims[k]? = some target →
        (∀ later, k < later → dims[later]? ≠ some target) → after text = some value := by
  intro dims
  induction dims with
  | nil =>
      intro i data _
      exact ⟨data, rfl, fun _ => rfl, fun k _ found => by simp at found⟩
  | cons name dims induction =>
      intro i data within
      rw [List.length_cons] at within
      by_cases empty : name = []
      · rcases induction (i + 1) data (by omega) with ⟨after, done, frame, shows⟩
        refine ⟨after, by rw [dimsLoop, if_pos empty, done], fun others => ?_,
          fun k place found last => ?_⟩
        · exact frame fun other member => others other (List.mem_cons_of_mem name member)
        · cases k with
          | zero =>
              rw [List.getElem?_cons_zero] at found
              exact absurd ((Option.some.inj found).symm.trans empty) named
          | succ k =>
              rw [List.getElem?_cons_succ] at found
              apply shows k (by omega) found
              intro later behind
              exact last (later + 1) (by omega)
      · rcases each i name data (by omega) with ⟨middle, reported, leaves, own⟩
        rcases induction (i + 1) middle (by omega) with ⟨after, done, frame, shows⟩
        refine ⟨after, by rw [dimsLoop, if_neg empty, reported, bind_ok, done],
          fun others => ?_, fun k place found last => ?_⟩
        · rw [frame fun other member => others other (List.mem_cons_of_mem name member)]
          exact leaves (others name List.mem_cons_self)
        · cases k with
          | zero =>
              rw [List.getElem?_cons_zero] at found
              rw [frame]
              · exact own place (Option.some.inj found)
              · intro other member same
                rcases List.getElem?_of_mem member with ⟨later, there⟩
                apply last (later + 1) (Nat.succ_pos later)
                rw [List.getElem?_cons_succ, there, same]
          | succ k =>
              rw [List.getElem?_cons_succ] at found
              apply shows k (by omega) found
              intro later behind
              exact last (later + 1) (by omega)

theorem totals_eq (ready : tracker.Ready) {clock key : Nat} (fits : tracker.Fits clock)
    (late : tracker.interval.toNat ≤ clock) (known : key < tracker.dims.length)
    (times : List UInt32) (name : Str) (data : Data) : ∀ n : Nat,
    n ≤ tracker.interval.toNat →
    ∃ after, tracker.totals (clock - 1) times key name data n =
        .ok (tracker.shownSum clock key n, after) ∧
      (∀ text, (∀ m, text ≠ label name m) → after text = data text) ∧
      ∀ m, 1 ≤ m → m ≤ n → times.contains (UInt32.ofNat m) = true →
        after (label name m) = some (tracker.shownSum clock key m) := by
  intro n
  induction n with
  | zero => exact fun _ => ⟨data, rfl, fun _ _ => rfl, fun m low high => by omega⟩
  | succ n induction =>
      intro within
      rcases induction (by omega) with ⟨middle, before, frame, shows⟩
      have step := round_eq ready fits late known (show n < tracker.interval.toNat by omega)
        fun total => Except.ok (total,
          if times.contains (UInt32.ofNat (n + 1)) then
            Function.update middle (label name (n + 1)) (some total) else middle)
      refine ⟨_, by rw [totals, before, bind_ok]; exact step, fun text other => ?_,
        fun m low high asked => ?_⟩
      · split
        · rw [Function.update_of_ne (other (n + 1)), frame text other]
        · exact frame text other
      · by_cases last : m = n + 1
        · rw [last] at asked ⊢
          rw [if_pos asked, Function.update_self]
        · have different : label name m ≠ label name (n + 1) := by
            intro same
            exact last (decimal_inj (label_inj same).2)
          split
          · rw [Function.update_of_ne different, shows m low (by omega) asked]
          · exact shows m low (by omega) asked

/-- What both reports say about a dimension for the last `d` seconds. -/
def Reports (tracker : Tracker) (clock : Nat) (d : UInt32) (name : Str) (sum : Int) : Prop :=
  (∀ data withTime, ∃ after, tracker.toDurationData clock data d withTime = .ok after ∧
      after (if withTime then label name d.toNat else name) = some sum) ∧
    ∀ data times, times.contains d = true → ∃ after, tracker.toData clock data times = .ok after ∧
      after (label name d.toNat) = some sum

def Named (dims : List Str) (key : Nat) (name : Str) : Prop :=
  dims[key]? = some name ∧ name ≠ [] ∧ ∀ later, key < later → dims[later]? ≠ some name

theorem reports_shown (ready : tracker.Ready) {clock key : Nat} (fits : tracker.Fits clock)
    (late : tracker.interval.toNat ≤ clock) {name : Str} (named : Named tracker.dims key name)
    {d : UInt32} (positive : 1 ≤ d.toNat) (within : d.toNat ≤ tracker.interval.toNat) :
    tracker.Reports clock d name (tracker.shownSum clock key d.toNat) := by
  rcases named with ⟨place, nonempty, last⟩
  constructor
  · intro data withTime
    have clipped : ¬tracker.interval < d := by
      rw [UInt32.lt_iff_toNat_lt]
      omega
    have each : ∀ i other data, i < tracker.dims.length →
        ∃ after, tracker.durationReport (clock - 1) d.toNat withTime i other data = .ok after ∧
          (other ≠ name → after (if withTime then label name d.toNat else name) =
            data (if withTime then label name d.toNat else name)) ∧
          (i = key → other = name → after (if withTime then label name d.toNat else name) =
            some (tracker.shownSum clock key d.toNat)) := by
      intro i other data known
      refine ⟨_, by rw [durationReport, total_eq ready fits late known _ within, bind_ok],
        fun different => ?_, fun own same => ?_⟩
      · apply Function.update_of_ne
        cases withTime with
        | false => exact Ne.symm different
        | true => exact fun same => different (label_inj same).1.symm
      · rw [same, own, Function.update_self]
    rcases dims_loop each nonempty tracker.dims 0 data (Nat.le_of_eq (Nat.zero_add _)) with
      ⟨after, done, -, shows⟩
    refine ⟨after, ?_, shows key (Nat.zero_add key) place last⟩
    rw [toDurationData, if_neg clipped]
    exact done
  · intro data times asked
    have each : ∀ i other data, i < tracker.dims.length →
        ∃ after, tracker.dataReport (clock - 1) times i other data = .ok after ∧
          (other ≠ name → after (label name d.toNat) = data (label name d.toNat)) ∧
          (i = key → other = name → after (label name d.toNat) =
            some (tracker.shownSum clock key d.toNat)) := by
      intro i other data known
      rcases totals_eq ready fits late known times other data tracker.interval.toNat
        (Nat.le_refl _) with ⟨after, done, frame, shows⟩
      have some_time : times.isEmpty = false := by
        cases times with
        | nil => cases asked
        | cons first times => rfl
      refine ⟨after, by rw [dataReport, done, bind_ok]; simp [some_time], fun different => ?_,
        fun own same => ?_⟩
      · apply frame
        intro m same
        exact different (label_inj same).1.symm
      · rw [← same, ← own]
        exact shows d.toNat positive within (by rwa [UInt32.ofNat_toNat])
    rcases dims_loop each nonempty tracker.dims 0 data (Nat.le_of_eq (Nat.zero_add _)) with
      ⟨after, done, -, shows⟩
    exact ⟨after, done, shows key (Nat.zero_add key) place last⟩

/-- The sum that is shown is the only one that is reported. -/
theorem reports_iff (ready : tracker.Ready) {clock key : Nat} (fits : tracker.Fits clock)
    (late : tracker.interval.toNat ≤ clock) {name : Str} (named : Named tracker.dims key name)
    {d : UInt32} (positive : 1 ≤ d.toNat) (within : d.toNat ≤ tracker.interval.toNat)
    (sum : Int) :
    tracker.Reports clock d name sum ↔ tracker.shownSum clock key d.toNat = sum := by
  have shown := reports_shown ready fits late named positive within
  constructor
  · intro claimed
    rcases shown.1 (fun _ => none) true with ⟨after, done, value⟩
    rcases claimed.1 (fun _ => none) true with ⟨other, again, same⟩
    rw [done] at again
    rw [← Except.ok.inj again, value] at same
    exact Option.some.inj same
  · intro same
    rwa [same] at shown

end Tracker

end ChatServer.Util
