import ChatServer.Lib.TextSearch
import ChatServer.Machine

/-!
# Splitting a text

The two `split` functions of `util.cc`. One cuts at a character, the other one at each of
several. The limit is a `size_t` that is counted down behind every cut and compared with one,
so that a limit of one is passed on the first cut, and no limit is left.
-/

namespace ChatServer.Util

set_option autoImplicit false

def splitLoop (isDelim : UInt8 → Bool) (str : Str) :
    Nat → List Str → Nat → UInt64 → Result (List Str)
  | 0, _, _, _ => .error (.undefined .endlessLoop)
  | fuel + 1, result, last, max =>
      match TextSearch.findAny isDelim str last with
      | none => .ok (result ++ [str.drop last])
      | some pos =>
          let result := result ++ [(str.drop last).take (pos - last)]
          let last := pos + 1
          let max := max - 1
          if max = 1 then .ok (result ++ [str.drop last])
          else splitLoop isDelim str fuel result last max

/-- What both functions do, with what `find` and `find_first_of` look for. -/
def splitBy (isDelim : UInt8 → Bool) (str : Str) (max : UInt64) : Result (List Str) :=
  if str = [] then .ok [] else splitLoop isDelim str (str.length + 1) [] 0 max

def split (str : Str) (delim : UInt8) (max : UInt64) : Result (List Str) :=
  splitBy (fun c => decide (c = delim)) str max

/-- The overload for several delimiters, the characters in front of the `NUL` of `delims`. -/
def splitAny (str : Str) (delims : Str) (max : UInt64) : Result (List Str) :=
  splitBy (fun c => delims.contains c) str max

/-- The text is the pieces with a delimiter between each two. -/
inductive Joined (isDelim : UInt8 → Bool) : List Str → Str → Prop where
  | last (piece : Str) : Joined isDelim [piece] piece
  | next {pieces : List Str} {text : Str} (piece : Str) (delim : UInt8)
      (found : isDelim delim = true) (rest : Joined isDelim pieces text) :
      Joined isDelim (piece :: pieces) (piece ++ delim :: text)

structure Limited (isDelim : UInt8 → Bool) (max : UInt64) (pieces : List Str) : Prop where
  unlimited : max = 0 → ∀ piece ∈ pieces, piece.any isDelim = false
  few : max ≠ 0 → pieces.length ≤ max.toNat
  front : max ≠ 0 → ∀ piece ∈ pieces.dropLast, piece.any isDelim = false

def Splits (str : Str) (delim : UInt8) (max : UInt64) : Prop :=
  ∃ pieces, split str delim max = .ok pieces ∧ [delim].intercalate pieces = str ∧
    Limited (fun c => decide (c = delim)) max pieces

def SplitsAny (str : Str) (delims : Str) (max : UInt64) : Prop :=
  ∃ pieces, splitAny str delims max = .ok pieces ∧
    Joined (fun c => delims.contains c) pieces str ∧
    Limited (fun c => delims.contains c) max pieces

/-- How often the loop cuts at most. -/
def cuts (max : UInt64) : Nat := (max - 2).toNat + 1

structure Pieces (isDelim : UInt8 → Bool) (room : Nat) (text : Str) (pieces : List Str) :
    Prop where
  joined : Joined isDelim pieces text
  front : ∀ piece ∈ pieces.dropLast, piece.any isDelim = false
  length : pieces.length = min (text.countP isDelim) room + 1

variable {isDelim : UInt8 → Bool} {max : UInt64} {text : Str} {pieces : List Str}

theorem cuts_last (last : max - 1 = 1) : cuts max = 1 := by
  have two : max - 2 = 0 := by grind
  rw [cuts, two]
  rfl

theorem cuts_next (more : max - 1 ≠ 1) : cuts max = cuts (max - 1) + 1 := by
  have positive : max.toNat ≠ 2 := by
    intro two
    apply more
    have same : max = 2 := UInt64.toNat_inj.mp two
    rw [same]
    decide
  have bound := max.toNat_lt
  rw [cuts, cuts, UInt64.toNat_sub, UInt64.toNat_sub, UInt64.toNat_sub]
  change (2 ^ 64 - 2 + max.toNat) % 2 ^ 64 + 1 =
    (2 ^ 64 - 2 + (2 ^ 64 - 1 + max.toNat) % 2 ^ 64) % 2 ^ 64 + 1 + 1
  omega

theorem count_zero_iff (isDelim : UInt8 → Bool) (text : Str) :
    text.countP isDelim = 0 ↔ text.any isDelim = false := by
  rw [List.countP_eq_zero, List.any_eq_false]

theorem joined_count (joined : Joined isDelim pieces text)
    (front : ∀ piece ∈ pieces.dropLast, piece.any isDelim = false) :
    ∃ init last, pieces = init ++ [last] ∧
      text.countP isDelim = last.countP isDelim + init.length := by
  induction joined with
  | last piece => exact ⟨[], piece, rfl, rfl⟩
  | @next pieces text piece delim found rest induction =>
      have filled : pieces ≠ [] := by
        cases rest <;> simp
      rw [List.dropLast_cons_of_ne_nil filled] at front
      rcases induction fun other member => front other (List.mem_cons_of_mem piece member) with
        ⟨init, last, ends, count⟩
      have plain := front piece List.mem_cons_self
      refine ⟨piece :: init, last, by rw [ends, List.cons_append], ?_⟩
      rw [List.countP_append, (count_zero_iff isDelim piece).mpr plain,
        List.countP_cons_of_pos found, count, List.length_cons]
      omega

theorem pieces_single (room : Nat) (absent : text.any isDelim = false) :
    Pieces isDelim room text [text] := by
  refine ⟨Joined.last text, ?_, ?_⟩
  · intro piece member
    cases member
  · rw [(count_zero_iff isDelim text).mpr absent, Nat.zero_min, List.length_singleton]

theorem pieces_cut {front back : Str} {delim : UInt8} (absent : front.any isDelim = false)
    (found : isDelim delim = true) : Pieces isDelim 1 (front ++ delim :: back) [front, back] := by
  refine ⟨Joined.next front delim found (Joined.last back), ?_, ?_⟩
  · intro piece member
    rw [List.mem_singleton.mp member]
    exact absent
  · rw [List.countP_append, List.countP_cons_of_pos found]
    simp only [List.length_cons, List.length_nil]
    omega

theorem pieces_next {front back : Str} {delim : UInt8} {room : Nat}
    (absent : front.any isDelim = false) (found : isDelim delim = true)
    (rest : Pieces isDelim room back pieces) :
    Pieces isDelim (room + 1) (front ++ delim :: back) (front :: pieces) := by
  have filled : pieces ≠ [] := by
    intro empty
    have length := rest.length
    rw [empty, List.length_nil] at length
    omega
  refine ⟨Joined.next front delim found rest.joined, ?_, ?_⟩
  · rw [List.dropLast_cons_of_ne_nil filled]
    intro piece member
    rcases List.mem_cons.mp member with first | later
    · rwa [first]
    · exact rest.front piece later
  · rw [List.countP_append, List.countP_cons_of_pos found, List.length_cons, rest.length,
      (count_zero_iff isDelim front).mpr absent]
    omega

theorem loop_pieces (isDelim : UInt8 → Bool) (fuel : Nat) :
    ∀ (rest skipped : Str) (result : List Str) (max : UInt64), rest.length < fuel →
      ∃ pieces, splitLoop isDelim (skipped ++ rest) fuel result skipped.length max =
        .ok (result ++ pieces) ∧ Pieces isDelim (cuts max) rest pieces := by
  induction fuel with
  | zero =>
      intro rest skipped result max enough
      omega
  | succ fuel induction =>
      intro rest skipped result max enough
      rcases TextSearch.stop_cases isDelim rest with
        absent | ⟨front, delim, back, cut, absent, found⟩
      · refine ⟨[rest], ?_, pieces_single _ absent⟩
        rw [splitLoop, TextSearch.find_any_absent skipped absent, List.drop_left]
      · have shorter : back.length < fuel := by
          rw [cut, List.length_append, List.length_cons] at enough
          omega
        have behind : skipped ++ rest = (skipped ++ front ++ [delim]) ++ back := by
          rw [cut, List.append_assoc, List.append_assoc, List.singleton_append]
        have place : skipped.length + front.length + 1 =
            (skipped ++ front ++ [delim]).length := by
          rw [List.length_append, List.length_append, List.length_singleton]
        have dropped : (skipped ++ rest).drop (skipped.length + front.length + 1) = back := by
          rw [place, behind, List.drop_left]
        have taken : ((skipped ++ rest).drop skipped.length).take
            (skipped.length + front.length - skipped.length) = front := by
          rw [List.drop_left, cut, Nat.add_sub_cancel_left, List.take_left]
        have place_found : TextSearch.findAny isDelim (skipped ++ rest) skipped.length =
            some (skipped.length + front.length) := by
          rw [cut, TextSearch.find_any_first skipped absent found]
        rw [splitLoop, place_found]
        dsimp only
        rw [taken, dropped]
        by_cases last : max - 1 = 1
        · refine ⟨[front, back], ?_, ?_⟩
          · rw [if_pos last, List.append_assoc]
            rfl
          · rw [cuts_last last, cut]
            exact pieces_cut absent found
        · rcases induction back (skipped ++ front ++ [delim]) (result ++ [front]) (max - 1)
            shorter with ⟨pieces, done, rest_pieces⟩
          refine ⟨front :: pieces, ?_, ?_⟩
          · rw [if_neg last, place, behind, done, List.append_assoc]
            rfl
          · rw [cuts_next last, cut]
            exact pieces_next absent found rest_pieces

theorem split_by_pieces (isDelim : UInt8 → Bool) (max : UInt64) (filled : text ≠ []) :
    ∃ pieces, splitBy isDelim text max = .ok pieces ∧ Pieces isDelim (cuts max) text pieces := by
  have looped := loop_pieces isDelim (text.length + 1) text [] [] max (Nat.lt_succ_self _)
  rw [splitBy, if_neg filled]
  exact looped

/-- The limit is kept, unless it is one and there is something to cut, or there is none and
more delimiters than a `size_t` counts. -/
theorem limited_iff (cut : Pieces isDelim (cuts max) text pieces) :
    Limited isDelim max pieces ↔
      (max = 1 → text.any isDelim = false) ∧ (max = 0 → text.countP isDelim < 2 ^ 64) := by
  rcases joined_count cut.joined cut.front with ⟨init, last, ends, count⟩
  have length := cut.length
  rw [ends, List.length_append, List.length_singleton] at length
  constructor
  · intro limited
    constructor
    · intro one
      have few := limited.few (by rw [one]; decide)
      rw [ends, one, List.length_append, List.length_singleton] at few
      change init.length + 1 ≤ 1 at few
      have room : 1 ≤ cuts max := Nat.le_add_left 1 _
      rw [← count_zero_iff]
      omega
    · intro zero
      have plain := limited.unlimited zero last (by rw [ends]; simp)
      rw [← count_zero_iff] at plain
      have room : cuts max = 2 ^ 64 - 1 := by
        rw [zero]
        decide
      omega
  · rintro ⟨single, counted⟩
    refine ⟨?_, ?_, fun _ => cut.front⟩
    · intro zero piece member
      have room : cuts max = 2 ^ 64 - 1 := by
        rw [zero]
        decide
      have bound := counted zero
      have plain : last.countP isDelim = 0 := by omega
      rw [ends, List.mem_append, List.mem_singleton] at member
      rcases member with early | same
      · apply cut.front
        rwa [ends, List.dropLast_concat]
      · rw [same, ← count_zero_iff, plain]
    · intro positive
      rw [ends, List.length_append, List.length_singleton]
      by_cases one : max = 1
      · have none_left := (count_zero_iff isDelim text).mpr (single one)
        rw [one]
        change init.length + 1 ≤ 1
        omega
      · have low : 2 ≤ max.toNat := by
          have not_zero : max.toNat ≠ 0 := fun same => positive (UInt64.toNat_inj.mp same)
          have not_one : max.toNat ≠ 1 := fun same => one (UInt64.toNat_inj.mp same)
          omega
        have room : cuts max = max.toNat - 1 := by
          have bound := max.toNat_lt
          have two : 2 ≤ max := UInt64.le_iff_toNat_le.mpr (by exact low)
          rw [cuts, UInt64.toNat_sub_of_le _ _ two]
          change max.toNat - 2 + 1 = max.toNat - 1
          omega
        omega

theorem joined_intercalate {delim : UInt8}
    (joined : Joined (fun c => decide (c = delim)) pieces text) :
    [delim].intercalate pieces = text := by
  induction joined with
  | last piece => simp
  | @next pieces text piece other found rest induction =>
      have filled : pieces ≠ [] := by
        cases rest <;> simp
      rw [of_decide_eq_true found, List.intercalate_cons_of_ne_nil filled, induction,
        List.append_assoc, List.singleton_append]

theorem any_delim_iff (text : Str) (delim : UInt8) :
    text.any (fun c => decide (c = delim)) = false ↔ delim ∉ text := by
  rw [List.any_eq_false]
  constructor
  · intro others member
    exact others delim member (decide_eq_true rfl)
  · intro absent c member same
    rw [of_decide_eq_true same] at member
    exact absent member

/-- Both functions follow the law, unless the limit is one and there is a delimiter. -/
theorem split_law_iff (str delims : Str) (delim : UInt8) (max : UInt64) (filled : str ≠ []) :
    (Splits str delim max ↔
      (max = 1 → delim ∉ str) ∧ (max = 0 → str.count delim < 2 ^ 64)) ∧
    (SplitsAny str delims max ↔
      (max = 1 → ∀ c ∈ str, c ∉ delims) ∧
        (max = 0 → str.countP (fun c => delims.contains c) < 2 ^ 64)) := by
  constructor
  · rcases split_by_pieces (fun c => decide (c = delim)) max filled with ⟨pieces, done, cut⟩
    have limit := limited_iff cut
    have counted : str.countP (fun c => decide (c = delim)) = str.count delim := by
      simp only [List.count, beq_eq_decide]
    rw [any_delim_iff, counted] at limit
    rw [← limit]
    constructor
    · rintro ⟨other, returned, _, limited⟩
      rw [split, done] at returned
      rwa [Except.ok.inj returned]
    · intro limited
      exact ⟨pieces, done, joined_intercalate cut.joined, limited⟩
  · rcases split_by_pieces (fun c => delims.contains c) max filled with ⟨pieces, done, cut⟩
    have limit := limited_iff cut
    have absent : str.any (fun c => delims.contains c) = false ↔ ∀ c ∈ str, c ∉ delims := by
      simp
    rw [absent] at limit
    rw [← limit]
    constructor
    · rintro ⟨other, returned, _, limited⟩
      rw [splitAny, done] at returned
      rwa [Except.ok.inj returned]
    · intro limited
      exact ⟨pieces, done, cut.joined, limited⟩

theorem split_law_iff_letters : (Splits [0x61, 0x2C, 0x62] 0x2C 2 ↔
      ((2 : UInt64) = 1 → (0x2C : UInt8) ∉ ([0x61, 0x2C, 0x62] : Str)) ∧
        ((2 : UInt64) = 0 → ([0x61, 0x2C, 0x62] : Str).count 0x2C < 2 ^ 64)) ∧
    (SplitsAny [0x61, 0x2C, 0x62] [0x2C, 0x3B] 2 ↔
      ((2 : UInt64) = 1 → ∀ c ∈ ([0x61, 0x2C, 0x62] : Str), c ∉ ([0x2C, 0x3B] : Str)) ∧
        ((2 : UInt64) = 0 →
          ([0x61, 0x2C, 0x62] : Str).countP (fun c => ([0x2C, 0x3B] : Str).contains c) < 2 ^ 64)) :=
  split_law_iff [0x61, 0x2C, 0x62] [0x2C, 0x3B] 0x2C 2 (by decide)

/-- `split("a,b", ',', 1)` has two pieces. -/
theorem single_piece_cut :
    split [0x61, 0x2C, 0x62] 0x2C 1 = .ok [[0x61], [0x62]] ∧
      ¬Splits [0x61, 0x2C, 0x62] 0x2C 1 := by
  have done : split [0x61, 0x2C, 0x62] 0x2C 1 = .ok [[0x61], [0x62]] := by decide
  refine ⟨done, ?_⟩
  rintro ⟨pieces, returned, _, limited⟩
  rw [done] at returned
  have few := limited.few (by decide)
  rw [← Except.ok.inj returned] at few
  exact absurd few (by decide)

end ChatServer.Util
