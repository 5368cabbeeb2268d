import ChatServer.Lib.BitString

/-!
# Prefix codes

A prefix code assigns bit strings to symbols, none a prefix of another. A bit string
then splits in one way only into the codes of some symbols and a rest that no code
starts. The second half shows how to get the defining property, and how much of all bit
strings the code covers, from numbers: the words of `depth` bits that start with a
code are an interval, and the intervals of a code in increasing order lie end to end.
-/

namespace PrefixCode

set_option autoImplicit false

open BitString

variable {Symbol : Type*} (code : Symbol → List Bool)

def PrefixFree : Prop := ∀ first second, code first <+: code second → first = second

def Stuck (rest : List Bool) : Prop := ∀ symbol, ¬code symbol <+: rest

def encode (symbols : List Symbol) : List Bool := symbols.flatMap code

variable {code}

theorem encode_cons (symbol : Symbol) (symbols : List Symbol) :
    encode code (symbol :: symbols) = code symbol ++ encode code symbols := List.flatMap_cons

theorem encode_append (front back : List Symbol) :
    encode code (front ++ back) = encode code front ++ encode code back := List.flatMap_append

theorem encode_singleton (symbol : Symbol) : encode code [symbol] = code symbol := by
  rw [encode_cons, encode, List.flatMap_nil, List.append_nil]

/-- Two codes that start one string are the same. -/
theorem code_eq_of_starts (free : PrefixFree code) {first second : Symbol} {bits : List Bool}
    (left : code first <+: bits) (right : code second <+: bits) : first = second := by
  rcases List.prefix_or_prefix_of_prefix left right with below | above
  · exact free first second below
  · exact (free second first above).symm

theorem parse_unique (free : PrefixFree code) {first second : List Symbol}
    {firstRest secondRest : List Bool} (firstStuck : Stuck code firstRest)
    (secondStuck : Stuck code secondRest)
    (same : encode code first ++ firstRest = encode code second ++ secondRest) :
    first = second ∧ firstRest = secondRest := by
  induction first generalizing second with
  | nil =>
      cases second with
      | nil => exact ⟨rfl, same⟩
      | cons symbol symbols =>
          exfalso
          apply firstStuck symbol
          rw [encode, List.flatMap_nil, List.nil_append, encode_cons, List.append_assoc] at same
          rw [same]
          exact List.prefix_append _ _
  | cons symbol symbols induction =>
      rw [encode_cons, List.append_assoc] at same
      have starts : code symbol <+: encode code second ++ secondRest := by
        rw [← same]
        exact List.prefix_append _ _
      cases second with
      | nil => exact absurd starts (secondStuck symbol)
      | cons other others =>
          rw [encode_cons, List.append_assoc] at same starts
          have equal := code_eq_of_starts free starts (List.prefix_append _ _)
          subst equal
          obtain ⟨tail, rest⟩ := induction (List.append_cancel_left same)
          exact ⟨by rw [tail], rest⟩

/-- The intervals lie end to end from `low` to `high`. -/
def Tiles (low high : Nat) : List (Nat × Nat) → Prop
  | [] => low = high
  | (start, stop) :: rest => start = low ∧ start < stop ∧ Tiles stop high rest

instance decidableTiles (high : Nat) :
    ∀ (intervals : List (Nat × Nat)) (low : Nat), Decidable (Tiles low high intervals)
  | [], low => inferInstanceAs (Decidable (low = high))
  | (start, stop) :: rest, low =>
      have := decidableTiles high rest stop
      inferInstanceAs (Decidable (start = low ∧ start < stop ∧ Tiles stop high rest))

theorem tiles_le {high : Nat} {intervals : List (Nat × Nat)} {low : Nat}
    (tiles : Tiles low high intervals) : low ≤ high := by
  induction intervals generalizing low with
  | nil => exact Nat.le_of_eq tiles
  | cons interval rest induction =>
      obtain ⟨start, stop⟩ := interval
      obtain ⟨begins, nonempty, remaining⟩ := tiles
      have tail := induction remaining
      omega

theorem tiles_bounds {high : Nat} {intervals : List (Nat × Nat)} {low : Nat}
    (tiles : Tiles low high intervals) {interval : Nat × Nat} (member : interval ∈ intervals) :
    low ≤ interval.1 ∧ interval.2 ≤ high := by
  induction intervals generalizing low with
  | nil => cases member
  | cons head rest induction =>
      obtain ⟨start, stop⟩ := head
      obtain ⟨begins, nonempty, remaining⟩ := tiles
      rcases List.mem_cons.mp member with rfl | inRest
      · exact ⟨Nat.le_of_eq begins.symm, tiles_le remaining⟩
      · obtain ⟨lower, upper⟩ := induction remaining inRest
        exact ⟨by omega, upper⟩

theorem tiles_cover {high : Nat} {intervals : List (Nat × Nat)} {low point : Nat}
    (tiles : Tiles low high intervals) (lower : low ≤ point) (upper : point < high) :
    ∃ interval ∈ intervals, interval.1 ≤ point ∧ point < interval.2 := by
  induction intervals generalizing low with
  | nil =>
      have ends : low = high := tiles
      omega
  | cons head rest induction =>
      obtain ⟨start, stop⟩ := head
      obtain ⟨begins, nonempty, remaining⟩ := tiles
      by_cases inside : point < stop
      · exact ⟨(start, stop), List.mem_cons_self, by omega, inside⟩
      · obtain ⟨interval, member, bounds⟩ := induction remaining (Nat.not_lt.mp inside)
        exact ⟨interval, List.mem_cons_of_mem _ member, bounds⟩

/-- Symbols whose intervals share a point are the same, when their intervals are tiles. -/
theorem tiles_disjoint {Symbol : Type*} {interval : Symbol → Nat × Nat} {high : Nat}
    {symbols : List Symbol} {low point : Nat} (tiles : Tiles low high (symbols.map interval))
    {first second : Symbol} (firstMember : first ∈ symbols) (secondMember : second ∈ symbols)
    (inFirst : (interval first).1 ≤ point ∧ point < (interval first).2)
    (inSecond : (interval second).1 ≤ point ∧ point < (interval second).2) : first = second := by
  induction symbols generalizing low with
  | nil => cases firstMember
  | cons head rest induction =>
      obtain ⟨begins, nonempty, remaining⟩ := tiles
      have behind (symbol : Symbol) (member : symbol ∈ rest) :
          (interval head).2 ≤ (interval symbol).1 :=
        (tiles_bounds remaining (List.mem_map_of_mem member)).1
      rcases List.mem_cons.mp firstMember with rfl | firstRest
      · rcases List.mem_cons.mp secondMember with rfl | secondRest
        · rfl
        · have gap := behind second secondRest
          omega
      · rcases List.mem_cons.mp secondMember with rfl | secondRest
        · have gap := behind first firstRest
          omega
        · exact induction remaining firstRest secondRest

section Words

variable (depth : Nat) (word width : Symbol → Nat)

/-- The words of `depth` bits that start with the code of a symbol. -/
def interval (symbol : Symbol) : Nat × Nat :=
  (word symbol * 2 ^ (depth - width symbol), (word symbol + 1) * 2 ^ (depth - width symbol))

/-- The words of a code: they have the width they are given, and no more than `depth` bits. -/
def Fits : Prop := ∀ symbol, width symbol ≤ depth ∧ word symbol < 2 ^ width symbol

variable {depth word width}

theorem mem_interval_iff {symbol : Symbol} {point : Nat} (fits : Fits depth word width)
    (bound : point < 2 ^ depth) :
    (interval depth word width symbol).1 ≤ point ∧ point < (interval depth word width symbol).2 ↔
      natBits (width symbol) (word symbol) <+: natBits depth point := by
  have positive := Nat.two_pow_pos (depth - width symbol)
  rw [nat_bits_prefix_iff (fits symbol).2 bound, Nat.div_eq_iff positive, interval, Nat.add_mul,
    Nat.one_mul]
  constructor
  · intro inside
    exact ⟨(fits symbol).1, inside.1, by omega⟩
  · intro inside
    exact ⟨inside.2.1, by omega⟩

theorem tiles_prefix_free {high : Nat} {symbols : List Symbol} (fits : Fits depth word width)
    (all : ∀ symbol, symbol ∈ symbols)
    (tiles : Tiles 0 high (symbols.map (interval depth word width))) :
    PrefixFree fun symbol => natBits (width symbol) (word symbol) := by
  intro first second starts
  -- the smallest word that starts with the longer code lies in both intervals
  have bound : (interval depth word width second).1 < 2 ^ depth := by
    have scaled := (Nat.mul_lt_mul_right (Nat.two_pow_pos (depth - width second))).mpr
      (fits second).2
    rwa [← Nat.pow_add, Nat.add_sub_cancel' (fits second).1] at scaled
  have inSecond : (interval depth word width second).1 ≤ (interval depth word width second).1 ∧
      (interval depth word width second).1 < (interval depth word width second).2 := by
    refine ⟨Nat.le_refl _, ?_⟩
    apply (Nat.mul_lt_mul_right (Nat.two_pow_pos _)).mpr
    exact Nat.lt_succ_self _
  have inFirst := (mem_interval_iff fits bound).mpr
    (starts.trans ((mem_interval_iff fits bound).mp inSecond))
  exact tiles_disjoint tiles (all first) (all second) inFirst inSecond

/-- Every word below `high` starts with a code. -/
theorem tiles_complete {high : Nat} {symbols : List Symbol} (fits : Fits depth word width)
    (tiles : Tiles 0 high (symbols.map (interval depth word width))) {bits : List Bool}
    (whole : bits.length = depth) (below : ofBits bits < high) :
    ∃ symbol, natBits (width symbol) (word symbol) <+: bits := by
  obtain ⟨found, member, inside⟩ := tiles_cover tiles (Nat.zero_le _) below
  obtain ⟨symbol, _, rfl⟩ := List.mem_map.mp member
  have bound : ofBits bits < 2 ^ depth := by
    rw [← whole]
    exact of_bits_lt bits
  have starts := (mem_interval_iff fits bound).mp inside
  rw [← whole, nat_bits_of_bits] at starts
  exact ⟨symbol, starts⟩

theorem tiles_word_lt {high : Nat} {symbols : List Symbol} (fits : Fits depth word width)
    (all : ∀ symbol, symbol ∈ symbols)
    (tiles : Tiles 0 high (symbols.map (interval depth word width))) {symbol : Symbol} {point : Nat}
    (bound : point < 2 ^ depth)
    (starts : natBits (width symbol) (word symbol) <+: natBits depth point) : point < high := by
  have inside := (mem_interval_iff fits bound).mpr starts
  have upper := (tiles_bounds tiles (List.mem_map_of_mem (all symbol))).2
  exact Nat.lt_of_lt_of_le inside.2 upper

end Words

end PrefixCode
