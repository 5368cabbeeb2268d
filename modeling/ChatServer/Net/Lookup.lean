import ChatServer.Lib.TextSearch
import ChatServer.Machine

/-!
# The host and the service of a look-up

`Address::Lookup` of `address.cc` takes the text apart that it is given and calls
`getaddrinfo` with what it finds. The pointer `service` is the number of characters in front
of what it points to; two blocks of the function set it.
-/

namespace ChatServer.Net

set_option autoImplicit false

def openMark : UInt8 := 0x5B
def closeMark : UInt8 := 0x5D
def colon : UInt8 := 0x3A

def bracketBlock (host : Str) : Str × Option Nat :=
  if host.head? = some openMark then
    match TextSearch.find host closeMark 1 with
    | some endipv6 =>
        ((host.drop 1).take (endipv6 - 1),
          if host[endipv6 + 1]? = some colon then some (endipv6 + 2) else none)
    | none => ([], none)
  else ([], none)

/-- The second block: what is in front of the only colon. When there is a second colon the
pointer stays on the first one. -/
def colonBlock (host : Str) : Str × Option Nat :=
  match TextSearch.find host colon 0 with
  | some service =>
      if TextSearch.find host colon (service + 1) = none then
        (host.take service, some (service + 1))
      else ([], some service)
  | none => ([], none)

/-- The node and the service that `getaddrinfo` is called with. -/
def lookupArguments (host : Str) : Str × Option Str :=
  let first := bracketBlock host
  let second := if first.1 = [] then colonBlock host else first
  (if second.1 = [] then host else second.1, second.2.map host.drop)

/-- The text begins with a non-empty address in brackets; `behind` is what follows them. -/
def OpensWith (host address behind : Str) : Prop :=
  address ≠ [] ∧ closeMark ∉ address ∧ host = openMark :: (address ++ closeMark :: behind)

def Bracketed (host : Str) : Prop :=
  ∃ address behind, OpensWith host address behind ∧
    (behind = [] ∨ ∃ service, behind = colon :: service)

/-- What a host text means. -/
inductive Means : Str → Str × Option Str → Prop where
  | address {host a : Str} (opens : OpensWith host a []) : Means host (a, none)
  | addressService {host a s : Str} (opens : OpensWith host a (colon :: s)) :
      Means host (a, some s)
  | host {h : Str} (absent : colon ∉ h) (plain : ¬Bracketed h) : Means h (h, none)
  | hostService {h s : Str} (filled : h ≠ []) (absent : colon ∉ h) (single : colon ∉ s)
      (plain : ¬Bracketed (h ++ colon :: s)) : Means (h ++ colon :: s) (h, some s)
  | raw {h : Str} (several : 2 ≤ h.count colon) (plain : ∀ a behind, ¬OpensWith h a behind) :
      Means h (h, none)

/-- Two or more colons, and no address in brackets in front. -/
def RawAddress (host : Str) : Prop :=
  2 ≤ host.count colon ∧ ∀ address behind, ¬OpensWith host address behind

/-- An address in brackets with something else than a colon behind, and at most one colon. -/
def TextBehindBracket (host : Str) : Prop :=
  host.count colon ≤ 1 ∧ ∃ address c rest, OpensWith host address (c :: rest) ∧ c ≠ colon

variable {host address behind front back : Str}

theorem bracket_block_opens (opens : OpensWith host address behind) :
    bracketBlock host = (address,
      if behind.head? = some colon then some (address.length + 3) else none) := by
  rcases opens with ⟨_, closed, split⟩
  have found : TextSearch.find host closeMark 1 = some (1 + address.length) := by
    rw [split]
    exact TextSearch.find_first [openMark] closed
  have taken : (host.drop 1).take (1 + address.length - 1) = address := by
    rw [split, Nat.add_sub_cancel_left, List.drop_one, List.tail_cons, List.take_left]
  have next : host[1 + address.length + 1]? = behind.head? := by
    have place : 1 + address.length + 1 = (openMark :: (address ++ [closeMark])).length := by
      rw [List.length_cons, List.length_append, List.length_singleton]
      omega
    have parts : host = (openMark :: (address ++ [closeMark])) ++ behind := by
      rw [split, List.cons_append, List.append_assoc, List.singleton_append]
    rw [place, parts, List.getElem?_append_right (Nat.le_refl _), Nat.sub_self,
      List.head?_eq_getElem?]
  have start : host.head? = some openMark := by
    rw [split, List.head?_cons]
  rw [bracketBlock, if_pos start, found]
  dsimp only
  rw [taken, next, show 1 + address.length + 2 = address.length + 3 by omega]

theorem bracket_block_plain (plain : ∀ address behind, ¬OpensWith host address behind) :
    (bracketBlock host).1 = [] := by
  by_cases start : host.head? = some openMark
  · rcases List.head?_eq_some_iff.mp start with ⟨rest, split⟩
    rcases TextSearch.mark_cases closeMark rest with absent | ⟨front, back, parts, absent⟩
    · have nowhere : TextSearch.find host closeMark 1 = none := by
        rw [split]
        exact TextSearch.find_absent [openMark] absent
      rw [bracketBlock, if_pos start, nowhere]
    · have empty : front = [] := by
        by_contra filled
        exact plain front back ⟨filled, absent, by rw [split, parts]⟩
      have found : TextSearch.find host closeMark 1 = some 1 := by
        rw [split, parts, empty]
        have nothing : closeMark ∉ ([] : Str) := List.not_mem_nil
        exact TextSearch.find_first [openMark] nothing
      rw [bracketBlock, if_pos start, found]
      rfl
  · rw [bracketBlock, if_neg start]

theorem colon_block_absent (absent : colon ∉ host) : colonBlock host = ([], none) := by
  have nowhere : TextSearch.find host colon 0 = none := TextSearch.find_absent [] absent
  rw [colonBlock, nowhere]

theorem find_second (back : Str) (absent : colon ∉ front) :
    TextSearch.find (front ++ colon :: back) colon 0 = some front.length ∧
      (TextSearch.find (front ++ colon :: back) colon (front.length + 1) = none ↔
        colon ∉ back) := by
  have first : TextSearch.find (front ++ colon :: back) colon 0 = some (0 + front.length) :=
    TextSearch.find_first [] absent
  rw [Nat.zero_add] at first
  have parts : front ++ colon :: back = (front ++ [colon]) ++ back := by
    rw [List.append_assoc, List.singleton_append]
  have place : front.length + 1 = (front ++ [colon]).length := by
    rw [List.length_append, List.length_singleton]
  refine ⟨first, ?_⟩
  rw [place, parts]
  rcases TextSearch.mark_cases colon back with single | ⟨middle, rest, split, before⟩
  · exact ⟨fun _ => single, fun _ => TextSearch.find_absent _ single⟩
  · rw [split, TextSearch.find_first _ before]
    constructor
    · intro nothing
      cases nothing
    · intro single
      simp at single

theorem colon_block_single (absent : colon ∉ front) (single : colon ∉ back) :
    colonBlock (front ++ colon :: back) = (front, some (front.length + 1)) := by
  rcases find_second back absent with ⟨first, second⟩
  rw [colonBlock, first]
  dsimp only
  rw [if_pos (second.mpr single), List.take_left]

theorem colon_block_several (absent : colon ∉ front) (several : colon ∈ back) :
    colonBlock (front ++ colon :: back) = ([], some front.length) := by
  rcases find_second back absent with ⟨first, second⟩
  have found : TextSearch.find (front ++ colon :: back) colon (front.length + 1) ≠ none :=
    fun nothing => second.mp nothing several
  rw [colonBlock, first]
  exact if_neg found

theorem arguments_opens (opens : OpensWith host address behind) :
    lookupArguments host = (address,
      if behind.head? = some colon then some behind.tail else none) := by
  have block := bracket_block_opens opens
  have filled : (bracketBlock host).1 ≠ [] := by
    rw [block]
    exact opens.1
  rw [lookupArguments, if_neg filled, if_neg filled, block]
  by_cases service : behind.head? = some colon
  · rcases List.head?_eq_some_iff.mp service with ⟨rest, split⟩
    have dropped : host.drop (address.length + 3) = rest := by
      have parts : host = (openMark :: (address ++ [closeMark, colon])) ++ rest := by
        rw [opens.2.2, split, List.cons_append, List.append_assoc, List.cons_append,
          List.singleton_append]
      have place : address.length + 3 = (openMark :: (address ++ [closeMark, colon])).length := by
        simp
      rw [place, parts, List.drop_left]
    rw [if_pos service, if_pos service, Option.map_some, dropped, split, List.tail_cons]
  · rw [if_neg service, if_neg service, Option.map_none]

theorem arguments_plain (plain : ∀ address behind, ¬OpensWith host address behind) :
    lookupArguments host = (if (colonBlock host).1 = [] then host else (colonBlock host).1,
      (colonBlock host).2.map host.drop) := by
  rw [lookupArguments, if_pos (bracket_block_plain plain)]

theorem arguments_absent (plain : ∀ address behind, ¬OpensWith host address behind)
    (absent : colon ∉ host) : lookupArguments host = (host, none) := by
  rw [arguments_plain plain, colon_block_absent absent, if_pos rfl, Option.map_none]

theorem arguments_single
    (plain : ∀ address behind, ¬OpensWith (front ++ colon :: back) address behind)
    (filled : front ≠ []) (absent : colon ∉ front) (single : colon ∉ back) :
    lookupArguments (front ++ colon :: back) = (front, some back) := by
  rw [arguments_plain plain, colon_block_single absent single, if_neg filled, Option.map_some,
    List.drop_length_add_append]
  rfl

/-- With a second colon the service is the text from the first one on. -/
theorem arguments_several
    (plain : ∀ address behind, ¬OpensWith (front ++ colon :: back) address behind)
    (absent : colon ∉ front) (several : colon ∈ back) :
    lookupArguments (front ++ colon :: back) = (front ++ colon :: back, some (colon :: back)) := by
  rw [arguments_plain plain, colon_block_several absent several, if_pos rfl, Option.map_some,
    List.drop_left]

theorem opens_unique {other rest : Str} (opens : OpensWith host address behind)
    (again : OpensWith host other rest) : other = address ∧ rest = behind := by
  have first : TextSearch.cut closeMark (address ++ closeMark :: behind) =
      (address, some behind) := TextSearch.cut_first opens.2.1
  have second : TextSearch.cut closeMark (other ++ closeMark :: rest) = (other, some rest) :=
    TextSearch.cut_first again.2.1
  have same : other ++ closeMark :: rest = address ++ closeMark :: behind := by
    have whole := again.2.2
    rw [opens.2.2] at whole
    exact (List.cons.inj whole).2.symm
  rw [same, first] at second
  exact ⟨(Prod.mk.inj second).1.symm, (Option.some.inj (Prod.mk.inj second).2).symm⟩

theorem colon_cases (host : Str) :
    (colon ∉ host ∧ host.count colon = 0) ∨
    (∃ front back, host = front ++ colon :: back ∧ colon ∉ front ∧ colon ∉ back ∧
      host.count colon = 1) ∨
    ∃ front back, host = front ++ colon :: back ∧ colon ∉ front ∧ colon ∈ back ∧
      2 ≤ host.count colon := by
  rcases TextSearch.mark_cases colon host with absent | ⟨front, back, split, absent⟩
  · exact Or.inl ⟨absent, List.count_eq_zero.mpr absent⟩
  · have counted : host.count colon = back.count colon + 1 := by
      rw [split, List.count_append, List.count_eq_zero.mpr absent, List.count_cons_self,
        Nat.zero_add]
    by_cases several : colon ∈ back
    · have positive := List.count_pos_iff.mpr several
      exact Or.inr (Or.inr ⟨front, back, split, absent, several, by omega⟩)
    · rw [List.count_eq_zero.mpr several] at counted
      exact Or.inr (Or.inl ⟨front, back, split, absent, several, counted⟩)

theorem raw_fails (raw : RawAddress host) : lookupArguments host ≠ (host, none) := by
  rcases colon_cases host with ⟨_, few⟩ | ⟨_, _, _, _, _, few⟩ |
    ⟨front, back, split, absent, several, _⟩
  · exact absurd raw.1 (by omega)
  · exact absurd raw.1 (by omega)
  · have plain := raw.2
    rw [split] at plain ⊢
    rw [arguments_several plain absent several]
    intro same
    cases (Prod.mk.inj same).2

theorem not_bracketed {c : UInt8} {rest : Str} (opens : OpensWith host address (c :: rest))
    (other : c ≠ colon) : ¬Bracketed host := by
  rintro ⟨a, b, again, ends⟩
  rw [(opens_unique opens again).2] at ends
  rcases ends with nothing | ⟨service, first⟩
  · cases nothing
  · exact other (List.cons.inj first).1

theorem text_behind_fails (text : TextBehindBracket host) :
    ∃ pair, Means host pair ∧ lookupArguments host ≠ pair := by
  rcases text with ⟨few, a, c, rest, opens, other⟩
  have passed : lookupArguments host = (a, none) := by
    rw [arguments_opens opens, if_neg]
    intro first
    exact other (Option.some.inj first)
  have plain := not_bracketed opens other
  rcases colon_cases host with ⟨absent, _⟩ | ⟨front, back, split, absent, single, _⟩ |
    ⟨_, _, _, _, _, several⟩
  · refine ⟨(host, none), Means.host absent plain, ?_⟩
    intro same
    rw [passed] at same
    have lengths := congrArg List.length (Prod.mk.inj same).1
    rw [opens.2.2, List.length_cons, List.length_append] at lengths
    omega
  · have filled : front ≠ [] := by
      intro empty
      have start := opens.2.2
      rw [split, empty, List.nil_append] at start
      exact absurd (List.cons.inj start).1 (by decide)
    rw [split] at plain
    refine ⟨(front, some back), ?_, ?_⟩
    · rw [split]
      exact Means.hostService filled absent single plain
    · intro same
      rw [passed] at same
      cases (Prod.mk.inj same).2
  · omega

/-- A text that is not bracketed and begins with no address in brackets, or has few colons. -/
theorem opens_bracketed (opens : OpensWith host address behind) (few : host.count colon ≤ 1)
    (no_text : ¬TextBehindBracket host) : Bracketed host := by
  refine ⟨address, behind, opens, ?_⟩
  cases behind with
  | nil => exact Or.inl rfl
  | cons c rest =>
      right
      by_cases first : c = colon
      · exact ⟨rest, by rw [first]⟩
      · exact absurd ⟨few, address, c, rest, opens, first⟩ no_text

/-- The arguments are what the text means, unless it is a raw IPv6 address or has text behind
the brackets. -/
theorem lookup_arguments_iff (host : Str) :
    (∀ pair, Means host pair → lookupArguments host = pair) ↔
      ¬RawAddress host ∧ ¬TextBehindBracket host := by
  constructor
  · intro right
    constructor
    · intro raw
      exact raw_fails raw (right _ (Means.raw raw.1 raw.2))
    · intro text
      rcases text_behind_fails text with ⟨pair, means, wrong⟩
      exact wrong (right pair means)
  · rintro ⟨not_raw, no_text⟩ pair means
    cases means with
    | address opens =>
        rw [arguments_opens opens]
        rfl
    | addressService opens =>
        rw [arguments_opens opens, List.head?_cons, if_pos rfl, List.tail_cons]
    | host absent plain =>
        apply arguments_absent _ absent
        intro a b opens
        have few : host.count colon ≤ 1 := by
          rw [List.count_eq_zero.mpr absent]
          exact Nat.zero_le 1
        exact plain (opens_bracketed opens few no_text)
    | hostService filled absent single plain =>
        apply arguments_single _ filled absent single
        intro a b opens
        apply plain (opens_bracketed opens _ no_text)
        rw [List.count_append, List.count_cons_self, List.count_eq_zero.mpr absent,
          List.count_eq_zero.mpr single]
    | raw several plain => exact absurd ⟨several, plain⟩ not_raw

/-- `fe80::1` is passed on with the service `::1`. -/
theorem raw_address_service :
    lookupArguments [0x66, 0x65, 0x38, 0x30, 0x3A, 0x3A, 0x31] =
      ([0x66, 0x65, 0x38, 0x30, 0x3A, 0x3A, 0x31], some [0x3A, 0x3A, 0x31]) ∧
    ¬∀ pair, Means [0x66, 0x65, 0x38, 0x30, 0x3A, 0x3A, 0x31] pair →
      lookupArguments [0x66, 0x65, 0x38, 0x30, 0x3A, 0x3A, 0x31] = pair := by
  have passed : lookupArguments [0x66, 0x65, 0x38, 0x30, 0x3A, 0x3A, 0x31] =
      ([0x66, 0x65, 0x38, 0x30, 0x3A, 0x3A, 0x31], some [0x3A, 0x3A, 0x31]) := by decide
  refine ⟨passed, ?_⟩
  intro right
  have means : Means [0x66, 0x65, 0x38, 0x30, 0x3A, 0x3A, 0x31]
      ([0x66, 0x65, 0x38, 0x30, 0x3A, 0x3A, 0x31], none) := by
    apply Means.raw (by decide)
    rintro a b ⟨_, _, start⟩
    exact absurd (List.cons.inj start).1 (by decide)
  have same := right _ means
  rw [passed] at same
  cases (Prod.mk.inj same).2

end ChatServer.Net
