import ChatServer.Http.Dump
import ChatServer.Net.Lookup
import ChatServer.Net.Subnet

/-!
# IPv6 addresses as text

`IPv6Address::insert` of `address.cc`: eight groups in hexadecimal, the first run of zero groups
left out and shown by two colons. A reader for this form gives the groups and the port back.
-/

namespace ChatServer.Net

set_option autoImplicit false

open WordBytes
open ChatServer.Http (decimal decimal_digit decimal_ne_nil digitsValue digits_value_decimal
  unsignedOf ascii_of_list)
open ChatServer.Http2 (ascii)

/-- `(uint16_t*)m_addr.sin6_addr.s6_addr` -/
def words : List UInt8 → List Nat
  | first :: second :: rest => ofLE [first, second] :: words rest
  | _ => []

def hex (value : Nat) : Str := ascii (String.ofList (Nat.toDigits 16 value))

namespace IPv6Address

/-- The loop over the groups, from the one behind `previous` on. `previous` is `addr[i - 1]`;
there is none for the first group. -/
def insertLoop : Option Nat → Bool → List Nat → Str × Bool
  | _, usedZeros, [] => ([], usedZeros)
  | previous, usedZeros, group :: addr =>
      if group = 0 ∧ usedZeros = false then insertLoop (some group) usedZeros addr
      else
        let skipped := previous = some 0 ∧ usedZeros = false
        let later := insertLoop (some group) (usedZeros || decide skipped) addr
        ((if skipped then [colon] else []) ++ (if previous = none then [] else [colon]) ++
          hex (byteswap 2 group) ++ later.1, later.2)

def insertGroups (addr : List Nat) : Str :=
  let written := insertLoop none false addr
  written.1 ++ if written.2 = false ∧ addr[7]? = some 0 then [colon, colon] else []

def getPort (mAddr : SockaddrIn6) : Nat := byteswap 2 mAddr.sin6Port.toNat

def insert (mAddr : SockaddrIn6) : Str :=
  [openMark] ++ insertGroups (words mAddr.s6Addr) ++ [closeMark, colon] ++ decimal (getPort mAddr)

end IPv6Address

def hexDigit (c : UInt8) : Option Nat :=
  if 48 ≤ c.toNat ∧ c.toNat ≤ 57 then some (c.toNat - 48)
  else if 97 ≤ c.toNat ∧ c.toNat ≤ 102 then some (c.toNat - 87)
  else if 65 ≤ c.toNat ∧ c.toNat ≤ 70 then some (c.toNat - 55)
  else none

def hexValue (token : Str) : Option Nat :=
  token.foldlM (fun value c => (hexDigit c).map fun digit => 16 * value + digit) 0

def readGroup (token : Str) : Option Nat :=
  if 1 ≤ token.length ∧ token.length ≤ 4 then hexValue token else none

def readGroups (text : Str) : Option (List Nat) :=
  if text = [] then some [] else (text.splitOn colon).mapM readGroup

/-- What stands in front of the first two colons, and what stands behind them. -/
def cutDouble : Str → Str × Option Str
  | [] => ([], none)
  | [c] => ([c], none)
  | first :: second :: rest =>
      if first = colon ∧ second = colon then ([], some rest)
      else (first :: (cutDouble (second :: rest)).1, (cutDouble (second :: rest)).2)

/-- The eight groups. Two colons, allowed once, stand for at least one group of zeros; a second
pair would leave an empty group. -/
def expand (text : Str) : Option (List Nat) :=
  match cutDouble text with
  | (front, some back) => do
      let before ← readGroups front
      let behind ← readGroups back
      if before.length + behind.length ≤ 7 then
        some (before ++ List.replicate (8 - (before.length + behind.length)) 0 ++ behind)
      else none
  | (front, none) => do
      let groups ← readGroups front
      if groups.length = 8 then some groups else none

/-- An address in brackets, a colon and a port. -/
def readAddress (text : Str) : Option (List Nat × Nat) :=
  if text.head? = some openMark then
    match TextSearch.cut closeMark text.tail with
    | (inside, some behind) =>
        if behind.head? = some colon then do
          let groups ← expand inside
          let port ← unsignedOf behind.tail
          some (groups, port)
        else none
    | (_, none) => none
  else none

/-- The groups of an address, in network order. -/
def groupsOf (mAddr : SockaddrIn6) : List Nat := (words mAddr.s6Addr).map (byteswap 2)

theorem hex_step (value : Nat) :
    hex value = if value < 16 then [UInt8.ofNat (Nat.digitChar value).toNat]
      else hex (value / 16) ++ [UInt8.ofNat (Nat.digitChar (value % 16)).toNat] := by
  rw [hex, ascii_of_list, Nat.toDigits_eq_if (by decide)]
  split
  · rfl
  · rw [List.map_append, hex, ascii_of_list]
    rfl

theorem hex_digit_read : ∀ digit < 16,
    hexDigit (UInt8.ofNat (Nat.digitChar digit).toNat) = some digit := by
  decide

theorem hex_digit_plain : ∀ digit < 16,
    UInt8.ofNat (Nat.digitChar digit).toNat ≠ colon ∧
      UInt8.ofNat (Nat.digitChar digit).toNat ≠ closeMark := by
  decide

theorem hex_value_hex (value : Nat) : hexValue (hex value) = some value := by
  induction value using Nat.strong_induction_on with
  | _ value induction =>
      rw [hex_step]
      by_cases single : value < 16
      · rw [if_pos single]
        simp [hexValue, hex_digit_read value single]
      · have earlier := induction (value / 16) (by omega)
        have last := hex_digit_read (value % 16) (Nat.mod_lt _ (by decide))
        rw [hexValue] at earlier
        rw [if_neg single, hexValue, List.foldlM_append, earlier]
        simp only [Option.bind_eq_bind, Option.bind_some, List.foldlM_cons, List.foldlM_nil, last,
          Option.map_some, Option.pure_def]
        congr 1
        omega

theorem hex_plain (value : Nat) : ∀ c ∈ hex value, c ≠ colon ∧ c ≠ closeMark := by
  induction value using Nat.strong_induction_on with
  | _ value induction =>
      intro c member
      rw [hex_step] at member
      by_cases single : value < 16
      · rw [if_pos single, List.mem_singleton] at member
        rw [member]
        exact hex_digit_plain value single
      · rw [if_neg single, List.mem_append, List.mem_singleton] at member
        rcases member with early | last
        · exact induction (value / 16) (by omega) c early
        · rw [last]
          exact hex_digit_plain (value % 16) (Nat.mod_lt _ (by decide))

theorem hex_ne_nil (value : Nat) : hex value ≠ [] := by
  rw [hex, ascii_of_list]
  intro none
  exact Nat.toDigits_ne_nil (List.map_eq_nil_iff.mp none)

theorem read_group_hex {value : Nat} (bound : value < 256 ^ 2) :
    readGroup (hex value) = some value := by
  have filled := List.length_pos_iff.mpr (hex_ne_nil value)
  have short : (hex value).length ≤ 4 := by
    rw [hex, ascii_of_list, List.length_map]
    exact (Nat.length_toDigits_le_iff (by decide) (by decide)).mpr (by omega)
  rw [readGroup, if_pos ⟨filled, short⟩, hex_value_hex]

def colons (groups : List Nat) : Str := groups.flatMap fun group => colon :: hex group

def joined (groups : List Nat) : Str := [colon].intercalate (groups.map hex)

theorem joined_cons (group : Nat) (groups : List Nat) :
    joined (group :: groups) = hex group ++ colons groups := by
  induction groups generalizing group with
  | nil => simp [joined, colons]
  | cons next groups induction =>
      have rest := induction next
      rw [joined] at rest
      rw [joined, List.map_cons, List.intercalate_cons_of_ne_nil (by simp), rest, colons, colons,
        List.flatMap_cons, List.append_assoc, List.singleton_append, List.cons_append]

theorem colons_cons (group : Nat) (groups : List Nat) :
    colons (group :: groups) = colon :: joined (group :: groups) := by
  rw [joined_cons, colons, List.flatMap_cons, List.cons_append]
  rfl

theorem joined_plain (groups : List Nat) : closeMark ∉ joined groups := by
  have each : closeMark ∉ colons groups := by
    intro member
    rcases List.mem_flatMap.mp member with ⟨group, _, inside⟩
    rcases List.mem_cons.mp inside with mark | digit
    · exact absurd mark (by decide)
    · exact (hex_plain group closeMark digit).2 rfl
  cases groups with
  | nil => exact List.not_mem_nil
  | cons group groups =>
      rw [colons_cons] at each
      exact fun member => each (List.mem_cons_of_mem colon member)

theorem read_groups_joined {groups : List Nat} (small : ∀ group ∈ groups, group < 256 ^ 2) :
    readGroups (joined groups) = some groups := by
  cases groups with
  | nil => rfl
  | cons group groups =>
      have filled : joined (group :: groups) ≠ [] := by
        rw [joined_cons]
        exact List.append_ne_nil_of_left_ne_nil (hex_ne_nil group) _
      have pieces : (joined (group :: groups)).splitOn colon = (group :: groups).map hex := by
        apply List.splitOn_intercalate
        · intro piece member
          rcases List.mem_map.mp member with ⟨other, _, same⟩
          rw [← same]
          exact fun mark => (hex_plain other colon mark).1 rfl
        · simp
      rw [readGroups, if_neg filled, pieces, List.mapM_map]
      clear filled pieces
      generalize group :: groups = all at small ⊢
      induction all with
      | nil => rfl
      | cons first all induction =>
          have rest := induction fun other member => small other (List.mem_cons_of_mem first member)
          rw [List.mapM_cons, rest]
          simp [read_group_hex (small first List.mem_cons_self)]

theorem cut_double_plain {c : UInt8} (other : c ≠ colon) (text : Str) :
    cutDouble (c :: text) = (c :: (cutDouble text).1, (cutDouble text).2) := by
  cases text with
  | nil => rfl
  | cons second text => exact if_neg fun both => other both.1

theorem cut_double_token {token : Str} (plain : ∀ c ∈ token, c ≠ colon) (text : Str) :
    cutDouble (token ++ text) = (token ++ (cutDouble text).1, (cutDouble text).2) := by
  induction token with
  | nil => rfl
  | cons c token induction =>
      rw [List.cons_append, cut_double_plain (plain c List.mem_cons_self),
        induction fun other member => plain other (List.mem_cons_of_mem c member)]
      rfl

theorem cut_double_colon (group : Nat) (text : Str) :
    cutDouble (colon :: (hex group ++ text)) =
      (colon :: (cutDouble (hex group ++ text)).1, (cutDouble (hex group ++ text)).2) := by
  cases digits : hex group with
  | nil => exact absurd digits (hex_ne_nil group)
  | cons c rest =>
      have other : c ≠ colon := (hex_plain group c (by rw [digits]; exact List.mem_cons_self)).1
      exact if_neg fun both => other both.2

theorem cut_double_colons (groups : List Nat) (text : Str) :
    cutDouble (colons groups ++ text) =
      (colons groups ++ (cutDouble text).1, (cutDouble text).2) := by
  induction groups with
  | nil => rfl
  | cons group groups induction =>
      have plain : ∀ c ∈ hex group, c ≠ colon := fun c member => (hex_plain group c member).1
      have parts : colons (group :: groups) ++ text =
          colon :: (hex group ++ (colons groups ++ text)) := by
        rw [colons, List.flatMap_cons, List.append_assoc, List.cons_append]
        rfl
      rw [parts, cut_double_colon, cut_double_token plain, induction, colons, colons,
        List.flatMap_cons]
      simp

theorem cut_double_joined (groups : List Nat) (text : Str) :
    cutDouble (joined groups ++ text) =
      (joined groups ++ (cutDouble text).1, (cutDouble text).2) := by
  cases groups with
  | nil => rfl
  | cons group groups =>
      have plain : ∀ c ∈ hex group, c ≠ colon := fun c member => (hex_plain group c member).1
      rw [joined_cons, List.append_assoc, cut_double_token plain, cut_double_colons,
        List.append_assoc]

theorem expand_joined {groups : List Nat} (small : ∀ group ∈ groups, group < 256 ^ 2)
    (eight : groups.length = 8) : expand (joined groups) = some groups := by
  have cut := cut_double_joined groups []
  rw [List.append_nil] at cut
  simp only [cutDouble, List.append_nil] at cut
  rw [expand, cut]
  simp [read_groups_joined small, eight]

theorem expand_shortened {lead behind : List Nat} {count : Nat}
    (smallLead : ∀ group ∈ lead, group < 256 ^ 2) (smallBehind : ∀ group ∈ behind, group < 256 ^ 2)
    (eight : lead.length + (count + 1) + behind.length = 8) :
    expand (joined lead ++ colon :: colon :: joined behind) =
      some (lead ++ List.replicate (count + 1) 0 ++ behind) := by
  have cut := cut_double_joined lead (colon :: colon :: joined behind)
  have pair : cutDouble (colon :: colon :: joined behind) = ([], some (joined behind)) := rfl
  rw [pair, List.append_nil] at cut
  have missing : 8 - (lead.length + behind.length) = count + 1 := by omega
  have room : lead.length + behind.length ≤ 7 := by omega
  rw [expand, cut]
  simp only [read_groups_joined smallLead, read_groups_joined smallBehind, Option.bind_eq_bind,
    Option.bind_some, if_pos room, missing]

/-- Behind the two colons every group is written, zeros too. -/
theorem loop_used (previous : Nat) (addr : List Nat) :
    IPv6Address.insertLoop (some previous) true addr =
      (colons (addr.map (byteswap 2)), true) := by
  induction addr generalizing previous with
  | nil => rfl
  | cons group addr induction =>
      rw [IPv6Address.insertLoop, if_neg (by simp)]
      simp only [Bool.true_or, induction]
      simp [colons]

/-- From a zero group on: the zeros that follow are left out. -/
theorem loop_zeros (count : Nat) {behind : List Nat} (stops : behind.head? ≠ some 0) :
    IPv6Address.insertLoop (some 0) false (List.replicate count 0 ++ behind) =
      (if behind = [] then [] else colon :: colon :: joined (behind.map (byteswap 2)),
        decide (behind ≠ [])) := by
  induction count with
  | zero =>
      rw [List.replicate_zero, List.nil_append]
      cases behind with
      | nil => rfl
      | cons group behind =>
          have other : group ≠ 0 := fun same => stops (by rw [same, List.head?_cons])
          rw [IPv6Address.insertLoop, if_neg (fun both => other both.1)]
          simp only [Bool.false_or, true_and, decide_true, loop_used]
          simp [joined_cons]
  | succ count induction =>
      rw [List.replicate_succ, List.cons_append, IPv6Address.insertLoop, if_pos ⟨rfl, rfl⟩,
        induction]

theorem loop_lead {previous : Nat} (other : previous ≠ 0) {lead : List Nat}
    (nonzero : ∀ group ∈ lead, group ≠ 0) (addr : List Nat) :
    ∃ last,
      IPv6Address.insertLoop (some previous) false (lead ++ addr) =
        (colons (lead.map (byteswap 2)) ++ (IPv6Address.insertLoop (some last) false addr).1,
          (IPv6Address.insertLoop (some last) false addr).2) := by
  induction lead generalizing previous with
  | nil => exact ⟨previous, rfl⟩
  | cons group lead induction =>
      have first := nonzero group List.mem_cons_self
      rcases induction first fun g member => nonzero g (List.mem_cons_of_mem group member) with
        ⟨last, later⟩
      refine ⟨last, ?_⟩
      rw [List.cons_append, IPv6Address.insertLoop, if_neg (fun both => first both.1)]
      simp [other, later, colons]

/-- The same from the first group on; nothing stands in front of it. -/
theorem loop_first {lead : List Nat} (nonzero : ∀ group ∈ lead, group ≠ 0) (addr : List Nat) :
    ∃ previous,
      IPv6Address.insertLoop none false (lead ++ addr) =
        (joined (lead.map (byteswap 2)) ++ (IPv6Address.insertLoop previous false addr).1,
          (IPv6Address.insertLoop previous false addr).2) := by
  cases lead with
  | nil => exact ⟨none, rfl⟩
  | cons group lead =>
      have first := nonzero group List.mem_cons_self
      rcases loop_lead first (fun g member => nonzero g (List.mem_cons_of_mem group member)) addr
        with ⟨last, later⟩
      refine ⟨some last, ?_⟩
      rw [List.cons_append, IPv6Address.insertLoop, if_neg (fun both => first both.1)]
      simp [later, joined_cons]

theorem groups_nonzero {addr : List Nat} (nonzero : ∀ group ∈ addr, group ≠ 0) :
    IPv6Address.insertGroups addr = joined (addr.map (byteswap 2)) := by
  rcases loop_first nonzero [] with ⟨previous, written⟩
  have last : addr[7]? ≠ some 0 := by
    intro zero
    exact nonzero 0 (List.mem_of_getElem? zero) rfl
  rw [List.append_nil] at written
  rw [IPv6Address.insertGroups, written]
  simp [IPv6Address.insertLoop, last]

theorem groups_zeros {lead behind : List Nat} {count : Nat}
    (nonzero : ∀ group ∈ lead, group ≠ 0) (stops : behind.head? ≠ some 0)
    (eight : lead.length + (count + 1) + behind.length = 8) :
    IPv6Address.insertGroups (lead ++ List.replicate (count + 1) 0 ++ behind) =
      joined (lead.map (byteswap 2)) ++ colon :: colon :: joined (behind.map (byteswap 2)) := by
  rcases loop_first nonzero (List.replicate (count + 1) 0 ++ behind) with
    ⟨previous, written⟩
  have skipped : IPv6Address.insertLoop previous false (List.replicate (count + 1) 0 ++ behind) =
      IPv6Address.insertLoop (some 0) false (List.replicate count 0 ++ behind) := by
    rw [List.replicate_succ, List.cons_append, IPv6Address.insertLoop, if_pos ⟨rfl, rfl⟩]
  rw [List.append_assoc, IPv6Address.insertGroups, written, skipped, loop_zeros count stops]
  cases behind with
  | nil =>
      have last : (lead ++ List.replicate (count + 1) 0)[7]? = some 0 := by
        rw [List.length_nil] at eight
        rw [List.getElem?_append_right (by omega), List.getElem?_replicate_of_lt (by omega)]
      simp [last, joined]
  | cons group behind => simp

/-- Groups have no zero among them, or a first run of zeros. -/
theorem zero_cases (addr : List Nat) :
    (∀ group ∈ addr, group ≠ 0) ∨ ∃ lead count behind,
      addr = lead ++ List.replicate (count + 1) 0 ++ behind ∧ (∀ group ∈ lead, group ≠ 0) ∧
        behind.head? ≠ some 0 := by
  rcases TextSearch.mark_cases 0 addr with absent | ⟨lead, rest, split, absent⟩
  · exact Or.inl fun group member zero => absent (zero ▸ member)
  · have run : ∃ count behind, rest = List.replicate count 0 ++ behind ∧
        behind.head? ≠ some 0 := by
      clear split
      induction rest with
      | nil => exact ⟨0, [], rfl, by simp⟩
      | cons group rest induction =>
          by_cases zero : group = 0
          · rcases induction with ⟨count, behind, same, stops⟩
            exact ⟨count + 1, behind, by rw [zero, same, List.replicate_succ, List.cons_append],
              stops⟩
          · exact ⟨0, group :: rest, rfl, by simpa using zero⟩
    rcases run with ⟨count, behind, same, stops⟩
    refine Or.inr ⟨lead, count, behind, ?_, fun group member zero => absent (zero ▸ member), stops⟩
    rw [split, same, List.replicate_succ, List.append_assoc, List.cons_append]

/-- What stands between the brackets has the form of an address, and means the groups. -/
theorem expand_groups {addr : List Nat} (eight : addr.length = 8) :
    expand (IPv6Address.insertGroups addr) = some (addr.map (byteswap 2)) ∧
      closeMark ∉ IPv6Address.insertGroups addr := by
  have small (groups : List Nat) : ∀ group ∈ groups.map (byteswap 2), group < 256 ^ 2 := by
    intro group member
    rcases List.mem_map.mp member with ⟨other, _, same⟩
    rw [← same]
    exact byteswap_lt 2 other
  rcases zero_cases addr with nonzero | ⟨lead, count, behind, split, nonzero, stops⟩
  · rw [groups_nonzero nonzero]
    exact ⟨expand_joined (small addr) (by rw [List.length_map, eight]), joined_plain _⟩
  · rw [split, List.length_append, List.length_append, List.length_replicate] at eight
    rw [split, groups_zeros nonzero stops eight]
    constructor
    · rw [expand_shortened (small lead) (small behind) (by
        rw [List.length_map, List.length_map]
        exact eight)]
      rw [List.map_append, List.map_append, List.map_replicate]
      rfl
    · intro member
      rcases List.mem_append.mp member with front | back
      · exact joined_plain _ front
      · rcases List.mem_cons.mp back with mark | back
        · exact absurd mark (by decide)
        · rcases List.mem_cons.mp back with mark | back
          · exact absurd mark (by decide)
          · exact joined_plain _ back

theorem words_length : ∀ (count : Nat) (bytes : List UInt8), bytes.length = 2 * count →
    (words bytes).length = count := by
  intro count
  induction count with
  | zero =>
      intro bytes none
      rw [List.length_eq_zero_iff.mp none]
      rfl
  | succ count induction =>
      intro bytes more
      rcases bytes with _ | ⟨first, _ | ⟨second, rest⟩⟩
      · simp at more
      · rw [List.length_singleton] at more
        omega
      · rw [List.length_cons, List.length_cons] at more
        rw [words, List.length_cons, induction rest (by omega)]

theorem word_bytes (first second : UInt8) :
    toLE 2 (ofLE [first, second]) = [first, second] := to_le_of_le [first, second]

theorem words_inj : ∀ (count : Nat) (bytes more : List UInt8), bytes.length = 2 * count →
    more.length = 2 * count → (words bytes).map (byteswap 2) = (words more).map (byteswap 2) →
    bytes = more := by
  intro count
  induction count with
  | zero =>
      intro bytes more none again same
      rw [List.length_eq_zero_iff.mp none, List.length_eq_zero_iff.mp again]
  | succ count induction =>
      intro bytes more size again same
      rcases bytes with _ | ⟨first, _ | ⟨second, rest⟩⟩
      · simp at size
      · rw [List.length_singleton] at size
        omega
      · rcases more with _ | ⟨third, _ | ⟨fourth, others⟩⟩
        · simp at again
        · rw [List.length_singleton] at again
          omega
        · rw [List.length_cons, List.length_cons] at size again
          rw [words, words, List.map_cons, List.map_cons] at same
          have later := induction rest others (by omega) (by omega) (List.cons.inj same).2
          have word := congrArg (fun value => (toLE 2 value).reverse) (List.cons.inj same).1
          rw [to_le_byteswap, to_le_byteswap, List.reverse_reverse, List.reverse_reverse,
            word_bytes, word_bytes] at word
          rw [later, (List.cons.inj word).1, (List.cons.inj (List.cons.inj word).2).1]

theorem read_port {port : Nat} (bound : port < 256 ^ 2) :
    unsignedOf (decimal port) = some port := by
  have digits : (decimal port).all (fun digit => 48 ≤ digit && digit ≤ 57) = true := by
    rw [List.all_eq_true]
    intro digit member
    have range := decimal_digit member
    rw [Bool.and_eq_true, decide_eq_true_eq, decide_eq_true_eq]
    exact ⟨UInt8.le_iff_toNat_le.mpr range.1, UInt8.le_iff_toNat_le.mpr range.2⟩
  rw [unsignedOf, digits_value_decimal, if_pos ⟨decimal_ne_nil port, digits, by omega⟩]

theorem read_insert (a : SockaddrIn6) :
    readAddress (IPv6Address.insert a) = some (groupsOf a, IPv6Address.getPort a) := by
  rcases expand_groups (words_length 8 a.s6Addr a.sized) with ⟨meaning, plain⟩
  have start : (IPv6Address.insert a).head? = some openMark := rfl
  have behind : (IPv6Address.insert a).tail = IPv6Address.insertGroups (words a.s6Addr) ++
      closeMark :: colon :: decimal (IPv6Address.getPort a) := by
    rw [IPv6Address.insert, List.append_assoc, List.append_assoc, List.singleton_append,
      List.tail_cons]
    rfl
  rw [readAddress, if_pos start, behind, TextSearch.cut_first plain]
  simp [meaning, read_port (byteswap_lt 2 a.sin6Port.toNat), groupsOf, IPv6Address.getPort]

/-- The text is read back as the groups and the port, so that it tells both. -/
theorem ipv6_text_faithful :
    (∀ a, readAddress (IPv6Address.insert a) = some (groupsOf a, IPv6Address.getPort a)) ∧
    ∀ a b, IPv6Address.insert a = IPv6Address.insert b →
      a.s6Addr = b.s6Addr ∧ a.sin6Port = b.sin6Port := by
  refine ⟨read_insert, ?_⟩
  intro a b same
  have read := congrArg readAddress same
  rw [read_insert, read_insert, Option.some.injEq, Prod.mk.injEq] at read
  refine ⟨words_inj 8 a.s6Addr b.s6Addr a.sized b.sized read.1, ?_⟩
  have port := congrArg (byteswap 2) read.2
  rw [IPv6Address.getPort, IPv6Address.getPort, byteswap_byteswap _ _ a.sin6Port.toNat_lt,
    byteswap_byteswap _ _ b.sin6Port.toNat_lt] at port
  exact UInt16.toNat_inj.mp port

end ChatServer.Net
