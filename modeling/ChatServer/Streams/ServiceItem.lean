import ChatServer.Grpc.GrpcConnection
import ChatServer.Lib.TextSearch
import ChatServer.Streams.LoadBalance
import Mathlib.Data.List.TakeWhile

/-!
# Items of service discovery

`ServiceItemInfo::Create` of `service_discovery.cc`. An item is known by its address and its port
in one word of 64 bits. The error value of `inet_addr` is not the one that is looked for, and
`Atoi` takes whatever `strtoull` takes.
-/

namespace ChatServer.Streams

set_option autoImplicit false

open ChatServer.Grpc (strtoull)
open ChatServer.Http (digitsValue isSpace lexicalCast unsignedOf)
open ChatServer.Http2 (ascii cString)
open TextSearch

/-- A `ServiceItemInfo` with all that is made of its two texts. -/
structure ServiceItem extends ServiceItemInfo where
  id : UInt64
  port : UInt16
  updateTime : UInt32
  ip : Str
  data : Str
  datas : AList fun _ : Str => Str

def typeAtoi (str : Str) : Int64 :=
  if str = [] then 0 else (UInt64.ofNat (strtoull str)).toInt64

def inetAddr (inetAton : Str → Option UInt32) (cp : Str) : UInt32 :=
  (inetAton (cString cp)).getD 0xFFFFFFFF

namespace ServiceItem

def readDatas (data : Str) : AList fun _ : Str => Str :=
  (if data = [] then [] else data.splitOn 0x26).foldl (fun datas part =>
    match find part 0x3D 0 with
    | none => datas
    | some pos => datas.insert (part.take pos) (part.drop (pos + 1))) ∅

def create (inetAton : Str → Option UInt32) (ipAndPort data : Str) : Option ServiceItem :=
  match find ipAndPort 0x3A 0 with
  | none => none
  | some pos =>
      let ip := ipAndPort.take pos
      let port := typeAtoi (ipAndPort.drop (pos + 1))
      let ipAddr := inetAddr inetAton ip
      if ipAddr = 0 then none
      else
        let datas := readDatas data
        some {
          id := ipAddr.toUInt64 <<< 32 ||| port.toUInt64
          ip
          port := port.toUInt64.toUInt16
          data
          datas
          updateTime :=
            UInt32.ofNat (((datas.lookup (ascii "update_time")).bind lexicalCast).getD 0)
          type := (datas.lookup (ascii "type")).getD [] }

structure WrittenPort (port : Str) : Prop where
  nonempty : port ≠ []
  digits : ∀ byte ∈ port, 48 ≤ byte.toNat ∧ byte.toNat ≤ 57
  small : digitsValue port ≤ 65535

def Valid (inetAton : Str → Option UInt32) (ipAndPort : Str) (item : ServiceItem) : Prop :=
  ∃ port, ipAndPort = item.ip ++ 0x3A :: port ∧ 0 ∉ item.ip ∧ (inetAton item.ip).isSome = true ∧
    WrittenPort port ∧ item.port.toNat = digitsValue port

/-- Both texts are rejected or have valid items, and equal ids stand for equal addresses and
ports. -/
structure Identified (inetAton : Str → Option UInt32) (first second : Str) : Prop where
  valid : ∀ data, ∀ item ∈ create inetAton first data, Valid inetAton first item
  also : ∀ data, ∀ item ∈ create inetAton second data, Valid inetAton second item
  same : ∀ data data', ∀ item ∈ create inetAton first data,
    ∀ item' ∈ create inetAton second data', item.id = item'.id →
      inetAddr inetAton item.ip = inetAddr inetAton item'.ip ∧ item.port = item'.port

/-- What stands in front of the first colon is an address, or the address 0; behind it stands a
port. -/
def Plain (inetAton : Str → Option UInt32) (ipAndPort : Str) : Prop :=
  ∀ ip port, ipAndPort = ip ++ 0x3A :: port → 0x3A ∉ ip → inetAddr inetAton ip ≠ 0 →
    0 ∉ ip ∧ (inetAton ip).isSome = true ∧ WrittenPort port

variable {inetAton : Str → Option UInt32} {ip port data ipAndPort : Str} {item : ServiceItem}

theorem to_uint64_type_atoi (str : Str) :
    (typeAtoi str).toUInt64 = if str = [] then 0 else UInt64.ofNat (strtoull str) := by
  rw [typeAtoi]
  split <;> rfl

theorem strtoull_digits (nonempty : port ≠ [])
    (digits : ∀ byte ∈ port, 48 ≤ byte.toNat ∧ byte.toNat ≤ 57)
    (small : digitsValue port < 2 ^ 64) : strtoull port = digitsValue port := by
  have all : ∀ byte ∈ port, (decide (48 ≤ byte) && decide (byte ≤ 57)) = true := by
    intro byte member
    have range := digits byte member
    simpa [UInt8.le_iff_toNat_le] using range
  have whole : port.takeWhile (fun byte => 48 ≤ byte && byte ≤ 57) = port :=
    List.takeWhile_eq_self_iff.mpr all
  cases port with
  | nil => exact absurd rfl nonempty
  | cons byte rest =>
      have range := digits byte List.mem_cons_self
      have plain : isSpace byte = false := by
        simp only [isSpace, Bool.or_eq_false_iff, Bool.and_eq_false_iff, decide_eq_false_iff_not,
          UInt8.le_iff_toNat_le, ← UInt8.toNat_inj]
        refine ⟨?_, Or.inr ?_⟩
        · change ¬byte.toNat = 32
          omega
        · change ¬byte.toNat ≤ 13
          omega
      have noMinus : byte ≠ 45 := by
        intro same
        rw [same] at range
        exact absurd range.1 (by decide)
      have noPlus : byte ≠ 43 := by
        intro same
        rw [same] at range
        exact absurd range.1 (by decide)
      rw [strtoull, List.dropWhile_cons_of_neg (by simp [plain])]
      simp only [List.head?_cons, Option.some.injEq, noMinus, noPlus, or_self, if_false, whole,
        if_neg (Nat.not_le.mpr small)]

theorem id_toNat (address : UInt32) {low : UInt64} (small : low.toNat < 2 ^ 32) :
    (address.toUInt64 <<< 32 ||| low).toNat = address.toNat * 2 ^ 32 + low.toNat := by
  have room : address.toNat * 2 ^ 32 < 2 ^ 64 := by
    have bound := address.toNat_lt
    omega
  rw [UInt64.toNat_or, UInt64.toNat_shiftLeft, UInt32.toNat_toUInt64]
  change (address.toNat <<< 32 % 2 ^ 64) ||| low.toNat = _
  rw [Nat.shiftLeft_eq, Nat.mod_eq_of_lt room, ← Nat.shiftLeft_eq,
    Nat.shiftLeft_add_eq_or_of_lt small]

theorem create_without_colon (absent : 0x3A ∉ ipAndPort) :
    create inetAton ipAndPort data = none := by
  have nowhere : find ipAndPort 0x3A 0 = none := find_absent [] absent
  rw [create, nowhere]

theorem create_zero (absent : 0x3A ∉ ip) (zero : inetAddr inetAton ip = 0) :
    create inetAton (ip ++ 0x3A :: port) data = none := by
  have there : find (ip ++ 0x3A :: port) 0x3A 0 = some (0 + ip.length) := find_first [] absent
  rw [create, there, Nat.zero_add]
  dsimp only
  rw [List.take_left, if_pos zero]

/-- Any other text in front of the first colon is accepted. -/
theorem create_some (absent : 0x3A ∉ ip) (nonzero : inetAddr inetAton ip ≠ 0) (port data : Str) :
    ∃ item, create inetAton (ip ++ 0x3A :: port) data = some item ∧ item.ip = ip ∧
      item.id = (inetAddr inetAton ip).toUInt64 <<< 32 ||| (typeAtoi port).toUInt64 ∧
      item.port = (typeAtoi port).toUInt64.toUInt16 := by
  have there : find (ip ++ 0x3A :: port) 0x3A 0 = some (0 + ip.length) := find_first [] absent
  have behind : (ip ++ 0x3A :: port).drop (ip.length + 1) = port := by
    rw [List.drop_length_add_append]
    rfl
  rw [create, there, Nat.zero_add]
  dsimp only
  rw [List.take_left, behind, if_neg nonzero]
  exact ⟨_, rfl, rfl, rfl, rfl⟩

theorem create_cases (accepted : create inetAton ipAndPort data = some item) :
    ∃ port, ipAndPort = item.ip ++ 0x3A :: port ∧ 0x3A ∉ item.ip ∧
      inetAddr inetAton item.ip ≠ 0 ∧
      item.id = (inetAddr inetAton item.ip).toUInt64 <<< 32 ||| (typeAtoi port).toUInt64 ∧
      item.port = (typeAtoi port).toUInt64.toUInt16 := by
  rcases mark_cases 0x3A ipAndPort with none_there | ⟨ip, port, split, absent⟩
  · rw [create_without_colon none_there] at accepted
    cases accepted
  · rw [split] at accepted
    by_cases zero : inetAddr inetAton ip = 0
    · rw [create_zero absent zero] at accepted
      cases accepted
    · rcases create_some absent zero port data with ⟨made, same, ipText, id, number⟩
      rw [same] at accepted
      cases accepted
      rw [ipText]
      exact ⟨port, split, absent, zero, id, number⟩

theorem colon_unique {ip' port' : Str} (absent : 0x3A ∉ ip) (absent' : 0x3A ∉ ip')
    (same : ip ++ 0x3A :: port = ip' ++ 0x3A :: port') : ip = ip' ∧ port = port' := by
  have cuts := congrArg (cut 0x3A) same
  rw [cut_first absent, cut_first absent'] at cuts
  injection cuts with front back
  exact ⟨front, Option.some.inj back⟩

theorem written_port_number (written : WrittenPort port) :
    (typeAtoi port).toUInt64.toNat = digitsValue port := by
  have small := written.small
  rw [to_uint64_type_atoi, if_neg written.nonempty,
    strtoull_digits written.nonempty written.digits (by omega), UInt64.toNat_ofNat']
  exact Nat.mod_eq_of_lt (by omega)

theorem plain_item (plain : Plain inetAton ipAndPort)
    (accepted : create inetAton ipAndPort data = some item) :
    Valid inetAton ipAndPort item ∧
      item.id.toNat = (inetAddr inetAton item.ip).toNat * 2 ^ 32 + item.port.toNat := by
  rcases create_cases accepted with ⟨port, split, absent, nonzero, id, number⟩
  rcases plain item.ip port split absent nonzero with ⟨noNul, parsed, written⟩
  have value := written_port_number written
  have small := written.small
  have stored : item.port.toNat = digitsValue port := by
    rw [number, UInt64.toNat_toUInt16, value]
    exact Nat.mod_eq_of_lt (by omega)
  refine ⟨⟨port, split, noNul, parsed, written, stored⟩, ?_⟩
  rw [id, id_toNat _ (by omega), value, stored]

/-- Texts are told apart by their items' ids just if each is plain. -/
theorem item_identified_iff (inetAton : Str → Option UInt32) (first second : Str) :
    Identified inetAton first second ↔ Plain inetAton first ∧ Plain inetAton second := by
  have needed : ∀ text, (∀ data, ∀ item ∈ create inetAton text data, Valid inetAton text item) →
      Plain inetAton text := by
    intro text valid ip port split absent nonzero
    rcases create_some absent nonzero port [] with ⟨item, accepted, ipText, _, _⟩
    rw [← split] at accepted
    rcases valid [] item accepted with ⟨port', split', noNul, parsed, written, _⟩
    rw [ipText] at split' noNul parsed
    rw [(colon_unique absent absent (split.symm.trans split')).2]
    exact ⟨noNul, parsed, written⟩
  constructor
  · intro identified
    exact ⟨needed first identified.valid, needed second identified.also⟩
  · rintro ⟨plain, plain'⟩
    constructor
    case valid =>
      intro data item accepted
      exact (plain_item plain accepted).1
    case also =>
      intro data item accepted
      exact (plain_item plain' accepted).1
    case same =>
      intro data data' item accepted item' accepted' same
      have one := (plain_item plain accepted).2
      have other := (plain_item plain' accepted').2
      have port := item.port.toNat_lt
      have port' := item'.port.toNat_lt
      rw [same, other] at one
      constructor
      · apply UInt32.toNat.inj
        omega
      · apply UInt16.toNat.inj
        omega

/-- The addresses with four parts, as `inet_addr` reads them: the first part is the lowest byte. -/
def dottedQuad (cp : Str) : Option UInt32 :=
  match (cp.splitOn 0x2E).mapM unsignedOf with
  | some [first, second, third, fourth] =>
      if first < 256 ∧ second < 256 ∧ third < 256 ∧ fourth < 256 then
        some (UInt32.ofNat (first + 256 * (second + 256 * (third + 256 * fourth))))
      else none
  | _ => none

/-- A port beyond 32 bits makes one address out of another, and what is no address at all is
accepted. -/
theorem port_changes_address :
    let first := ascii "10.0.0.1:4294967376"
    let second := ascii "11.0.0.1:80"
    (create dottedQuad (ascii "x:80") []).isSome = true ∧
      (create dottedQuad first []).map ServiceItem.id =
        (create dottedQuad second []).map ServiceItem.id ∧
      ¬Identified dottedQuad first second := by
  intro first second
  have oneId : (create dottedQuad first []).map ServiceItem.id = some 0x0100000B00000050 := by
    decide +kernel
  have otherId : (create dottedQuad second []).map ServiceItem.id = some 0x0100000B00000050 := by
    decide +kernel
  refine ⟨by decide +kernel, oneId.trans otherId.symm, ?_⟩
  intro identified
  rcases Option.map_eq_some_iff.mp oneId with ⟨item, accepted, one⟩
  rcases Option.map_eq_some_iff.mp otherId with ⟨item', accepted', other⟩
  have address := (identified.same [] [] item accepted item' accepted' (one.trans other.symm)).1
  have oneText : (create dottedQuad first []).map (fun item => inetAddr dottedQuad item.ip) =
      some 0x0100000A := by decide +kernel
  have otherText : (create dottedQuad second []).map (fun item => inetAddr dottedQuad item.ip) =
      some 0x0100000B := by decide +kernel
  rw [accepted] at oneText
  rw [accepted'] at otherText
  have apart := (Option.some.inj oneText).symm.trans (address.trans (Option.some.inj otherText))
  exact absurd apart (by decide)

end ServiceItem
end ChatServer.Streams
