import ChatServer.Lib.BitString
import ChatServer.Lib.WordBytes
import ChatServer.Machine

/-!
# Subnets

The broadcast address, the network address and the subnet mask of an IPv4 and of an IPv6
address (`address.cc`). All six functions start from `CreateMask`, which has the bits of the
hosts. For the network address they are kept where they should be cleared.
-/

namespace ChatServer.Net

set_option autoImplicit false

open WordBytes BitString

/-- `sockaddr_in`. The address is in network order: `sAddr` is what the machine reads there. -/
structure SockaddrIn where
  sinFamily : UInt16
  sinPort : UInt16
  sAddr : UInt32
  sinZero : UInt64
  deriving DecidableEq

/-- `sockaddr_in6`, with the sixteen bytes of `s6_addr`. -/
structure SockaddrIn6 where
  sin6Family : UInt16
  sin6Port : UInt16
  sin6Flowinfo : UInt32
  s6Addr : List UInt8
  sin6ScopeId : UInt32
  sized : s6Addr.length = 16
  deriving DecidableEq

def afInet : UInt16 := 2
def afInet6 : UInt16 := 10

/-- `CreateMask` for a type of `width` bits. The shift is one of an `int`, and so is the
subtraction; the result is converted. -/
def createMask (width bits : Nat) : Result Nat :=
  if width < bits ∨ 32 ≤ width - bits then .error (.undefined .shiftTooWide)
  else if width - bits = 31 then .error (.undefined .signedOverflow)
  else .ok ((2 ^ (width - bits) - 1) % 2 ^ width)

/-- `byteswapOnLittleEndian(CreateMask<uint32_t>(prefix_len))` -/
def swappedMask (prefixLen : Nat) : Result UInt32 := do
  let mask ← createMask 32 prefixLen
  .ok (UInt32.ofNat (byteswap 4 mask))

namespace IPv4Address

def broadcastAddress (mAddr : SockaddrIn) (prefixLen : Nat) : Result (Option SockaddrIn) :=
  if 32 < prefixLen then .ok none
  else do
    let mask ← swappedMask prefixLen
    .ok (some { mAddr with sAddr := mAddr.sAddr ||| mask })

def networkAddress (mAddr : SockaddrIn) (prefixLen : Nat) : Result (Option SockaddrIn) :=
  if 32 < prefixLen then .ok none
  else do
    let mask ← swappedMask prefixLen
    .ok (some { mAddr with sAddr := mAddr.sAddr &&& mask })

def subnetMask (prefixLen : Nat) : Result SockaddrIn := do
  let mask ← swappedMask prefixLen
  .ok ⟨afInet, 0, ~~~mask, 0⟩

end IPv4Address

/-- The loop that writes one value to the bytes from `first` up to `bound`. -/
def fillBytes (bytes : List UInt8) (first bound : Nat) (value : UInt8) : List UInt8 :=
  (List.range' first (bound - first)).foldl (fun bytes i => bytes.set i value) bytes

theorem fold_set_length (places : List Nat) (value : UInt8) : ∀ bytes : List UInt8,
    (places.foldl (fun bytes i => bytes.set i value) bytes).length = bytes.length := by
  induction places with
  | nil => exact fun bytes => rfl
  | cons place places induction =>
      intro bytes
      rw [List.foldl_cons, induction, List.length_set]

namespace SockaddrIn6

def fill (addr : SockaddrIn6) (first bound : Nat) (value : UInt8) : SockaddrIn6 :=
  { addr with
    s6Addr := fillBytes addr.s6Addr first bound value
    sized := by rw [fillBytes, fold_set_length, addr.sized] }

/-- One byte changed. Behind `s6_addr` there are sixteen bytes and no more. -/
def change (addr : SockaddrIn6) (place : Nat) (next : UInt8 → UInt8) : Result SockaddrIn6 :=
  if place < 16 then
    .ok { addr with
      s6Addr := addr.s6Addr.modify place next
      sized := by rw [List.length_modify, addr.sized] }
  else .error (.undefined .outOfBounds)

end SockaddrIn6

namespace IPv6Address

def byteMask (prefixLen : Nat) : Result UInt8 := do
  let mask ← createMask 8 (prefixLen % 8)
  .ok (UInt8.ofNat mask)

/-- The byte that the prefix ends in combined with the mask, and all later bytes set. -/
def rewriteHosts (mAddr : SockaddrIn6) (prefixLen : Nat) (combine : UInt8 → UInt8 → UInt8)
    (later : UInt8) : Result SockaddrIn6 := do
  let mask ← byteMask prefixLen
  let baddr ← mAddr.change (prefixLen / 8) fun byte => combine byte mask
  .ok (baddr.fill (prefixLen / 8 + 1) 16 later)

def broadcastAddress (mAddr : SockaddrIn6) (prefixLen : Nat) : Result SockaddrIn6 :=
  rewriteHosts mAddr prefixLen (fun byte mask => byte ||| mask) 0xFF

def networkAddress (mAddr : SockaddrIn6) (prefixLen : Nat) : Result SockaddrIn6 :=
  rewriteHosts mAddr prefixLen (fun byte mask => byte &&& mask) 0x00

def subnetMask (prefixLen : Nat) : Result SockaddrIn6 := do
  let mask ← byteMask prefixLen
  let cleared : SockaddrIn6 := ⟨afInet6, 0, 0, List.replicate 16 0, 0, List.length_replicate⟩
  let subnet ← cleared.change (prefixLen / 8) fun _ => ~~~mask
  .ok (subnet.fill 0 (prefixLen / 8) 0xFF)

end IPv6Address

def bitsOf (bytes : List UInt8) : List Bool := bytes.flatMap fun byte => natBits 8 byte.toNat

/-- The law for IPv4. All that differs from `a` is the address. -/
def SubnetLaw4 (a : SockaddrIn) (prefixLen : Nat) : Prop :=
  ∃ network broadcast subnet,
    IPv4Address.networkAddress a prefixLen = .ok (some network) ∧
    IPv4Address.broadcastAddress a prefixLen = .ok (some broadcast) ∧
    IPv4Address.subnetMask prefixLen = .ok subnet ∧
    bitsOf (toLE 4 subnet.sAddr.toNat) =
      List.replicate prefixLen true ++ List.replicate (32 - prefixLen) false ∧
    network = { a with sAddr := a.sAddr &&& subnet.sAddr } ∧
    broadcast = { a with sAddr := a.sAddr ||| ~~~subnet.sAddr } ∧
    IPv4Address.networkAddress network prefixLen = .ok (some network) ∧
    IPv4Address.broadcastAddress network prefixLen = .ok (some broadcast)

/-- `other` differs from `a` in the sixteen bytes only. -/
def Readdressed (a other : SockaddrIn6) (bytes : List UInt8) : Prop :=
  other.sin6Family = a.sin6Family ∧ other.sin6Port = a.sin6Port ∧
    other.sin6Flowinfo = a.sin6Flowinfo ∧ other.sin6ScopeId = a.sin6ScopeId ∧
    other.s6Addr = bytes

/-- The law for IPv6, byte by byte. -/
def SubnetLaw6 (a : SockaddrIn6) (prefixLen : Nat) : Prop :=
  ∃ network broadcast subnet,
    IPv6Address.networkAddress a prefixLen = .ok network ∧
    IPv6Address.broadcastAddress a prefixLen = .ok broadcast ∧
    IPv6Address.subnetMask prefixLen = .ok subnet ∧
    bitsOf subnet.s6Addr =
      List.replicate prefixLen true ++ List.replicate (128 - prefixLen) false ∧
    Readdressed a network (List.zipWith (fun byte mask => byte &&& mask) a.s6Addr subnet.s6Addr) ∧
    Readdressed a broadcast
      (List.zipWith (fun byte mask => byte ||| ~~~mask) a.s6Addr subnet.s6Addr) ∧
    IPv6Address.networkAddress network prefixLen = .ok network ∧
    IPv6Address.broadcastAddress network prefixLen = .ok broadcast

/-- Keeping the bits of a mask is clearing them just when there is no bit at all. -/
theorem kept_cleared_iff {width : Nat} (word mask : BitVec width) :
    word &&& mask = word &&& ~~~mask ↔ word = BitVec.ofNat width 0 := by
  constructor
  · intro same
    apply BitVec.eq_of_getElem_eq
    intro index below
    have bit : (word &&& mask)[index] = (word &&& ~~~mask)[index] := by rw [same]
    rw [BitVec.getElem_and, BitVec.getElem_and, BitVec.getElem_not] at bit
    rw [BitVec.getElem_zero]
    cases set : word[index] with
    | false => rfl
    | true =>
        rw [set] at bit
        cases kept : mask[index] <;> rw [kept] at bit <;> cases bit
  · intro zero
    rw [zero, BitVec.zero_and, BitVec.zero_and]

theorem kept_cleared_iff_word (word mask : UInt32) :
    word &&& mask = word &&& ~~~mask ↔ word = 0 := by
  rw [← UInt32.toBitVec_inj, ← UInt32.toBitVec_inj]
  exact kept_cleared_iff word.toBitVec mask.toBitVec

theorem kept_cleared_iff_byte (byte mask : UInt8) :
    byte &&& mask = byte &&& ~~~mask ↔ byte = 0 := by
  rw [← UInt8.toBitVec_inj, ← UInt8.toBitVec_inj]
  exact kept_cleared_iff byte.toBitVec mask.toBitVec

theorem create_mask_small {width bits : Nat} (inside : bits ≤ width) (small : width < bits + 31) :
    createMask width bits = .ok (2 ^ (width - bits) - 1) := by
  rw [createMask, if_neg (by omega), if_neg (by omega), Nat.mod_eq_of_lt]
  have positive := Nat.two_pow_pos (width - bits)
  have bound : 2 ^ (width - bits) ≤ 2 ^ width := Nat.pow_le_pow_right (by decide) (by omega)
  omega

def hostMask (prefixLen : Nat) : UInt32 := UInt32.ofNat (byteswap 4 (2 ^ (32 - prefixLen) - 1))

theorem swapped_mask_small {prefixLen : Nat} (inside : prefixLen ≤ 32) (small : 2 ≤ prefixLen) :
    swappedMask prefixLen = .ok (hostMask prefixLen) := by
  rw [swappedMask, create_mask_small inside (by omega)]
  rfl

theorem swapped_mask_wide {prefixLen : Nat} (wide : prefixLen < 2) :
    ∀ mask, swappedMask prefixLen ≠ .ok mask := by
  intro mask done
  rcases bind_eq_ok done with ⟨bits, created, _⟩
  rw [createMask] at created
  by_cases zero : prefixLen = 0
  · rw [if_pos (by omega)] at created
    cases created
  · rw [if_neg (by omega), if_pos (by omega)] at created
    cases created

theorem host_mask_bits : ∀ prefixLen < 33, bitsOf (toLE 4 (~~~hostMask prefixLen).toNat) =
    List.replicate prefixLen true ++ List.replicate (32 - prefixLen) false := by
  decide +kernel

theorem subnet_law_4 (a : SockaddrIn) {prefixLen : Nat} (inside : prefixLen ≤ 32)
    (small : 2 ≤ prefixLen) : SubnetLaw4 a prefixLen ↔ a.sAddr = 0 := by
  have mask := swapped_mask_small inside small
  have network (b : SockaddrIn) : IPv4Address.networkAddress b prefixLen =
      .ok (some { b with sAddr := b.sAddr &&& hostMask prefixLen }) := by
    rw [IPv4Address.networkAddress, if_neg (by omega), mask]
    rfl
  have broadcast (b : SockaddrIn) : IPv4Address.broadcastAddress b prefixLen =
      .ok (some { b with sAddr := b.sAddr ||| hostMask prefixLen }) := by
    rw [IPv4Address.broadcastAddress, if_neg (by omega), mask]
    rfl
  have subnet : IPv4Address.subnetMask prefixLen =
      .ok ⟨afInet, 0, ~~~hostMask prefixLen, 0⟩ := by
    rw [IPv4Address.subnetMask, mask]
    rfl
  constructor
  · rintro ⟨networked, broadcasted, masked, first, _, third, _, cleared, _⟩
    rw [network] at first
    rw [subnet] at third
    rw [← Option.some.inj (Except.ok.inj first), ← Except.ok.inj third] at cleared
    exact (kept_cleared_iff_word _ _).mp (congrArg SockaddrIn.sAddr cleared)
  · intro zero
    refine ⟨_, _, _, network a, broadcast a, subnet, ?_, ?_, ?_, ?_, ?_⟩
    · exact host_mask_bits prefixLen (by omega)
    · rw [(kept_cleared_iff_word a.sAddr (hostMask prefixLen)).mpr zero]
    · rw [UInt32.not_not]
    · rw [network, zero, UInt32.zero_and, UInt32.zero_and]
    · rw [broadcast, zero, UInt32.zero_and]

variable {a b c : SockaddrIn6} {bytes more front back : List UInt8} {byte : UInt8}

theorem readdressed_unique (first : Readdressed a b bytes) (second : Readdressed a c bytes) :
    b = c := by
  rcases b with ⟨⟩
  rcases c with ⟨⟩
  rcases first with ⟨rfl, rfl, rfl, rfl, rfl⟩
  rcases second with ⟨rfl, rfl, rfl, rfl, same⟩
  cases same
  rfl

theorem readdressed_again (first : Readdressed a b bytes) (second : Readdressed b c more) :
    Readdressed a c more := by
  rcases first with ⟨family, port, flow, scope, _⟩
  rcases second with ⟨family', port', flow', scope', written⟩
  exact ⟨family'.trans family, port'.trans port, flow'.trans flow, scope'.trans scope, written⟩

theorem fold_set_behind (value : UInt8) (back : List UInt8) : ∀ front : List UInt8,
    (List.range' front.length back.length).foldl (fun bytes i => bytes.set i value)
      (front ++ back) = front ++ List.replicate back.length value := by
  induction back with
  | nil => exact fun front => rfl
  | cons byte back induction =>
      intro front
      have written : (front ++ byte :: back).set front.length value =
          (front ++ [value]) ++ back := by
        rw [List.set_append_right _ _ (Nat.le_refl _), Nat.sub_self, List.set_cons_zero,
          List.append_assoc, List.singleton_append]
      have next := induction (front ++ [value])
      rw [List.length_append, List.length_singleton] at next
      rw [List.length_cons, List.range'_succ, List.foldl_cons, written, next, List.append_assoc,
        List.replicate_succ, List.singleton_append]

theorem fold_set_front (value : UInt8) (front back : List UInt8) :
    (List.range' 0 front.length).foldl (fun bytes i => bytes.set i value) (front ++ back) =
      List.replicate front.length value ++ back := by
  have apart : ∀ (places : List Nat) (bytes : List UInt8), (∀ i ∈ places, i < bytes.length) →
      places.foldl (fun bytes i => bytes.set i value) (bytes ++ back) =
        places.foldl (fun bytes i => bytes.set i value) bytes ++ back := by
    intro places
    induction places with
    | nil => exact fun bytes inside => rfl
    | cons place places induction =>
        intro bytes inside
        rw [List.foldl_cons, List.foldl_cons,
          List.set_append_left _ _ (inside place List.mem_cons_self)]
        apply induction
        intro i member
        rw [List.length_set]
        exact inside i (List.mem_cons_of_mem place member)
  have whole := fold_set_behind value front []
  rw [List.length_nil, List.nil_append, List.nil_append] at whole
  rw [apart _ front (fun i member => by simpa using (List.mem_range'_1.mp member).2), whole]

theorem fill_behind (value : UInt8) (split : a.s6Addr = front ++ byte :: back) :
    Readdressed a (a.fill (front.length + 1) 16 value)
      (front ++ byte :: List.replicate back.length value) := by
  have sized := a.sized
  rw [split, List.length_append, List.length_cons] at sized
  have filled := fold_set_behind value back (front ++ [byte])
  rw [List.length_append, List.length_singleton, List.append_assoc, List.singleton_append,
    List.append_assoc, List.singleton_append] at filled
  refine ⟨rfl, rfl, rfl, rfl, ?_⟩
  change fillBytes a.s6Addr (front.length + 1) 16 value = _
  rw [fillBytes, split, show 16 - (front.length + 1) = back.length by omega, filled]

theorem change_at (next : UInt8 → UInt8) (split : a.s6Addr = front ++ byte :: back) :
    ∃ changed, a.change front.length next = .ok changed ∧
      Readdressed a changed (front ++ next byte :: back) := by
  have sized := a.sized
  rw [split, List.length_append, List.length_cons] at sized
  refine ⟨_, if_pos (by omega), rfl, rfl, rfl, rfl, ?_⟩
  change a.s6Addr.modify front.length next = _
  rw [split, List.modify_eq_take_drop, List.take_left, List.drop_left]
  rfl

theorem split_at (a : SockaddrIn6) {place : Nat} (inside : place < 16) :
    ∃ front byte back, a.s6Addr = front ++ byte :: back ∧ front.length = place ∧
      back.length = 15 - place := by
  have sized := a.sized
  have bound : place < a.s6Addr.length := by omega
  refine ⟨a.s6Addr.take place, a.s6Addr[place], a.s6Addr.drop (place + 1), ?_, ?_, ?_⟩
  · rw [List.getElem_cons_drop, List.take_append_drop]
  · rw [List.length_take]
    omega
  · rw [List.length_drop]
    omega

def hostByte (prefixLen : Nat) : UInt8 := UInt8.ofNat (2 ^ (8 - prefixLen % 8) - 1)

theorem byte_mask_eq (prefixLen : Nat) :
    IPv6Address.byteMask prefixLen = .ok (hostByte prefixLen) := by
  have low := Nat.mod_lt prefixLen (show 0 < 8 by decide)
  rw [IPv6Address.byteMask, create_mask_small (Nat.le_of_lt low) (by omega)]
  rfl

theorem rewrite_hosts_at (combine : UInt8 → UInt8 → UInt8) (later : UInt8) {prefixLen : Nat}
    (split : a.s6Addr = front ++ byte :: back) (place : front.length = prefixLen / 8) :
    ∃ baddr, IPv6Address.rewriteHosts a prefixLen combine later = .ok baddr ∧
      Readdressed a baddr (front ++ combine byte (hostByte prefixLen) ::
        List.replicate back.length later) := by
  rcases change_at (fun byte => combine byte (hostByte prefixLen)) split with
    ⟨changed, done, readdressed⟩
  have filled := fill_behind later readdressed.2.2.2.2
  refine ⟨_, ?_, readdressed_again readdressed filled⟩
  rw [IPv6Address.rewriteHosts, byte_mask_eq, bind_ok, ← place, done]
  rfl

/-- A prefix of 128 bits ends behind the last byte, and the byte there is written. -/
theorem rewrite_hosts_outside (combine : UInt8 → UInt8 → UInt8) (later : UInt8)
    {prefixLen : Nat} (outside : 128 ≤ prefixLen) :
    IPv6Address.rewriteHosts a prefixLen combine later = .error (.undefined .outOfBounds) := by
  rw [IPv6Address.rewriteHosts, byte_mask_eq, bind_ok, SockaddrIn6.change, if_neg (by omega),
    bind_error]

theorem subnet_bytes {prefixLen : Nat} (inside : prefixLen < 128) :
    ∃ subnet, IPv6Address.subnetMask prefixLen = .ok subnet ∧
      subnet.s6Addr = List.replicate (prefixLen / 8) 0xFF ++
        ~~~hostByte prefixLen :: List.replicate (15 - prefixLen / 8) 0 := by
  have zeros : List.replicate 16 (0 : UInt8) =
      List.replicate (prefixLen / 8) 0 ++ 0 :: List.replicate (15 - prefixLen / 8) 0 := by
    rw [← List.replicate_succ, List.replicate_append_replicate]
    congr 1
    omega
  rcases change_at (a := ⟨afInet6, 0, 0, List.replicate 16 0, 0, List.length_replicate⟩)
    (fun _ => ~~~hostByte prefixLen) zeros with ⟨changed, done, readdressed⟩
  rw [List.length_replicate] at done
  refine ⟨changed.fill 0 (prefixLen / 8) 0xFF, ?_, ?_⟩
  · rw [IPv6Address.subnetMask, byte_mask_eq, bind_ok]
    dsimp only
    rw [done]
    rfl
  · change fillBytes changed.s6Addr 0 (prefixLen / 8) 0xFF = _
    have front := fold_set_front 0xFF (List.replicate (prefixLen / 8) 0)
      (~~~hostByte prefixLen :: List.replicate (15 - prefixLen / 8) 0)
    rw [List.length_replicate] at front
    rw [fillBytes, readdressed.2.2.2.2, Nat.sub_zero, front]

theorem bits_of_replicate (count : Nat) (byte : UInt8) (bit : Bool)
    (each : natBits 8 byte.toNat = List.replicate 8 bit) :
    bitsOf (List.replicate count byte) = List.replicate (8 * count) bit := by
  induction count with
  | zero => rfl
  | succ count induction =>
      have first : bitsOf (List.replicate (count + 1) byte) =
          natBits 8 byte.toNat ++ bitsOf (List.replicate count byte) := rfl
      rw [first, each, induction, List.replicate_append_replicate]
      congr 1
      omega

theorem host_byte_bits : ∀ low < 8, natBits 8 (~~~hostByte low).toNat =
    List.replicate low true ++ List.replicate (8 - low) false := by
  decide +kernel

theorem subnet_bits {prefixLen : Nat} (inside : prefixLen < 128) :
    bitsOf (List.replicate (prefixLen / 8) 0xFF ++
        ~~~hostByte prefixLen :: List.replicate (15 - prefixLen / 8) 0) =
      List.replicate prefixLen true ++ List.replicate (128 - prefixLen) false := by
  have low := host_byte_bits (prefixLen % 8) (Nat.mod_lt _ (by decide))
  have same : hostByte (prefixLen % 8) = hostByte prefixLen := by
    rw [hostByte, hostByte, Nat.mod_mod]
  rw [same] at low
  have parts : bitsOf (List.replicate (prefixLen / 8) 0xFF ++
        ~~~hostByte prefixLen :: List.replicate (15 - prefixLen / 8) 0) =
      bitsOf (List.replicate (prefixLen / 8) 0xFF) ++
        (natBits 8 (~~~hostByte prefixLen).toNat ++
          bitsOf (List.replicate (15 - prefixLen / 8) 0)) := by
    rw [bitsOf, List.flatMap_append, List.flatMap_cons]
    rfl
  rw [parts, low, bits_of_replicate _ 0xFF true (by decide),
    bits_of_replicate _ 0 false (by decide), List.append_assoc, ← List.append_assoc,
    List.replicate_append_replicate, List.replicate_append_replicate]
  congr 2 <;> omega

theorem zip_and_subnet (byte host : UInt8) (front back : List UInt8) :
    List.zipWith (fun byte mask => byte &&& mask) (front ++ byte :: back)
        (List.replicate front.length 0xFF ++ ~~~host :: List.replicate back.length 0) =
      front ++ (byte &&& ~~~host) :: List.replicate back.length 0 := by
  rw [List.zipWith_append (by rw [List.length_replicate]), List.zipWith_cons_cons]
  congr 1
  · induction front with
    | nil => rfl
    | cons first front induction =>
        rw [List.length_cons, List.replicate_succ, List.zipWith_cons_cons, induction]
        congr 1
        exact UInt8.and_neg_one
  · congr 1
    induction back with
    | nil => rfl
    | cons first back induction =>
        rw [List.length_cons, List.replicate_succ, List.zipWith_cons_cons, induction,
          UInt8.and_zero]

theorem zip_or_subnet (byte host : UInt8) (front back : List UInt8) :
    List.zipWith (fun byte mask => byte ||| ~~~mask) (front ++ byte :: back)
        (List.replicate front.length 0xFF ++ ~~~host :: List.replicate back.length 0) =
      front ++ (byte ||| host) :: List.replicate back.length 0xFF := by
  rw [List.zipWith_append (by rw [List.length_replicate]), List.zipWith_cons_cons, UInt8.not_not]
  congr 1
  · induction front with
    | nil => rfl
    | cons first front induction =>
        rw [List.length_cons, List.replicate_succ, List.zipWith_cons_cons, induction]
        congr 1
        exact UInt8.or_zero
  · congr 1
    induction back with
    | nil => rfl
    | cons first back induction =>
        rw [List.length_cons, List.replicate_succ, List.replicate_succ, List.zipWith_cons_cons,
          induction]
        congr 1
        exact UInt8.or_neg_one

/-- With a prefix that ends in a byte, the law holds if that byte is zero and not otherwise. -/
theorem subnet_law_6 (a : SockaddrIn6) {prefixLen : Nat} (inside : prefixLen < 128) :
    SubnetLaw6 a prefixLen ↔ a.s6Addr[prefixLen / 8]? = some 0 := by
  rcases split_at a (show prefixLen / 8 < 16 by omega) with
    ⟨front, byte, back, split, place, behind⟩
  rcases rewrite_hosts_at (fun byte mask => byte &&& mask) 0x00 split place with
    ⟨network, networked, network_bytes⟩
  rcases rewrite_hosts_at (fun byte mask => byte ||| mask) 0xFF split place with
    ⟨broadcast, broadcasted, broadcast_bytes⟩
  rcases subnet_bytes inside with ⟨subnet, masked, mask_bytes⟩
  have at_byte : a.s6Addr[prefixLen / 8]? = some byte := by
    rw [split, ← place, List.getElem?_append_right (Nat.le_refl _), Nat.sub_self]
    rfl
  have bits := subnet_bits inside
  rw [← mask_bytes] at bits
  rw [← behind, ← place] at mask_bytes
  rw [at_byte, Option.some.injEq]
  constructor
  · rintro ⟨other, _, another, first, _, third, _, cleared, _⟩
    rw [IPv6Address.networkAddress, networked] at first
    rw [masked] at third
    rw [← Except.ok.inj first, ← Except.ok.inj third, mask_bytes, split,
      zip_and_subnet] at cleared
    have same := network_bytes.2.2.2.2.symm.trans cleared.2.2.2.2
    have bytes := (List.cons.inj (List.append_cancel_left same)).1
    exact (kept_cleared_iff_byte byte (hostByte prefixLen)).mp bytes
  · intro zero
    have cleared := (kept_cleared_iff_byte byte (hostByte prefixLen)).mpr zero
    refine ⟨network, broadcast, subnet, networked, broadcasted, masked, bits, ?_, ?_, ?_, ?_⟩
    · rw [mask_bytes, split, zip_and_subnet, ← cleared]
      exact network_bytes
    · rw [mask_bytes, split, zip_or_subnet]
      exact broadcast_bytes
    · rcases rewrite_hosts_at (fun byte mask => byte &&& mask) 0x00 network_bytes.2.2.2.2 place with
        ⟨again, done, again_bytes⟩
      rw [List.length_replicate, zero, UInt8.zero_and, UInt8.zero_and] at again_bytes
      rw [zero, UInt8.zero_and] at network_bytes
      rw [IPv6Address.networkAddress, done,
        readdressed_unique (readdressed_again network_bytes again_bytes) network_bytes]
    · rcases rewrite_hosts_at (fun byte mask => byte ||| mask) 0xFF network_bytes.2.2.2.2 place with
        ⟨again, done, again_bytes⟩
      rw [List.length_replicate, zero, UInt8.zero_and] at again_bytes
      rw [zero] at broadcast_bytes
      rw [IPv6Address.broadcastAddress, done,
        readdressed_unique (readdressed_again network_bytes again_bytes) broadcast_bytes]

/-- The law holds for the IPv4 address zero and a prefix of two bits or more, and for an IPv6
address whose byte in which the prefix ends is zero. -/
theorem subnet_law_iff (a : SockaddrIn) (b : SockaddrIn6) (prefixLen : Nat) :
    (SubnetLaw4 a prefixLen ↔ 2 ≤ prefixLen ∧ prefixLen ≤ 32 ∧ a.sAddr = 0) ∧
    (SubnetLaw6 b prefixLen ↔ prefixLen < 128 ∧ b.s6Addr[prefixLen / 8]? = some 0) := by
  constructor
  · constructor
    · intro law
      have inside : prefixLen ≤ 32 := by
        by_contra outside
        rcases law with ⟨_, _, _, networked, _⟩
        rw [IPv4Address.networkAddress, if_pos (by omega)] at networked
        cases networked
      have small : 2 ≤ prefixLen := by
        by_contra wide
        rcases law with ⟨_, _, _, _, _, masked, _⟩
        rcases bind_eq_ok masked with ⟨mask, done, _⟩
        exact swapped_mask_wide (by omega) mask done
      exact ⟨small, inside, (subnet_law_4 a inside small).mp law⟩
    · rintro ⟨small, inside, zero⟩
      exact (subnet_law_4 a inside small).mpr zero
  · constructor
    · intro law
      have inside : prefixLen < 128 := by
        by_contra outside
        rcases law with ⟨_, _, _, networked, _⟩
        rw [IPv6Address.networkAddress, rewrite_hosts_outside _ _ (by omega)] at networked
        cases networked
      exact ⟨inside, (subnet_law_6 b inside).mp law⟩
    · rintro ⟨inside, zero⟩
      exact (subnet_law_6 b inside).mpr zero

/-- The network of 192.168.1.5/24 comes out as 0.0.0.5. -/
theorem network_keeps_host :
    IPv4Address.networkAddress ⟨afInet, 0, 0x0501A8C0, 0⟩ 24 =
      .ok (some ⟨afInet, 0, 0x05000000, 0⟩) ∧
    ¬SubnetLaw4 ⟨afInet, 0, 0x0501A8C0, 0⟩ 24 := by
  refine ⟨by decide +kernel, ?_⟩
  rintro ⟨network, _, subnet, networked, _, masked, _, cleared, _⟩
  have network_value : network = ⟨afInet, 0, 0x05000000, 0⟩ := by
    have value : IPv4Address.networkAddress ⟨afInet, 0, 0x0501A8C0, 0⟩ 24 =
        .ok (some ⟨afInet, 0, 0x05000000, 0⟩) := by decide +kernel
    rw [value] at networked
    exact (Option.some.inj (Except.ok.inj networked)).symm
  have subnet_value : subnet = ⟨afInet, 0, 0x00FFFFFF, 0⟩ := by
    have value : IPv4Address.subnetMask 24 = .ok ⟨afInet, 0, 0x00FFFFFF, 0⟩ := by decide +kernel
    rw [value] at masked
    exact (Except.ok.inj masked).symm
  rw [network_value, subnet_value] at cleared
  exact absurd cleared (by decide +kernel)

end ChatServer.Net
