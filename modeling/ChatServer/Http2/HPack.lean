import ChatServer.ByteArray.Typed
import ChatServer.Http2.DynamicTable
import ChatServer.Http2.Huffman

/-!
# HPACK

`hpack.cc`: integers with a prefix, string literals, and whole header blocks, written
to and read from a `ByteArray`. The encoder chooses one of three representations for a
header by looking it up in its table; the decoder knows seven.
-/

namespace ChatServer.Http2

set_option autoImplicit false

/-- The loop of `WriteVarInt`. It marks the bytes before the last with `0x8`. -/
def writeVarIntTail (ba : ByteArray) (value : Nat) : Result ByteArray :=
  if 128 ≤ value then do
    let ba ← ba.writeFuint8 (UInt8.ofNat (0x8 ||| (value &&& 0x7f)))
    writeVarIntTail ba (value >>> 7)
  else ba.writeFuint8 (UInt8.ofNat value)
  termination_by value
  decreasing_by
    rw [Nat.shiftRight_eq_div_pow]
    omega

def writeVarInt (ba : ByteArray) (prefixBits value : Nat) (flags : UInt8) :
    Result (Int × ByteArray) :=
  let v := (1 <<< prefixBits) - 1
  if value < v then do
    let after ← ba.writeFuint8 (UInt8.ofNat (value ||| flags.toNat))
    .ok (1, after)
  else do
    let after ← ba.writeFuint8 (UInt8.ofNat (v ||| flags.toNat))
    let after ← writeVarIntTail after (value - v)
    .ok (int32 (after.position - ba.position : Int), after)

/-- The loop of `ReadVarInt`. The shift `m` grows by 7, so the eleventh byte is shifted by more
than a `uint64_t` has bits; `rounds` counts down to it. -/
def readVarIntLoop : Nat → ByteArray → Nat → Nat → Result (Nat × ByteArray)
  | 0, ba, _, _ => do
      let _ ← ba.readFuint8
      .error (.undefined .shiftTooWide)
  | rounds + 1, ba, iv, m => do
      let (b, ba) ← ba.readFuint8
      let iv := (iv + (b &&& 0x7f).toNat <<< m % 2 ^ 64) % 2 ^ 64
      if b &&& 0x80 ≠ 0 then readVarIntLoop rounds ba iv (m + 7) else .ok (iv, ba)

/-- `ReadVarInt(ba, b, prefix)`, where `b` was read before. -/
def readVarIntFrom (ba : ByteArray) (b : UInt8) (prefixBits : Nat) : Result (Nat × ByteArray) :=
  let v := UInt8.ofNat ((1 <<< prefixBits) - 1)
  let b := b &&& v
  if b < v then .ok (b.toNat, ba) else readVarIntLoop 10 ba b.toNat 0

def readVarInt (ba : ByteArray) (prefixBits : Nat) : Result (Nat × ByteArray) := do
  let (b, ba) ← ba.readFuint8
  readVarIntFrom ba b prefixBits

def readStringData (type : UInt8) (len : Int) (ba : ByteArray) : Result (Str × ByteArray) :=
  if len ≠ 0 then do
    let _ ← resize [] len
    let (data, ba) ← ba.read len.toNat
    if type &&& 0x80 ≠ 0 then
      let (_, out) ← decodeString data []
      .ok (out, ba)
    else .ok (data, ba)
  else .ok ([], ba)

def readString (ba : ByteArray) : Result (Str × ByteArray) := do
  let (type, ba) ← ba.readFuint8
  let (len, ba) ← readVarIntFrom ba type 7
  readStringData type (int32 len) ba

def writeString (ba : ByteArray) (str : Str) (h : Bool) : Result (Int × ByteArray) := do
  let (newStr, flags) ← if h then do
      let (_, newStr) ← encodeString str [] 0
      .ok (newStr, (0x80 : UInt8))
    else .ok (str, 0)
  let (_, after) ← writeVarInt ba 7 newStr.length flags
  let after ← after.write newStr
  .ok (int32 (after.position - ba.position : Int), after)

inductive IndexType where
  | indexed
  | withIndexingIndexedName
  | withIndexingNewName
  | withoutIndexingIndexedName
  | withoutIndexingNewName
  | nerverIndexedIndexedName
  | nerverIndexedNewName
  | error
  deriving DecidableEq, Repr

structure HeaderField where
  type : IndexType := .error
  hName : Bool := false
  hValue : Bool := false
  index : Nat := 0
  name : Str := []
  value : Str := []
  deriving DecidableEq

structure HPack where
  headers : List HeaderField
  table : DynamicTable
  deriving DecidableEq

/-- `Pack(HeaderField* header, ByteArray::ptr ba)`: the three steps every representation but
the first has in common, the name being written only when it is new. -/
def packLiteral (ba : ByteArray) (header : HeaderField) (prefixBits : Nat) (flags : UInt8)
    (newName : Bool) : Result ByteArray := do
  let (_, ba) ← writeVarInt ba prefixBits header.index flags
  let ba ← if newName then do
      let (_, ba) ← writeString ba header.name header.hName
      .ok ba
    else .ok ba
  let (_, ba) ← writeString ba header.value header.hValue
  .ok ba

def packField (header : HeaderField) (ba : ByteArray) : Result (Int × ByteArray) := do
  let after ← match header.type with
    | .indexed => do
        let (_, ba) ← writeVarInt ba 7 header.index 0x80
        .ok ba
    | .withIndexingIndexedName => packLiteral ba header 6 0x40 false
    | .withIndexingNewName => packLiteral ba header 6 0x40 true
    | .withoutIndexingIndexedName => packLiteral ba header 4 0x00 false
    | .withoutIndexingNewName => packLiteral ba header 4 0x00 true
    | .nerverIndexedIndexedName => packLiteral ba header 4 0x10 false
    | .nerverIndexedNewName => packLiteral ba header 4 0x10 true
    | .error => .ok ba
  .ok (int32 (after.position - ba.position : Int), after)

/-- The representation `pack` chooses for a header, and the table after it. -/
def chooseField (table : DynamicTable) (name value : Str) : Result (HeaderField × DynamicTable) :=
  let p := table.findPair name value
  if p.2 then .ok ({ type := .indexed, index := p.1.toNat }, table)
  else if 0 < p.1 then do
    let hValue ← shouldEncode value
    .ok ({ type := .withIndexingIndexedName, index := p.1.toNat, hValue, name, value },
      table.update name value)
  else do
    let hName ← shouldEncode name
    let hValue ← shouldEncode value
    .ok ({ type := .withIndexingNewName, index := 0, hName, name, hValue, value },
      table.update name value)

/-- `pack(headers, ba)`, with the sum `rt` of the bytes written. -/
def packLoop : HPack → ByteArray → Int → List (Str × Str) → Result (Int × HPack × ByteArray)
  | hp, ba, rt, [] => .ok (rt, hp, ba)
  | hp, ba, rt, (name, value) :: rest => do
      let (h, table) ← chooseField hp.table name value
      let (written, ba) ← packField h ba
      let rt ← checkedInt (rt + written)
      packLoop { headers := hp.headers ++ [h], table } ba rt rest

def pack (hp : HPack) (headers : List (Str × Str)) (ba : ByteArray) :
    Result (Int × HPack × ByteArray) := packLoop hp ba 0 headers

/-- `pack(headers, std::string& out)`, through a `ByteArray` of the default block size. -/
def packString (fresh : Nat → Nat → UInt8) (hp : HPack) (headers : List (Str × Str)) :
    Result (Int × Str × HPack) := do
  let (rt, hp, ba) ← pack hp headers (ByteArray.new 4096 fresh)
  let ba ← ba.setPosition 0
  let out ← ba.toString
  .ok (rt, out, hp)

def readStrings (header : HeaderField) (ba : ByteArray) : Result (HeaderField × ByteArray) :=
  if header.index > 0 then do
    let (value, ba) ← readString ba
    .ok ({ header with value }, ba)
  else do
    let (name, ba) ← readString ba
    let (value, ba) ← readString ba
    .ok ({ header with name, value }, ba)

def readLiteral (ba : ByteArray) (type : UInt8) (prefixBits : Nat)
    (knownName newName : IndexType) : Result (HeaderField × ByteArray) := do
  let (idx, ba) ← readVarIntFrom ba type prefixBits
  let idx := idx % 2 ^ 32
  readStrings { type := if idx > 0 then knownName else newName, index := idx } ba

/-- The field that starts with the byte `type`; `none` is the `return -1`. -/
def readFieldFrom (type : UInt8) (ba : ByteArray) : Result (Option HeaderField × ByteArray) :=
  if type &&& 0x80 ≠ 0 then do
    let (idx, ba) ← readVarIntFrom ba type 7
    .ok (some { type := .indexed, index := idx % 2 ^ 32 }, ba)
  else if type &&& 0x40 ≠ 0 then do
    let (header, ba) ← readLiteral ba type 6 .withIndexingIndexedName .withIndexingNewName
    .ok (some header, ba)
  else if type &&& 0xF0 = 0 then do
    let (header, ba) ← readLiteral ba type 4 .withoutIndexingIndexedName .withoutIndexingNewName
    .ok (some header, ba)
  else if type &&& 0x10 ≠ 0 then do
    let (header, ba) ← readLiteral ba type 4 .nerverIndexedIndexedName .nerverIndexedNewName
    .ok (some header, ba)
  else .ok (none, ba)

def readField (ba : ByteArray) : Result (Option HeaderField × ByteArray) := do
  let (type, ba) ← ba.readFuint8
  readFieldFrom type ba

def resolveField (table : DynamicTable) (header : HeaderField) : HeaderField × DynamicTable :=
  let header :=
    if header.type = .indexed then
      { header with
        name := (table.getPair header.index).1
        value := (table.getPair header.index).2 }
    else if header.index > 0 then { header with name := (table.getPair header.index).1 }
    else header
  let table :=
    if header.type = .withIndexingIndexedName then
      table.update (table.getName header.index) header.value
    else if header.type = .withIndexingNewName then table.update header.name header.value
    else table
  (header, table)

/-- The loop of `parse`. Each round reads at least one byte, so `length` rounds are enough. -/
def parseLoop (pos : Nat) (length : Int) :
    Nat → HPack → ByteArray → Int → Result (Int × HPack × ByteArray)
  | 0, hp, ba, parsed =>
      if parsed < length then .error (.undefined .endlessLoop) else .ok (parsed, hp, ba)
  | rounds + 1, hp, ba, parsed =>
      if parsed < length then do
        let (field, ba) ← readField ba
        match field with
        | none => .ok (-1, hp, ba)
        | some header =>
            let (header, table) := resolveField hp.table header
            parseLoop pos length rounds { headers := hp.headers ++ [header], table } ba
              (int32 (ba.position - pos : Int))
      else .ok (parsed, hp, ba)

def parse (hp : HPack) (ba : ByteArray) (length : Int) : Result (Int × HPack × ByteArray) :=
  parseLoop ba.position length length.toNat hp ba 0

def parseString (hp : HPack) (data : Str) : Result (Int × HPack) :=
  ByteArray.overBorrowed do
    let (rt, hp, _) ← parse hp (ByteArray.ofData data) (int32 data.length)
    .ok (rt, hp)

end ChatServer.Http2
