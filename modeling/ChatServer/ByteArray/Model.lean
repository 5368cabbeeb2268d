import ChatServer.Machine
import ChatServer.Lib.Splice

/-!
# `chat::ByteArray`

The buffer of `bytearray.cc`: a chain of memory blocks of `m_baseSize` bytes,
with a position, a size, a capacity and a cached pointer to the current block,
each updated separately by every operation. Blocks are lists of bytes, the chain
`m_root -> next -> ..` is the list of its blocks, and a `Node*` into the chain is
the index of the block, with `none` for the null pointer.

Byte counts are natural numbers: `size_t` would wrap only beyond the address
space. `ceil(1.0 * size / m_baseSize)` in `addCapacity` is computed in `double`
and is exact below `2^53` bytes, so it is the rounded-up quotient here.
-/

namespace ChatServer

set_option autoImplicit false

open Splice

inductive Endian where
  | little
  | big
  deriving DecidableEq, Repr

def byteOrder : Endian := .little

structure ByteArray where
  baseSize : Nat
  position : Nat
  capacity : Nat
  size : Nat
  endian : Endian
  nodes : List Str
  cur : Option Nat
  /-- What `new char[]` leaves in the `k`-th block it returns: the source never
  initialises a block, so the bytes are arbitrary. -/
  fresh : Nat → Nat → UInt8
  allocated : Nat

structure Iovec where
  node : Nat
  offset : Nat
  len : Nat
  deriving DecidableEq, Repr

namespace ByteArray

def newBlock (fresh : Nat → Nat → UInt8) (index size : Nat) : Str :=
  List.ofFn fun offset : Fin size => fresh index offset

def new (baseSize : Nat) (fresh : Nat → Nat → UInt8) : ByteArray where
  baseSize := baseSize
  position := 0
  capacity := baseSize
  size := 0
  endian := .big
  nodes := [newBlock fresh 0 baseSize]
  cur := some 0
  fresh := fresh
  allocated := 1

/-- `ByteArray(void* data, size_t size, bool owner)`: one block, already filled. -/
def ofData (data : Str) : ByteArray where
  baseSize := data.length
  position := 0
  capacity := data.length
  size := data.length
  endian := .big
  nodes := [data]
  cur := some 0
  fresh := fun _ _ => 0
  allocated := 1

/-- The end of a call that made a `ByteArray(data, size, false)`, whether it returns or throws:
`~Node` passes the block to `delete[]` whatever `m_owner` says, and `new[]` never gave it. -/
def overBorrowed {Value : Type} : Result Value → Result Value
  | .ok _ => .error (.undefined .invalidDelete)
  | .error (.thrown _) => .error (.undefined .invalidDelete)
  | .error (.undefined cause) => .error (.undefined cause)
  | .error .aborted => .error .aborted

theorem over_borrowed_fatal {Value : Type} (outcome : Result Value) :
    Fatal (overBorrowed outcome) := by
  cases outcome with
  | ok value => exact ⟨_, rfl, by simp⟩
  | error fault => cases fault <;> exact ⟨_, rfl, by simp⟩

def nodeAt (nodes : List Str) (index : Nat) : Option Nat :=
  if index < nodes.length then some index else none

def setIsLittleEndian (ba : ByteArray) (val : Bool) : ByteArray :=
  { ba with endian := if val then .little else .big }

def getReadSize (ba : ByteArray) : Nat := ba.size - ba.position

def getCapacity (ba : ByteArray) : Nat := ba.capacity - ba.position

def clear (ba : ByteArray) : ByteArray :=
  { ba with
    position := 0
    size := 0
    capacity := ba.baseSize
    nodes := ba.nodes.take 1
    cur := some 0 }

def addCapacity (ba : ByteArray) (size : Nat) : ByteArray :=
  let oldCap := ba.getCapacity
  if size = 0 ∨ size ≤ oldCap then ba
  else
    let count := (size - oldCap + ba.baseSize - 1) / ba.baseSize
    let blocks := (List.range count).map fun index =>
      newBlock ba.fresh (ba.allocated + index) ba.baseSize
    let nodes := ba.nodes ++ blocks
    { ba with
      nodes := nodes
      capacity := ba.capacity + ba.baseSize * count
      allocated := ba.allocated + count
      cur := if oldCap = 0 then nodeAt nodes ba.nodes.length else ba.cur }

/-- The copy loop of `write`, from the current block on: the blocks after it, and
how many `next` pointers `m_cur` has followed. -/
def writeChain : List Str → Nat → Str → Result (List Str × Nat)
  | chain, _, [] => .ok (chain, 0)
  | [], _, _ :: _ => .error (.undefined .nullDeref)
  | node :: next, npos, buf =>
      let ncap := node.length - npos
      if buf.length ≤ ncap then
        .ok (splice node npos buf :: next, if node.length = npos + buf.length then 1 else 0)
      else do
        let (rest, moved) ← writeChain next 0 (buf.drop ncap)
        .ok (splice node npos (buf.take ncap) :: rest, moved + 1)

def write (ba : ByteArray) (buf : Str) : Result ByteArray :=
  if buf.length = 0 then .ok ba
  else
    let ba := ba.addCapacity buf.length
    match ba.cur with
    | none => .error (.undefined .nullDeref)
    | some cur => do
        let (chain, moved) ← writeChain (ba.nodes.drop cur) (ba.position % ba.baseSize) buf
        let nodes := ba.nodes.take cur ++ chain
        let position := ba.position + buf.length
        .ok { ba with
          nodes := nodes
          cur := nodeAt nodes (cur + moved)
          position := position
          size := if position > ba.size then position else ba.size }

/-- The copy loop of `read`: the bytes copied out and the `next` pointers followed. -/
def readChain : List Str → Nat → Nat → Result (Str × Nat)
  | _, _, 0 => .ok ([], 0)
  | [], _, _ + 1 => .error (.undefined .nullDeref)
  | node :: next, npos, size =>
      let ncap := node.length - npos
      if size ≤ ncap then
        .ok ((node.drop npos).take size, if node.length = npos + size then 1 else 0)
      else do
        let (bytes, moved) ← readChain next 0 (size - ncap)
        .ok ((node.drop npos).take ncap ++ bytes, moved + 1)

/-- `read(void* buf, size_t size)`. The free room of `m_cur` is computed before the
loop, so even a read of no bytes follows `m_cur`. -/
def read (ba : ByteArray) (size : Nat) : Result (Str × ByteArray) :=
  if size > ba.getReadSize then .error (.thrown .outOfRange)
  else
    match ba.cur with
    | none => .error (.undefined .nullDeref)
    | some cur => do
        let (bytes, moved) ← readChain (ba.nodes.drop cur) (ba.position % ba.baseSize) size
        .ok (bytes, { ba with
          cur := nodeAt ba.nodes (cur + moved)
          position := ba.position + size })

/-- `read(void* buf, size_t size, size_t position) const`. The walk starts at `m_cur`
whatever the position, and `m_size - position` wraps when the position lies behind
the data. -/
def readAt (ba : ByteArray) (size position : Nat) : Result Str :=
  let available :=
    if position ≤ ba.size then ba.size - position else 2 ^ 64 - (position - ba.size)
  if size > available then .error (.thrown .outOfRange)
  else
    match ba.cur with
    | none => .error (.undefined .nullDeref)
    | some cur => do
        let (bytes, _) ← readChain (ba.nodes.drop cur) (position % ba.baseSize) size
        .ok bytes

/-- The walk of `setPosition` from `m_root`: how many `next` pointers it follows. -/
def seekChain : List Str → Nat → Result Nat
  | [], _ => .error (.undefined .nullDeref)
  | node :: next, v =>
      if v > node.length then do
        let moved ← seekChain next (v - node.length)
        .ok (moved + 1)
      else if v = node.length then .ok 1
      else .ok 0

def setPosition (ba : ByteArray) (v : Nat) : Result ByteArray :=
  if v > ba.capacity then .error (.thrown .outOfRange)
  else do
    let moved ← seekChain ba.nodes v
    .ok { ba with
      position := v
      size := if v > ba.size then v else ba.size
      cur := nodeAt ba.nodes moved }

def toString (ba : ByteArray) : Result Str :=
  if ba.getReadSize = 0 then .ok []
  else ba.readAt ba.getReadSize ba.position

/-- The loop of `getReadBuffers` and `getWriteBuffers`: `len` bytes from `npos` of the
first block on, cut at the block ends. -/
def bufferChain : List Str → Nat → Nat → Nat → Result (List Iovec)
  | _, _, _, 0 => .ok []
  | [], _, _, _ + 1 => .error (.undefined .nullDeref)
  | node :: next, index, npos, len =>
      let ncap := node.length - npos
      if len ≤ ncap then .ok [⟨index, npos, len⟩]
      else do
        let rest ← bufferChain next (index + 1) 0 (len - ncap)
        .ok (⟨index, npos, ncap⟩ :: rest)

def buffersFrom (ba : ByteArray) (len : Nat) : Result (List Iovec) :=
  match ba.cur with
  | none => .error (.undefined .nullDeref)
  | some cur => bufferChain (ba.nodes.drop cur) cur (ba.position % ba.baseSize) len

/-- `getReadBuffers(buffers, len) const`: the number of bytes and the buffers. -/
def getReadBuffers (ba : ByteArray) (len : Nat) : Result (Nat × List Iovec) :=
  let len := if len > ba.getReadSize then ba.getReadSize else len
  if len = 0 then .ok (0, [])
  else do
    let buffers ← ba.buffersFrom len
    .ok (len, buffers)

def getWriteBuffers (ba : ByteArray) (len : Nat) : Result (Nat × List Iovec × ByteArray) :=
  if len = 0 then .ok (0, [], ba)
  else do
    let ba := ba.addCapacity len
    let buffers ← ba.buffersFrom len
    .ok (len, buffers, ba)

def gather (nodes : List Str) (buffers : List Iovec) : Str :=
  buffers.flatMap fun iov => ((nodes.getD iov.node []).drop iov.offset).take iov.len

/-- What a scattering receive leaves in the chain: the bytes go into the buffers in
order, each filled before the next. -/
def scatter (nodes : List Str) : List Iovec → Str → List Str
  | [], _ => nodes
  | iov :: rest, bytes =>
      let node := nodes.getD iov.node []
      scatter (nodes.set iov.node (splice node iov.offset (bytes.take iov.len))) rest
        (bytes.drop iov.len)

end ByteArray
end ChatServer
