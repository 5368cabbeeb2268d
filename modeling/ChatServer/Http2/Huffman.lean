import ChatServer.Machine
import ChatServer.Http2.HuffmanTable

/-!
# The Huffman coder

`huffman.cc`. The encoder packs the codes into a buffer, `remain` counting the free
bits of the current byte. The decoder walks a tree with 256 children per node that
`hf_init` builds anew for every call: an inner node counts its leaves in `size`, a leaf
has `size` zero and in `code_len` the bits of its code that lie in the last byte.

`code << shift` on an `int` keeps the low bits (as gcc defines it), and only the lowest
eight are used.
-/

namespace ChatServer.Http2

set_option autoImplicit false

inductive Node where
  | null
  | node (children : UInt8 → Node) (sym : UInt8) (code codeLen size : Nat)

namespace Node

/-- `node_create()`: all fields zero. -/
def create : Node := .node (fun _ => .null) 0 0 0 0

def child : Node → UInt8 → Node
  | .null, _ => .null
  | .node children _ _ _ _, i => children i

def setChild : Node → UInt8 → Node → Node
  | .null, _, _ => .null
  | .node children sym code codeLen size, i, target =>
      .node (Function.update children i target) sym code codeLen size

def orCreate : Node → Node
  | .null => create
  | .node children sym code codeLen size => .node children sym code codeLen size

def setLeaf : Node → UInt8 → Nat → Nat → Node
  | .null, _, _, _ => .null
  | .node children _ _ _ size, sym, code, codeLen => .node children sym code codeLen size

def sizeIncrement : Node → Node
  | .null => .null
  | .node children sym code codeLen size => .node children sym code codeLen (size + 1)

end Node

/-- The second loop of `_hf_add_node`: `count` children from `j` on become leaves. -/
def fillLeaves (sym : UInt8) (code codeLen : Nat) : Node → Nat → Nat → Node
  | cur, _, 0 => cur
  | cur, j, count + 1 =>
      let leaf := (cur.child (UInt8.ofNat j)).orCreate.setLeaf sym code codeLen
      fillLeaves sym code codeLen (cur.setChild (UInt8.ofNat j) leaf).sizeIncrement (j + 1) count

def hfAddNode (cur : Node) (sym : UInt8) (code codeLen : Nat) : Node :=
  if 8 < codeLen then
    let i := UInt8.ofNat (code >>> (codeLen - 8))
    cur.setChild i (hfAddNode (cur.child i).orCreate sym code (codeLen - 8))
  else
    let shift := 8 - codeLen
    let start := UInt8.ofNat (code <<< shift)
    fillLeaves sym code codeLen cur start.toNat (1 <<< shift)
  termination_by codeLen

@[irreducible] def hfInit : Node :=
  ((List.range 256).map UInt8.ofNat).foldl
    (fun root i => hfAddNode root i (hfCode i) (hfCodeLen i)) Node.create

def orInto (buff : Str) (i : Nat) (t : UInt8) : Result Str :=
  if i < buff.length then .ok (buff.set i (buff.getD i 0 ||| t))
  else .error (.undefined .outOfBounds)

def store (buff : Str) (i : Nat) (byte : UInt8) : Result Str :=
  if i < buff.length then .ok (buff.set i byte) else .error (.undefined .outOfBounds)

/-- The loop of `hf_byte_encode`: the low `nbits` bits of `codes` go to `buff` from byte `i`
on, where `remain` bits are free. -/
def byteEncodeLoop (codes nbits remain : Nat) (buff : Str) (i : Nat) : Result (Nat × Str) :=
  if nbits < remain then do
    let buff ← orInto buff i (UInt8.ofNat (codes <<< (remain - nbits)))
    .ok (remain - nbits, buff)
  else do
    let buff ← orInto buff i (UInt8.ofNat (codes >>> (nbits - remain)))
    let buff ← store buff (i + 1) 0
    if nbits - remain = 0 then .ok (8, buff)
    else byteEncodeLoop codes (nbits - remain) 8 buff (i + 1)
  termination_by nbits + (8 - remain)

def hfByteEncode (ch : UInt8) (remain : Nat) (buff : Str) (j : Nat) : Result (Nat × Str) :=
  byteEncodeLoop (hfCode ch) (hfCodeLen ch) remain buff j

/-- The loop of `hf_string_encode` over the input, with `remain`, `j` and the buffer. -/
def stringEncodeLoop : Str → Nat → Nat → Str → Result (Nat × Nat × Str)
  | [], remain, j, buff => .ok (remain, j, buff)
  | ch :: rest, remain, j, buff => do
      let nbytes :=
        if hfCodeLen ch < remain then (remain - hfCodeLen ch) / 8
        else (hfCodeLen ch - remain) / 8 + 1
      let (remain, buff) ← hfByteEncode ch remain buff j
      stringEncodeLoop rest remain (j + nbytes) buff

def hfStringEncode (input : Str) (prefixBits : Nat) (buff : Str) : Result (Nat × Str) := do
  let (remain, j, buff) ← stringEncodeLoop input (8 - prefixBits) 0 buff
  if remain < 8 then
    let buff ← orInto buff j (UInt8.ofNat (0x3fffffff >>> (30 - remain)))
    .ok (j + 1, buff)
  else .ok (j, buff)

/-- `EncodeString(const char* in, int in_len, std::string& out, int prefix)`. -/
def encodeChars (input : Str) (inLen : Int) (out : Str) (prefixBits : Nat) :
    Result (Int × Str) := do
  let len ← checkedInt (inLen * 8 + 1)
  let out ← resize out len
  let (size, out) ← hfStringEncode (input.take inLen.toNat) prefixBits out
  let out ← resize out size
  .ok (0, out)

def encodeString (input out : Str) (prefixBits : Nat) : Result (Int × Str) :=
  encodeChars input (int32 input.length) out prefixBits

/-- `hf_string_encode_len`: the sum is an `int`. -/
def hfStringEncodeLen (enc : Str) : Result Int := do
  let len ← enc.foldlM (fun len ch => checkedInt (len + hfCodeLen ch)) 0
  let len ← checkedInt (len + 7)
  .ok (len / 8)

def encodeLenChars (input : Str) (inLen : Int) : Result Int :=
  hfStringEncodeLen (input.take inLen.toNat)

def encodeLen (input : Str) : Result Int := encodeLenChars input (int32 input.length)

def shouldEncodeChars (input : Str) (inLen : Int) : Result Bool := do
  let len ← encodeLenChars input inLen
  .ok (decide (len < inLen))

def shouldEncode (input : Str) : Result Bool := shouldEncodeChars input (int32 input.length)

/-- The variables of `hf_string_decode`; `at` is the length of `out`. -/
structure Decoder where
  n : Node
  cur : Nat
  nbits : Nat
  out : Str

/-- A `return` inside the loops: the code and what was written so far. -/
abbrev Decoding := Except (Int × Str) Decoder

/-- The inner loop, while a whole byte is there. `fuel` bounds its rounds: each takes at
least one bit when `code_len` is positive. -/
def decodeWhole (root : Node) (outSz : Int) : Nat → Decoder → Result Decoding
  | 0, d => if 8 ≤ d.nbits then .error (.undefined .endlessLoop) else .ok (.ok d)
  | fuel + 1, d =>
      if 8 ≤ d.nbits then
        match d.n.child (UInt8.ofNat (d.cur >>> (d.nbits - 8))) with
        | .null => .ok (.error (-1, d.out))
        | .node children sym code codeLen size =>
            if size = 0 then
              if 0 < outSz ∧ outSz < d.out.length then .ok (.error (-2, d.out))
              else decodeWhole root outSz fuel
                { d with n := root, nbits := d.nbits - codeLen, out := d.out ++ [sym] }
            else decodeWhole root outSz fuel
              { d with n := .node children sym code codeLen size, nbits := d.nbits - 8 }
      else .ok (.ok d)

def decodeBytes (root : Node) (outSz : Int) : Str → Decoder → Result Decoding
  | [], d => .ok (.ok d)
  | byte :: enc, d => do
      let next ← decodeWhole root outSz (d.nbits + 8)
        { d with cur := (d.cur <<< 8 ||| byte.toNat) % 2 ^ 32, nbits := d.nbits + 8 }
      match next with
      | .error stopped => .ok (.error stopped)
      | .ok d => decodeBytes root outSz enc d

def decodeTail (root : Node) : Nat → Decoder → Result Decoder
  | 0, d => if 0 < d.nbits then .error (.undefined .endlessLoop) else .ok d
  | fuel + 1, d =>
      if 0 < d.nbits then
        match d.n.child (UInt8.ofNat (d.cur <<< (8 - d.nbits))) with
        | .null => .error (.undefined .nullDeref)
        | .node _ sym _ codeLen size =>
            if size ≠ 0 ∨ d.nbits < codeLen then .ok d
            else decodeTail root fuel
              { d with n := root, nbits := d.nbits - codeLen, out := d.out ++ [sym] }
      else .ok d

/-- `hf_string_decode`: the returned length or error code, and the bytes written. -/
def hfStringDecode (root : Node) (enc : Str) (outSz : Int) : Result (Int × Str) := do
  let whole ← decodeBytes root outSz enc ⟨root, 0, 0, []⟩
  match whole with
  | .error stopped => .ok stopped
  | .ok d =>
      let d ← decodeTail root d.nbits d
      .ok (d.out.length, d.out)

/-- `DecodeString(const char* in, int in_len, std::string& out)`. -/
def decodeChars (input : Str) (inLen : Int) (out : Str) : Result (Int × Str) := do
  let len ← checkedInt (inLen * 8 + 1)
  let buffer ← resize out len
  let (rt, written) ← hfStringDecode hfInit (input.take inLen.toNat) len
  let out ← resize (written ++ buffer.drop written.length) rt
  .ok (rt, out)

def decodeString (input out : Str) : Result (Int × Str) :=
  decodeChars input (int32 input.length) out

end ChatServer.Http2
