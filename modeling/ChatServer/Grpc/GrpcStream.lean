import ChatServer.ByteArray.Typed
import ChatServer.Streams.Compression

/-!
# Messages of a gRPC stream

`grpc_stream.cc` and `GrpcMessage::packData`. A message travels as a flag, a 32-bit length and its
bytes, in DATA frames. `recvMessageData` takes the prefix from the first frame it is given and
then whole frames until it has enough; the buffer over the first frame lives until it returns.
-/

namespace ChatServer.Grpc

set_option autoImplicit false

open ChatServer.ByteArray
open ChatServer.Streams (Zlib ZlibStream)

structure GrpcMessage where
  data : Str
  lengthFits : data.length < 2 ^ 32

namespace GrpcMessage

def length (message : GrpcMessage) : UInt32 := UInt32.ofNat message.data.length

def packData (message : GrpcMessage) (fresh : Nat → Nat → UInt8) : Result ByteArray := do
  let ba ← (ByteArray.new 4096 fresh).writeFuint8 0
  let ba ← ba.writeFuint32 message.length
  ba.write message.data

def encode (message : GrpcMessage) : Str :=
  0 :: fixedBytes .big 4 message.length.toNat ++ message.data

end GrpcMessage

def messageBytes (message : GrpcMessage) (fresh : Nat → Nat → UInt8) : Result Str := do
  let ba ← message.packData fresh
  let ba ← ba.setPosition 0
  ba.toString

/-- The entries of `m_data`: the data of a DATA frame, or null when the stream was closed. -/
abbrev Queue := List (Option Str)

/-- How a call ends: in `pop` on an empty queue, with a value and the rest of the queue, or with a
fault that `catch (...)` does not stop. -/
inductive Outcome where
  | waits
  | returned (message : Option Str) (rest : Queue)
  | failed (fault : Fault)
  deriving DecidableEq

def readPrefix (body : Str) : Result (Bool × UInt32 × Str) := do
  let (compress, ba) ← (ofData body).readFuint8
  let (length, ba) ← ba.readFuint32
  let rest ← ba.toString
  .ok (compress ≠ 0, length, rest)

def fill (length : Nat) : Str → Queue → Outcome
  | rt, [] => if rt.length < length then .waits else .returned (some rt) []
  | rt, df :: rest =>
      if rt.length < length then
        match df with
        | none => .returned none rest
        | some data => fill length (rt ++ data) rest
      else .returned (some rt) (df :: rest)

/-- The `catch (...)` around the body: what was thrown becomes a null message. -/
def caught (rest : Queue) : Fault → Outcome
  | .thrown _ => .returned none rest
  | fault => .failed fault

/-- The end of the body, where the buffer over the first frame is destroyed. -/
def Outcome.overBorrowed : Outcome → Outcome
  | .returned _ _ => .failed (.undefined .invalidDelete)
  | outcome => outcome

section Receive

-- `inflate` of zlib, and how often the loops of its stream may go round
variable {State : Type} (zlib : Zlib State) (rounds : Nat)

def decompress (compress : Bool) : Outcome → Outcome
  | .returned (some rt) rest =>
      if compress then
        match ZlibStream.convert zlib rounds [rt] with
        | .ok plain => .returned (some plain) rest
        | .error fault => caught rest fault
      else .returned (some rt) rest
  | outcome => outcome

def recvMessageData : Queue → Outcome
  | [] => .waits
  | none :: rest => .returned none rest
  | some body :: rest =>
      if body.isEmpty then .returned none rest
      else Outcome.overBorrowed <|
        match readPrefix body with
        | .error fault => caught rest fault
        | .ok (compress, length, rt) => decompress zlib rounds compress (fill length.toNat rt rest)

/-- What successive calls return, if all of them return. -/
def recvMessages : Nat → Queue → Option (List (Option Str))
  | 0, _ => some []
  | count + 1, queue =>
      match recvMessageData zlib rounds queue with
      | .returned message rest => (recvMessages count rest).map (message :: ·)
      | _ => none

end Receive

theorem encode_cons (message : GrpcMessage) :
    message.encode = [0] ++ (fixedBytes .big 4 message.length.toNat ++ message.data) := by
  simp [GrpcMessage.encode]

theorem message_bytes_encode (message : GrpcMessage) (fresh : Nat → Nat → UInt8) :
    messageBytes message fresh = .ok message.encode := by
  have writes : Writes (fun ba => ba.writeFuint8 0 >>= fun ba => ba.writeFuint32 message.length >>=
      fun ba => ba.write message.data) .big message.encode := by
    rw [encode_cons]
    exact writes_bind (write_writes .big [0])
      (writes_bind (write_fixed_writes .big 4 _) (write_writes .big message.data))
  obtain ⟨written, returned, _, moved, inv, unread⟩ :=
    writes_rewound writes (new_inv 4096 fresh (by decide)) rfl rfl (by simp [contents, new])
  have packed : message.packData fresh = .ok written := returned
  simp only [messageBytes, packed, bind_ok, moved, to_string_unread inv, unread]

variable {State : Type} {zlib : Zlib State} {rounds : Nat}

theorem over_borrowed_not_returned (outcome : Outcome) (message : Option Str) (rest : Queue) :
    outcome.overBorrowed ≠ .returned message rest := by
  cases outcome <;> simp [Outcome.overBorrowed]

theorem recv_message_not_returned {body : Str} (some : body ≠ []) (queue : Queue)
    (message : Option Str) (rest : Queue) :
    recvMessageData zlib rounds (.some body :: queue) ≠ .returned message rest := by
  have filled : body.isEmpty = false := by simp [some]
  rw [recvMessageData, filled, if_neg Bool.false_ne_true]
  exact over_borrowed_not_returned _ message rest

theorem recv_messages_none {body : Str} (some : body ≠ []) (queue : Queue) (count : Nat) :
    recvMessages zlib rounds (count + 1) (.some body :: queue) = none := by
  rw [recvMessages]
  cases outcome : recvMessageData zlib rounds (.some body :: queue) with
  | returned message rest => exact absurd outcome (recv_message_not_returned some queue message rest)
  | waits => rfl
  | failed fault => rfl

/-- Messages come out as they were sent only if there are none. -/
theorem reassembled_iff_none (zlib : Zlib State) (rounds : Nat) (messages : List GrpcMessage)
    (frames : List Str) (nonempty : ∀ data ∈ frames, data ≠ [])
    (same : frames.flatten = (messages.map GrpcMessage.encode).flatten) :
    recvMessages zlib rounds messages.length (frames.map some) =
        some (messages.map fun message => some message.data) ↔ messages = [] := by
  constructor
  · intro received
    cases messages with
    | nil => rfl
    | cons message messages =>
        cases frames with
        | nil =>
            rw [List.map_cons, List.flatten_cons, encode_cons] at same
            cases same
        | cons first frames =>
            rw [List.map_cons, List.length_cons,
              recv_messages_none (nonempty first List.mem_cons_self)] at received
            cases received
  · intro none
    rw [none]
    rfl

/-- Two messages, the second one empty; the first frame ends behind one byte of content. -/
theorem reassembled_iff_none_two :
    let messages : List GrpcMessage := [⟨[0x61, 0x62], by decide⟩, ⟨[], by decide⟩]
    let frames : List Str := [[0, 0, 0, 0, 2, 0x61], [0x62], [0, 0, 0, 0, 0]]
    recvMessages ZlibStream.inflateStored 2 2 (frames.map some) =
      some (messages.map fun message => some message.data) ↔ messages = [] := by
  intro messages frames
  exact reassembled_iff_none ZlibStream.inflateStored 2 messages frames (by decide) (by decide +kernel)

/-- One message in one frame, as `sendMessage` sends it. -/
theorem message_not_received :
    let message : GrpcMessage := ⟨[0x61], by decide⟩
    [message.encode].flatten = ([message].map GrpcMessage.encode).flatten ∧
      recvMessageData ZlibStream.inflateStored 2 [some message.encode] =
        .failed (.undefined .invalidDelete) ∧
      recvMessages ZlibStream.inflateStored 2 1 [some message.encode] ≠ some [some message.data] := by
  decide +kernel

end ChatServer.Grpc
