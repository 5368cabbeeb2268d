import ChatServer.Http.WSReceive
import Mathlib.Algebra.Order.BigOperators.Group.List

/-!
# Messages between the two sides of a WebSocket

One side sends a message in fragments with `WSSendMessage`, with any PING and PONG frames between
them; the other side receives it with `WSRecvMessage`, however the bytes arrive. A client masks
each fragment with a `rand()` of its own, a server does not mask.
-/

namespace ChatServer.Http

set_option autoImplicit false

/-- The data of one `WSSendMessage`, with the value that `rand()` gives there. -/
structure Fragment where
  data : Str
  rand : UInt32
  filled : data ≠ []
  bounded : data.length < 2 ^ 63

inductive Send where
  | ping
  | pong
  | fragment (part : Fragment)

def Send.isFragment : Send → Bool
  | .fragment _ => true
  | _ => false

def Send.data : Send → Str
  | .fragment part => part.data
  | _ => []

/-- What is sent before the final fragment, and that fragment. -/
structure SentMessage where
  kind : MessageKind
  sends : List Send
  last : Fragment

/-- One send of the message. `fin` is set on the last fragment only. -/
def sendOne (client : Bool) (kind : MessageKind) (started : Bool) (stream : Stream) :
    Send → Result Sent
  | .ping => wsPing stream
  | .pong => wsPong stream
  | .fragment part =>
      wsSendMessage stream ⟨(dataOpcode kind started).toNat, part.data⟩ client false part.rand

def sendAll (client : Bool) (kind : MessageKind) (last : Fragment) :
    Bool → List Send → Stream → Result Sent
  | started, [], stream =>
      wsSendMessage stream ⟨(dataOpcode kind started).toNat, last.data⟩ client true last.rand
  | started, send :: rest, stream => do
      let sent ← sendOne client kind started stream send
      if sent.closed then .ok sent
      else sendAll client kind last (started || send.isFragment) rest sent.stream

def Fragment.frame (client : Bool) (fragment : Fragment) : DataFrame (!client) where
  key := if client then some fragment.rand else none
  data := fragment.data
  masked := by cases client <;> simp
  bounded := fragment.bounded

def Send.frame (client : Bool) : Send → MessageFrame (!client)
  | .ping => .control ⟨.ping, none, [], by decide⟩
  | .pong => .control ⟨.pong, none, [], by decide⟩
  | .fragment part => .data (part.frame client)

namespace SentMessage

def framed (client : Bool) (message : SentMessage) : FramedMessage (!client) :=
  ⟨message.kind, message.sends.map (Send.frame client), message.last.frame client⟩

def send (client : Bool) (message : SentMessage) (stream : Stream) : Result Sent :=
  sendAll client message.kind message.last false message.sends stream

def payload (message : SentMessage) : Str :=
  (message.sends.map Send.data).flatten ++ message.last.data

end SentMessage

variable {stream : Stream} {client fin : Bool}

theorem write_or_sends {bytes : Str} (filled : bytes ≠ []) (small : bytes.length < 2 ^ 31) :
    ∃ after, (∀ next, writeOr stream bytes next = next after) ∧
      after.outgoing = stream.outgoing ++ bytes := by
  have positive := List.length_pos_iff.mpr filled
  rcases stream.write_fix_buffer_sends bytes with ⟨after, wrote, outgoing, _⟩
  refine ⟨after, fun next => ?_, outgoing⟩
  rw [writeOr, wrote, bind_ok, int32_of_small small]
  simp only
  rw [if_neg (by omega)]

theorem write_or_wide {bytes : Str} (wide : 2 ^ 31 ≤ bytes.length)
    (bounded : bytes.length < 2 ^ 32) :
    ∃ after, (∀ next, writeOr stream bytes next = .ok ⟨-1, after, true⟩) ∧
      after.outgoing = stream.outgoing ++ bytes := by
  rcases stream.write_fix_buffer_sends bytes with ⟨after, wrote, outgoing, _⟩
  refine ⟨after, fun next => ?_, outgoing⟩
  rw [writeOr, wrote, bind_ok, int32_overflow (by omega) (by omega)]
  simp only
  rw [if_pos (by omega)]

theorem length_bytes_short (payload : BitVec 7) (size : Nat) :
    (lengthBytes payload size).length ≤ 8 := by
  unfold lengthBytes
  split_ifs <;> simp

theorem write_length_sends {size : Nat} :
    ∃ after, after.outgoing = stream.outgoing ++ lengthBytes (payloadField size) size ∧
      ∀ next : Stream → Result Sent,
        (if payloadField size = 126 ∨ payloadField size = 127 then
          writeOr stream (lengthBytes (payloadField size) size) next
        else next stream) = next after := by
  by_cases wide : payloadField size = 126 ∨ payloadField size = 127
  · have filled : lengthBytes (payloadField size) size ≠ [] := by
      unfold lengthBytes
      rcases wide with half | full
      · simp [half, WordBytes.toLE]
      · simp [full, WordBytes.toLE]
    have short := length_bytes_short (payloadField size) size
    rcases @write_or_sends stream _ filled (by omega) with ⟨after, wrote, outgoing⟩
    refine ⟨after, outgoing, fun next => ?_⟩
    rw [if_pos wide, wrote]
  · have none : lengthBytes (payloadField size) size = [] := by
      rw [not_or] at wide
      rw [lengthBytes, if_neg wide.1, if_neg wide.2]
    refine ⟨stream, by simp [none], fun next => ?_⟩
    rw [if_neg wide]

theorem ws_send_message_reaches (kind : BitVec 4) (data : Str) (rand : UInt32) :
    let key := if client then some rand else none
    ∃ middle, middle.outgoing ++ maskedData key data =
        stream.outgoing ++ frameBytes kind fin key data ∧
      wsSendMessage stream ⟨kind.toNat, data⟩ client fin rand =
        writeOr middle (maskedData key data) fun stream =>
          .ok ⟨int32 (data.length + 2), stream, false⟩ := by
  intro key
  have opcode : BitVec.ofInt 4 (kind.toNat : Int) = kind := by simp
  have head : (⟨kind, false, false, false, fin, payloadField data.length, client⟩ : WSFrameHead) =
      frameHead kind fin key data.length := by
    cases client <;> rfl
  rcases @write_or_sends stream (frameHead kind fin key data.length).bytes
    (by simp [WSFrameHead.bytes]) (by simp) with ⟨first, headWrote, headOut⟩
  rcases @write_length_sends first data.length with ⟨second, lengthOut, lengthWrote⟩
  cases client with
  | false =>
      refine ⟨second, ?_, ?_⟩
      · rw [lengthOut, headOut]
        simp [frameBytes, maskBytes, key]
      · simp only [wsSendMessage, opcode, head, headWrote, lengthWrote]
        rfl
  | true =>
      rcases @write_or_sends second (keyBytes rand) (by simp [keyBytes, WordBytes.toLE]) (by simp)
        with ⟨third, maskWrote, maskOut⟩
      refine ⟨third, ?_, ?_⟩
      · rw [maskOut, lengthOut, headOut]
        simp [frameBytes, maskBytes, key]
      · simp only [wsSendMessage, opcode, head, headWrote, lengthWrote, if_true, maskWrote]
        rfl

theorem ws_send_message_sends (kind : BitVec 4) {part : Fragment}
    (small : part.data.length < 2 ^ 31) :
    ∃ value after, wsSendMessage stream ⟨kind.toNat, part.data⟩ client fin part.rand =
        .ok ⟨value, after, false⟩ ∧
      after.outgoing = stream.outgoing ++
        frameBytes kind fin (part.frame client).key part.data := by
  rcases @ws_send_message_reaches stream client fin kind part.data part.rand with
    ⟨middle, whole, reaches⟩
  have filled := @masked_data_ne_nil (part.frame client).key part.data part.filled
  have short : (maskedData (part.frame client).key part.data).length < 2 ^ 31 := by
    rw [masked_data_length]
    exact small
  rcases @write_or_sends middle _ filled short with ⟨after, wrote, outgoing⟩
  refine ⟨int32 (part.data.length + 2), after, ?_, ?_⟩
  · rw [reaches]
    exact wrote _
  · rw [outgoing]
    exact whole

theorem ws_send_message_closes (kind : BitVec 4) {part : Fragment}
    (wide : 2 ^ 31 ≤ part.data.length) (bounded : part.data.length < 2 ^ 32) :
    ∃ after, wsSendMessage stream ⟨kind.toNat, part.data⟩ client fin part.rand =
        .ok ⟨-1, after, true⟩ ∧
      after.outgoing = stream.outgoing ++
        frameBytes kind fin (part.frame client).key part.data := by
  rcases @ws_send_message_reaches stream client fin kind part.data part.rand with
    ⟨middle, whole, reaches⟩
  have size := masked_data_length (part.frame client).key part.data
  rcases @write_or_wide middle _ (by rw [size]; exact wide) (by rw [size]; exact bounded) with
    ⟨after, wrote, outgoing⟩
  refine ⟨after, ?_, ?_⟩
  · rw [reaches]
    exact wrote _
  · rw [outgoing]
    exact whole

theorem send_one_sends {kind : MessageKind} {started : Bool} {send : Send}
    (short : send.data.length < 2 ^ 31) :
    ∃ value after, sendOne client kind started stream send = .ok ⟨value, after, false⟩ ∧
      after.outgoing = stream.outgoing ++ (send.frame client).bytes kind started := by
  cases send with
  | ping =>
      rcases ws_control_sends stream WSFrameHead.ping with ⟨after, sent, outgoing, _⟩
      exact ⟨2, after, sent, outgoing⟩
  | pong =>
      rcases ws_control_sends stream WSFrameHead.pong with ⟨after, sent, outgoing, _⟩
      exact ⟨2, after, sent, outgoing⟩
  | fragment part => exact ws_send_message_sends _ short

def Narrow (sends : List Send) (last : Fragment) : Prop :=
  (∀ send ∈ sends, send.data.length < 2 ^ 31) ∧ last.data.length < 2 ^ 31

/-- The sends of a message write its frames one behind the other and keep the stream open. -/
theorem send_all_narrow {kind : MessageKind} {last : Fragment} (sends : List Send) :
    ∀ {started : Bool} {stream : Stream}, Narrow sends last →
      ∃ value after, sendAll client kind last started sends stream = .ok ⟨value, after, false⟩ ∧
        after.outgoing = stream.outgoing ++
          wire kind (last.frame client) started (sends.map (Send.frame client)) := by
  induction sends with
  | nil =>
      intro started stream narrow
      exact ws_send_message_sends _ narrow.2
  | cons send rest induction =>
      intro started stream narrow
      have later : Narrow rest last :=
        ⟨fun other member => narrow.1 other (List.mem_cons_of_mem _ member), narrow.2⟩
      rcases @send_one_sends stream client kind started send (narrow.1 _ List.mem_cons_self) with
        ⟨value, middle, sent, outgoing⟩
      rcases @induction (started || send.isFragment) middle later with
        ⟨final, after, returned, behind⟩
      have same : (send.frame client).isData = send.isFragment := by cases send <;> rfl
      refine ⟨final, after, ?_, ?_⟩
      · rw [sendAll, sent, bind_ok]
        exact returned
      · rw [behind, outgoing, List.append_assoc, List.map_cons, wire, same]

theorem send_all_wide {kind : MessageKind} {last : Fragment} (sends : List Send) :
    ∀ {started : Bool} {stream : Stream},
      (∀ send ∈ sends, send.data.length < 2 ^ 32) → last.data.length < 2 ^ 32 →
      ¬Narrow sends last →
      ∃ value after written,
        sendAll client kind last started sends stream = .ok ⟨value, after, true⟩ ∧
          after.outgoing = stream.outgoing ++ written := by
  induction sends with
  | nil =>
      intro started stream _ bounded wide
      have long : 2 ^ 31 ≤ last.data.length := by
        by_contra short
        exact wide ⟨nofun, by omega⟩
      rcases @ws_send_message_closes stream client true (dataOpcode kind started) last long bounded
        with ⟨after, sent, outgoing⟩
      exact ⟨-1, after, _, sent, outgoing⟩
  | cons send rest induction =>
      intro started stream bounded lastBounded wide
      by_cases short : send.data.length < 2 ^ 31
      · have later : ¬Narrow rest last := by
          intro narrow
          apply wide
          exact ⟨List.forall_mem_cons.mpr ⟨short, narrow.1⟩, narrow.2⟩
        rcases @send_one_sends stream client kind started send short with
          ⟨value, middle, sent, outgoing⟩
        rcases @induction (started || send.isFragment) middle
          (fun other member => bounded other (List.mem_cons_of_mem _ member)) lastBounded later with
          ⟨final, after, written, returned, behind⟩
        refine ⟨final, after, (send.frame client).bytes kind started ++ written, ?_, ?_⟩
        · rw [sendAll, sent, bind_ok]
          exact returned
        · rw [behind, outgoing, List.append_assoc]
      · cases send with
        | fragment part =>
            rcases @ws_send_message_closes stream client false (dataOpcode kind started) part
              (Nat.le_of_not_lt short) (bounded _ List.mem_cons_self) with ⟨after, sent, outgoing⟩
            refine ⟨-1, after, _, ?_, outgoing⟩
            rw [sendAll, sendOne, sent, bind_ok]
            rfl
        | _ => exact absurd (by decide) short

namespace SentMessage

/-- The bytes of the fragments before the last one. -/
def before (message : SentMessage) : Nat := (message.sends.map fun send => send.data.length).sum

theorem payload_length (message : SentMessage) :
    message.payload.length = message.before + message.last.data.length := by
  rw [payload, before, List.length_append, List.length_flatten, List.map_map]
  rfl

theorem content_size (client : Bool) (message : SentMessage) :
    contentSize (message.framed client).frames = message.before := by
  rw [contentSize, before, framed, List.map_map]
  congr 2
  funext send
  cases send <;> rfl

theorem framed_payload (client : Bool) (message : SentMessage) :
    (message.framed client).payload = message.payload := by
  rw [FramedMessage.payload, payload, framed, List.map_map]
  congr 3
  funext send
  cases send <;> rfl

theorem framed_bare (client : Bool) (message : SentMessage) :
    Bare (message.framed client).frames := by
  intro frame member
  rcases List.mem_map.mp member with ⟨send, _, same⟩
  cases send with
  | ping =>
      cases same
      exact ⟨rfl, rfl⟩
  | pong =>
      cases same
      exact ⟨rfl, rfl⟩
  | fragment part => cases same

theorem framed_filled (client : Bool) (message : SentMessage) (frame : DataFrame (!client))
    (member : .data frame ∈ (message.framed client).frames) : frame.data ≠ [] := by
  rcases List.mem_map.mp member with ⟨send, _, same⟩
  cases send with
  | fragment part =>
      cases same
      exact part.filled
  | _ => cases same

/-- The counters of both sides, which are `int`, can hold the sizes. -/
structure Counted (client : Bool) (message : SentMessage) : Prop where
  before : message.before < 2 ^ 31
  last : message.last.data.length < 2 ^ 31
  masked : client = true → message.before + message.last.data.length ≤ 2 ^ 31

theorem receivable_iff {maxSize : UInt32} {client : Bool} {message : SentMessage}
    (below : message.payload.length < maxSize.toNat) :
    Receivable maxSize (message.framed client) ↔ message.Counted client := by
  have size := message.content_size client
  rw [payload_length] at below
  constructor
  · intro receivable
    have counted := receivable.fits.counted
    have indexed := receivable.fits.indexed
    rw [size, Nat.zero_add] at counted indexed
    refine ⟨counted, receivable.fits.lastCounted, ?_⟩
    intro masked
    apply indexed
    simp [framed, Fragment.frame, masked]
  · intro counted
    refine ⟨message.framed_bare client, message.framed_filled client, message.last.filled, ?_, ?_,
      counted.last, ?_⟩
    · rw [size, Nat.zero_add]
      exact below
    · rw [size, Nat.zero_add]
      exact counted.before
    · intro some
      rw [size, Nat.zero_add]
      apply counted.masked
      by_contra server
      simp [framed, Fragment.frame, server] at some

theorem fragment_le_before (message : SentMessage) {send : Send} (member : send ∈ message.sends) :
    send.data.length ≤ message.before := by
  have among : send.data.length ∈ message.sends.map fun send => send.data.length :=
    List.mem_map_of_mem member
  exact List.single_le_sum (fun _ _ => Nat.zero_le _) _ among

theorem Counted.counted_narrow {client : Bool} {message : SentMessage}
    (counted : message.Counted client) : Narrow message.sends message.last :=
  ⟨fun _ member => Nat.lt_of_le_of_lt (message.fragment_le_before member) counted.before,
    counted.last⟩

/-- The server, or the client, receives what the other side has sent: the first opcode and all
fragments in order. -/
def RoundTrips (maxSize : UInt32) (client : Bool) (message : SentMessage) (sent : Sent)
    (receiver : Stream) (behind : Str) : Prop :=
  sent.closed = false ∧ ∃ after,
    wsRecvMessage maxSize (!client) receiver =
      .ok ⟨some ⟨message.kind.opcode.toNat, message.payload⟩, after, false⟩ ∧
    after.incoming = behind

theorem narrow_round_trips_iff {maxSize : UInt32} {client : Bool} {message : SentMessage}
    (below : message.payload.length < maxSize.toNat) {sent : Sent} (opened : sent.closed = false)
    {receiver : Stream} {behind : Str}
    (arrived : receiver.incoming = (message.framed client).bytes ++ behind) :
    message.RoundTrips maxSize client sent receiver behind ↔ message.Counted client := by
  rw [← receivable_iff below]
  constructor
  · rintro ⟨_, after, returned, _⟩
    exact receivable_of_delivered arrived (message.framed_bare client) ⟨_, _, _, returned⟩
  · intro receivable
    rcases receives_of_receivable arrived receivable with ⟨_, after, returned, left⟩
    refine ⟨opened, after, ?_, left⟩
    rw [returned, FramedMessage.received, framed_payload]
    rfl

/-- A message below the limit is sent and received as it was, however the stream cuts its bytes,
exactly when its sizes fit the `int` counters. -/
theorem message_round_trip_iff (maxSize : UInt32) (client : Bool) (message : SentMessage)
    (sender : Stream) (below : message.payload.length < maxSize.toNat) :
    ∃ sent written, message.send client sender = .ok sent ∧
      sent.stream.outgoing = sender.outgoing ++ written ∧
      ∀ receiver behind, receiver.incoming = written ++ behind →
        (message.RoundTrips maxSize client sent receiver behind ↔ message.Counted client) := by
  by_cases narrow : Narrow message.sends message.last
  · rcases @send_all_narrow client message.kind message.last message.sends false sender narrow with
      ⟨value, after, sent, outgoing⟩
    refine ⟨_, _, sent, outgoing, ?_⟩
    intro receiver behind arrived
    exact narrow_round_trips_iff below rfl arrived
  · have maxBound := maxSize.toNat_lt
    have length := message.payload_length
    have bounded : ∀ send ∈ message.sends, send.data.length < 2 ^ 32 := by
      intro send member
      have one := message.fragment_le_before member
      omega
    rcases @send_all_wide client message.kind message.last message.sends false sender bounded
      (by omega) narrow with ⟨value, after, written, sent, outgoing⟩
    refine ⟨_, written, sent, outgoing, ?_⟩
    intro receiver behind _
    constructor
    · rintro ⟨opened, _⟩
      cases opened
    · intro counted
      exact absurd counted.counted_narrow narrow

/-- A client sends two fragments with a PING between them to a server whose reads are cut. -/
theorem message_round_trip_two :
    let message : SentMessage :=
      ⟨.text, [.fragment ⟨[0x61, 0x62], 0x01020304, by decide, by decide⟩, .ping],
        ⟨[0x63], 0xfffefdfc, by decide, by decide⟩⟩
    let sender : Stream := ⟨[], [], fun _ => 1, 4096, by decide⟩
    message.payload.length < (33554432 : UInt32).toNat ∧
      ∃ sent written, message.send true sender = .ok sent ∧
        ∀ reads, message.RoundTrips 33554432 true sent
          ⟨written ++ [0xff], [], reads, 4096, by decide⟩ [0xff] := by
  intro message sender
  have below : message.payload.length < (33554432 : UInt32).toNat := by decide
  rcases message_round_trip_iff 33554432 true message sender below with
    ⟨sent, written, returned, _, exactly⟩
  refine ⟨below, sent, written, returned, ?_⟩
  intro reads
  apply (exactly _ [0xff] rfl).mpr
  exact ⟨by decide, by decide, fun _ => by decide⟩

/-- With the largest limit that can be configured, a masked fragment of 2^31 bytes is below it, and
its sender closes the stream. -/
theorem wide_message_lost :
    ∃ message : SentMessage, message.sends = [] ∧
      message.last.data = List.replicate (2 ^ 31) 0x61 ∧
      message.payload.length < (4294967295 : UInt32).toNat ∧
      ∀ sender, ∃ sent, message.send true sender = .ok sent ∧
        ∀ receiver behind, ¬message.RoundTrips 4294967295 true sent receiver behind := by
  have length : (List.replicate (2 ^ 31) (0x61 : UInt8)).length = 2 ^ 31 := List.length_replicate
  have filled : List.replicate (2 ^ 31) (0x61 : UInt8) ≠ [] := by
    intro empty
    rw [empty] at length
    cases length
  have bounded : (List.replicate (2 ^ 31) (0x61 : UInt8)).length < 2 ^ 63 := by
    rw [length]
    decide
  refine ⟨⟨.bin, [], ⟨_, 0, filled, bounded⟩⟩, rfl, rfl, ?_, ?_⟩
  · rw [payload_length, before]
    simp only [List.map_nil, List.sum_nil, length]
    decide
  · intro sender
    have wide : ¬Narrow [] ⟨_, 0, filled, bounded⟩ := by
      intro narrow
      have small := narrow.2
      simp only [length] at small
      omega
    rcases @send_all_wide true .bin ⟨_, 0, filled, bounded⟩ [] false sender nofun
      (by simp only [length]; decide) wide with ⟨value, after, written, sent, _⟩
    refine ⟨_, sent, ?_⟩
    rintro receiver behind ⟨opened, _⟩
    cases opened

end SentMessage

end ChatServer.Http
