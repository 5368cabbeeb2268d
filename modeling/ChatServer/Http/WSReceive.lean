import ChatServer.Http.WSRounds

/-!
# Which messages the receiver takes

A message is any number of data frames with control frames between them. The loop takes every
frame whole and returns the message exactly when the data frames are not empty, their sizes stay
below the limit and within `int`, and the control frames are heads with nothing behind them.
-/

namespace ChatServer.Http

set_option autoImplicit false

inductive ControlKind where
  | close
  | ping
  | pong
  deriving DecidableEq

def ControlKind.opcode : ControlKind → BitVec 4
  | .close => WSFrameHead.close
  | .ping => WSFrameHead.ping
  | .pong => WSFrameHead.pong

structure ControlFrame where
  kind : ControlKind
  key : Option UInt32
  payload : Str
  short : payload.length ≤ 125

/-- A data frame for this side: what a server receives is masked; a length has 63 bits. -/
structure DataFrame (client : Bool) where
  key : Option UInt32
  data : Str
  masked : client = true ∨ key.isSome = true
  bounded : data.length < 2 ^ 63

inductive MessageFrame (client : Bool) where
  | control (frame : ControlFrame)
  | data (frame : DataFrame client)

inductive MessageKind where
  | text
  | bin
  deriving DecidableEq

def MessageKind.opcode : MessageKind → BitVec 4
  | .text => WSFrameHead.textFrame
  | .bin => WSFrameHead.binFrame

/-- A message: the frames before its final one, and that one. -/
structure FramedMessage (client : Bool) where
  kind : MessageKind
  frames : List (MessageFrame client)
  last : DataFrame client

variable {client : Bool}

def MessageFrame.isData : MessageFrame client → Bool
  | .control _ => false
  | .data _ => true

def MessageFrame.content : MessageFrame client → Str
  | .control _ => []
  | .data frame => frame.data

/-- The first data frame carries the kind of the message, later ones CONTINUE. -/
def dataOpcode (kind : MessageKind) (started : Bool) : BitVec 4 :=
  if started then WSFrameHead.continueFrame else kind.opcode

def MessageFrame.bytes (kind : MessageKind) (started : Bool) : MessageFrame client → Str
  | .control frame => frameBytes frame.kind.opcode true frame.key frame.payload
  | .data frame => frameBytes (dataOpcode kind started) false frame.key frame.data

def wire (kind : MessageKind) (last : DataFrame client) : Bool → List (MessageFrame client) → Str
  | started, [] => frameBytes (dataOpcode kind started) true last.key last.data
  | started, frame :: rest =>
      frame.bytes kind started ++ wire kind last (started || frame.isData) rest

namespace FramedMessage

def bytes (message : FramedMessage client) : Str :=
  wire message.kind message.last false message.frames

def payload (message : FramedMessage client) : Str :=
  (message.frames.map MessageFrame.content).flatten ++ message.last.data

/-- What `WSRecvMessage` should return. -/
def received (message : FramedMessage client) : WSFrameMessage :=
  ⟨message.kind.opcode.toNat, message.payload⟩

end FramedMessage

/-- Round by round, each frame is taken whole, and the final one ends the loop with a message. -/
def Consumes (maxSize : UInt32) (kind : MessageKind) (last : DataFrame client) (behind : Str) :
    Bool → List (MessageFrame client) → Partial → Stream → Prop
  | _, [], held, stream => ∃ message after,
      recvRound maxSize client held stream = .ok (.finished message after) ∧
        after.incoming = behind
  | started, frame :: rest, held, stream => ∃ next after,
      recvRound maxSize client held stream = .ok (.again next after) ∧
        after.incoming = wire kind last (started || frame.isData) rest ++ behind ∧
        Consumes maxSize kind last behind (started || frame.isData) rest next after

/-- The message is received: every frame is taken whole, the result is the message, what stands
behind it is left, and the stream stays open. -/
def Receives (maxSize : UInt32) (message : FramedMessage client) (stream : Stream) (behind : Str) :
    Prop :=
  Consumes maxSize message.kind message.last behind false message.frames ⟨0, [], 0⟩ stream ∧
    ∃ after, wsRecvMessage maxSize client stream = .ok ⟨some message.received, after, false⟩ ∧
      after.incoming = behind

def Bare (frames : List (MessageFrame client)) : Prop :=
  ∀ frame, .control frame ∈ frames → frame.key = none ∧ frame.payload = []

def contentSize (frames : List (MessageFrame client)) : Nat :=
  (frames.map fun frame => frame.content.length).sum

/-- What is asked of the data frames when `length` bytes are held already. -/
structure Fits (maxSize : UInt32) (length : Nat) (frames : List (MessageFrame client))
    (last : DataFrame client) : Prop where
  filled : ∀ frame, .data frame ∈ frames → frame.data ≠ []
  lastFilled : last.data ≠ []
  below : length + contentSize frames + last.data.length < maxSize.toNat
  counted : length + contentSize frames < 2 ^ 31
  lastCounted : last.data.length < 2 ^ 31
  indexed : last.key.isSome → length + contentSize frames + last.data.length ≤ 2 ^ 31

variable {maxSize : UInt32} {length : Nat} {frames : List (MessageFrame client)}
  {last : DataFrame client}

theorem fits_nil : Fits maxSize length [] last ↔
    length < 2 ^ 31 ∧ Accepts maxSize length last.key last.data := by
  constructor
  · intro fits
    have below := fits.below
    have counted := fits.counted
    have indexed := fits.indexed
    simp only [contentSize, List.map_nil, List.sum_nil, Nat.add_zero] at below counted indexed
    exact ⟨counted, fits.lastFilled, below, fits.lastCounted, indexed⟩
  · intro ⟨short, accepts⟩
    refine ⟨nofun, accepts.filled, ?_, ?_, accepts.counted, ?_⟩ <;>
      simp only [contentSize, List.map_nil, List.sum_nil, Nat.add_zero]
    · exact accepts.below
    · exact short
    · exact accepts.indexed

theorem fits_control {frame : ControlFrame} :
    Fits maxSize length (.control frame :: frames) last ↔ Fits maxSize length frames last := by
  have size : contentSize (.control frame :: frames) = contentSize frames := by
    simp [contentSize, MessageFrame.content]
  constructor
  · intro fits
    have below := fits.below
    have counted := fits.counted
    have indexed := fits.indexed
    rw [size] at below counted indexed
    exact ⟨fun other member => fits.filled other (List.mem_cons_of_mem _ member), fits.lastFilled,
      below, counted, fits.lastCounted, indexed⟩
  · intro fits
    refine ⟨fun other member => fits.filled other (by simpa using member), fits.lastFilled, ?_, ?_,
      fits.lastCounted, ?_⟩ <;> rw [size]
    · exact fits.below
    · exact fits.counted
    · exact fits.indexed

theorem fits_data {frame : DataFrame client} :
    Fits maxSize length (.data frame :: frames) last ↔
      Accepts maxSize length frame.key frame.data ∧ length + frame.data.length < 2 ^ 31 ∧
        Fits maxSize (length + frame.data.length) frames last := by
  have size : contentSize (.data frame :: frames) = frame.data.length + contentSize frames := by
    simp [contentSize, MessageFrame.content]
  constructor
  · intro fits
    have below := fits.below
    have counted := fits.counted
    have indexed := fits.indexed
    rw [size] at below counted indexed
    refine ⟨⟨fits.filled frame List.mem_cons_self, by omega, by omega, fun _ => by omega⟩, by omega,
      fun other member => fits.filled other (List.mem_cons_of_mem _ member), fits.lastFilled,
      by omega, by omega, fits.lastCounted, fun masked => ?_⟩
    have total := indexed masked
    omega
  · intro ⟨accepts, short, fits⟩
    have below := fits.below
    have counted := fits.counted
    refine ⟨?_, fits.lastFilled, by omega, by omega, fits.lastCounted, fun masked => ?_⟩
    · intro other member
      rcases List.mem_cons.mp member with same | later
      · cases same
        exact accepts.filled
      · exact fits.filled other later
    · have total := fits.indexed masked
      omega

theorem data_opcode_content (kind : MessageKind) (started : Bool) :
    Content (dataOpcode kind started) := by
  cases started <;> cases kind <;> simp [dataOpcode, Content, MessageKind.opcode]

/-- The opcode that is held before and behind the first data frame. -/
def heldOpcode (kind : MessageKind) (started : Bool) : BitVec 4 :=
  if started then kind.opcode else 0

theorem joined_opcode_kind (kind : MessageKind) (started : Bool) :
    joinedOpcode (heldOpcode kind started) (dataOpcode kind started) = kind.opcode := by
  cases started <;> cases kind <;> decide

theorem control_opcode (kind : ControlKind) :
    kind.opcode = WSFrameHead.close ∨ kind.opcode = WSFrameHead.ping ∨
      kind.opcode = WSFrameHead.pong := by
  cases kind <;> simp [ControlKind.opcode]

theorem joined_short {held opcode : BitVec 4} {before data : Str}
    (short : before.length + data.length < 2 ^ 31) :
    Joined held opcode before data = holding (joinedOpcode held opcode) (before ++ data) := by
  have size := @int32_of_small (before.length + data.length) short
  rw [Int.natCast_add] at size
  rw [Joined, holding, size, List.length_append, Int.natCast_add]

theorem joined_negative {held opcode : BitVec 4} {before data : Str}
    (long : 2 ^ 31 ≤ before.length + data.length)
    (bounded : before.length + data.length < 2 ^ 32) :
    (Joined held opcode before data).curLen < 0 := by
  rw [Joined]
  simp only
  rw [int32_overflow (by omega) (by omega)]
  omega

theorem recv_loop_again {current next : Partial} {stream after : Stream} (rounds : Nat)
    (round : recvRound maxSize client current stream = .ok (.again next after)) :
    recvLoop maxSize client (rounds + 1) current stream =
      recvLoop maxSize client rounds next after := by
  rw [recvLoop, round, bind_ok]

def Delivers (result : Result Received) : Prop :=
  ∃ message after closed, result = .ok ⟨some message, after, closed⟩

theorem recv_loop_stops {current : Partial} {stream : Stream}
    (stops : Stops (recvRound maxSize client current stream)) (rounds : Nat) :
    ¬Delivers (recvLoop maxSize client rounds current stream) := by
  rintro ⟨message, after, closed, delivered⟩
  cases rounds with
  | zero => cases delivered
  | succ rounds =>
      rw [recvLoop] at delivered
      cases outcome : recvRound maxSize client current stream with
      | error fault =>
          rw [outcome] at delivered
          cases delivered
      | ok round =>
          rw [outcome] at stops delivered
          cases round with
          | broken after => cases delivered
          | _ => exact stops

variable {kind : MessageKind} {started : Bool} {behind : Str} {stream : Stream}

theorem control_round {frame : ControlFrame} {rest : List (MessageFrame client)}
    (front : stream.incoming = wire kind last started (.control frame :: rest) ++ behind)
    (current : Partial) :
    ∃ after, recvRound maxSize client current stream = .ok (.again current after) ∧
      stream.incoming.length = after.incoming.length + 2 ∧
      (frame.key = none ∧ frame.payload = [] →
        after.incoming = wire kind last started rest ++ behind) := by
  have whole : stream.incoming = (frameHead frame.kind.opcode true frame.key
      frame.payload.length).bytes ++ (lengthBytes (payloadField frame.payload.length)
        frame.payload.length ++ (maskBytes frame.key ++ maskedData frame.key frame.payload) ++
        (wire kind last started rest ++ behind)) := by
    rw [front]
    simp [wire, MessageFrame.bytes, MessageFrame.isData, frameBytes]
  rcases @recv_round_control _ _ maxSize client _ (control_opcode frame.kind) whole current with
    ⟨after, round, incoming⟩
  refine ⟨after, round, ?_, ?_⟩
  · rw [whole, incoming, List.length_append, WSFrameHead.bytes_length, Nat.add_comm]
  · rintro ⟨unmasked, empty⟩
    rw [incoming, unmasked, empty]
    simp [lengthBytes, payloadField, maskBytes, maskedData]

theorem negative_undelivered (frames : List (MessageFrame client)) :
    ∀ {started : Bool} {stream : Stream} {current : Partial} (rounds : Nat), Bare frames →
      current.curLen < 0 → stream.incoming = wire kind last started frames ++ behind →
      ¬Delivers (recvLoop maxSize client rounds current stream) := by
  induction frames with
  | nil =>
      intro started stream current rounds _ negative front
      exact recv_loop_stops (recv_round_negative (data_opcode_content kind started) last.masked
        last.bounded negative front) rounds
  | cons frame rest induction =>
      intro started stream current rounds bare negative front
      cases frame with
      | control frame =>
          rcases @control_round _ maxSize _ _ _ _ _ _ _ front current with ⟨after, round, _, plain⟩
          cases rounds with
          | zero =>
              rintro ⟨_, _, _, delivered⟩
              cases delivered
          | succ rounds =>
              rw [recv_loop_again rounds round]
              exact induction rounds
                (fun other member => bare other (List.mem_cons_of_mem _ member))
                negative (plain (bare frame List.mem_cons_self))
      | data frame =>
          rw [wire, List.append_assoc] at front
          exact recv_loop_stops (recv_round_negative (data_opcode_content kind started) frame.masked
            frame.bounded negative front) rounds

/-- What is delivered met the conditions frame by frame. -/
theorem delivered_fits (frames : List (MessageFrame client)) :
    ∀ {started : Bool} {stream : Stream} {before : Str} (rounds : Nat), Bare frames →
      before.length < 2 ^ 31 → stream.incoming = wire kind last started frames ++ behind →
      Delivers (recvLoop maxSize client rounds (holding (heldOpcode kind started) before) stream) →
      Fits maxSize before.length frames last := by
  induction frames with
  | nil =>
      intro started stream before rounds _ short front delivered
      by_contra unfit
      rw [fits_nil, not_and] at unfit
      exact recv_loop_stops (recv_round_refuses (data_opcode_content kind started) last.masked short
        last.bounded (unfit short) front) rounds delivered
  | cons frame rest induction =>
      intro started stream before rounds bare short front delivered
      have later : Bare rest := fun other member => bare other (List.mem_cons_of_mem _ member)
      cases rounds with
      | zero =>
          rcases delivered with ⟨_, _, _, returned⟩
          cases returned
      | succ rounds =>
          cases frame with
          | control frame =>
              rcases @control_round _ maxSize _ _ _ _ _ _ _ front
                (holding (heldOpcode kind started) before) with ⟨after, round, _, plain⟩
              rw [recv_loop_again rounds round] at delivered
              exact fits_control.mpr (induction rounds later short
                (plain (bare frame List.mem_cons_self)) delivered)
          | data frame =>
              rw [wire, List.append_assoc] at front
              have accepts : Accepts maxSize before.length frame.key frame.data := by
                by_contra refused
                exact recv_loop_stops (recv_round_refuses (data_opcode_content kind started)
                  frame.masked short frame.bounded refused front) _ delivered
              have maxBound := maxSize.toNat_lt
              have below := accepts.below
              rcases @recv_round_accepts _ _ _ _ _ _ (heldOpcode kind started) _ _ _
                (data_opcode_content kind started) frame.masked short accepts front with
                ⟨after, incoming, _, round⟩
              rw [if_neg (by decide)] at round
              rw [recv_loop_again rounds round] at delivered
              by_cases size : before.length + frame.data.length < 2 ^ 31
              · rw [joined_short size, joined_opcode_kind] at delivered
                simp only [MessageFrame.isData, Bool.or_true] at incoming
                have fits := @induction true after (before ++ frame.data) rounds later
                  (by rw [List.length_append]; exact size) incoming delivered
                rw [List.length_append] at fits
                exact fits_data.mpr ⟨accepts, size, fits⟩
              · exact absurd delivered (negative_undelivered rest rounds later
                  (joined_negative (by omega) (by omega)) incoming)

theorem consumed_bare (frames : List (MessageFrame client)) :
    ∀ {started : Bool} {stream : Stream} {current : Partial},
      stream.incoming = wire kind last started frames ++ behind →
      Consumes maxSize kind last behind started frames current stream → Bare frames := by
  induction frames with
  | nil => exact fun _ _ => nofun
  | cons frame rest induction =>
      intro started stream current front consumes
      rcases consumes with ⟨next, after, round, incoming, later⟩
      have rest := induction incoming later
      intro other member
      rcases List.mem_cons.mp member with same | inside
      · cases same
        rcases @control_round _ maxSize _ _ _ _ _ _ _ front current with ⟨taken, again, length, _⟩
        rw [round] at again
        cases again
        apply (frame_bytes_bare_iff other.kind.opcode true other.key other.payload).mp
        have whole := congrArg List.length front
        have left := congrArg List.length incoming
        simp only [wire, MessageFrame.bytes, MessageFrame.isData, List.length_append] at whole left
        omega
      · exact rest other inside

/-- Messages that fit are taken frame by frame. -/
theorem fits_consumes (frames : List (MessageFrame client)) :
    ∀ {started : Bool} {stream : Stream} {before : Str}, Bare frames →
      Fits maxSize before.length frames last →
      stream.incoming = wire kind last started frames ++ behind →
      Consumes maxSize kind last behind started frames (holding (heldOpcode kind started) before)
        stream ∧
      ∀ rounds, frames.length < rounds → ∃ after, after.incoming = behind ∧
        recvLoop maxSize client rounds (holding (heldOpcode kind started) before) stream =
          .ok ⟨some ⟨kind.opcode.toNat,
            before ++ ((frames.map MessageFrame.content).flatten ++ last.data)⟩, after, false⟩ := by
  induction frames with
  | nil =>
      intro started stream before _ fits front
      rw [fits_nil] at fits
      rcases @recv_round_accepts _ _ _ _ _ _ (heldOpcode kind started) _ _ _
        (data_opcode_content kind started) last.masked fits.1 fits.2 front with
        ⟨after, incoming, _, round⟩
      rw [if_pos rfl, joined_opcode_kind] at round
      refine ⟨⟨_, after, round, incoming⟩, ?_⟩
      intro rounds enough
      cases rounds with
      | zero => cases enough
      | succ rounds =>
          refine ⟨after, incoming, ?_⟩
          rw [recvLoop, round, bind_ok]
          rfl
  | cons frame rest induction =>
      intro started stream before bare fits front
      have later : Bare rest := fun other member => bare other (List.mem_cons_of_mem _ member)
      cases frame with
      | control frame =>
          rcases @control_round _ maxSize _ _ _ _ _ _ _ front
            (holding (heldOpcode kind started) before) with ⟨after, round, _, plain⟩
          have incoming := plain (bare frame List.mem_cons_self)
          rcases induction later (fits_control.mp fits) incoming with ⟨consumes, delivers⟩
          constructor
          · simp only [Consumes, MessageFrame.isData, Bool.or_false]
            exact ⟨_, after, round, incoming, consumes⟩
          intro rounds enough
          cases rounds with
          | zero => cases enough
          | succ rounds =>
              rw [recv_loop_again rounds round]
              exact delivers rounds (by simpa using enough)
      | data frame =>
          rw [wire, List.append_assoc] at front
          rw [fits_data] at fits
          have short : before.length < 2 ^ 31 := by omega
          rcases @recv_round_accepts _ _ _ _ _ _ (heldOpcode kind started) _ _ _
            (data_opcode_content kind started) frame.masked short fits.1 front with
            ⟨after, incoming, _, round⟩
          rw [if_neg (by decide), joined_short fits.2.1, joined_opcode_kind] at round
          simp only [MessageFrame.isData, Bool.or_true] at incoming
          have fitsNext : Fits maxSize (before ++ frame.data).length rest last := by
            rw [List.length_append]
            exact fits.2.2
          rcases @induction true after (before ++ frame.data) later fitsNext incoming with
            ⟨consumes, delivers⟩
          constructor
          · simp only [Consumes, MessageFrame.isData, Bool.or_true]
            exact ⟨_, after, round, incoming, consumes⟩
          intro rounds enough
          cases rounds with
          | zero => cases enough
          | succ rounds =>
              rw [recv_loop_again rounds round]
              rcases delivers rounds (by simpa using enough) with ⟨done, left, returned⟩
              refine ⟨done, left, ?_⟩
              have continued : heldOpcode kind true = kind.opcode := rfl
              rw [continued] at returned
              rw [returned]
              simp [MessageFrame.content]

theorem frame_bytes_length (opcode : BitVec 4) (fin : Bool) (key : Option UInt32) (data : Str) :
    2 ≤ (frameBytes opcode fin key data).length := by
  rw [frameBytes, List.length_append, WSFrameHead.bytes_length]
  omega

theorem wire_length (frames : List (MessageFrame client)) :
    ∀ started, frames.length < (wire kind last started frames).length := by
  induction frames with
  | nil =>
      intro started
      have two := frame_bytes_length (dataOpcode kind started) true last.key last.data
      simp only [wire, List.length_nil]
      omega
  | cons frame rest induction =>
      intro started
      have later := induction (started || frame.isData)
      have two : 2 ≤ (frame.bytes kind started).length := by
        cases frame with
        | control frame => exact frame_bytes_length _ _ _ _
        | data frame => exact frame_bytes_length _ _ _ _
      simp only [wire, List.length_append, List.length_cons]
      omega

/-- The message can be received with a limit of `maxSize`. -/
structure Receivable (maxSize : UInt32) (message : FramedMessage client) : Prop where
  bare : Bare message.frames
  fits : Fits maxSize 0 message.frames message.last

theorem receivable_of_delivered {message : FramedMessage client}
    (front : stream.incoming = message.bytes ++ behind) (bare : Bare message.frames)
    (delivered : Delivers (wsRecvMessage maxSize client stream)) : Receivable maxSize message :=
  ⟨bare, @delivered_fits _ _ _ message.kind behind message.frames false stream [] _ bare (by decide)
    front delivered⟩

theorem receivable_of_receives {message : FramedMessage client}
    (front : stream.incoming = message.bytes ++ behind)
    (receives : Receives maxSize message stream behind) : Receivable maxSize message := by
  rcases receives with ⟨consumes, after, returned, _⟩
  exact receivable_of_delivered front (consumed_bare message.frames front consumes)
    ⟨_, _, _, returned⟩

theorem receives_of_receivable {message : FramedMessage client}
    (front : stream.incoming = message.bytes ++ behind)
    (receivable : Receivable maxSize message) : Receives maxSize message stream behind := by
  have fits : Fits maxSize ([] : Str).length message.frames message.last := receivable.fits
  rcases @fits_consumes _ _ _ message.kind behind message.frames false stream []
    receivable.bare fits front with ⟨consumes, delivers⟩
  have enough : message.frames.length < stream.incoming.length + 1 := by
    have length := @wire_length _ message.last message.kind message.frames false
    rw [front, List.length_append, FramedMessage.bytes]
    omega
  rcases delivers _ enough with ⟨after, left, returned⟩
  exact ⟨consumes, after, returned, left⟩

/-- Exactly the messages with bare control frames and filled data frames within the limits are
received as they were framed. -/
theorem framed_message_received_iff (maxSize : UInt32) (message : FramedMessage client)
    (stream : Stream) (behind : Str) (front : stream.incoming = message.bytes ++ behind) :
    Receives maxSize message stream behind ↔ Receivable maxSize message :=
  ⟨receivable_of_receives front, receives_of_receivable front⟩

/-- Two fragments with a bare PING between them, and a byte behind the message. -/
theorem framed_message_received_two :
    let key : Option UInt32 := some 0x01020304
    let message : FramedMessage false := ⟨.text, [.data ⟨key, [0x61], by decide, by decide⟩,
      .control ⟨.ping, none, [], by decide⟩], ⟨key, [0x62], by decide, by decide⟩⟩
    let stream : Stream := ⟨message.bytes ++ [0xff], [], fun call => call % 3, 4096, by decide⟩
    Receivable 33554432 message ∧ Receives 33554432 message stream [0xff] := by
  intro key message stream
  have receivable : Receivable 33554432 message := by
    refine ⟨?_, ?_, ?_, by decide, by decide, by decide, by decide⟩
    · intro frame member
      have same : frame = ⟨.ping, none, [], by decide⟩ := by simpa [message] using member
      rw [same]
      exact ⟨rfl, rfl⟩
    · intro frame member
      have same : frame = ⟨key, [0x61], by decide, by decide⟩ := by simpa [message] using member
      rw [same]
      decide
    · decide
  exact ⟨receivable,
    (framed_message_received_iff 33554432 message stream [0xff] rfl).mpr receivable⟩

/-- A masked PING before the data, and an empty message. -/
theorem legal_frames_not_received :
    let key : Option UInt32 := some 0x01020304
    let pinged : FramedMessage false := ⟨.text, [.control ⟨.ping, key, [], by decide⟩],
      ⟨key, [0x61], by decide, by decide⟩⟩
    let empty : FramedMessage false := ⟨.text, [], ⟨key, [], by decide, by decide⟩⟩
    ¬Receives 33554432 pinged ⟨pinged.bytes, [], fun _ => 0, 4096, by decide⟩ [] ∧
      ¬Receives 33554432 empty ⟨empty.bytes, [], fun _ => 0, 4096, by decide⟩ [] := by
  intro key pinged empty
  constructor
  · intro receives
    have receivable := receivable_of_receives (List.append_nil _).symm receives
    have bare := receivable.bare ⟨.ping, key, [], by decide⟩ List.mem_cons_self
    cases bare.1
  · intro receives
    have receivable := receivable_of_receives (List.append_nil _).symm receives
    exact receivable.fits.lastFilled rfl

end ChatServer.Http
