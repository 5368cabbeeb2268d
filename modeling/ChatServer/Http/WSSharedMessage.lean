import ChatServer.Http.WSRoundTrip
import ChatServer.Lib.Transition
import Mathlib.Logic.Function.Basic

/-!
# One message object, sent several times

A `WSFrameMessage` is a shared object, and `WSSendMessage` masks its data in place when it sends
as a client. Here the object comes back from every call, and the connection may fail at any
`send`, so that a message can be sent again after an error as well as to several connections.
-/

namespace ChatServer.Http

set_option autoImplicit false

open WordBytes Transition

/-- A `SocketStream`: a stream whose calls of `send` may fail, until it is closed. -/
structure Connection where
  stream : Stream
  /-- Which of the next calls of `send` return -1. -/
  fails : Nat → Bool
  connected : Bool

namespace Connection

def write (conn : Connection) (bytes : Str) : Int × Connection :=
  if !conn.connected then (-1, conn)
  else
    let later := { conn with fails := fun call => conn.fails (call + 1) }
    if conn.fails 0 then (-1, later)
    else
      let (len, stream) := conn.stream.writeBuffer bytes
      (len, { later with stream })

def writeFixLoop (length : Nat) : Nat → Connection → Str → Result (Int × Connection)
  | 0, conn, left =>
      if 0 < left.length then .error (.undefined .endlessLoop) else .ok (int32 length, conn)
  | rounds + 1, conn, left =>
      if 0 < left.length then
        let (len, conn) := conn.write (left.take conn.stream.maxLen)
        if len ≤ 0 then .ok (len, conn)
        else writeFixLoop length rounds conn (left.drop len.toNat)
      else .ok (int32 length, conn)

def writeFixSize (conn : Connection) (bytes : Str) : Result (Int × Connection) :=
  writeFixLoop bytes.length bytes.length conn bytes

def close (conn : Connection) : Connection := { conn with connected := false }

end Connection

/-- What `WSSendMessage` returned, with the stream and the message object as they are then. -/
structure SentShared where
  value : Int
  conn : Connection
  msg : WSFrameMessage

def writeOrShared (conn : Connection) (msg : WSFrameMessage) (bytes : Str)
    (next : Connection → Result SentShared) : Result SentShared := do
  let (rt, conn) ← conn.writeFixSize bytes
  if rt ≤ 0 then .ok ⟨-1, conn.close, msg⟩ else next conn

def sentHead (msg : WSFrameMessage) (client fin : Bool) : WSFrameHead where
  opcode := BitVec.ofInt 4 msg.opcode
  rsv3 := false
  rsv2 := false
  rsv1 := false
  fin := fin
  payload := payloadField msg.data.length
  mask := client

def WSFrameMessage.masked (msg : WSFrameMessage) (rand : UInt32) : WSFrameMessage :=
  { msg with data := xorMask (keyBytes rand) msg.data }

def wsSendShared (conn : Connection) (msg : WSFrameMessage) (client fin : Bool) (rand : UInt32) :
    Result SentShared :=
  let size := msg.data.length
  let head := sentHead msg client fin
  writeOrShared conn msg head.bytes fun conn =>
    let writeData (msg : WSFrameMessage) (conn : Connection) : Result SentShared :=
      writeOrShared conn msg msg.data fun conn => .ok ⟨int32 (size + 2), conn, msg⟩
    let writeMasked (conn : Connection) : Result SentShared :=
      if client then
        writeOrShared conn (msg.masked rand) (keyBytes rand) (writeData (msg.masked rand))
      else writeData msg conn
    if head.payload = 126 ∨ head.payload = 127 then
      writeOrShared conn msg (lengthBytes head.payload size) writeMasked
    else writeMasked conn

/-- One call of `WSSendMessage`: on which connection, in which role, and what `rand()` gives. -/
structure SendCall (Key : Type) where
  target : Key
  client : Bool
  fin : Bool
  rand : UInt32

structure SharedState (Key : Type) where
  conns : Key → Connection
  msg : WSFrameMessage

variable {Key : Type} [DecidableEq Key]

def SharedState.send (state : SharedState Key) (call : SendCall Key) :
    Result (SharedState Key) := do
  let sent ← wsSendShared (state.conns call.target) state.msg call.client call.fin call.rand
  .ok ⟨Function.update state.conns call.target sent.conn, sent.msg⟩

/-- The state behind a call, as a step of `Transition`. -/
def SharedState.step (state : SharedState Key) (call : SendCall Key) : Option (SharedState Key) :=
  (state.send call).toOption

namespace Connection

/-- One `send` returns -1, or it takes a front part of what it is given. -/
theorem write_cases (conn : Connection) {bytes : Str} (filled : bytes ≠ []) :
    (∃ after, conn.write bytes = (-1, after) ∧ after.connected = conn.connected ∧
      after.stream = conn.stream) ∨
    ∃ (len : Nat) (after : Connection), conn.write bytes = ((len : Int), after) ∧ after.connected = conn.connected ∧
      0 < len ∧ len ≤ bytes.length ∧
      after.stream.outgoing = conn.stream.outgoing ++ bytes.take len := by
  have positive := List.length_pos_iff.mpr filled
  by_cases closed : conn.connected = false
  · apply Or.inl
    refine ⟨conn, ?_, rfl, rfl⟩
    simp [write, closed]
  · by_cases failed : conn.fails 0 = true
    · apply Or.inl
      refine ⟨{ conn with fails := fun call => conn.fails (call + 1) }, ?_, rfl, rfl⟩
      simp [write, closed, failed]
    · apply Or.inr
      refine ⟨(conn.stream.writeBuffer bytes).1, ⟨(conn.stream.writeBuffer bytes).2,
        fun call => conn.fails (call + 1), conn.connected⟩, ?_, rfl, ?_, ?_, rfl⟩
      · simp [write, closed, failed]
      · simp only [Stream.writeBuffer]
        omega
      · simp only [Stream.writeBuffer]
        omega

/-- What a whole `writeFixSize` has sent when it returns, whether or not it got all through. -/
structure Gave (conn : Connection) (bytes : Str) (rt : Int) (after : Connection) (sent : Str) :
    Prop where
  outgoing : after.stream.outgoing = conn.stream.outgoing ++ sent
  connected : after.connected = conn.connected
  full : 0 < rt → sent = bytes

theorem gave_nothing (conn : Connection) (rt : Int) : conn.Gave [] rt conn [] :=
  ⟨by rw [List.append_nil], rfl, fun _ => rfl⟩

theorem write_fix_loop_gave (length : Nat) (rounds : Nat) :
    ∀ (conn : Connection) (left : Str), left.length ≤ rounds →
      ∃ rt after sent, writeFixLoop length rounds conn left = .ok (rt, after) ∧
        conn.Gave left rt after sent := by
  induction rounds with
  | zero =>
      intro conn left enough
      have none : left = [] := List.length_eq_zero_iff.mp (Nat.le_zero.mp enough)
      subst none
      exact ⟨int32 length, conn, [], rfl, gave_nothing conn _⟩
  | succ rounds induction =>
      intro conn left enough
      by_cases none : left = []
      · subst none
        exact ⟨int32 length, conn, [], rfl, gave_nothing conn _⟩
      have some := List.length_pos_iff.mpr none
      have maxLenPos := conn.stream.maxLenPos
      have chunk : left.take conn.stream.maxLen ≠ [] := by
        intro empty
        have zero := congrArg List.length empty
        rw [List.length_take, List.length_nil] at zero
        omega
      rw [writeFixLoop, if_pos some]
      rcases write_cases conn chunk with
        ⟨after, wrote, connected, same⟩ | ⟨len, middle, wrote, connected, moved, short, outgoing⟩
      · rw [wrote]
        refine ⟨-1, after, [], rfl, ?_, connected, ?_⟩
        · rw [same, List.append_nil]
        · intro positive
          omega
      · rw [List.length_take] at short
        rw [List.take_take, Nat.min_eq_left (by omega)] at outgoing
        rcases induction middle (left.drop len) (by rw [List.length_drop]; omega) with
          ⟨rt, after, sent, looped, gave⟩
        refine ⟨rt, after, left.take len ++ sent, ?_, ?_, gave.connected.trans connected, ?_⟩
        · rw [wrote]
          dsimp only
          rw [if_neg (by omega), Int.toNat_natCast]
          exact looped
        · rw [gave.outgoing, outgoing, List.append_assoc]
        · intro positive
          rw [gave.full positive, List.take_append_drop]

theorem write_fix_size_gave (conn : Connection) (bytes : Str) :
    ∃ rt after sent, conn.writeFixSize bytes = .ok (rt, after) ∧ conn.Gave bytes rt after sent :=
  write_fix_loop_gave bytes.length bytes.length conn bytes (Nat.le_refl _)

def written (conn : Connection) (bytes : Str) : Option Connection :=
  match conn.writeFixSize bytes with
  | .ok (rt, after) => if rt ≤ 0 then none else some after
  | .error _ => none

end Connection

/-- The call returns and leaves `msg`; unless it has closed the connection, it has sent `bytes`. -/
def Leaves (conn : Connection) (bytes : Str) (msg : WSFrameMessage) (result : Result SentShared) :
    Prop :=
  ∃ sent written, result = .ok sent ∧ sent.msg = msg ∧
    sent.conn.stream.outgoing = conn.stream.outgoing ++ written ∧
    (sent.conn.connected = true → written = bytes)

variable {conn after : Connection} {front rest : Str} {msg final : WSFrameMessage}
  {next : Connection → Result SentShared}

theorem leaves_lost (lost : conn.written front = none) :
    Leaves conn rest msg (writeOrShared conn msg front next) := by
  rcases conn.write_fix_size_gave front with ⟨rt, behind, sent, wrote, gave⟩
  rw [Connection.written, wrote] at lost
  dsimp only at lost
  by_cases failed : rt ≤ 0
  · refine ⟨⟨-1, behind.close, msg⟩, sent, ?_, rfl, gave.outgoing, ?_⟩
    · rw [writeOrShared, wrote, bind_ok]
      exact if_pos failed
    · intro connected
      cases connected
  · rw [if_neg failed] at lost
    cases lost

theorem leaves_written (through : conn.written front = some after)
    (onward : Leaves after rest final (next after)) :
    Leaves conn (front ++ rest) final (writeOrShared conn msg front next) := by
  rcases conn.write_fix_size_gave front with ⟨rt, behind, sent, wrote, gave⟩
  rw [Connection.written, wrote] at through
  dsimp only at through
  by_cases failed : rt ≤ 0
  · rw [if_pos failed] at through
    cases through
  · rw [if_neg failed, Option.some.injEq] at through
    rw [through] at wrote gave
    rcases onward with ⟨outcome, more, returned, left, outgoing, whole⟩
    refine ⟨outcome, front ++ more, ?_, left, ?_, ?_⟩
    · rw [writeOrShared, wrote, bind_ok]
      dsimp only
      rw [if_neg failed]
      exact returned
    · rw [outgoing, gave.outgoing, gave.full (by omega), List.append_assoc]
    · intro connected
      rw [whole connected]

theorem leaves_either (onward : ∀ after, Leaves after rest msg (next after)) :
    Leaves conn (front ++ rest) msg (writeOrShared conn msg front next) := by
  cases through : conn.written front with
  | none => exact leaves_lost through
  | some after => exact leaves_written through (onward after)

variable {client fin : Bool} {rand : UInt32}

def headWritten (conn : Connection) (msg : WSFrameMessage) (client fin : Bool) : Bool :=
  let head := sentHead msg client fin
  (conn.written head.bytes).any fun conn =>
    if head.payload = 126 ∨ head.payload = 127 then
      (conn.written (lengthBytes head.payload msg.data.length)).isSome
    else true

def leftMessage (conn : Connection) (msg : WSFrameMessage) (client fin : Bool) (rand : UInt32) :
    WSFrameMessage :=
  if client && headWritten conn msg client fin then msg.masked rand else msg

theorem leaves_data {value : Int} :
    Leaves conn msg.data msg
      (writeOrShared conn msg msg.data fun conn => .ok ⟨value, conn, msg⟩) := by
  have done (after : Connection) : Leaves after [] msg (.ok ⟨value, after, msg⟩) :=
    ⟨_, [], rfl, rfl, (List.append_nil _).symm, fun _ => rfl⟩
  have whole := @leaves_either conn msg.data [] msg _ done
  rw [List.append_nil] at whole
  exact whole

theorem leaves_content {value : Int} :
    Leaves conn
      (maskBytes (if client then some rand else none) ++
        maskedData (if client then some rand else none) msg.data)
      (if client then msg.masked rand else msg)
      (if client then
        writeOrShared conn (msg.masked rand) (keyBytes rand) fun conn =>
          writeOrShared conn (msg.masked rand) (msg.masked rand).data fun conn =>
            .ok ⟨value, conn, msg.masked rand⟩
      else writeOrShared conn msg msg.data fun conn => .ok ⟨value, conn, msg⟩) := by
  cases client with
  | false => exact leaves_data
  | true => exact leaves_either fun _ => leaves_data

/-- A call sends one frame with the data as they were before, or closes the connection. -/
theorem ws_send_shared_leaves (conn : Connection) (msg : WSFrameMessage) (client fin : Bool)
    (rand : UInt32) :
    Leaves conn
      (frameBytes (BitVec.ofInt 4 msg.opcode) fin (if client then some rand else none) msg.data)
      (leftMessage conn msg client fin rand) (wsSendShared conn msg client fin rand) := by
  have head : frameHead (BitVec.ofInt 4 msg.opcode) fin (if client then some rand else none)
      msg.data.length = sentHead msg client fin := by
    cases client <;> rfl
  have field : payloadField msg.data.length = (sentHead msg client fin).payload := rfl
  rw [frameBytes, head, field, leftMessage, headWritten, wsSendShared]
  dsimp only
  cases through : conn.written (sentHead msg client fin).bytes with
  | none =>
      simp only [Option.any_none, Bool.and_false, Bool.false_eq_true, if_false]
      exact leaves_lost through
  | some first =>
      apply leaves_written through
      rw [Option.any_some]
      by_cases wide : (sentHead msg client fin).payload = 126 ∨
          (sentHead msg client fin).payload = 127
      · simp only [if_pos wide]
        cases behind : first.written
            (lengthBytes (sentHead msg client fin).payload msg.data.length) with
        | none =>
            simp only [Option.isSome_none, Bool.and_false, Bool.false_eq_true, if_false]
            exact leaves_lost behind
        | some second =>
            apply leaves_written behind
            rw [Option.isSome_some, Bool.and_true]
            exact leaves_content
      · have none : lengthBytes (sentHead msg client fin).payload msg.data.length = [] := by
          rw [not_or] at wide
          rw [lengthBytes, if_neg wide.1, if_neg wide.2]
        simp only [if_neg wide, Bool.and_true]
        rw [none, List.nil_append]
        exact leaves_content

theorem left_message_iff (conn : Connection) (msg : WSFrameMessage) (client fin : Bool)
    (rand : UInt32) :
    leftMessage conn msg client fin rand = msg ↔
      client = false ∨ headWritten conn msg client fin = false ∨
        ∀ i < msg.data.length, (keyBytes rand).getD (i % 4) 0 = 0 := by
  rw [leftMessage, ← xor_mask_eq_self_iff]
  cases client with
  | false => simp
  | true =>
      cases headWritten conn msg true fin with
      | false => simp
      | true =>
          simp only [Bool.and_self, if_true, Bool.true_eq_false, false_or]
          constructor
          · intro same
            exact congrArg WSFrameMessage.data same
          · intro same
            rw [WSFrameMessage.masked, same]

def steady (stream : Stream) : Connection := ⟨stream, fun _ => false, true⟩

theorem steady_write_loop (length : Nat) (rounds : Nat) :
    ∀ (stream : Stream) (left : Str),
      Connection.writeFixLoop length rounds (steady stream) left =
        (stream.writeFixBufferLoop length rounds left).map fun (rt, stream) =>
          (rt, steady stream) := by
  induction rounds with
  | zero =>
      intro stream left
      rw [Connection.writeFixLoop, Stream.writeFixBufferLoop]
      split <;> rfl
  | succ rounds induction =>
      intro stream left
      rw [Connection.writeFixLoop, Stream.writeFixBufferLoop]
      by_cases filled : 0 < left.length
      · have wrote : (steady stream).write (left.take stream.maxLen) =
            (((stream.writeBuffer (left.take stream.maxLen)).1 : Int),
              steady (stream.writeBuffer (left.take stream.maxLen)).2) := rfl
        rw [if_pos filled, if_pos filled]
        dsimp only [steady] at wrote ⊢
        rw [wrote]
        dsimp only
        by_cases ended : (stream.writeBuffer (left.take stream.maxLen)).1 = 0
        · rw [if_pos (by omega), if_pos ended, ended]
          rfl
        · rw [if_neg (by omega), if_neg ended, Int.toNat_natCast]
          exact induction _ _
      · rw [if_neg filled, if_neg filled]
        rfl

def Agree (plain : Result Sent) (shared : Result SentShared) : Prop :=
  ∃ value stream closed msg, plain = .ok ⟨value, stream, closed⟩ ∧
    shared = .ok ⟨value, { steady stream with connected := !closed }, msg⟩

theorem write_or_agree {stream : Stream} {bytes : Str} {plain : Stream → Result Sent}
    (each : ∀ stream, Agree (plain stream) (next (steady stream))) :
    Agree (writeOr stream bytes plain) (writeOrShared (steady stream) msg bytes next) := by
  rcases stream.write_fix_buffer_sends bytes with ⟨after, wrote, _, _⟩
  have shared : (steady stream).writeFixSize bytes = .ok (int32 bytes.length, steady after) := by
    rw [Connection.writeFixSize, steady_write_loop, ← Stream.writeFixBuffer, wrote]
    rfl
  rw [writeOr, writeOrShared, wrote, shared, bind_ok, bind_ok]
  dsimp only
  by_cases lost : int32 bytes.length ≤ 0
  · rw [if_pos lost, if_pos lost]
    exact ⟨-1, after, true, msg, rfl, rfl⟩
  · rw [if_neg lost, if_neg lost]
    exact each after

theorem ws_send_shared_agrees (stream : Stream) (msg : WSFrameMessage) (client fin : Bool)
    (rand : UInt32) :
    Agree (wsSendMessage stream msg client fin rand)
      (wsSendShared (steady stream) msg client fin rand) := by
  have data (value : Int) (msg : WSFrameMessage) (stream : Stream) :
      Agree (writeOr stream msg.data fun stream => .ok ⟨value, stream, false⟩)
        (writeOrShared (steady stream) msg msg.data fun conn => .ok ⟨value, conn, msg⟩) :=
    write_or_agree fun stream => ⟨value, stream, false, msg, rfl, rfl⟩
  rw [wsSendMessage, wsSendShared]
  apply write_or_agree
  intro first
  have field : (sentHead msg client fin).payload = payloadField msg.data.length := rfl
  rw [field]
  dsimp only
  by_cases wide : payloadField msg.data.length = 126 ∨ payloadField msg.data.length = 127
  · rw [if_pos wide, if_pos wide]
    apply write_or_agree
    intro second
    cases client with
    | false => exact data _ msg second
    | true =>
        rw [if_pos rfl, if_pos rfl]
        apply write_or_agree
        intro third
        exact data _ (msg.masked rand) third
  · rw [if_neg wide, if_neg wide]
    cases client with
    | false => exact data _ msg first
    | true =>
        rw [if_pos rfl, if_pos rfl]
        apply write_or_agree
        intro third
        exact data _ (msg.masked rand) third

def SendCall.key (call : SendCall Key) : Option UInt32 :=
  if call.client then some call.rand else none

/-- Every receiver that reads these bytes, with room for the data and anywhere in a message, adds
the data of `msg` and then goes on, or returns them at the last frame. -/
def Gets (call : SendCall Key) (msg : WSFrameMessage) (written : Str) : Prop :=
  Content (BitVec.ofInt 4 msg.opcode) →
    ∀ (maxSize : UInt32) (held : BitVec 4) (before rest : Str) (receiver : Stream) (rounds : Nat),
      before.length < 2 ^ 31 → Accepts maxSize before.length call.key msg.data →
      receiver.incoming = written ++ rest →
      ∃ after, after.incoming = rest ∧
        recvLoop maxSize (!call.client) (rounds + 1) (holding held before) receiver =
          if call.fin then
            .ok ⟨some ⟨(joinedOpcode held (BitVec.ofInt 4 msg.opcode)).toNat, before ++ msg.data⟩,
              after, false⟩
          else
            recvLoop maxSize (!call.client) rounds
              (Joined held (BitVec.ofInt 4 msg.opcode) before msg.data) after

omit [DecidableEq Key] in
theorem frame_gets (call : SendCall Key) (msg : WSFrameMessage) :
    Gets call msg (frameBytes (BitVec.ofInt 4 msg.opcode) call.fin call.key msg.data) := by
  intro content maxSize held before rest receiver rounds short accepts front
  have allowed : (!call.client) = true ∨ call.key.isSome = true := by
    rw [SendCall.key]
    cases call.client <;> simp
  rcases @recv_round_accepts _ _ maxSize (!call.client) call.fin call.key held _ before msg.data
    content allowed short accepts front with ⟨after, incoming, _, round⟩
  refine ⟨after, incoming, ?_⟩
  rw [recvLoop, round, bind_ok]
  cases call.fin <;> rfl

/-- The call leaves the message as it was at first, and unless it has closed the connection, every
receiver gets that message. -/
def Same (first : WSFrameMessage) (state : SharedState Key) (call : SendCall Key) : Prop :=
  ∃ after written, state.send call = .ok after ∧ after.msg = first ∧
    (after.conns call.target).stream.outgoing =
      (state.conns call.target).stream.outgoing ++ written ∧
    ((after.conns call.target).connected = true → Gets call first written)

/-- A call as server, one whose connection does not take the head, or one whose mask is zero
wherever it is used. -/
def Kept (state : SharedState Key) (call : SendCall Key) : Prop :=
  call.client = false ∨
    headWritten (state.conns call.target) state.msg call.client call.fin = false ∨
    ∀ i < state.msg.data.length, (keyBytes call.rand).getD (i % 4) 0 = 0

theorem send_leaves (state : SharedState Key) (call : SendCall Key) :
    ∃ after written, state.send call = .ok after ∧
      after.msg = leftMessage (state.conns call.target) state.msg call.client call.fin call.rand ∧
      (after.conns call.target).stream.outgoing =
        (state.conns call.target).stream.outgoing ++ written ∧
      ((after.conns call.target).connected = true → Gets call state.msg written) := by
  rcases ws_send_shared_leaves (state.conns call.target) state.msg call.client call.fin call.rand
    with ⟨sent, written, returned, left, outgoing, whole⟩
  refine ⟨⟨Function.update state.conns call.target sent.conn, sent.msg⟩, written, ?_, left, ?_, ?_⟩
  · rw [SharedState.send, returned, bind_ok]
  · dsimp only
    rw [Function.update_self]
    exact outgoing
  · dsimp only
    rw [Function.update_self]
    intro connected
    rw [whole connected]
    exact frame_gets call state.msg

theorem same_iff_kept (state : SharedState Key) (call : SendCall Key) :
    Same state.msg state call ↔ Kept state call := by
  rcases send_leaves state call with ⟨after, written, sent, left, outgoing, gets⟩
  rw [Kept, ← left_message_iff, ← left]
  constructor
  · rintro ⟨other, _, returned, same, _⟩
    rw [sent, Except.ok.injEq] at returned
    rw [returned]
    exact same
  · intro same
    exact ⟨after, written, sent, same, outgoing, gets⟩

theorem same_keeps {first : WSFrameMessage} {state after : SharedState Key} {call : SendCall Key}
    (same : Same first state call) (taken : state.step call = some after) : after.msg = first := by
  rcases same with ⟨behind, _, sent, left, _⟩
  rw [SharedState.step, sent] at taken
  cases taken
  exact left

theorem step_total (state : SharedState Key) (call : SendCall Key) :
    ∃ after, state.step call = some after := by
  rcases send_leaves state call with ⟨after, _, sent, _⟩
  refine ⟨after, ?_⟩
  rw [SharedState.step, sent]
  rfl

/-- However often a message object is sent, on whichever connections and in whichever roles: it
stays as it was and every receiver gets it, exactly when every call keeps it. -/
theorem shared_message_same_iff (start : SharedState Key) (calls : List (SendCall Key)) :
    ∃ last, Runs SharedState.step (fun _ _ => True) start calls last ∧
      (Runs SharedState.step (Same start.msg) start calls last ↔
        Runs SharedState.step Kept start calls last) := by
  rcases exists_runs step_total calls start with ⟨last, ran⟩
  refine ⟨last, ran, ?_⟩
  have agree (state : SharedState Key) (call : SendCall Key) (current : state.msg = start.msg) :
      Same start.msg state call ↔ Kept state call := by
    rw [← current]
    exact same_iff_kept state call
  have preserved (state : SharedState Key) (call : SendCall Key) (after : SharedState Key)
      (_ : state.msg = start.msg) (same : Same start.msg state call)
      (taken : state.step call = some after) : after.msg = start.msg := same_keeps same taken
  exact runs_congr agree preserved calls rfl

/-- A client sends the text "a" to two servers: the second one gets what the first mask made of
it. -/
theorem shared_message_changed :
    let conn : Connection := ⟨⟨[], [], fun _ => 0, 4096, by decide⟩, fun _ => false, true⟩
    let start : SharedState Bool := ⟨fun _ => conn, ⟨1, [0x61]⟩⟩
    let calls : List (SendCall Bool) := [⟨false, true, true, 1⟩, ⟨true, true, true, 1⟩]
    let received (conn : Connection) : Option WSFrameMessage :=
      (wsRecvMessage 33554432 false
        ⟨conn.stream.outgoing, [], fun _ => 0, 4096, by decide⟩).toOption.bind Received.message
    (¬∃ last, Runs SharedState.step (Same start.msg) start calls last) ∧
      ∃ last, Reaches SharedState.step (fun _ _ => True) start last ∧
        received (last.conns false) = some ⟨1, [0x61]⟩ ∧
        received (last.conns true) = some ⟨1, [0x60]⟩ := by
  intro conn start calls received
  constructor
  · rintro ⟨last, same, _⟩
    rcases (same_iff_kept _ _).mp same with server | lost | zeros
    · cases server
    · revert lost
      decide +kernel
    · have byte := zeros 0 (by decide)
      revert byte
      decide +kernel
  · exact exists_of_run calls (by decide +kernel)

end ChatServer.Http
