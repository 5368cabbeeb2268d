import ChatServer.Http2.Settings
import ChatServer.Lib.Transition

/-!
# Runs of a connection

A run starts behind the handshake. The reader receives frames, the workers run the scheduled
requests, and the application opens streams, sends data and settings and gives up requests,
in any order; each call is one step. An exception ends the reading loop, which closes the
connection, and behind undefined behaviour or a failed assertion there is no step.
-/

namespace ChatServer.Http2

set_option autoImplicit false

def Frame.wellTyped (frame : Frame) : Bool :=
  match frameType frame.header.type, frame.data with
  | some .data, some (.data _) => true
  | some .headers, some (.headers _) => true
  | some .priority, some (.priority _) => true
  | some .rstStream, some (.rstStream _) => true
  | some .settings, some (.settings _) => true
  | some .pushPromise, some (.pushPromised _) => true
  | some .ping, some (.ping _) => true
  | some .goaway, some (.goAway _) => true
  | some .windowUpdate, some (.windowUpdate _) => true
  | some .continuation, none => true
  | _, _ => false

/-- Every frame that `parseFrom` returns is of this kind. -/
theorem parsed_well_typed {fresh : Nat → Nat → UInt8} {stream next : Stream} {frame : Frame}
    (accepted : FrameCodec.parseFrom fresh stream = .ok (some frame, next)) :
    frame.wellTyped = true := by
  obtain ⟨ba, read⟩ := parse_from_inv accepted
  unfold readFrame at read
  unfold Frame.wellTyped
  cases kind : frameType frame.header.type with
  | none =>
      rw [kind] at read
      cases read
  | some named =>
      rw [kind] at read
      have made {Body : Type} {wrap : Body → IFrame} {body : Result (Body × ByteArray)}
          (done : (caught body >>= fun read => .ok (read.map fun body =>
            (⟨frame.header, some (wrap body.1)⟩ : Frame))) = .ok (some frame)) :
          ∃ body, frame.data = some (wrap body) := by
        obtain ⟨body, _, same⟩ := made_inv done
        exact ⟨body.1, by rw [same]⟩
      cases named with
      | priority =>
          obtain ⟨⟨done, priority, after⟩, _, returned⟩ := bind_eq_ok read
          cases done with
          | false => cases returned
          | true =>
              have same := Option.some.inj (Except.ok.inj returned)
              rw [← same]
      | continuation =>
          have same := Option.some.inj (Except.ok.inj read)
          rw [← same]
      | data | headers | rstStream | settings | pushPromise | ping | goaway | windowUpdate =>
          obtain ⟨body, payload⟩ := made read
          rw [payload]

def SettingsItem.valid (i : SettingsItem) : Bool :=
  match setting i.identifier with
  | some .enablePush => i.value ≤ 1
  | some .initialWindowSize => i.value ≤ maxInitialWindowSize
  | some .maxFrameSize => defaultMaxFrameSize ≤ i.value && i.value ≤ maxMaxFrameSize
  | _ => true

theorem stream_id_small (header : FrameHeader) : header.streamId.toNat < 2 ^ 31 := by
  have small := header.identifier.isLt
  change (header.identifier.setWidth 32).toNat < 2 ^ 31
  rw [BitVec.toNat_setWidth]
  omega

theorem low31_to_nat {word : UInt32} (small : word.toNat < 2 ^ 31) :
    (low31 word).toNat = word.toNat := by
  unfold low31
  rw [BitVec.extractLsb'_toNat, Nat.shiftRight_zero]
  exact Nat.mod_eq_of_lt small

theorem out_frame_stream_id {id : UInt32} (small : id.toNat < 2 ^ 31) (type : FrameType)
    (flags : UInt8) (data : Option IFrame) : (outFrame type flags id data).header.streamId = id := by
  apply UInt32.toNat_inj.mp
  change ((low31 id).setWidth 32).toNat = id.toNat
  rw [BitVec.toNat_setWidth, low31_to_nat small]
  apply Nat.mod_eq_of_lt
  omega

theorem out_frame_type (type : FrameType) (flags : UInt8) (id : UInt32) (data : Option IFrame) :
    frameType (outFrame type flags id data).header.type = some type := by
  cases type <;> rfl

namespace Http2SocketStream

inductive Action where
  /-- `doRecv`, when `parseFrom` returns a frame. -/
  | recv (frame : Frame)
  /-- `doRecv`, when it returns the null pointer. -/
  | hangUp
  /-- A worker takes a scheduled `handleRequest`, and the servlet answers. -/
  | task (pick : Nat) (rsp : HttpResponse)
  /-- `newStream()` in `openStream`, or in `request`. -/
  | openStream (isStream : Bool)
  /-- `doSend` of a request that was enqueued. -/
  | sendRequest (sn : UInt32) (req : HttpRequest) (ssl endStream : Bool)
  | sendData (ref : Nat) (data : Str) (async endStream : Bool)
  | sendSettings (items : List SettingsItem)
  | onTimeOut (sn : UInt32)

/-- The beginning of `openStream(request)` and of `request(req, timeout_ms)`. -/
def openRequest (conn : Http2SocketStream) (isStream : Bool) : Http2SocketStream :=
  let (ref, conn) := conn.newStream
  if isStream then conn.modify ref fun stream => { stream with isStream := true }
  else { conn with ctxs := conn.ctxs ++ [(conn.heap ref).id] }

/-- The reading loop around one `doRecv`: an exception ends it. -/
def read (conn : Http2SocketStream) (frame : Frame) : Option Http2SocketStream :=
  match conn.doRecv (some frame) with
  | .ok after => some after
  | .error (.thrown _) => some (conn.interrupted frame).innerClose
  | .error _ => none

def returned {Value : Type} : Result (Value × Http2SocketStream) → Option Http2SocketStream
  | .ok (_, after) => some after
  | .error _ => none

def runTask (conn : Http2SocketStream) (pick : Nat) (rsp : HttpResponse) :
    Option Http2SocketStream :=
  match conn.scheduled[pick]? with
  | none => none
  | some ref => ({ conn with scheduled := conn.scheduled.eraseIdx pick }.handleRequest ref rsp).toOption

def step (conn : Http2SocketStream) : Action → Option Http2SocketStream
  | .recv frame => if conn.connected && frame.wellTyped then conn.read frame else none
  | .hangUp => if conn.connected then some conn.innerClose else none
  | .task pick rsp => conn.runTask pick rsp
  | .openStream isStream =>
      if conn.isClient && conn.connected then some (conn.openRequest isStream) else none
  | .sendRequest sn req ssl endStream =>
      match conn.getStream sn with
      | none => some conn
      | some ref => returned (conn.sendRequest ref req ssl endStream false)
  | .sendData ref data async endStream =>
      if ref < conn.allocated then returned (conn.sendData ref data async endStream) else none
  | .sendSettings items =>
      if items.all SettingsItem.valid then some (conn.sendSettings items) else none
  | .onTimeOut sn => if conn.isClient then some (conn.onTimeOut sn) else none

/-- A connection right behind its handshake, and the frames it has received. -/
inductive Started : Http2SocketStream → List Frame → Prop where
  | server {conn : Http2SocketStream} (writes : Nat → Int) (frame : Frame)
      (shaken : { new false with writes }.handleShakeServer true (some frame) = .ok (true, conn)) :
      Started conn [frame]
  | client {conn : Http2SocketStream} (writes : Nat → Int)
      (shaken : { new true with writes }.handleShakeClient = (true, conn)) : Started conn []

def Action.received : Action → List Frame
  | .recv frame => [frame]
  | _ => []

def observe (state : Http2SocketStream × List Frame) (action : Action) :
    Option (Http2SocketStream × List Frame) :=
  (state.1.step action).map fun after => (after, state.2 ++ action.received)

def greeted : Http2SocketStream := (new false).sendSettingsAck.sendSettings []

theorem greeted_started : Started greeted [settingsFrame []] :=
  .server (fun _ => 1) (settingsFrame []) rfl

def dialled : Http2SocketStream := (new true).handleShakeClient.2

/-- A frame as the reader gets it, with the length of its payload. -/
def inFrame (type : FrameType) (flags : UInt8) (streamId : UInt32) (length : Nat) (data : IFrame) :
    Frame :=
  let frame := outFrame type flags streamId (some data)
  { frame with header := { frame.header with length := BitVec.ofNat 24 length } }

/-- What `locate` finds: a stream in the map, a new stream, or none. -/
inductive Located (conn : Http2SocketStream) (frame : Frame) :
    Option Nat → Http2SocketStream → Prop where
  | known {ref : Nat} (found : conn.streams frame.header.streamId = some ref) :
      Located conn frame (some ref) conn
  | opened (unknown : conn.streams frame.header.streamId = none) (server : conn.isClient = false)
      (above : conn.sn < frame.header.streamId) :
      Located conn frame (some conn.allocated)
        ({ conn with sn := frame.header.streamId }.addStream frame.header.streamId)
  | ignored (unknown : conn.streams frame.header.streamId = none)
      (harmless : conn.isClient = true ∨
        frame.header.streamId ≤ conn.sn ∧ frameType frame.header.type = some .rstStream) :
      Located conn frame none conn
  | refused (unknown : conn.streams frame.header.streamId = none) (server : conn.isClient = false)
      (below : frame.header.streamId ≤ conn.sn)
      (other : frameType frame.header.type ≠ some .rstStream) :
      Located conn frame none (conn.sendRstStream conn.sn streamClosedError)

theorem locate_spec (conn : Http2SocketStream) (frame : Frame) :
    Located conn frame (conn.locate frame).1 (conn.locate frame).2 := by
  unfold locate getStream
  cases found : conn.streams frame.header.streamId with
  | some ref => exact .known found
  | none =>
      cases client : conn.isClient with
      | true => exact .ignored found (.inl client)
      | false =>
          simp only [Bool.false_eq_true, if_false, newStreamAt]
          by_cases below : frame.header.streamId ≤ conn.sn
          · rw [if_pos below]
            dsimp only
            by_cases rst : frameType frame.header.type ≠ some .rstStream
            · rw [if_pos rst]
              exact .refused found client below rst
            · rw [if_neg rst]
              exact .ignored found (.inr ⟨below, not_not.mp rst⟩)
          · rw [if_neg below]
            exact .opened found client (UInt32.not_le.mp below)

/-- The ways through `doRecv` and the loop around it. -/
inductive Received (conn : Http2SocketStream) (frame : Frame) : Http2SocketStream → Prop where
  | windowUpdate (typed : frameType frame.header.type = some .windowUpdate) :
      Received conn frame (conn.handleWindowUpdate frame)
  | control {after : Http2SocketStream} (typed : frameType frame.header.type ≠ some .windowUpdate)
      (zero : frame.header.streamId = 0) (done : conn.control frame = .ok after) :
      Received conn frame after
  | dropped {after : Http2SocketStream} (typed : frameType frame.header.type ≠ some .windowUpdate)
      (some : frame.header.streamId ≠ 0) (located : Located conn frame none after) :
      Received conn frame after
  | kept {ref : Nat} {found after : Http2SocketStream}
      (typed : frameType frame.header.type ≠ some .windowUpdate)
      (some : frame.header.streamId ≠ 0) (located : Located conn frame (.some ref) found)
      (handled : (found.account ref frame).handleFrame ref frame = .ok after)
      (running : (after.heap ref).state ≠ .closed) : Received conn frame after
  | closed {ref : Nat} {found after : Http2SocketStream}
      (typed : frameType frame.header.type ≠ some .windowUpdate)
      (some : frame.header.streamId ≠ 0) (located : Located conn frame (.some ref) found)
      (handled : (found.account ref frame).handleFrame ref frame = .ok after)
      (ended : (after.heap ref).state = .closed) : Received conn frame (after.onStreamClose ref)
  | thrown {ref : Nat} {found : Http2SocketStream} {exception : CppException}
      (typed : frameType frame.header.type ≠ some .windowUpdate)
      (some : frame.header.streamId ≠ 0) (located : Located conn frame (.some ref) found)
      (threw : (found.account ref frame).handleFrame ref frame = .error (.thrown exception)) :
      Received conn frame (found.account ref frame).innerClose

theorem control_not_thrown (conn : Http2SocketStream) (frame : Frame) (exception : CppException) :
    conn.control frame ≠ .error (.thrown exception) := by
  unfold control handleRecvSetting
  intro threw
  split at threw
  · split_ifs at threw
    split at threw <;> cases threw
  · split_ifs at threw
    split at threw <;> cases threw
  · cases threw

theorem do_recv_located (conn : Http2SocketStream) (frame : Frame)
    (typed : frameType frame.header.type ≠ some .windowUpdate) (some : frame.header.streamId ≠ 0) :
    conn.doRecv (.some frame) = match (conn.locate frame).1 with
      | .some ref => (conn.locate frame).2.deliver ref frame
      | none => .ok (conn.locate frame).2 := by
  simp only [doRecv, if_neg typed, if_pos some]
  generalize conn.locate frame = outcome
  obtain ⟨found, next⟩ := outcome
  cases found <;> rfl

theorem read_cases {conn after : Http2SocketStream} {frame : Frame}
    (done : conn.read frame = some after) : Received conn frame after := by
  unfold read at done
  by_cases typed : frameType frame.header.type = some .windowUpdate
  · simp only [doRecv, if_pos typed] at done
    cases done
    exact .windowUpdate typed
  by_cases some : frame.header.streamId ≠ 0
  · have located := locate_spec conn frame
    rw [do_recv_located conn frame typed some, interrupted] at done
    generalize conn.locate frame = outcome at done located
    obtain ⟨found, next⟩ := outcome
    cases found with
    | none =>
        cases done
        exact .dropped typed some located
    | some ref =>
        simp only [deliver] at done
        cases handled : (next.account ref frame).handleFrame ref frame with
        | ok handledConn =>
            simp only [handled, bind_ok] at done
            by_cases ended : (handledConn.heap ref).state = .closed
            · simp only [if_pos ended, Option.some.injEq] at done
              rw [← done]
              exact .closed typed some located handled ended
            · simp only [if_neg ended, Option.some.injEq] at done
              rw [← done]
              exact .kept typed some located handled ended
        | error fault =>
            cases fault with
            | thrown exception =>
                simp only [handled, bind_error, Option.some.injEq] at done
                rw [← done]
                exact .thrown typed some located handled
            | undefined cause => simp [handled, bind_error] at done
            | aborted => simp [handled, bind_error] at done
  · simp only [doRecv, if_neg typed, if_neg some] at done
    cases handled : conn.control frame with
    | ok handledConn =>
        simp only [handled, Option.some.injEq] at done
        rw [← done]
        exact .control typed (not_not.mp some) handled
    | error fault =>
        cases fault with
        | thrown exception => exact absurd handled (control_not_thrown conn frame exception)
        | undefined cause => simp [handled] at done
        | aborted => simp [handled] at done

/-- `handleRequest` at the call of the servlet. -/
def dispatch (conn : Http2SocketStream) (ref : Nat) (req : HttpMessage) : Http2SocketStream :=
  { conn.modify ref (fun stream => { stream with handleCount := stream.handleCount + 1 }) with
    dispatched := conn.dispatched ++ [((conn.heap ref).id, req)] }

theorem handle_request_cases {conn after : Http2SocketStream} {ref : Nat} {rsp : HttpResponse}
    (done : conn.handleRequest ref rsp = .ok after) :
    0 < (conn.heap ref).handleCount ∧ after = conn ∨
      ∃ req rt next, (conn.heap ref).handleCount = 0 ∧ (conn.heap ref).request = some req ∧
        (conn.dispatch ref req).sendResponse ref rsp true true = .ok (rt, next) ∧
        after = next.delStream (conn.heap ref).id := by
  unfold handleRequest at done
  dsimp only at done
  by_cases counted : (conn.heap ref).handleCount > 0
  · rw [if_pos counted] at done
    exact .inl ⟨counted, (Except.ok.inj done).symm⟩
  · rw [if_neg counted] at done
    have fresh : (conn.heap ref).handleCount = 0 := by
      apply UInt8.toNat_inj.mp
      have bound := UInt8.not_lt.mp counted
      exact Nat.le_zero.mp bound
    cases request : (conn.heap ref).request with
    | none =>
        rw [request] at done
        cases done
    | some req =>
        rw [request] at done
        obtain ⟨⟨rt, next⟩, responded, finished⟩ := bind_eq_ok done
        exact .inr ⟨req, rt, next, fresh, rfl, responded, (Except.ok.inj finished).symm⟩

inductive Stepped (conn : Http2SocketStream) : Action → Http2SocketStream → Prop where
  | recv {frame : Frame} {after : Http2SocketStream} (connected : conn.connected = true)
      (typed : frame.wellTyped = true) (received : Received conn frame after) :
      Stepped conn (.recv frame) after
  | hangUp (connected : conn.connected = true) : Stepped conn .hangUp conn.innerClose
  | task {pick ref : Nat} {rsp : HttpResponse} {after : Http2SocketStream}
      (picked : conn.scheduled[pick]? = some ref)
      (done : { conn with scheduled := conn.scheduled.eraseIdx pick }.handleRequest ref rsp =
        .ok after) : Stepped conn (.task pick rsp) after
  | openStream (isStream : Bool) (client : conn.isClient = true)
      (connected : conn.connected = true) :
      Stepped conn (.openStream isStream) (conn.openRequest isStream)
  | unsent {sn : UInt32} {req : HttpRequest} {ssl endStream : Bool}
      (unknown : conn.streams sn = none) : Stepped conn (.sendRequest sn req ssl endStream) conn
  | sendRequest {sn : UInt32} {req : HttpRequest} {ssl endStream : Bool} {ref : Nat}
      {result : Int × Http2SocketStream} (found : conn.streams sn = some ref)
      (done : conn.sendRequest ref req ssl endStream false = .ok result) :
      Stepped conn (.sendRequest sn req ssl endStream) result.2
  | sendData {ref : Nat} {data : Str} {async endStream : Bool} {result : Int × Http2SocketStream}
      (inside : ref < conn.allocated) (done : conn.sendData ref data async endStream = .ok result) :
      Stepped conn (.sendData ref data async endStream) result.2
  | sendSettings {items : List SettingsItem} (valid : items.all SettingsItem.valid = true) :
      Stepped conn (.sendSettings items) (conn.sendSettings items)
  | onTimeOut (sn : UInt32) (client : conn.isClient = true) :
      Stepped conn (.onTimeOut sn) (conn.onTimeOut sn)

theorem returned_inv {Value : Type} {result : Result (Value × Http2SocketStream)}
    {after : Http2SocketStream} (done : returned result = some after) :
    ∃ value, result = .ok (value, after) := by
  cases result with
  | ok pair =>
      cases done
      exact ⟨pair.1, rfl⟩
  | error fault => cases done

theorem step_cases {conn after : Http2SocketStream} {action : Action}
    (taken : conn.step action = some after) : Stepped conn action after := by
  cases action with
  | recv frame =>
      rw [step] at taken
      split_ifs at taken with ready
      rw [Bool.and_eq_true] at ready
      exact .recv ready.1 ready.2 (read_cases taken)
  | hangUp =>
      rw [step] at taken
      split_ifs at taken with connected
      rw [← Option.some.inj taken]
      exact .hangUp connected
  | task pick rsp =>
      rw [step, runTask] at taken
      cases picked : conn.scheduled[pick]? with
      | none =>
          rw [picked] at taken
          cases taken
      | some ref =>
          rw [picked] at taken
          dsimp only at taken
          apply Stepped.task picked
          generalize handleRequest _ ref rsp = outcome at taken ⊢
          cases outcome with
          | ok next => rw [← Option.some.inj taken]
          | error fault => cases taken
  | openStream isStream =>
      rw [step] at taken
      split_ifs at taken with ready
      rw [Bool.and_eq_true] at ready
      rw [← Option.some.inj taken]
      exact .openStream isStream ready.1 ready.2
  | sendRequest sn req ssl endStream =>
      rw [step, getStream] at taken
      cases found : conn.streams sn with
      | none =>
          rw [found] at taken
          rw [← Option.some.inj taken]
          exact .unsent found
      | some ref =>
          rw [found] at taken
          obtain ⟨rt, done⟩ := returned_inv taken
          exact .sendRequest found done
  | sendData ref data async endStream =>
      rw [step] at taken
      split_ifs at taken with inside
      obtain ⟨rt, done⟩ := returned_inv taken
      exact .sendData inside done
  | sendSettings items =>
      rw [step] at taken
      split_ifs at taken with valid
      rw [← Option.some.inj taken]
      exact .sendSettings valid
  | onTimeOut sn =>
      rw [step] at taken
      split_ifs at taken with client
      rw [← Option.some.inj taken]
      exact .onTimeOut sn client

/-- The frame a server starts with is a SETTINGS frame. -/
theorem shaken_server {conn after : Http2SocketStream} {frame : Frame}
    (shaken : conn.handleShakeServer true (some frame) = .ok (true, after)) :
    ∃ sts, frameType frame.header.type = some .settings ∧ frame.data = some (.settings sts) ∧
      after = ((conn.updateSettings .owner sts.items).sendSettingsAck).sendSettings [] := by
  unfold handleShakeServer handleRecvSetting at shaken
  dsimp only at shaken
  have right : ¬¬(true = true) := not_not.mpr rfl
  rw [if_neg right] at shaken
  by_cases other : frameType frame.header.type ≠ some .settings
  · rw [if_pos other] at shaken
    cases shaken
  · rw [if_neg other] at shaken
    split at shaken
    · rename_i sts payload
      exact ⟨sts, not_not.mp other, payload, (congrArg Prod.snd (Except.ok.inj shaken)).symm⟩
    · cases shaken

/-- A client announces its settings before it writes them. -/
theorem shaken_client {conn after : Http2SocketStream}
    (shaken : conn.handleShakeClient = (true, after)) :
    ∃ rt written, conn.connected = true ∧ 0 < rt ∧
      ({ conn with writes := fun call => conn.writes (call + 1) }.handleSendSetting
        clientSettings).sendFrame (settingsFrame clientSettings) false = (rt, written) ∧
      after = written.sendWindowUpdate 0 (refill written.recvWindow) := by
  unfold handleShakeClient at shaken
  by_cases connected : conn.connected = true
  · rw [if_neg (not_not.mpr connected)] at shaken
    by_cases refused : conn.writes 0 ≤ 0
    · rw [if_pos refused] at shaken
      cases shaken
    · rw [if_neg refused] at shaken
      dsimp only at shaken
      generalize sendFrame _ (settingsFrame clientSettings) false = outcome at shaken ⊢
      obtain ⟨rt, written⟩ := outcome
      by_cases failed : rt ≤ 0
      · rw [if_pos failed] at shaken
        cases shaken
      · rw [if_neg failed] at shaken
        exact ⟨rt, written, connected, Int.not_le.mp failed, rfl,
          (congrArg Prod.snd shaken).symm⟩
  · rw [if_pos connected] at shaken
    cases shaken

end Http2SocketStream
end ChatServer.Http2
