import ChatServer.Http2.Settings

/-!
# Reconnecting

`Http2Connection::reset` runs before every handshake of a client. It restores the members one
by one; the streams are only closed, so those in the map stay there.
-/

namespace ChatServer.Http2.Http2SocketStream

set_option autoImplicit false

structure SameProtocol (lhs rhs : Http2SocketStream) : Prop where
  streams : lhs.streams = rhs.streams
  sn : lhs.sn = rhs.sn
  owner : lhs.owner = rhs.owner
  peer : lhs.peer = rhs.peer
  sendWindow : lhs.sendWindow = rhs.sendWindow
  recvWindow : lhs.recvWindow = rhs.recvWindow
  sendTable : lhs.sendTable = rhs.sendTable
  recvTable : lhs.recvTable = rhs.recvTable

/-- Two clients without streams in the same protocol state, of which the first has sent
`before` in an earlier life. -/
structure Twin (before : List Frame) (lhs rhs : Http2SocketStream) : Prop where
  protocol : SameProtocol lhs rhs
  client : lhs.isClient = true
  sameClient : rhs.isClient = true
  connected : lhs.connected = rhs.connected
  empty : ∀ id, rhs.streams id = none
  emitted : lhs.emitted = before ++ rhs.emitted

variable {before : List Frame} {lhs rhs : Http2SocketStream}

theorem twin_enqueue (twin : Twin before lhs rhs) (frame : Frame) :
    Twin before (lhs.enqueue frame) (rhs.enqueue frame) := by
  have emitted : (lhs.enqueue frame).emitted = before ++ (rhs.enqueue frame).emitted := by
    rw [enqueue_eq, enqueue_eq]
    dsimp only
    rw [twin.connected, twin.emitted]
    split_ifs
    · exact List.append_assoc _ _ _
    · rfl
  rw [enqueue_eq, enqueue_eq] at emitted ⊢
  exact { twin with protocol := { twin.protocol with }, emitted := emitted }

theorem twin_go_away (twin : Twin before lhs rhs) (error : UInt32) (debug : Str) :
    Twin before (lhs.sendGoAway lhs.sn error debug) (rhs.sendGoAway rhs.sn error debug) := by
  rw [twin.protocol.sn]
  exact twin_enqueue twin _

theorem twin_foreach (twin : Twin before lhs rhs) (change : ManagedStream → ManagedStream) :
    Twin before (lhs.foreach change) (rhs.foreach change) :=
  { twin with protocol := { twin.protocol with } }

theorem twin_store (twin : Twin before lhs rhs) (side : Side)
    (change : Http2Settings → Http2Settings) :
    Twin before (lhs.store side change) (rhs.store side change) := by
  have protocol := twin.protocol
  cases side with
  | owner =>
      have same := congrArg change protocol.owner
      exact { twin with protocol := { protocol with owner := same } }
  | peer =>
      have same := congrArg change protocol.peer
      exact { twin with protocol := { protocol with peer := same } }

theorem twin_set_max_data_size (twin : Twin before lhs rhs) (side : Side) (v : Int) :
    Twin before (lhs.setMaxDataSize side v) (rhs.setMaxDataSize side v) := by
  have protocol := twin.protocol
  cases side with
  | owner =>
      have same := congrArg (fun table => DynamicTable.setMaxDataSize table v) protocol.sendTable
      exact { twin with protocol := { protocol with sendTable := same } }
  | peer =>
      have same := congrArg (fun table => DynamicTable.setMaxDataSize table v) protocol.recvTable
      exact { twin with protocol := { protocol with recvTable := same } }

theorem twin_update_window (twin : Twin before lhs rhs) (side : Side) (diff : Int) :
    Twin before (lhs.updateWindowByDiff side diff) (rhs.updateWindowByDiff side diff) := by
  cases side <;> exact twin_foreach twin _

theorem twin_update_setting (twin : Twin before lhs rhs) (side : Side) (i : SettingsItem) :
    Twin before (updateSetting side lhs i) (updateSetting side rhs i) := by
  have settings : lhs.settings side = rhs.settings side := by
    cases side with
    | owner => exact twin.protocol.owner
    | peer => exact twin.protocol.peer
  unfold updateSetting
  cases setting i.identifier with
  | none => exact twin
  | some named =>
      cases named with
      | headerTableSize => exact twin_set_max_data_size (twin_store twin side _) side _
      | enablePush =>
          dsimp only
          split_ifs
          · exact twin_store (twin_go_away twin protocolError []) side _
          · exact twin_store twin side _
      | maxConcurrentStreams => exact twin_store twin side _
      | initialWindowSize =>
          dsimp only
          split_ifs
          · rw [settings]
            exact twin_update_window (twin_store twin side _) side _
          · exact twin_go_away twin protocolError []
      | maxFrameSize =>
          dsimp only
          split_ifs
          · exact twin_go_away (twin_store twin side _) protocolError []
          · exact twin_store twin side _
      | maxHeaderListSize => exact twin_store twin side _

theorem twin_update_settings (side : Side) (items : List SettingsItem) :
    ∀ {lhs rhs : Http2SocketStream}, Twin before lhs rhs →
      Twin before (lhs.updateSettings side items) (rhs.updateSettings side items) := by
  induction items with
  | nil => exact fun twin => twin
  | cons i rest induction =>
      intro lhs rhs twin
      exact induction (twin_update_setting twin side i)

theorem twin_inner_close (twin : Twin before lhs rhs) :
    Twin before lhs.innerClose rhs.innerClose :=
  { twin with protocol := { twin.protocol with }, connected := rfl }

theorem twin_window_update (twin : Twin before lhs rhs) (frame : Frame) :
    Twin before (lhs.handleWindowUpdate frame) (rhs.handleWindowUpdate frame) := by
  have unknown (id : UInt32) : lhs.getStream id = none ∧ rhs.getStream id = none := by
    refine ⟨?_, twin.empty id⟩
    rw [getStream, twin.protocol.streams]
    exact twin.empty id
  unfold handleWindowUpdate
  split
  · rw [(unknown _).1, (unknown _).2, twin.protocol.sendWindow]
    split_ifs
    · exact twin_go_away twin protocolError []
    · exact twin_go_away twin protocolError []
    · exact { twin with protocol := { twin.protocol with sendWindow := rfl } }
  · exact twin_inner_close twin

def Matches (before : List Frame) (lhs rhs : Result Http2SocketStream) : Prop :=
  (∃ first second, lhs = .ok first ∧ rhs = .ok second ∧ Twin before first second) ∨
    ∃ fault, lhs = .error fault ∧ rhs = .error fault

theorem matches_ok {first second : Http2SocketStream} (twin : Twin before first second) :
    Matches before (.ok first) (.ok second) := .inl ⟨first, second, rfl, rfl, twin⟩

theorem twin_control (twin : Twin before lhs rhs) (frame : Frame) :
    Matches before (lhs.control frame) (rhs.control frame) := by
  unfold control
  split
  · split_ifs
    · unfold handleRecvSetting
      split
      · exact matches_ok (twin_enqueue (twin_update_settings .owner _ twin) _)
      · exact .inr ⟨_, rfl, rfl⟩
    · exact matches_ok twin
  · split_ifs
    · split
      · exact matches_ok (twin_enqueue twin _)
      · exact .inr ⟨_, rfl, rfl⟩
    · exact matches_ok twin
  · exact matches_ok twin

/-- A client without streams ignores the frames of streams. -/
theorem twin_do_recv (twin : Twin before lhs rhs) (frame : Frame) :
    Matches before (lhs.doRecv (some frame)) (rhs.doRecv (some frame)) := by
  have dropped {conn : Http2SocketStream} (client : conn.isClient = true)
      (empty : ∀ id, conn.streams id = none) : conn.locate frame = (none, conn) := by
    simp only [locate, getStream, empty, client, if_true]
  have lhsEmpty (id : UInt32) : lhs.streams id = none := by
    rw [twin.protocol.streams]
    exact twin.empty id
  unfold doRecv
  dsimp only
  rw [dropped twin.client lhsEmpty, dropped twin.sameClient twin.empty]
  split_ifs
  · exact matches_ok (twin_window_update twin frame)
  · exact matches_ok twin
  · exact twin_control twin frame

def receive (conn : Http2SocketStream) : List Frame → Result Http2SocketStream
  | [] => .ok conn
  | frame :: rest => do
      let conn ← conn.doRecv (some frame)
      conn.receive rest

theorem twin_receive (frames : List Frame) : ∀ {lhs rhs : Http2SocketStream},
    Twin before lhs rhs → Matches before (lhs.receive frames) (rhs.receive frames) := by
  induction frames with
  | nil => exact fun twin => matches_ok twin
  | cons frame rest induction =>
      intro lhs rhs twin
      unfold receive
      cases twin_do_recv twin frame with
      | inl returned =>
          obtain ⟨first, second, lhsOk, rhsOk, twins⟩ := returned
          rw [lhsOk, rhsOk, bind_ok, bind_ok]
          exact induction twins
      | inr ended =>
          obtain ⟨fault, lhsEnded, rhsEnded⟩ := ended
          rw [lhsEnded, rhsEnded]
          exact .inr ⟨fault, rfl, rfl⟩

/-- A connection that starts anew on the socket of `conn`. -/
def renewed (conn : Http2SocketStream) : Http2SocketStream :=
  { new conn.isClient with connected := conn.connected }

/-- After a reset the connection is like a new one and treats every sequence of received frames
in the same way. -/
structure StartsClean (conn : Http2SocketStream) : Prop where
  state : SameProtocol conn.reset conn.renewed
  behaviour : ∀ frames, Matches conn.emitted (conn.reset.receive frames) (conn.renewed.receive frames)

theorem reset_same_protocol {conn : Http2SocketStream} (empty : ∀ id, conn.streams id = none) :
    SameProtocol conn.reset conn.renewed :=
  ⟨funext empty, rfl, rfl, rfl, rfl, rfl, rfl, rfl⟩

/-- Exactly the connections without streams start clean. -/
theorem reset_starts_clean_iff (conn : Http2SocketStream) (client : conn.isClient = true) :
    StartsClean conn ↔ ∀ id, conn.streams id = none := by
  constructor
  · intro clean id
    exact congrFun clean.state.streams id
  · intro empty
    have same := reset_same_protocol empty
    refine ⟨same, fun frames => twin_receive frames ?_⟩
    exact ⟨same, client, client, rfl, fun _ => rfl, (List.append_nil _).symm⟩

theorem reset_starts_clean_new : StartsClean (new true) :=
  (reset_starts_clean_iff (new true) rfl).mpr fun _ => rfl

def staleConnection : Http2SocketStream := { (new true).newStream.2.innerClose with connected := true }

def lastData : Frame :=
  ⟨{ length := 1, type := 0x0, flags := 0x1, identifier := 1 }, some (.data { data := [0x61] })⟩

/-- The stream is still there, and a frame that a new connection ignores follows the null
pointer that closing it left in its data. -/
theorem stale_stream_survives_reset :
    staleConnection.reset.streams 1 = some 0 ∧ ¬StartsClean staleConnection ∧
      staleConnection.reset.receive [lastData] = .error (.undefined .nullDeref) ∧
      ∃ after, staleConnection.renewed.receive [lastData] = .ok after := by
  have stale : staleConnection.reset.streams 1 = some 0 := rfl
  refine ⟨stale, ?_, rfl, _, rfl⟩
  intro clean
  have gone := congrFun clean.state.streams 1
  rw [stale] at gone
  cases gone

end ChatServer.Http2.Http2SocketStream
