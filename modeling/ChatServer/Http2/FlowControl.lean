import ChatServer.Http2.ConnectionInvariant

/-!
# The two sides of flow control

What a connection may still send and what its peer may still send are counted apart. The
received settings, the send windows and the DATA frames that go out belong to one side; the
sent settings, the receive windows and the WINDOW_UPDATE frames that go out to the other. Most
operations touch one side only, and many neither of them.
-/

namespace ChatServer.Http2

set_option autoImplicit false

/-- The window of a stream that the settings of this side shift. -/
def ManagedStream.window (side : Side) (stream : ManagedStream) : Int :=
  match side with
  | .owner => stream.sendWindow
  | .peer => stream.recvWindow

def Frame.counts (side : Side) (frame : Frame) : Bool :=
  match side, frame.data with
  | .owner, some (.data _) => true
  | .peer, some (.windowUpdate _) => true
  | .peer, some (.settings _) => true
  | _, _ => false

def Frame.settingsIn (frame : Frame) : Option (List SettingsItem) :=
  match frameType frame.header.type, frame.data with
  | some .settings, some (.settings sts) =>
      if frame.header.streamId = 0 ∧ frame.header.flags &&& flagAck = 0 then some sts.items else none
  | _, _ => none

theorem go_away_free {side : Side} {frame : Frame} (goAway : frame.isGoAway = true) :
    frame.counts side = false := by
  unfold Frame.isGoAway at goAway
  split at goAway
  · rename_i payload
    unfold Frame.counts
    rw [payload]
    cases side <;> rfl
  · cases goAway

namespace Http2SocketStream

def window (side : Side) (conn : Http2SocketStream) : Int :=
  match side with
  | .owner => conn.sendWindow
  | .peer => conn.recvWindow

/-- Nothing was opened, and one side of flow control is as it was. -/
structure Steady (side : Side) (conn after : Http2SocketStream) : Prop where
  isClient : after.isClient = conn.isClient
  sn : after.sn = conn.sn
  allocated : after.allocated = conn.allocated
  streams : ∀ id ref, after.streams id = some ref → conn.streams id = some ref
  settings : after.settings side = conn.settings side
  window : after.window side = conn.window side
  heap : ∀ ref, (after.heap ref).id = (conn.heap ref).id ∧
    (after.heap ref).window side = (conn.heap ref).window side
  emitted : ∃ extra, after.emitted = conn.emitted ++ extra ∧
    ∀ frame ∈ extra, frame.counts side = false

theorem no_frames (conn : Http2SocketStream) (side : Side) :
    ∃ extra, conn.emitted = conn.emitted ++ extra ∧ ∀ frame ∈ extra, frame.counts side = false :=
  ⟨[], (List.append_nil _).symm, fun _ member => absurd member List.not_mem_nil⟩

theorem steady_refl (side : Side) (conn : Http2SocketStream) : Steady side conn conn :=
  ⟨rfl, rfl, rfl, fun _ _ found => found, rfl, rfl, fun _ => ⟨rfl, rfl⟩, no_frames conn side⟩

theorem steady_trans {side : Side} {conn middle after : Http2SocketStream}
    (first : Steady side conn middle) (second : Steady side middle after) :
    Steady side conn after where
  isClient := second.isClient.trans first.isClient
  sn := second.sn.trans first.sn
  allocated := second.allocated.trans first.allocated
  streams := fun id ref found => first.streams id ref (second.streams id ref found)
  settings := second.settings.trans first.settings
  window := second.window.trans first.window
  heap := fun ref => ⟨(second.heap ref).1.trans (first.heap ref).1,
    (second.heap ref).2.trans (first.heap ref).2⟩
  emitted := by
    obtain ⟨early, firstEq, earlyFree⟩ := first.emitted
    obtain ⟨late, secondEq, lateFree⟩ := second.emitted
    refine ⟨early ++ late, by rw [secondEq, firstEq, List.append_assoc], ?_⟩
    intro frame member
    cases List.mem_append.mp member with
    | inl inEarly => exact earlyFree frame inEarly
    | inr inLate => exact lateFree frame inLate

theorem written_steady {side : Side} (conn : Http2SocketStream) {frame : Frame}
    (free : frame.counts side = false) (writes : Nat → Int) (posted : Prop) [Decidable posted] :
    Steady side conn { conn with
      writes
      emitted := if posted then conn.emitted ++ [frame] else conn.emitted } := by
  refine ⟨rfl, rfl, rfl, fun _ _ found => found, ?_, ?_, fun _ => ⟨rfl, rfl⟩, ?_⟩
  · cases side <;> rfl
  · cases side <;> rfl
  · split_ifs
    · refine ⟨[frame], rfl, ?_⟩
      intro other member
      rwa [List.mem_singleton.mp member]
    · exact no_frames conn side

theorem enqueue_steady {side : Side} (conn : Http2SocketStream) {frame : Frame}
    (free : frame.counts side = false) : Steady side conn (conn.enqueue frame) := by
  rw [enqueue_eq]
  exact written_steady conn free _ _

theorem sent_frame_steady {side : Side} {conn next : Http2SocketStream} {frame : Frame}
    {async : Bool} {rt : Int} (free : frame.counts side = false)
    (sent : conn.sendFrame frame async = (rt, next)) : Steady side conn next := by
  obtain ⟨writes, same⟩ := send_frame_eq sent
  rw [same]
  exact written_steady conn free writes _

def KeepsWindow (side : Side) (change : ManagedStream → ManagedStream) : Prop :=
  ∀ stream, (change stream).id = stream.id ∧ (change stream).window side = stream.window side

theorem modify_steady {side : Side} (conn : Http2SocketStream) (ref : Nat)
    {change : ManagedStream → ManagedStream} (keeps : KeepsWindow side change) :
    Steady side conn (conn.modify ref change) := by
  refine ⟨rfl, rfl, rfl, fun _ _ found => found, ?_, ?_, ?_, no_frames conn side⟩
  · cases side <;> rfl
  · cases side <;> rfl
  · intro other
    rw [modify_heap]
    split_ifs with same
    · rw [same]
      exact keeps _
    · exact ⟨rfl, rfl⟩

theorem close_keeps_window (side : Side) : KeepsWindow side ManagedStream.close := by
  intro stream
  cases side <;> exact ⟨rfl, rfl⟩

theorem inner_close_steady (side : Side) (conn : Http2SocketStream) :
    Steady side conn conn.innerClose := by
  refine ⟨rfl, rfl, rfl, fun _ _ found => found, ?_, ?_, ?_, no_frames conn side⟩
  · cases side <;> rfl
  · cases side <;> rfl
  · intro ref
    change (((conn.foreach ManagedStream.close).heap ref).id = _ ∧
      ((conn.foreach ManagedStream.close).heap ref).window side = _)
    rw [foreach_heap]
    split_ifs
    · exact close_keeps_window side _
    · exact ⟨rfl, rfl⟩

theorem del_stream_steady (side : Side) (conn : Http2SocketStream) (id : UInt32) :
    Steady side conn (conn.delStream id) := by
  have erased (before : Http2SocketStream) :
      Steady side before { before with streams := Function.update before.streams id none } := by
    refine ⟨rfl, rfl, rfl, ?_, ?_, ?_, fun _ => ⟨rfl, rfl⟩, no_frames before side⟩
    · intro other ref found
      simp only [Function.update_apply] at found
      split_ifs at found
      exact found
    · cases side <;> rfl
    · cases side <;> rfl
  unfold delStream
  cases conn.getStream id with
  | none => exact erased conn
  | some ref => exact steady_trans (modify_steady conn ref (close_keeps_window side)) (erased _)

theorem on_time_out_steady (side : Side) (conn : Http2SocketStream) (sn : UInt32) :
    Steady side conn (conn.onTimeOut sn) := by
  have removed : Steady side conn { conn with ctxs := conn.ctxs.erase sn } := by
    have same := steady_refl side conn
    cases side <;> exact ⟨rfl, rfl, rfl, same.streams, rfl, rfl, same.heap, same.emitted⟩
  exact steady_trans removed (del_stream_steady side _ sn)

theorem handle_frame_steady (side : Side) {conn after : Http2SocketStream} {ref : Nat}
    {frame : Frame} (done : conn.handleFrame ref frame = .ok after) : Steady side conn after := by
  obtain ⟨⟨rt, stream, table⟩, _, finished⟩ := bind_eq_ok done
  rw [← Except.ok.inj finished]
  have keeps : KeepsWindow side fun managed => { managed with toHttp2Stream := stream } := by
    intro managed
    cases side <;> exact ⟨rfl, rfl⟩
  have changed := modify_steady conn ref keeps
  refine ⟨rfl, rfl, rfl, changed.streams, ?_, ?_, changed.heap, changed.emitted⟩
  · cases side <;> rfl
  · cases side <;> rfl

theorem go_away_steady (side : Side) (conn : Http2SocketStream) (lastStreamId error : UInt32)
    (debug : Str) : Steady side conn (conn.sendGoAway lastStreamId error debug) := by
  apply enqueue_steady
  cases side <;> rfl

theorem on_stream_close_steady (side : Side) (conn : Http2SocketStream) (ref : Nat) :
    Steady side conn (conn.onStreamClose ref) := by
  unfold onStreamClose
  dsimp only
  by_cases client : conn.isClient = true
  · rw [if_pos client]
    have removed := del_stream_steady side conn (conn.heap ref).id
    split_ifs
    · refine ⟨removed.isClient, removed.sn, removed.allocated, removed.streams, ?_, ?_,
        removed.heap, removed.emitted⟩
      · cases side <;> exact removed.settings
      · cases side <;> exact removed.window
    · exact removed
  · rw [if_neg client]
    have same := steady_refl side conn
    cases (conn.heap ref).request with
    | none => exact steady_trans (go_away_steady side conn _ _ _) (del_stream_steady side _ _)
    | some req =>
        dsimp only
        split_ifs
        · cases side <;> exact ⟨rfl, rfl, rfl, same.streams, rfl, rfl, same.heap, same.emitted⟩
        · exact same

theorem dispatch_steady (side : Side) (conn : Http2SocketStream) (ref : Nat) (req : HttpMessage) :
    Steady side conn (conn.dispatch ref req) := by
  have keeps : KeepsWindow side fun stream =>
      { stream with handleCount := stream.handleCount + 1 } := by
    intro stream
    cases side <;> exact ⟨rfl, rfl⟩
  have changed := modify_steady conn ref keeps
  unfold dispatch
  refine ⟨rfl, rfl, rfl, changed.streams, ?_, ?_, changed.heap, changed.emitted⟩
  · cases side <;> rfl
  · cases side <;> rfl

/-- The settings of one side leave the other as it is. -/
theorem settled_steady {side against : Side} {conn after : Http2SocketStream}
    (settled : Settled against conn after) (different : side ≠ against) :
    Steady side conn after := by
  refine ⟨settled.isClient, settled.sn, settled.allocated, ?_, settled.other side different, ?_, ?_,
    ?_⟩
  · intro id ref found
    rwa [settled.streams] at found
  · cases side
    · exact settled.sendWindow
    · exact settled.recvWindow
  · intro ref
    rw [settled.heap]
    split_ifs
    · refine ⟨ManagedStream.shift_id _ _ _, ?_⟩
      cases side <;> cases against <;> first | rfl | exact absurd rfl different
    · exact ⟨rfl, rfl⟩
  · obtain ⟨errors, same, goAway⟩ := settled.emitted
    exact ⟨errors, same, fun frame member => go_away_free (goAway frame member)⟩

theorem handle_window_update_steady (conn : Http2SocketStream) (frame : Frame) :
    Steady .peer conn (conn.handleWindowUpdate frame) := by
  have keeps (diff : Int) : KeepsWindow .peer (ManagedStream.updateSendWindowByDiff diff) :=
    fun _ => ⟨rfl, rfl⟩
  have same := steady_refl .peer conn
  unfold handleWindowUpdate
  split
  · split_ifs
    · split
      · exact go_away_steady .peer conn _ _ _
      · split_ifs
        · exact go_away_steady .peer conn _ _ _
        · exact modify_steady conn _ (keeps _)
    · exact go_away_steady .peer conn _ _ _
    · exact ⟨rfl, rfl, rfl, same.streams, rfl, rfl, same.heap, same.emitted⟩
  · exact inner_close_steady .peer conn

theorem control_steady {conn after : Http2SocketStream} {frame : Frame}
    (done : conn.control frame = .ok after) : Steady .peer conn after := by
  unfold control handleRecvSetting at done
  split at done
  · split_ifs at done
    · split at done
      · rw [← Except.ok.inj done]
        have settled := update_settings_settled .owner
        exact steady_trans (settled_steady (settled _ conn) (by decide)) (enqueue_steady _ rfl)
      · cases done
    · rw [← Except.ok.inj done]
      exact steady_refl .peer conn
  · split_ifs at done
    · split at done
      · rw [← Except.ok.inj done]
        exact enqueue_steady conn rfl
      · cases done
    · rw [← Except.ok.inj done]
      exact steady_refl .peer conn
  · rw [← Except.ok.inj done]
    exact steady_refl .peer conn

theorem sent_steady {conn after : Http2SocketStream} {ref : Nat} {frames : List Frame}
    (sent : Sent conn ref frames after) : Steady .peer conn after := by
  refine ⟨sent.isClient, sent.sn, sent.allocated, ?_, sent.peer, sent.recvWindow, ?_, frames,
    sent.emitted, ?_⟩
  · intro id found inMap
    rwa [sent.streams] at inMap
  · intro other
    rw [sent.heap]
    by_cases same : other = ref
    · rw [same, Function.update_self]
      exact ⟨rfl, rfl⟩
    · rw [Function.update_of_ne same]
      exact ⟨rfl, rfl⟩
  · intro frame member
    obtain ⟨body, last, endStream, same⟩ := sent.named frame member
    rw [same]
    rfl

theorem send_window_update_steady (conn : Http2SocketStream) (streamId n : UInt32) :
    Steady .owner conn (conn.sendWindowUpdate streamId n) := by
  have keeps (diff : Int) : KeepsWindow .owner (ManagedStream.updateRecvWindowByDiff diff) :=
    fun _ => ⟨rfl, rfl⟩
  have same := steady_refl .owner conn
  unfold sendWindowUpdate
  dsimp only
  split_ifs
  · have added : Steady .owner conn { conn with recvWindow := int32 (conn.recvWindow + n.toNat) } :=
      ⟨rfl, rfl, rfl, same.streams, rfl, rfl, same.heap, same.emitted⟩
    exact steady_trans added (enqueue_steady _ rfl)
  · cases conn.getStream streamId with
    | none => exact enqueue_steady conn rfl
    | some ref => exact steady_trans (modify_steady conn ref (keeps _)) (enqueue_steady _ rfl)

theorem account_steady (conn : Http2SocketStream) (ref : Nat) (frame : Frame) :
    Steady .owner conn (conn.account ref frame) := by
  have connection (before : Http2SocketStream) (length : Nat) :
      Steady .owner before (before.chargeConnection length) := by
    have same := steady_refl .owner before
    have charged : Steady .owner before { before with recvWindow := int32 (before.recvWindow - length) } :=
      ⟨rfl, rfl, rfl, same.streams, rfl, rfl, same.heap, same.emitted⟩
    unfold chargeConnection
    dsimp only
    split_ifs
    · exact steady_trans charged (send_window_update_steady _ _ _)
    · exact charged
  have stream (before : Http2SocketStream) (length : Nat) :
      Steady .owner before (before.chargeStream ref length) := by
    have keeps : KeepsWindow .owner fun stream =>
        { stream with recvWindow := int32 (stream.recvWindow - length), recvFits := int32_int32 _ } :=
      fun _ => ⟨rfl, rfl⟩
    have charged := modify_steady before ref keeps
    unfold chargeStream
    dsimp only
    split_ifs
    · exact steady_trans charged (send_window_update_steady _ _ _)
    · exact charged
  unfold account handleRecvData
  dsimp only
  split_ifs
  · exact steady_trans (connection conn _) (stream _ _)
  · exact steady_refl .owner conn
  · exact steady_refl .owner conn

theorem send_settings_steady (conn : Http2SocketStream) (items : List SettingsItem) :
    Steady .owner conn (conn.sendSettings items) := by
  have first : Steady .owner conn (conn.sendFrame (settingsFrame items) true).2 :=
    sent_frame_steady (show (settingsFrame items).counts .owner = false from rfl) rfl
  have settled := update_settings_settled .peer items (conn.sendFrame (settingsFrame items) true).2
  unfold sendSettings
  dsimp only
  split_ifs
  · exact steady_trans first (settled_steady settled (by decide))
  · exact first

theorem headers_free (side : Side) (id : UInt32) (kvs : List (Str × Str)) (ends : Bool) :
    (headersFrame id kvs ends).counts side = false := by cases side <;> rfl

theorem send_frame_sized {conn : Http2SocketStream} (sized : conn.Sized) (frame : Frame)
    (async : Bool) : (conn.sendFrame frame async).2.Sized :=
  (still_quiet (send_frame_still conn frame async)).sized sized

theorem headers_steady (side : Side) (conn : Http2SocketStream) (id : UInt32)
    (kvs : List (Str × Str)) (ends async : Bool) :
    Steady side conn (conn.sendFrame (headersFrame id kvs ends) async).2 :=
  sent_frame_steady (headers_free side id kvs ends) rfl

theorem send_data_cut {conn : Http2SocketStream} {ref : Nat} {data : Str} {async endStream : Bool}
    {result : Int × Http2SocketStream} (sized : conn.Sized)
    (done : conn.sendData ref data async endStream = .ok result) :
    Cut conn ref data (largest conn.frameRoom data.length) result.2 := by
  obtain ⟨rt, after, same, cut⟩ := send_data_spec sized ref data async endStream
  rw [done] at same
  rw [Except.ok.inj same]
  exact cut

theorem send_data_steady {conn : Http2SocketStream} {ref : Nat} {data : Str}
    {async endStream : Bool} {result : Int × Http2SocketStream} (sized : conn.Sized)
    (done : conn.sendData ref data async endStream = .ok result) : Steady .peer conn result.2 := by
  obtain ⟨frames, sent, _⟩ := send_data_cut sized done
  exact sent_steady sent

theorem send_response_steady {conn : Http2SocketStream} {ref : Nat} {rsp : HttpResponse}
    {endStream async : Bool} {result : Int × Http2SocketStream} (sized : conn.Sized)
    (done : conn.sendResponse ref rsp endStream async = .ok result) :
    Steady .peer conn result.2 := by
  apply send_response_rule (P := fun next => Steady .peer conn next ∧ next.Sized)
    (Q := fun next => Steady .peer conn next) _ _ _ _ ⟨steady_refl .peer conn, sized⟩ done
  · exact fun _ both => both.1
  · intro next id kvs ends both
    exact ⟨steady_trans both.1 (headers_steady .peer next id kvs ends async),
      send_frame_sized both.2 _ async⟩
  · intro next id kvs ends steady
    exact steady_trans steady (headers_steady .peer next id kvs ends async)
  · intro next ok after both _ bodySent
    exact steady_trans both.1 (send_data_steady both.2 bodySent)

theorem send_request_steady {conn : Http2SocketStream} {ref : Nat} {req : HttpRequest}
    {ssl endStream async : Bool} {result : Int × Http2SocketStream} (sized : conn.Sized)
    (done : conn.sendRequest ref req ssl endStream async = .ok result) :
    Steady .peer conn result.2 := by
  apply send_request_rule (P := fun next => Steady .peer conn next ∧ next.Sized)
    (Q := fun next => Steady .peer conn next) _ _ _ ⟨steady_refl .peer conn, sized⟩ done
  · exact fun _ both => both.1
  · intro next id kvs ends both
    exact ⟨steady_trans both.1 (headers_steady .peer next id kvs ends async),
      send_frame_sized both.2 _ async⟩
  · intro next ok after both _ bodySent
    exact steady_trans both.1 (send_data_steady both.2 bodySent)

/-- The data went out as DATA frames, and nothing else of the sending side changed. -/
def Posted (conn : Http2SocketStream) (ref : Nat) (data : Str) (after : Http2SocketStream) : Prop :=
  ∃ before behind, Steady .owner conn before ∧
    Cut before ref data (largest conn.frameRoom data.length) behind ∧ Steady .owner behind after

/-- The frames of a posted message stand between frames that carry no data. -/
theorem emitted_between {conn before behind after : Http2SocketStream} {ref : Nat}
    {frames : List Frame} (earlier : Steady .owner conn before)
    (sent : Sent before ref frames behind) (later : Steady .owner behind after) :
    ∃ first last, after.emitted = conn.emitted ++ (first ++ frames ++ last) ∧
      (∀ frame ∈ first, frame.counts .owner = false) ∧
      ∀ frame ∈ last, frame.counts .owner = false := by
  obtain ⟨first, firstEq, firstFree⟩ := earlier.emitted
  obtain ⟨last, lastEq, lastFree⟩ := later.emitted
  refine ⟨first, last, ?_, firstFree, lastFree⟩
  rw [lastEq, sent.emitted, firstEq]
  simp only [List.append_assoc]

theorem posted_steady {conn middle after : Http2SocketStream} {ref : Nat} {data : Str}
    (posted : Posted conn ref data middle) (steady : Steady .owner middle after) :
    Posted conn ref data after := by
  obtain ⟨before, behind, first, cut, last⟩ := posted
  exact ⟨before, behind, first, cut, steady_trans last steady⟩

theorem send_frame_peer (conn : Http2SocketStream) (frame : Frame) (async : Bool) :
    (conn.sendFrame frame async).2.peer = conn.peer := by
  unfold sendFrame
  split_ifs <;> rfl

/-- Nothing is posted yet when the headers are written. -/
theorem posted_nothing {conn next : Http2SocketStream} (ref : Nat) (data : Str)
    (steady : Steady .owner conn next) : Posted conn ref data next :=
  ⟨next, next, steady, cut_nothing next ref _ _ next.writes, steady_refl .owner next⟩

/-- The headers leave what the data behind them depends on. -/
theorem headers_before {conn next : Http2SocketStream}
    (before : Steady .owner conn next ∧ next.peer = conn.peer) (id : UInt32)
    (kvs : List (Str × Str)) (ends async : Bool) :
    Steady .owner conn (next.sendFrame (headersFrame id kvs ends) async).2 ∧
      (next.sendFrame (headersFrame id kvs ends) async).2.peer = conn.peer :=
  ⟨steady_trans before.1 (headers_steady .owner next id kvs ends async),
    (send_frame_peer next _ async).trans before.2⟩

theorem send_data_posted {conn next after : Http2SocketStream} {ref : Nat} {data : Str}
    {async endStream : Bool} {ok : Int} (sized : conn.Sized) (steady : Steady .owner conn next)
    (peer : next.peer = conn.peer)
    (done : next.sendData ref data async endStream = .ok (ok, after)) :
    Posted conn ref data after := by
  have nextSized : next.Sized := by rwa [Sized, peer]
  have cut := send_data_cut nextSized done
  rw [frameRoom, peer] at cut
  exact ⟨next, after, steady, cut, steady_refl .owner after⟩

theorem send_response_posted {conn : Http2SocketStream} {ref : Nat} {rsp : HttpResponse}
    {endStream async : Bool} {result : Int × Http2SocketStream} (sized : conn.Sized)
    (done : conn.sendResponse ref rsp endStream async = .ok result) :
    Posted conn ref rsp.body result.2 := by
  apply send_response_rule (P := fun next => Steady .owner conn next ∧ next.peer = conn.peer)
    (Q := Posted conn ref rsp.body) _ _ _ _ ⟨steady_refl .owner conn, rfl⟩ done
  · intro next before
    exact posted_nothing ref _ before.1
  · intro next id kvs ends before
    exact headers_before before id kvs ends async
  · intro next id kvs ends posted
    exact posted_steady posted (headers_steady .owner next id kvs ends async)
  · intro next ok after both _ bodySent
    exact send_data_posted sized both.1 both.2 bodySent

theorem send_request_posted {conn : Http2SocketStream} {ref : Nat} {req : HttpRequest}
    {ssl endStream async : Bool} {result : Int × Http2SocketStream} (sized : conn.Sized)
    (done : conn.sendRequest ref req ssl endStream async = .ok result) :
    Posted conn ref req.body result.2 := by
  apply send_request_rule (P := fun next => Steady .owner conn next ∧ next.peer = conn.peer)
    (Q := Posted conn ref req.body) _ _ _ ⟨steady_refl .owner conn, rfl⟩ done
  · intro next before
    exact posted_nothing ref _ before.1
  · intro next id kvs ends before
    exact headers_before before id kvs ends async
  · intro next ok after both _ bodySent
    exact send_data_posted sized both.1 both.2 bodySent

/-- A task answers one request or finds that it was answered. -/
theorem handle_request_posted {conn after : Http2SocketStream} {ref : Nat} {rsp : HttpResponse}
    (sized : conn.Sized) (done : conn.handleRequest ref rsp = .ok after) :
    Steady .peer conn after ∧
      (Steady .owner conn after ∨ (conn.heap ref).handleCount = 0 ∧ Posted conn ref rsp.body after) := by
  cases handle_request_cases done with
  | inl again =>
      rw [again.2]
      exact ⟨steady_refl .peer conn, .inl (steady_refl .owner conn)⟩
  | inr first =>
      obtain ⟨req, rt, next, fresh, _, responded, same⟩ := first
      rw [same]
      have begun : (conn.dispatch ref req).Sized := sized
      have removed (side : Side) := del_stream_steady side next (conn.heap ref).id
      refine ⟨?_, .inr ⟨fresh, ?_⟩⟩
      · have answered := steady_trans (dispatch_steady .peer conn ref req)
          (send_response_steady begun responded)
        exact steady_trans answered (removed .peer)
      · obtain ⟨before, behind, earlier, cut, later⟩ := send_response_posted begun responded
        exact ⟨before, behind, steady_trans (dispatch_steady .owner conn ref req) earlier, cut,
          steady_trans later (removed .owner)⟩

theorem open_request_steady (side : Side) (conn : Http2SocketStream) (isStream : Bool) :
    Steady side ({ conn with sn := conn.sn + 2 }.addStream (conn.sn + 2))
      (conn.openRequest isStream) := by
  have keeps : KeepsWindow side fun stream => { stream with isStream := true } := by
    intro stream
    cases side <;> exact ⟨rfl, rfl⟩
  unfold openRequest newStream
  dsimp only
  generalize { conn with sn := conn.sn + 2 }.addStream (conn.sn + 2) = grown
  cases isStream with
  | true => exact modify_steady grown conn.allocated keeps
  | false =>
      have same := steady_refl side grown
      cases side <;> exact ⟨rfl, rfl, rfl, same.streams, rfl, rfl, same.heap, same.emitted⟩

def Lands (conn : Http2SocketStream) (frame : Frame) : Prop :=
  frame.header.streamId ≠ 0 ∧ (conn.streams frame.header.streamId ≠ none ∨
    conn.isClient = false ∧ conn.sn < frame.header.streamId)

instance (conn : Http2SocketStream) (frame : Frame) : Decidable (conn.Lands frame) :=
  inferInstanceAs (Decidable (_ ∧ _))

inductive Receiving (conn : Http2SocketStream) : Action → Http2SocketStream → Prop where
  | steady {action : Action} {after : Http2SocketStream} (silent : action.received = [])
      (steady : Steady .peer conn after) : Receiving conn action after
  | opened {isStream : Bool} {after : Http2SocketStream} (client : conn.isClient = true)
      (steady : Steady .peer ({ conn with sn := conn.sn + 2 }.addStream (conn.sn + 2)) after) :
      Receiving conn (.openStream isStream) after
  | advertised {items : List SettingsItem} (valid : items.all SettingsItem.valid = true) :
      Receiving conn (.sendSettings items) (conn.sendSettings items)
  | passed {frame : Frame} {after : Http2SocketStream}
      (missed : frameType frame.header.type = some .windowUpdate ∨ ¬conn.Lands frame)
      (steady : Steady .peer conn after) : Receiving conn (.recv frame) after
  | landed {frame : Frame} {ref : Nat} {found after : Http2SocketStream}
      (connected : conn.connected = true)
      (typed : frameType frame.header.type ≠ some .windowUpdate)
      (nonzero : frame.header.streamId ≠ 0) (located : Located conn frame (some ref) found)
      (steady : Steady .peer (found.account ref frame) after) : Receiving conn (.recv frame) after

theorem received_receiving {conn after : Http2SocketStream} {frame : Frame}
    (connected : conn.connected = true) (received : Received conn frame after) :
    Receiving conn (.recv frame) after := by
  cases received with
  | windowUpdate typed => exact .passed (.inl typed) (handle_window_update_steady conn frame)
  | control typed zero done => exact .passed (.inr fun lands => lands.1 zero) (control_steady done)
  | dropped typed some located =>
      apply Receiving.passed
      · right
        intro lands
        cases located with
        | ignored unknown harmless =>
            cases lands.2 with
            | inl known => exact known unknown
            | inr above =>
                cases harmless with
                | inl client => simp [above.1] at client
                | inr below => exact absurd above.2 (UInt32.not_lt.mpr below.1)
        | refused unknown server below other =>
            cases lands.2 with
            | inl known => exact known unknown
            | inr above => exact absurd above.2 (UInt32.not_lt.mpr below)
      · cases located with
        | ignored unknown harmless => exact steady_refl .peer conn
        | refused unknown server below other => exact enqueue_steady conn rfl
  | kept typed some located handled running =>
      exact .landed connected typed some located (handle_frame_steady .peer handled)
  | closed typed some located handled ended =>
      apply Receiving.landed connected typed some located
      exact steady_trans (handle_frame_steady .peer handled) (on_stream_close_steady .peer _ _)
  | thrown typed some located threw =>
      exact .landed connected typed some located (inner_close_steady .peer _)

theorem step_receiving {conn after : Http2SocketStream} {action : Action} (sized : conn.Sized)
    (taken : conn.step action = some after) : Receiving conn action after := by
  cases step_cases taken with
  | recv connected _ received => exact received_receiving connected received
  | hangUp _ => exact .steady rfl (inner_close_steady .peer conn)
  | @task pick _ _ _ _ done =>
      have queued : Steady .peer conn { conn with scheduled := conn.scheduled.eraseIdx pick } := by
        have same := steady_refl .peer conn
        exact ⟨rfl, rfl, rfl, same.streams, rfl, rfl, same.heap, same.emitted⟩
      have rest : { conn with scheduled := conn.scheduled.eraseIdx pick }.Sized := sized
      exact .steady rfl (steady_trans queued (handle_request_posted rest done).1)
  | openStream isStream client _ =>
      exact .opened client (open_request_steady .peer conn isStream)
  | unsent _ => exact .steady rfl (steady_refl .peer conn)
  | sendRequest _ done => exact .steady rfl (send_request_steady sized done)
  | sendData _ done => exact .steady rfl (send_data_steady sized done)
  | sendSettings valid => exact .advertised valid
  | onTimeOut sn _ => exact .steady rfl (on_time_out_steady .peer conn sn)

/-- The stream and the data that an action hands to `sendData`. -/
def outgoing (conn : Http2SocketStream) : Action → Option (Nat × Str)
  | .sendData ref data _ _ => some (ref, data)
  | .sendRequest sn req _ _ => (conn.streams sn).map fun ref => (ref, req.body)
  | .task pick rsp =>
      match conn.scheduled[pick]? with
      | some ref => if (conn.heap ref).handleCount = 0 then some (ref, rsp.body) else none
      | none => none
  | _ => none

/-- The action receives nothing that grants credit or changes the settings. -/
def Action.Plain (action : Action) : Prop :=
  ∀ frame ∈ action.received, frameType frame.header.type ≠ some .windowUpdate ∧
    frame.settingsIn = none

inductive Sending (conn : Http2SocketStream) : Action → Http2SocketStream → Prop where
  | steady {action : Action} {after : Http2SocketStream} (plain : action.Plain)
      (steady : Steady .owner conn after) : Sending conn action after
  | opened {action : Action} {sn id : UInt32} {after : Http2SocketStream} (plain : action.Plain)
      (steady : Steady .owner ({ conn with sn }.addStream id) after) : Sending conn action after
  | windowUpdate {frame : Frame} (typed : frameType frame.header.type = some .windowUpdate) :
      Sending conn (.recv frame) (conn.handleWindowUpdate frame)
  | settings {frame : Frame} {items : List SettingsItem} {after : Http2SocketStream}
      (inForce : frame.settingsIn = some items)
      (steady : Steady .owner (conn.updateSettings .owner items) after) :
      Sending conn (.recv frame) after
  | posted {action : Action} {ref : Nat} {data : Str} {after : Http2SocketStream}
      (silent : action.received = []) (hands : conn.outgoing action = some (ref, data))
      (posted : Posted conn ref data after) : Sending conn action after

theorem control_sending {conn after : Http2SocketStream} {frame : Frame}
    (typed : frameType frame.header.type ≠ some .windowUpdate)
    (zero : frame.header.streamId = 0) (done : conn.control frame = .ok after) :
    Sending conn (.recv frame) after := by
  have own (none : frame.settingsIn = none) : (Action.recv frame).Plain := by
    intro other member
    rw [List.mem_singleton.mp member]
    exact ⟨typed, none⟩
  unfold control handleRecvSetting at done
  split at done
  · rename_i kind
    split_ifs at done with fresh
    · split at done
      · rename_i sts payload
        rw [← Except.ok.inj done]
        have inForce : frame.settingsIn = some sts.items := by
          simp [Frame.settingsIn, kind, payload, zero, fresh]
        exact .settings inForce (enqueue_steady _ rfl)
      · cases done
    · rw [← Except.ok.inj done]
      apply Sending.steady _ (steady_refl .owner conn)
      apply own
      unfold Frame.settingsIn
      split
      · rw [if_neg fun both => fresh both.2]
      · rfl
  · rename_i kind
    have none : frame.settingsIn = none := by simp [Frame.settingsIn, kind]
    split_ifs at done
    · split at done
      · rw [← Except.ok.inj done]
        exact .steady (own none) (enqueue_steady conn rfl)
      · cases done
    · rw [← Except.ok.inj done]
      exact .steady (own none) (steady_refl .owner conn)
  · rename_i notSettings notPing
    have none : frame.settingsIn = none := by
      unfold Frame.settingsIn
      split
      · rename_i kind _
        exact absurd kind notSettings
      · rfl
    rw [← Except.ok.inj done]
    exact .steady (own none) (steady_refl .owner conn)

theorem received_sending {conn after : Http2SocketStream} {frame : Frame}
    (received : Received conn frame after) : Sending conn (.recv frame) after := by
  have plain (typed : frameType frame.header.type ≠ some .windowUpdate)
      (some : frame.header.streamId ≠ 0) : (Action.recv frame).Plain := by
    intro other member
    rw [List.mem_singleton.mp member]
    refine ⟨typed, ?_⟩
    unfold Frame.settingsIn
    split
    · rw [if_neg fun both => some both.1]
    · rfl
  have delivered {found : Http2SocketStream} {ref : Nat}
      (typed : frameType frame.header.type ≠ some .windowUpdate)
      (some : frame.header.streamId ≠ 0) (located : Located conn frame (.some ref) found)
      (steady : Steady .owner found after) : Sending conn (.recv frame) after := by
    cases located with
    | known _ => exact .steady (plain typed some) steady
    | opened _ _ _ => exact .opened (plain typed some) steady
  cases received with
  | windowUpdate typed => exact .windowUpdate typed
  | control typed zero done => exact control_sending typed zero done
  | dropped typed some located =>
      apply Sending.steady (plain typed some)
      cases located with
      | ignored _ _ => exact steady_refl .owner conn
      | refused _ _ _ _ => exact enqueue_steady conn rfl
  | kept typed some located handled running =>
      apply delivered typed some located
      exact steady_trans (account_steady _ _ frame) (handle_frame_steady .owner handled)
  | closed typed some located handled ended =>
      apply delivered typed some located
      have handledSteady := steady_trans (account_steady _ _ frame)
        (handle_frame_steady .owner handled)
      exact steady_trans handledSteady (on_stream_close_steady .owner _ _)
  | thrown typed some located threw =>
      apply delivered typed some located
      exact steady_trans (account_steady _ _ frame) (inner_close_steady .owner _)

theorem step_sending {conn after : Http2SocketStream} {action : Action} (sized : conn.Sized)
    (taken : conn.step action = some after) : Sending conn action after := by
  have plain {other : Action} (silent : other.received = []) : other.Plain := by
    intro frame member
    rw [silent] at member
    exact absurd member List.not_mem_nil
  cases step_cases taken with
  | recv _ _ received => exact received_sending received
  | hangUp _ => exact .steady (plain rfl) (inner_close_steady .owner conn)
  | @task pick ref rsp _ picked done =>
      have queued : Steady .owner conn { conn with scheduled := conn.scheduled.eraseIdx pick } := by
        have same := steady_refl .owner conn
        exact ⟨rfl, rfl, rfl, same.streams, rfl, rfl, same.heap, same.emitted⟩
      have rest : { conn with scheduled := conn.scheduled.eraseIdx pick }.Sized := sized
      cases (handle_request_posted rest done).2 with
      | inl again => exact .steady (plain rfl) (steady_trans queued again)
      | inr first =>
          obtain ⟨fresh, before, behind, earlier, cut, later⟩ := first
          apply Sending.posted rfl _ ⟨before, behind, steady_trans queued earlier, cut, later⟩
          change (conn.heap ref).handleCount = 0 at fresh
          simp only [outgoing, picked, fresh, if_true]
  | openStream isStream client _ =>
      exact .opened (plain rfl) (open_request_steady .owner conn isStream)
  | unsent _ => exact .steady (plain rfl) (steady_refl .owner conn)
  | sendRequest found done =>
      apply Sending.posted rfl _ (send_request_posted sized done)
      simp only [outgoing, found, Option.map_some]
  | sendData _ done =>
      exact .posted rfl rfl (send_data_posted sized (steady_refl .owner conn) rfl done)
  | sendSettings _ => exact .steady (plain rfl) (send_settings_steady conn _)
  | onTimeOut sn _ => exact .steady (plain rfl) (on_time_out_steady .owner conn sn)

/-- The settings of the client and their acknowledgement. -/
theorem greeting_steady (writes : Nat → Int) (items : List SettingsItem) :
    Steady .peer { new false with writes }
      ({ new false with writes }.updateSettings .owner items).sendSettingsAck := by
  have settled := update_settings_settled .owner items { new false with writes }
  exact steady_trans (settled_steady settled (by decide)) (enqueue_steady _ rfl)

def greetingItems (greeting : List Frame) : List SettingsItem :=
  greeting.flatMap fun frame =>
    match frame.data with
    | some (.settings sts) => sts.items
    | _ => []

/-- A handshake only stores the settings it receives on the sending side. -/
theorem started_owner {conn : Http2SocketStream} {greeting : List Frame}
    (started : Started conn greeting) : ∃ isClient writes,
      Steady .owner ({ new isClient with writes }.updateSettings .owner (greetingItems greeting))
        conn := by
  cases started with
  | server writes frame shaken =>
      obtain ⟨sts, _, payload, same⟩ := shaken_server shaken
      have items : greetingItems [frame] = sts.items := by
        simp [greetingItems, payload]
      refine ⟨false, writes, ?_⟩
      rw [same, items]
      exact steady_trans (enqueue_steady _ rfl) (send_settings_steady _ [])
  | client writes shaken =>
      obtain ⟨rt, written, _, _, sent, same⟩ := shaken_client shaken
      refine ⟨true, fun call => writes (call + 1), ?_⟩
      rw [same]
      have settled := update_settings_settled .peer clientSettings
        { new true with writes := fun call => writes (call + 1) }
      have announced : Steady .owner { new true with writes := fun call => writes (call + 1) }
          written :=
        steady_trans (settled_steady settled (by decide)) (sent_frame_steady (by rfl) sent)
      exact steady_trans announced (send_window_update_steady _ _ _)

end Http2SocketStream
end ChatServer.Http2
