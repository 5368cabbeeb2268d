import ChatServer.Http2.ConnectionRuns

/-!
# What operations leave alone

Most operations of a connection open no stream, schedule nothing and dispatch nothing. They may
take streams out of the map, but never put one in.
-/

namespace ChatServer.Http2

set_option autoImplicit false

theorem Http2Stream.handle_by_type_request {stream after : Http2Stream}
    {table tableAfter : Option DynamicTable} {frame : Frame} {rt : Int}
    (done : stream.handleByType table frame = .ok (rt, after, tableAfter)) :
    after.request = stream.request := by
  unfold handleByType at done
  split at done
  · obtain ⟨⟨parsed, middle, tableMiddle⟩, handled, done⟩ := bind_eq_ok done
    dsimp only at done
    split_ifs at done
    cases done
    unfold handleHeadersFrame at handled
    split at handled
    · split at handled
      · obtain ⟨⟨result, hp⟩, _, handled⟩ := bind_eq_ok handled
        cases handled
        rfl
      · cases handled
        rfl
    · cases handled
      rfl
  · unfold handleDataFrame at done
    split at done
    · split at done <;> cases done <;> rfl
    · cases done
      rfl
  · cases done
    rfl
  · cases done
    rfl

theorem Http2Stream.finish_request {stream after : Http2Stream} {isClient : Bool}
    (done : stream.finish isClient = .ok after) (some : stream.request ≠ none) :
    after.request ≠ none := by
  unfold finish at done
  dsimp only at done
  cases isClient with
  | true =>
      obtain ⟨filled, _, done⟩ := bind_eq_ok done
      cases done
      exact some
  | false =>
      obtain ⟨filled, _, done⟩ := bind_eq_ok done
      cases done
      exact Option.some_ne_none _

/-- A stream that has a request keeps one. -/
theorem Http2Stream.handle_frame_request {stream after : Http2Stream}
    {table tableAfter : Option DynamicTable} {frame : Frame} {isClient : Bool} {rt : Int}
    (done : stream.handleFrame table frame isClient = .ok (rt, after, tableAfter))
    (some : stream.request ≠ none) : after.request ≠ none := by
  obtain ⟨⟨rtByType, middle, tableMiddle⟩, byType, done⟩ := bind_eq_ok done
  have kept : middle.request = stream.request := Http2Stream.handle_by_type_request byType
  obtain ⟨_, _, done⟩ := bind_eq_ok done
  split_ifs at done
  · obtain ⟨ended, finished, done⟩ := bind_eq_ok done
    cases done
    exact Http2Stream.finish_request finished (kept ▸ some)
  · cases done
    exact kept ▸ some

namespace Http2SocketStream

/-- It is the same stream, handled as often as before, and it has not lost its request. -/
def SameStream (stream after : ManagedStream) : Prop :=
  after.id = stream.id ∧ after.handleCount = stream.handleCount ∧
    (stream.request ≠ none → after.request ≠ none)

theorem same_stream_refl (stream : ManagedStream) : SameStream stream stream := ⟨rfl, rfl, id⟩

theorem same_stream_trans {stream middle after : ManagedStream} (first : SameStream stream middle)
    (second : SameStream middle after) : SameStream stream after :=
  ⟨second.1.trans first.1, second.2.1.trans first.2.1, fun some => second.2.2 (first.2.2 some)⟩

def Keeps (change : ManagedStream → ManagedStream) : Prop :=
  ∀ stream, SameStream stream (change stream)

/-- The frame size that `sendData` reads is one that may be sent. -/
def Sized (conn : Http2SocketStream) : Prop :=
  defaultMaxFrameSize ≤ conn.peer.maxFrameSize ∧ conn.peer.maxFrameSize ≤ maxMaxFrameSize

/-- Nothing was opened, scheduled or dispatched; streams may have left the map. -/
structure Quiet (conn after : Http2SocketStream) : Prop where
  isClient : after.isClient = conn.isClient
  sn : after.sn = conn.sn
  allocated : after.allocated = conn.allocated
  scheduled : after.scheduled = conn.scheduled
  dispatched : after.dispatched = conn.dispatched
  streams : ∀ id ref, after.streams id = some ref → conn.streams id = some ref
  heap : ∀ ref, SameStream (conn.heap ref) (after.heap ref)
  sized : conn.Sized → after.Sized

theorem quiet_same {conn after : Http2SocketStream} (isClient : after.isClient = conn.isClient)
    (sn : after.sn = conn.sn) (allocated : after.allocated = conn.allocated)
    (scheduled : after.scheduled = conn.scheduled) (dispatched : after.dispatched = conn.dispatched)
    (streams : after.streams = conn.streams) (heap : after.heap = conn.heap)
    (peer : after.peer = conn.peer) : Quiet conn after := by
  refine ⟨isClient, sn, allocated, scheduled, dispatched, ?_, ?_, ?_⟩
  · intro id ref found
    rwa [streams] at found
  · intro ref
    rw [heap]
    exact same_stream_refl _
  · intro sized
    rwa [Sized, peer]

theorem quiet_refl (conn : Http2SocketStream) : Quiet conn conn :=
  quiet_same rfl rfl rfl rfl rfl rfl rfl rfl

theorem quiet_trans {conn middle after : Http2SocketStream} (first : Quiet conn middle)
    (second : Quiet middle after) : Quiet conn after where
  isClient := second.isClient.trans first.isClient
  sn := second.sn.trans first.sn
  allocated := second.allocated.trans first.allocated
  scheduled := second.scheduled.trans first.scheduled
  dispatched := second.dispatched.trans first.dispatched
  streams := fun id ref found => first.streams id ref (second.streams id ref found)
  heap := fun ref => same_stream_trans (first.heap ref) (second.heap ref)
  sized := fun sized => second.sized (first.sized sized)

def SameContent (stream after : ManagedStream) : Prop :=
  after.toHttp2Stream = stream.toHttp2Stream ∧ after.id = stream.id ∧
    after.handleCount = stream.handleCount

theorem same_content_refl (stream : ManagedStream) : SameContent stream stream := ⟨rfl, rfl, rfl⟩

def KeepsContent (change : ManagedStream → ManagedStream) : Prop :=
  ∀ stream, SameContent stream (change stream)

structure Still (conn after : Http2SocketStream) : Prop where
  isClient : after.isClient = conn.isClient
  sn : after.sn = conn.sn
  allocated : after.allocated = conn.allocated
  scheduled : after.scheduled = conn.scheduled
  dispatched : after.dispatched = conn.dispatched
  streams : after.streams = conn.streams
  connected : after.connected = conn.connected
  recvTable : after.recvTable = conn.recvTable
  peer : after.peer = conn.peer
  heap : ∀ ref, SameContent (conn.heap ref) (after.heap ref)

theorem still_refl (conn : Http2SocketStream) : Still conn conn :=
  ⟨rfl, rfl, rfl, rfl, rfl, rfl, rfl, rfl, rfl, fun _ => same_content_refl _⟩

theorem still_trans {conn middle after : Http2SocketStream} (first : Still conn middle)
    (second : Still middle after) : Still conn after where
  isClient := second.isClient.trans first.isClient
  sn := second.sn.trans first.sn
  allocated := second.allocated.trans first.allocated
  scheduled := second.scheduled.trans first.scheduled
  dispatched := second.dispatched.trans first.dispatched
  streams := second.streams.trans first.streams
  connected := second.connected.trans first.connected
  recvTable := second.recvTable.trans first.recvTable
  peer := second.peer.trans first.peer
  heap := fun ref => ⟨(second.heap ref).1.trans (first.heap ref).1,
    (second.heap ref).2.1.trans (first.heap ref).2.1,
    (second.heap ref).2.2.trans (first.heap ref).2.2⟩

theorem still_quiet {conn after : Http2SocketStream} (still : Still conn after) :
    Quiet conn after := by
  refine ⟨still.isClient, still.sn, still.allocated, still.scheduled, still.dispatched, ?_, ?_, ?_⟩
  · intro id ref found
    rwa [still.streams] at found
  · intro ref
    obtain ⟨content, id, count⟩ := still.heap ref
    refine ⟨id, count, ?_⟩
    rw [content]
    exact fun some => some
  · intro sized
    rwa [Sized, still.peer]

theorem send_frame_still (conn : Http2SocketStream) (frame : Frame) (async : Bool) :
    Still conn (conn.sendFrame frame async).2 := by
  have same := still_refl conn
  unfold sendFrame
  split_ifs
  · exact ⟨rfl, rfl, rfl, rfl, rfl, rfl, rfl, rfl, rfl, same.heap⟩
  · exact ⟨rfl, rfl, rfl, rfl, rfl, rfl, rfl, rfl, rfl, same.heap⟩
  · exact same

theorem sent_still {conn next : Http2SocketStream} {frame : Frame} {async : Bool} {rt : Int}
    (sent : conn.sendFrame frame async = (rt, next)) : Still conn next := by
  have still := send_frame_still conn frame async
  rwa [sent] at still

theorem enqueue_still (conn : Http2SocketStream) (frame : Frame) :
    Still conn (conn.enqueue frame) := send_frame_still conn frame true

theorem enqueue_quiet (conn : Http2SocketStream) (frame : Frame) :
    Quiet conn (conn.enqueue frame) := still_quiet (enqueue_still conn frame)

theorem modify_heap (conn : Http2SocketStream) (ref : Nat)
    (change : ManagedStream → ManagedStream) (other : Nat) :
    (conn.modify ref change).heap other =
      if other = ref then change (conn.heap ref) else conn.heap other := by
  simp only [modify, Function.update_apply]

theorem modify_still (conn : Http2SocketStream) (ref : Nat)
    {change : ManagedStream → ManagedStream} (keeps : KeepsContent change) :
    Still conn (conn.modify ref change) := by
  refine ⟨rfl, rfl, rfl, rfl, rfl, rfl, rfl, rfl, rfl, ?_⟩
  intro other
  rw [modify_heap]
  split_ifs with same
  · rw [same]
    exact keeps _
  · exact same_content_refl _

theorem update_send_keeps (diff : Int) : KeepsContent (ManagedStream.updateSendWindowByDiff diff) :=
  fun _ => ⟨rfl, rfl, rfl⟩

theorem update_recv_keeps (diff : Int) : KeepsContent (ManagedStream.updateRecvWindowByDiff diff) :=
  fun _ => ⟨rfl, rfl, rfl⟩

theorem send_window_update_still (conn : Http2SocketStream) (streamId n : UInt32) :
    Still conn (conn.sendWindowUpdate streamId n) := by
  have same := still_refl conn
  unfold sendWindowUpdate
  dsimp only
  split_ifs
  · have added : Still conn { conn with recvWindow := int32 (conn.recvWindow + n.toNat) } :=
      ⟨rfl, rfl, rfl, rfl, rfl, rfl, rfl, rfl, rfl, same.heap⟩
    exact still_trans added (enqueue_still _ _)
  · cases conn.getStream streamId with
    | none => exact enqueue_still conn _
    | some ref =>
        exact still_trans (modify_still conn ref (update_recv_keeps _)) (enqueue_still _ _)

theorem handle_window_update_still {conn : Http2SocketStream} {frame : Frame}
    {wuf : WindowUpdateFrame} (payload : frame.data = some (.windowUpdate wuf)) :
    Still conn (conn.handleWindowUpdate frame) := by
  have same := still_refl conn
  unfold handleWindowUpdate
  rw [payload]
  dsimp only
  split_ifs
  · split
    · exact enqueue_still conn _
    · split_ifs
      · exact enqueue_still conn _
      · exact modify_still conn _ (update_send_keeps _)
  · exact enqueue_still conn _
  · exact ⟨rfl, rfl, rfl, rfl, rfl, rfl, rfl, rfl, rfl, same.heap⟩

theorem charge_connection_still (conn : Http2SocketStream) (length : Nat) :
    Still conn (conn.chargeConnection length) := by
  have same := still_refl conn
  have charged : Still conn { conn with recvWindow := int32 (conn.recvWindow - length) } :=
    ⟨rfl, rfl, rfl, rfl, rfl, rfl, rfl, rfl, rfl, same.heap⟩
  unfold chargeConnection
  dsimp only
  split_ifs
  · exact still_trans charged (send_window_update_still _ _ _)
  · exact charged

theorem charge_stream_still (conn : Http2SocketStream) (ref length : Nat) :
    Still conn (conn.chargeStream ref length) := by
  have keeps : KeepsContent fun stream =>
      { stream with recvWindow := int32 (stream.recvWindow - length), recvFits := int32_int32 _ } :=
    fun _ => ⟨rfl, rfl, rfl⟩
  have charged := modify_still conn ref keeps
  unfold chargeStream
  dsimp only
  split_ifs
  · exact still_trans charged (send_window_update_still _ _ _)
  · exact charged

theorem account_still (conn : Http2SocketStream) (ref : Nat) (frame : Frame) :
    Still conn (conn.account ref frame) := by
  unfold account handleRecvData
  dsimp only
  split_ifs
  · exact still_trans (charge_connection_still conn _) (charge_stream_still _ ref _)
  · exact still_refl conn
  · exact still_refl conn

theorem modify_quiet (conn : Http2SocketStream) (ref : Nat)
    {change : ManagedStream → ManagedStream} (keeps : Keeps change) :
    Quiet conn (conn.modify ref change) := by
  refine ⟨rfl, rfl, rfl, rfl, rfl, fun _ _ found => found, ?_, id⟩
  intro other
  rw [modify_heap]
  split_ifs with same
  · rw [same]
    exact keeps _
  · exact same_stream_refl _

theorem foreach_quiet (conn : Http2SocketStream) {change : ManagedStream → ManagedStream}
    (keeps : Keeps change) : Quiet conn (conn.foreach change) := by
  refine ⟨rfl, rfl, rfl, rfl, rfl, fun _ _ found => found, ?_, id⟩
  intro ref
  rw [foreach_heap]
  split_ifs
  · exact keeps _
  · exact same_stream_refl _

theorem close_keeps : Keeps ManagedStream.close := fun _ => ⟨rfl, rfl, id⟩

theorem inner_close_quiet (conn : Http2SocketStream) : Quiet conn conn.innerClose := by
  have closed := foreach_quiet conn close_keeps
  exact ⟨rfl, rfl, rfl, rfl, rfl, closed.streams, closed.heap, id⟩

theorem del_stream_quiet (conn : Http2SocketStream) (id : UInt32) : Quiet conn (conn.delStream id) := by
  have erased (before : Http2SocketStream) :
      Quiet before { before with streams := Function.update before.streams id none } := by
    refine ⟨rfl, rfl, rfl, rfl, rfl, ?_, fun _ => same_stream_refl _, fun sized => sized⟩
    intro other ref found
    simp only [Function.update_apply] at found
    split_ifs at found
    exact found
  unfold delStream
  cases conn.getStream id with
  | none => exact erased conn
  | some ref => exact quiet_trans (modify_quiet conn ref close_keeps) (erased _)

theorem on_time_out_quiet (conn : Http2SocketStream) (sn : UInt32) :
    Quiet conn (conn.onTimeOut sn) := by
  have removed : Quiet conn { conn with ctxs := conn.ctxs.erase sn } :=
    quiet_same rfl rfl rfl rfl rfl rfl rfl rfl
  exact quiet_trans removed (del_stream_quiet _ sn)

theorem handle_window_update_quiet (conn : Http2SocketStream) (frame : Frame) :
    Quiet conn (conn.handleWindowUpdate frame) := by
  cases payload : frame.data with
  | some body =>
      cases body with
      | windowUpdate wuf => exact still_quiet (handle_window_update_still payload)
      | _ =>
          rw [handleWindowUpdate, payload]
          exact inner_close_quiet conn
  | none =>
      rw [handleWindowUpdate, payload]
      exact inner_close_quiet conn

theorem settled_quiet {side : Side} {conn after : Http2SocketStream}
    (settled : Settled side conn after) (sized : conn.Sized → after.Sized) : Quiet conn after := by
  refine ⟨settled.isClient, settled.sn, settled.allocated, settled.scheduled, settled.dispatched,
    ?_, ?_, sized⟩
  · intro id ref found
    rwa [settled.streams] at found
  · intro ref
    rw [settled.heap]
    split_ifs
    · cases side <;> exact ⟨rfl, rfl, id⟩
    · exact same_stream_refl _

theorem received_settings_quiet (conn : Http2SocketStream) (items : List SettingsItem) :
    Quiet conn (conn.updateSettings .owner items) := by
  have settled := update_settings_settled .owner items conn
  apply settled_quiet settled
  intro sized
  have peer : (conn.updateSettings .owner items).peer = conn.peer :=
    settled.other .peer (by decide)
  rwa [Sized, peer]

theorem update_setting_sized {conn : Http2SocketStream} {i : SettingsItem} (valid : i.valid = true)
    (sized : conn.Sized) : (updateSetting .peer conn i).Sized := by
  have kept {after : Http2SocketStream}
      (same : (after.settings .peer).maxFrameSize = (conn.settings .peer).maxFrameSize) :
      after.Sized := by
    change (after.settings .peer).maxFrameSize = conn.peer.maxFrameSize at same
    change _ ≤ (after.settings .peer).maxFrameSize ∧ (after.settings .peer).maxFrameSize ≤ _
    rwa [same]
  unfold SettingsItem.valid at valid
  unfold updateSetting
  split
  · apply kept
    rw [set_max_data_size_settings, store_window]
  · apply kept
    rw [store_window]
    split_ifs
    · simp only [go_away_settings]
    · rfl
  · apply kept
    rw [store_window]
  · apply kept
    split_ifs
    · rw [update_window_by_diff_settings, store_window]
    · rw [go_away_settings]
  · rename_i kind
    rw [kind, Bool.and_eq_true, decide_eq_true_eq, decide_eq_true_eq] at valid
    dsimp only
    rw [if_neg (by simp [UInt32.not_lt, valid.1, valid.2])]
    exact valid
  · apply kept
    rw [store_window]
  · exact sized

theorem update_settings_sized (items : List SettingsItem) :
    ∀ {conn : Http2SocketStream}, items.all SettingsItem.valid = true → conn.Sized →
      (conn.updateSettings .peer items).Sized := by
  induction items with
  | nil => exact fun _ sized => sized
  | cons i rest induction =>
      intro conn valid sized
      rw [List.all_cons, Bool.and_eq_true] at valid
      exact induction valid.2 (update_setting_sized valid.1 sized)

theorem sent_settings_quiet (conn : Http2SocketStream) {items : List SettingsItem}
    (valid : items.all SettingsItem.valid = true) :
    Quiet conn (conn.updateSettings .peer items) :=
  settled_quiet (update_settings_settled .peer items conn) (update_settings_sized items valid)

theorem control_quiet {conn after : Http2SocketStream} {frame : Frame}
    (done : conn.control frame = .ok after) : Quiet conn after := by
  unfold control handleRecvSetting at done
  split at done
  · split_ifs at done
    · split at done
      · cases done
        exact quiet_trans (received_settings_quiet conn _) (enqueue_quiet _ _)
      · cases done
    · cases done
      exact quiet_refl conn
  · split_ifs at done
    · split at done
      · cases done
        exact enqueue_quiet conn _
      · cases done
    · cases done
      exact quiet_refl conn
  · cases done
    exact quiet_refl conn

/-- Charging the windows for a frame first leaves what comes after it quiet. -/
theorem account_quiet {conn after : Http2SocketStream} {ref : Nat} {frame : Frame}
    (quiet : Quiet (conn.account ref frame) after) : Quiet conn after :=
  quiet_trans (still_quiet (account_still conn ref frame)) quiet

theorem handle_frame_quiet {conn after : Http2SocketStream} {ref : Nat} {frame : Frame}
    (done : conn.handleFrame ref frame = .ok after) : Quiet conn after := by
  obtain ⟨⟨rt, stream, table⟩, handled, finished⟩ := bind_eq_ok done
  rw [← Except.ok.inj finished]
  refine ⟨rfl, rfl, rfl, rfl, rfl, fun _ _ found => found, ?_, fun sized => sized⟩
  intro other
  change SameStream (conn.heap other)
    ((conn.modify ref fun managed => { managed with toHttp2Stream := stream }).heap other)
  rw [modify_heap]
  split_ifs with same
  · rw [same]
    exact ⟨rfl, rfl, Http2Stream.handle_frame_request handled⟩
  · exact same_stream_refl _

theorem consume_still (conn : Http2SocketStream) (ref : Nat) (len : Int) :
    Still conn (conn.consume ref len) := by
  have changed := modify_still conn ref (update_send_keeps (int32 (-len)))
  exact ⟨rfl, rfl, rfl, rfl, rfl, rfl, rfl, rfl, rfl, changed.heap⟩

theorem round_length (length room : Int) :
    (if length > room then room else length) = min length room := by
  split_ifs <;> omega

/-- One round of `sendData`: the frame is refused, or sent and followed by further rounds, or
the last one. -/
theorem send_data_round {ref : Nat} {data : Str} {maxFrameSize : Int} {async endStream : Bool}
    {rounds : Nat} {conn : Http2SocketStream} {pos length : Int} {result : Int × Http2SocketStream}
    (done : sendDataLoop ref data maxFrameSize async endStream (rounds + 1) conn pos length =
      .ok result) :
    ∃ len body rt next, len = min length maxFrameSize ∧ substr data pos len = .ok body ∧
      conn.sendFrame (dataFrame (conn.heap ref).id body (length = len) endStream) async =
        (rt, next) ∧
      (rt ≤ 0 ∧ result = (rt, next) ∨
        0 < rt ∧ 0 < int32 (length - len) ∧
          sendDataLoop ref data maxFrameSize async endStream rounds (next.consume ref len)
            (int32 (pos + len)) (int32 (length - len)) = .ok result ∨
        0 < rt ∧ int32 (length - len) ≤ 0 ∧ result = (1, next.consume ref len)) := by
  rw [sendDataLoop, round_length] at done
  obtain ⟨body, taken, done⟩ := bind_eq_ok done
  cases sent : conn.sendFrame
    (dataFrame (conn.heap ref).id body (length = min length maxFrameSize) endStream) async with
  | mk rt next =>
      refine ⟨_, body, rt, next, rfl, taken, sent, ?_⟩
      simp only [sent] at done
      by_cases refused : rt ≤ 0
      · rw [if_pos refused] at done
        exact .inl ⟨refused, (Except.ok.inj done).symm⟩
      · rw [if_neg refused] at done
        by_cases more : 0 < int32 (length - min length maxFrameSize)
        · rw [if_pos more] at done
          exact .inr (.inl ⟨Int.not_le.mp refused, more, done⟩)
        · rw [if_neg more] at done
          exact .inr (.inr ⟨Int.not_le.mp refused, Int.not_lt.mp more, (Except.ok.inj done).symm⟩)

theorem send_data_loop_still (ref : Nat) (data : Str) (maxFrameSize : Int) (async endStream : Bool)
    (rounds : Nat) : ∀ {conn : Http2SocketStream} {pos length : Int}
      {result : Int × Http2SocketStream},
      sendDataLoop ref data maxFrameSize async endStream rounds conn pos length = .ok result →
      Still conn result.2 := by
  induction rounds with
  | zero =>
      intro conn pos length result done
      cases done
  | succ rounds induction =>
      intro conn pos length result done
      obtain ⟨len, body, rt, next, _, _, sent, outcome⟩ := send_data_round done
      have first := sent_still sent
      have charged := still_trans first (consume_still next ref len)
      rcases outcome with ⟨_, same⟩ | ⟨_, _, more⟩ | ⟨_, _, same⟩
      · rw [same]
        exact first
      · exact still_trans charged (induction more)
      · rw [same]
        exact charged

theorem send_data_still {conn : Http2SocketStream} {ref : Nat} {data : Str} {async endStream : Bool}
    {result : Int × Http2SocketStream} (done : conn.sendData ref data async endStream = .ok result) :
    Still conn result.2 := send_data_loop_still ref data _ async endStream _ done

/-- Rule for `sendResponse`: `P` holds until the body is sent and `Q` from then on. -/
theorem send_response_rule {P Q : Http2SocketStream → Prop} {conn : Http2SocketStream} {ref : Nat}
    {rsp : HttpResponse} {endStream async : Bool} {result : Int × Http2SocketStream}
    (weaken : ∀ conn, P conn → Q conn)
    (headers : ∀ conn id kvs ends, P conn → P (conn.sendFrame (headersFrame id kvs ends) async).2)
    (trailers : ∀ conn id kvs ends, Q conn → Q (conn.sendFrame (headersFrame id kvs ends) async).2)
    (body : ∀ conn ok after, P conn → rsp.body ≠ [] →
      conn.sendData ref rsp.body async rsp.trailers.isEmpty = .ok (ok, after) → Q after)
    (start : P conn) (done : conn.sendResponse ref rsp endStream async = .ok result) :
    Q result.2 := by
  have ended (next : Http2SocketStream) (id : UInt32) (rt : Int) (sent : Q next) :
      Q (next.sendTrailers id rsp rt endStream async).2 := by
    unfold sendTrailers
    dsimp only
    split_ifs
    · exact trailers next _ _ _ sent
    · exact trailers next _ _ _ sent
    · exact sent
  unfold sendResponse at done
  dsimp only at done
  have first := headers conn (conn.heap ref).id (List.map (fun entry => (entry.1.map toLower, entry.2))
    (List.filter (fun entry => entry.1 ∉ rsp.trailers)
      (rsp.setHeader (ascii ":status") rsp.status).headers))
    (endStream && List.isEmpty rsp.body && rsp.trailers.isEmpty) start
  generalize conn.sendFrame _ async = sent at done first
  by_cases refused : sent.1 < 0
  · rw [if_pos refused] at done
    cases done
    exact weaken _ first
  · rw [if_neg refused] at done
    by_cases none : rsp.body = []
    · rw [if_pos none] at done
      cases done
      exact ended sent.2 _ _ (weaken _ first)
    · rw [if_neg none] at done
      obtain ⟨⟨ok, next⟩, bodySent, finished⟩ := bind_eq_ok done
      cases finished
      exact ended next _ _ (body sent.2 ok next first none bodySent)

/-- The same for `sendRequest`. -/
theorem send_request_rule {P Q : Http2SocketStream → Prop} {conn : Http2SocketStream} {ref : Nat}
    {req : HttpRequest} {ssl endStream async : Bool} {result : Int × Http2SocketStream}
    (weaken : ∀ conn, P conn → Q conn)
    (headers : ∀ conn id kvs ends, P conn → P (conn.sendFrame (headersFrame id kvs ends) async).2)
    (body : ∀ conn ok after, P conn → req.body ≠ [] →
      conn.sendData ref req.body async true = .ok (ok, after) → Q after)
    (start : P conn) (done : conn.sendRequest ref req ssl endStream async = .ok result) :
    Q result.2 := by
  unfold sendRequest at done
  dsimp only at done
  have first := headers conn (conn.heap ref).id (List.map (fun entry => (entry.1.map toLower, entry.2))
    (req.initForWrite ssl).headers ++
      [(ascii "stream_id", ascii (toString (conn.heap ref).id.toNat))])
    (endStream && List.isEmpty req.body) start
  generalize conn.sendFrame _ async = sent at done first
  by_cases refused : sent.1 < 0
  · rw [if_pos refused] at done
    cases done
    exact weaken _ first
  · rw [if_neg refused] at done
    by_cases none : req.body = []
    · rw [if_pos none] at done
      cases done
      exact weaken _ first
    · rw [if_neg none] at done
      exact body sent.2 result.1 result.2 first none done

theorem send_response_still {conn : Http2SocketStream} {ref : Nat} {rsp : HttpResponse}
    {endStream async : Bool} {result : Int × Http2SocketStream}
    (done : conn.sendResponse ref rsp endStream async = .ok result) : Still conn result.2 := by
  apply send_response_rule (fun _ still => still) _ _ _ (still_refl conn) done
  · intro middle id kvs ends still
    exact still_trans still (send_frame_still middle _ async)
  · intro middle id kvs ends still
    exact still_trans still (send_frame_still middle _ async)
  · intro middle ok after still _ bodySent
    exact still_trans still (send_data_still bodySent)

theorem send_request_still {conn : Http2SocketStream} {ref : Nat} {req : HttpRequest}
    {ssl endStream async : Bool} {result : Int × Http2SocketStream}
    (done : conn.sendRequest ref req ssl endStream async = .ok result) : Still conn result.2 := by
  apply send_request_rule (fun _ still => still) _ _ (still_refl conn) done
  · intro middle id kvs ends still
    exact still_trans still (send_frame_still middle _ async)
  · intro middle ok after still _ bodySent
    exact still_trans still (send_data_still bodySent)

theorem send_settings_quiet (conn : Http2SocketStream) {items : List SettingsItem}
    (valid : items.all SettingsItem.valid = true) : Quiet conn (conn.sendSettings items) := by
  have first := still_quiet (send_frame_still conn (settingsFrame items) true)
  unfold sendSettings
  dsimp only
  split_ifs
  · exact quiet_trans first (sent_settings_quiet _ valid)
  · exact first

theorem started_quiet {conn : Http2SocketStream} {received : List Frame}
    (started : Started conn received) : ∃ isClient writes, Quiet { new isClient with writes } conn := by
  cases started with
  | server writes frame shaken =>
      obtain ⟨sts, _, _, same⟩ := shaken_server shaken
      refine ⟨false, writes, ?_⟩
      rw [same]
      have settled := received_settings_quiet { new false with writes } sts.items
      have acknowledged := quiet_trans settled
        (enqueue_quiet _ (outFrame .settings flagAck 0 none))
      exact quiet_trans acknowledged (send_settings_quiet _ rfl)
  | client writes shaken =>
      obtain ⟨rt, written, _, _, sent, same⟩ := shaken_client shaken
      refine ⟨true, writes, ?_⟩
      rw [same]
      have prefaced : Quiet { new true with writes }
          { new true with writes := fun call => writes (call + 1) } :=
        quiet_same rfl rfl rfl rfl rfl rfl rfl rfl
      have settled := quiet_trans prefaced
        (sent_settings_quiet _ (by decide : clientSettings.all SettingsItem.valid = true))
      have announced := quiet_trans settled (still_quiet (sent_still sent))
      exact quiet_trans announced (still_quiet (send_window_update_still _ _ _))

end Http2SocketStream
end ChatServer.Http2
