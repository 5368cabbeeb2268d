import ChatServer.Http2.ConnectionInvariant

/-!
# The streams of a server

While a server reads, the streams in its map can always end: their data has no gap, and those
that are closed have a request. A stream that ends without one is deleted at once.
-/

namespace ChatServer.Http2

set_option autoImplicit false

theorem window_update_payload {frame : Frame} (typed : frame.wellTyped = true)
    (kind : frameType frame.header.type = some .windowUpdate) :
    ∃ wuf, frame.data = some (.windowUpdate wuf) := by
  unfold Frame.wellTyped at typed
  rw [kind] at typed
  split at typed <;> simp_all

theorem data_payload {frame : Frame} (typed : frame.wellTyped = true)
    (kind : frameType frame.header.type = some .data) :
    ∃ data, frame.data = some (.data data) := by
  unfold Frame.wellTyped at typed
  rw [kind] at typed
  split at typed <;> simp_all

/-- A stream that can end: its data has no gap, and a request was made when it was closed. -/
structure Http2Stream.Ready (stream : Http2Stream) : Prop where
  handler : stream.handler = none
  whole : stream.isStream = false → none ∉ stream.data
  asked : stream.state = .closed → stream.request ≠ none

namespace Http2Stream

theorem handle_by_type_whole {stream after : Http2Stream} {table tableAfter : Option DynamicTable}
    {frame : Frame} {rt : Int} (handler : stream.handler = none)
    (whole : stream.isStream = false → none ∉ stream.data)
    (done : stream.handleByType table frame = .ok (rt, after, tableAfter)) :
    after.handler = none ∧ (after.isStream = false → none ∉ after.data) := by
  unfold handleByType at done
  split at done
  · obtain ⟨⟨parsed, middle, tableMiddle⟩, handled, done⟩ := bind_eq_ok done
    dsimp only at done
    split_ifs at done
    cases done
    unfold handleHeadersFrame at handled
    split at handled
    · split at handled
      · obtain ⟨⟨result, hp⟩, _, handled⟩ := bind_eq_ok handled
        cases handled
        exact ⟨handler, whole⟩
      · cases handled
        exact ⟨handler, whole⟩
    · cases handled
      exact ⟨handler, whole⟩
  · unfold handleDataFrame at done
    split at done
    · split at done
      · cases done
        refine ⟨handler, ?_⟩
        intro plain
        simp [whole plain]
      · cases done
        exact ⟨handler, whole⟩
    · cases done
      exact ⟨handler, whole⟩
  · cases done
    exact ⟨handler, whole⟩
  · cases done
    exact ⟨handler, whole⟩

theorem get_data_body_returns {data : List (Option DataFrame)} (whole : none ∉ data) :
    ∃ body, getDataBody data = .ok body := by
  induction data with
  | nil => exact ⟨[], rfl⟩
  | cons first rest induction =>
      rw [List.mem_cons, not_or] at whole
      cases first with
      | none => exact absurd rfl whole.1
      | some frame =>
          obtain ⟨body, read⟩ := induction whole.2
          refine ⟨frame.data ++ body, ?_⟩
          rw [getDataBody, read]
          rfl

/-- The end of a request of a server. -/
theorem finish_server {stream : Http2Stream} (whole : stream.isStream = false → none ∉ stream.data) :
    ∃ request data, stream.finish false =
        .ok { stream with state := .closed, request := some request, data } ∧
      (stream.isStream = false → data = []) := by
  unfold finish initMessage
  cases plain : stream.isStream with
  | true => exact ⟨_, _, rfl, fun absent => absurd absent (by decide)⟩
  | false =>
      obtain ⟨body, read⟩ := get_data_body_returns (whole plain)
      simp only [Bool.false_eq_true, if_false, read, bind_ok]
      exact ⟨_, _, rfl, fun _ => rfl⟩

/-- Behind the first `if`, `handleFrame` always returns: END_STREAM makes a request, and without
it nothing more happens. -/
theorem handle_frame_returns {stream middle : Http2Stream} {table tableAfter : Option DynamicTable}
    {frame : Frame} {rt : Int} (handler : stream.handler = none)
    (whole : stream.isStream = false → none ∉ stream.data)
    (byType : stream.handleByType table frame = .ok (rt, middle, tableAfter)) :
    ∃ after, stream.handleFrame table frame false = .ok (rt, after, tableAfter) ∧
      (frame.header.flags &&& flagEndStream ≠ 0 →
        after.state = .closed ∧ after.request ≠ none) ∧
      (frame.header.flags &&& flagEndStream = 0 → after = middle) := by
  have kept := handle_by_type_whole handler whole byType
  unfold handleFrame
  rw [byType, bind_ok]
  dsimp only
  rw [callHandler, kept.1]
  dsimp only
  rw [bind_ok]
  by_cases ends : frame.header.flags &&& flagEndStream ≠ 0
  · obtain ⟨request, data, finished, _⟩ := finish_server kept.2
    rw [if_pos ends, finished, bind_ok]
    refine ⟨_, rfl, ?_, ?_⟩
    · exact fun _ => ⟨rfl, Option.some_ne_none request⟩
    · exact fun absent => absurd absent ends
  · rw [if_neg ends]
    refine ⟨middle, rfl, ?_, fun _ => rfl⟩
    exact fun present => absurd present ends

theorem handle_frame_whole {stream after : Http2Stream} {table tableAfter : Option DynamicTable}
    {frame : Frame} {rt : Int} (handler : stream.handler = none)
    (whole : stream.isStream = false → none ∉ stream.data)
    (done : stream.handleFrame table frame false = .ok (rt, after, tableAfter)) :
    after.handler = none ∧ (after.isStream = false → none ∉ after.data) := by
  obtain ⟨⟨rtByType, middle, tableMiddle⟩, byType, done⟩ := bind_eq_ok done
  have kept := handle_by_type_whole handler whole byType
  obtain ⟨_, _, done⟩ := bind_eq_ok done
  split_ifs at done
  · obtain ⟨request, data, finished, emptied⟩ := finish_server kept.2
    rw [finished] at done
    cases done
    refine ⟨kept.1, ?_⟩
    intro plain
    change none ∉ data
    rw [emptied plain]
    exact List.not_mem_nil
  · cases done
    exact kept

end Http2Stream

namespace Http2SocketStream

structure Tidy (conn : Http2SocketStream) : Prop where
  server : conn.isClient = false
  small : conn.sn.toNat < 2 ^ 31
  ready : conn.connected = true → ∀ id ref, conn.streams id = some ref →
    (conn.heap ref).toHttp2Stream.Ready

theorem tidy_still {conn after : Http2SocketStream} (tidy : Tidy conn) (still : Still conn after) :
    Tidy after := by
  refine ⟨still.isClient.trans tidy.server, ?_, ?_⟩
  · rw [still.sn]
    exact tidy.small
  · intro connected id ref found
    rw [still.connected] at connected
    rw [still.streams] at found
    rw [(still.heap ref).1]
    exact tidy.ready connected id ref found

theorem tidy_settled {side : Side} {conn after : Http2SocketStream} (tidy : Tidy conn)
    (settled : Settled side conn after) : Tidy after := by
  refine ⟨settled.isClient.trans tidy.server, ?_, ?_⟩
  · rw [settled.sn]
    exact tidy.small
  · intro connected id ref found
    rw [settled.connected] at connected
    rw [settled.streams] at found
    have ready := tidy.ready connected id ref found
    rw [settled.heap]
    split_ifs
    · cases side <;> exact ready
    · exact ready

theorem tidy_closed {conn : Http2SocketStream} (tidy : Tidy conn) : Tidy conn.innerClose :=
  ⟨tidy.server, tidy.small, fun connected => absurd connected (by simp [innerClose])⟩

theorem del_stream_streams (conn : Http2SocketStream) (id : UInt32) :
    (conn.delStream id).streams = Function.update conn.streams id none := by
  unfold delStream
  cases conn.getStream id <;> rfl

theorem del_stream_heap (conn : Http2SocketStream) (id : UInt32) (ref : Nat) :
    (conn.delStream id).heap ref =
      if conn.streams id = some ref then (conn.heap ref).close else conn.heap ref := by
  unfold delStream getStream
  cases found : conn.streams id with
  | none => simp
  | some closed =>
      change (conn.modify closed ManagedStream.close).heap ref = _
      rw [modify_heap]
      by_cases same : ref = closed
      · simp [same]
      · simp [same, Ne.symm same]

theorem del_stream_connected (conn : Http2SocketStream) (id : UInt32) :
    (conn.delStream id).connected = conn.connected := by
  unfold delStream
  cases conn.getStream id <;> rfl

theorem del_stream_emitted (conn : Http2SocketStream) (id : UInt32) :
    (conn.delStream id).emitted = conn.emitted := by
  unfold delStream
  cases conn.getStream id <;> rfl

/-- The other streams stay as they are. -/
theorem del_stream_found {conn : Http2SocketStream} (sound : Sound conn) {id other : UInt32}
    {ref : Nat} (found : (conn.delStream id).streams other = some ref) :
    other ≠ id ∧ conn.streams other = some ref ∧
      (conn.delStream id).heap ref = conn.heap ref := by
  rw [del_stream_streams, Function.update_apply] at found
  split_ifs at found with different
  refine ⟨different, found, ?_⟩
  rw [del_stream_heap, if_neg]
  intro inMap
  have own := (sound.named other ref found).2
  rw [(sound.named id ref inMap).2] at own
  exact different own.symm

theorem tidy_deleted {conn : Http2SocketStream} (tidy : Tidy conn) (sound : Sound conn)
    (id : UInt32) : Tidy (conn.delStream id) := by
  have quiet := del_stream_quiet conn id
  refine ⟨quiet.isClient.trans tidy.server, ?_, ?_⟩
  · rw [quiet.sn]
    exact tidy.small
  · intro connected other ref found
    rw [del_stream_connected] at connected
    obtain ⟨_, before, same⟩ := del_stream_found sound found
    rw [same]
    exact tidy.ready connected other ref before

theorem tidy_opened {conn : Http2SocketStream} (tidy : Tidy conn) (sound : Sound conn) {id : UInt32}
    (small : id.toNat < 2 ^ 31) : Tidy ({ conn with sn := id }.addStream id) := by
  refine ⟨tidy.server, small, ?_⟩
  intro connected other ref found
  cases add_stream_found found with
  | inl own =>
      rw [own.2]
      simp only [addStream, Function.update_self]
      exact ⟨rfl, fun _ => List.not_mem_nil, fun closed => absurd closed (by decide)⟩
  | inr earlier =>
      rw [add_stream_heap conn id id (sound.named other ref earlier).1]
      exact tidy.ready connected other ref earlier

theorem tidy_located {conn next : Http2SocketStream} {frame : Frame} {found : Option Nat}
    (tidy : Tidy conn) (sound : Sound conn) (located : Located conn frame found next) :
    Tidy next := by
  cases located with
  | known _ => exact tidy
  | opened _ _ _ => exact tidy_opened tidy sound (stream_id_small frame.header)
  | ignored _ _ => exact tidy
  | refused _ _ _ _ => exact tidy_still tidy (enqueue_still conn _)

theorem do_recv_known {conn : Http2SocketStream} {frame : Frame} {ref : Nat}
    (kind : frameType frame.header.type ≠ some .windowUpdate)
    (nonzero : frame.header.streamId ≠ 0)
    (inMap : conn.streams frame.header.streamId = some ref) :
    conn.doRecv (some frame) = conn.deliver ref frame := by
  rw [do_recv_located conn frame kind nonzero]
  simp only [locate, getStream, inMap]

/-- The stream of the frame has changed, and the others have not. -/
structure Handled (conn : Http2SocketStream) (ref : Nat) (frame : Frame)
    (after : Http2SocketStream) : Prop where
  sn : after.sn = conn.sn
  isClient : after.isClient = conn.isClient
  allocated : after.allocated = conn.allocated
  connected : after.connected = conn.connected
  streams : after.streams = conn.streams
  scheduled : after.scheduled = conn.scheduled
  dispatched : after.dispatched = conn.dispatched
  emitted : after.emitted = conn.emitted
  heap : ∀ other, other ≠ ref → after.heap other = conn.heap other
  id : (after.heap ref).id = (conn.heap ref).id
  handleCount : (after.heap ref).handleCount = (conn.heap ref).handleCount
  stream : ∃ rt table, (conn.heap ref).toHttp2Stream.handleFrame (some conn.recvTable) frame
    conn.isClient = .ok (rt, (after.heap ref).toHttp2Stream, table) ∧
      after.recvTable = table.getD conn.recvTable

theorem handle_frame_spec {conn after : Http2SocketStream} {ref : Nat} {frame : Frame}
    (done : conn.handleFrame ref frame = .ok after) : Handled conn ref frame after := by
  obtain ⟨⟨rt, stream, table⟩, handled, finished⟩ := bind_eq_ok done
  rw [← Except.ok.inj finished]
  let changed := conn.modify ref fun managed => { managed with toHttp2Stream := stream }
  have own : changed.heap ref = { conn.heap ref with toHttp2Stream := stream } := by
    rw [modify_heap, if_pos rfl]
  refine ⟨rfl, rfl, rfl, rfl, rfl, rfl, rfl, rfl, ?_, ?_, ?_, rt, table, ?_, rfl⟩
  · intro other different
    change changed.heap other = conn.heap other
    rw [modify_heap, if_neg different]
  · change (changed.heap ref).id = _
    rw [own]
  · change (changed.heap ref).handleCount = _
    rw [own]
  · have stream : (changed.heap ref).toHttp2Stream = stream := by rw [own]
    rw [← stream] at handled
    exact handled

theorem handle_frame_done {conn : Http2SocketStream} {ref : Nat} {frame : Frame} {rt : Int}
    {stream : Http2Stream} {table : Option DynamicTable}
    (done : (conn.heap ref).toHttp2Stream.handleFrame (some conn.recvTable) frame conn.isClient =
      .ok (rt, stream, table)) :
    ∃ after, conn.handleFrame ref frame = .ok after ∧ Handled conn ref frame after ∧
      (after.heap ref).toHttp2Stream = stream ∧ after.recvTable = table.getD conn.recvTable := by
  unfold handleFrame
  rw [done, bind_ok]
  refine ⟨_, rfl, ?_, ?_, rfl⟩
  · apply handle_frame_spec
    unfold handleFrame
    rw [done, bind_ok]
  · simp only [modify_heap, if_true]

theorem tidy_handled {conn after : Http2SocketStream} {frame : Frame} {ref : Nat} (tidy : Tidy conn)
    (handled : Handled conn ref frame after)
    (ended : (after.heap ref).state = .closed → (after.heap ref).request ≠ none)
    (inMap : conn.streams frame.header.streamId = some ref) : Tidy after := by
  refine ⟨handled.isClient.trans tidy.server, ?_, ?_⟩
  · rw [handled.sn]
    exact tidy.small
  · intro connected other found inOther
    rw [handled.connected] at connected
    rw [handled.streams] at inOther
    by_cases same : found = ref
    · obtain ⟨rt, table, done, _⟩ := handled.stream
      rw [tidy.server] at done
      have before := tidy.ready connected _ _ inMap
      have kept := Http2Stream.handle_frame_whole before.handler before.whole done
      rw [same]
      exact ⟨kept.1, kept.2, ended⟩
    · rw [handled.heap found same]
      exact tidy.ready connected other found inOther

/-- A stream that ends without a request is deleted. -/
theorem tidy_rejected {conn after : Http2SocketStream} {frame : Frame} {ref : Nat}
    (tidy : Tidy conn) (sound : Sound after) (handled : Handled conn ref frame after) :
    Tidy ((after.sendGoAway after.sn protocolError []).delStream (after.heap ref).id) := by
  have warned : Still after (after.sendGoAway after.sn protocolError []) := enqueue_still after _
  have deleted := del_stream_quiet (after.sendGoAway after.sn protocolError []) (after.heap ref).id
  have warnedSound := sound_quiet sound (still_quiet warned)
  refine ⟨?_, ?_, ?_⟩
  · rw [deleted.isClient, warned.isClient, handled.isClient]
    exact tidy.server
  · rw [deleted.sn, warned.sn, handled.sn]
    exact tidy.small
  · intro connected other found inOther
    obtain ⟨different, before, same⟩ := del_stream_found warnedSound inOther
    rw [warned.streams] at before
    have foreign : found ≠ ref := by
      intro equal
      rw [equal] at before
      exact different (sound.named other ref before).2.symm
    rw [del_stream_connected, warned.connected, handled.connected] at connected
    rw [handled.streams] at before
    rw [same, (warned.heap found).1, handled.heap found foreign]
    exact tidy.ready connected other found before

theorem tidy_scheduled {conn : Http2SocketStream} (tidy : Tidy conn) (refs : List Nat) :
    Tidy { conn with scheduled := refs } := ⟨tidy.server, tidy.small, tidy.ready⟩

theorem tidy_ended {conn after : Http2SocketStream} {frame : Frame} {ref : Nat} (tidy : Tidy conn)
    (sound : Sound after) (handled : Handled conn ref frame after)
    (inMap : conn.streams frame.header.streamId = some ref) : Tidy (after.onStreamClose ref) := by
  have server : ¬after.isClient = true := by simp [handled.isClient, tidy.server]
  unfold onStreamClose
  dsimp only
  rw [if_neg server]
  cases request : (after.heap ref).request with
  | none => exact tidy_rejected tidy sound handled
  | some req =>
      have kept := tidy_handled tidy handled (fun _ => by simp [request]) inMap
      dsimp only
      split_ifs
      · exact tidy_scheduled kept _
      · exact kept

theorem tidy_control {conn after : Http2SocketStream} {frame : Frame} (tidy : Tidy conn)
    (done : conn.control frame = .ok after) : Tidy after := by
  unfold control handleRecvSetting at done
  split at done
  · split_ifs at done
    · split at done
      · rename_i sts _
        rw [← Except.ok.inj done]
        have settled := tidy_settled tidy (update_settings_settled .owner sts.items conn)
        exact tidy_still settled (enqueue_still _ _)
      · cases done
    · rw [← Except.ok.inj done]
      exact tidy
  · split_ifs at done
    · split at done
      · rw [← Except.ok.inj done]
        exact tidy_still tidy (enqueue_still conn _)
      · cases done
    · rw [← Except.ok.inj done]
      exact tidy
  · rw [← Except.ok.inj done]
    exact tidy

theorem tidy_received {conn after : Http2SocketStream} {frame : Frame} (tidy : Tidy conn)
    (sound : Sound conn) (typed : frame.wellTyped = true) (received : Received conn frame after) :
    Tidy after := by
  cases received with
  | windowUpdate kind =>
      obtain ⟨wuf, payload⟩ := window_update_payload typed kind
      exact tidy_still tidy (handle_window_update_still payload)
  | control _ _ done => exact tidy_control tidy done
  | dropped _ _ located => exact tidy_located tidy sound located
  | @kept ref found _ _ _ located done running =>
      obtain ⟨foundSound, inMap⟩ := sound_located sound located
      have accounted := account_still found ref frame
      have handled := handle_frame_spec done
      apply tidy_handled (tidy_still (tidy_located tidy sound located) accounted) handled
      · exact fun closed => absurd closed running
      · rw [accounted.streams]
        exact inMap
  | @closed ref found handledConn _ _ located done ended =>
      obtain ⟨foundSound, inMap⟩ := sound_located sound located
      have accounted := account_still found ref frame
      have quiet := quiet_trans (still_quiet accounted) (handle_frame_quiet done)
      apply tidy_ended (tidy_still (tidy_located tidy sound located) accounted)
        (sound_quiet foundSound quiet) (handle_frame_spec done)
      rw [accounted.streams]
      exact inMap
  | @thrown ref found _ _ _ located _ =>
      exact tidy_closed (tidy_still (tidy_located tidy sound located) (account_still found ref frame))

theorem tidy_handle_request {conn after : Http2SocketStream} {ref : Nat} {rsp : HttpResponse}
    (tidy : Tidy conn) (sound : Sound conn) (done : conn.handleRequest ref rsp = .ok after) :
    Tidy after := by
  cases handle_request_cases done with
  | inl again =>
      rw [again.2]
      exact tidy
  | inr first =>
      obtain ⟨req, rt, next, _, _, responded, same⟩ := first
      have answered := send_response_still responded
      have dispatched : Tidy (conn.dispatch ref req) := by
        refine ⟨tidy.server, tidy.small, ?_⟩
        intro connected id other found
        rw [(dispatch_content conn ref req other).1]
        exact tidy.ready connected id other found
      have answeredSound := sound_quiet (sound_dispatch sound ref req) (still_quiet answered)
      rw [same]
      exact tidy_deleted (tidy_still dispatched answered) answeredSound _

theorem tidy_step {conn after : Http2SocketStream} {action : Action} (tidy : Tidy conn)
    (sound : Sound conn) (taken : conn.step action = some after) : Tidy after := by
  cases step_cases taken with
  | recv _ typed received => exact tidy_received tidy sound typed received
  | hangUp _ => exact tidy_closed tidy
  | @task pick _ _ _ _ done =>
      exact tidy_handle_request (tidy_scheduled tidy _) (sound_erased sound pick) done
  | openStream _ client _ => simp [tidy.server] at client
  | unsent _ => exact tidy
  | sendRequest _ done => exact tidy_still tidy (send_request_still done)
  | sendData _ done => exact tidy_still tidy (send_data_still done)
  | @sendSettings items valid =>
      have announced := tidy_still tidy (send_frame_still conn (settingsFrame items) true)
      unfold sendSettings
      dsimp only
      split_ifs
      · exact tidy_settled announced (update_settings_settled .peer items _)
      · exact announced
  | onTimeOut _ client => simp [tidy.server] at client

theorem started_tidy {conn : Http2SocketStream} {greeting : List Frame}
    (started : Started conn greeting) (server : conn.isClient = false) : Tidy conn := by
  obtain ⟨isClient, writes, quiet⟩ := started_quiet started
  have same : isClient = false := quiet.isClient.symm.trans server
  refine ⟨server, ?_, ?_⟩
  · rw [quiet.sn, same]
    change (0 : UInt32).toNat < 2 ^ 31
    decide
  · intro _ id ref found
    cases quiet.streams id ref found

end Http2SocketStream
end ChatServer.Http2
