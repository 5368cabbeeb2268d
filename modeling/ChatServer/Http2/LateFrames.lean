import ChatServer.Http2.ServerStreams

/-!
# Frames for streams that are gone

A client may still send frames for a stream that the server has closed or taken out of its map,
and may reset a stream at any time. What such a frame does depends on its type, on whether the
stream is still in the map and on its request.
-/

namespace ChatServer.Http2

set_option autoImplicit false

def Frame.Concerns (frame : Frame) (id : UInt32) : Prop :=
  frameType frame.header.type ≠ some .goaway ∧
    (frame.header.streamId = 0 ∨ frame.header.streamId = id)

namespace Http2SocketStream

structure Confined (id : UInt32) (conn after : Http2SocketStream) : Prop where
  named : ∀ ref, (after.heap ref).id = (conn.heap ref).id
  heap : ∀ ref, (conn.heap ref).id ≠ id → after.heap ref = conn.heap ref
  streams : ∀ other, other ≠ id → after.streams other = conn.streams other
  emitted : ∃ extra, after.emitted = conn.emitted ++ extra ∧ ∀ frame ∈ extra, frame.Concerns id

theorem confined_refl (id : UInt32) (conn : Http2SocketStream) : Confined id conn conn where
  named := fun _ => rfl
  heap := fun _ _ => rfl
  streams := fun _ _ => rfl
  emitted := ⟨[], (List.append_nil _).symm, fun _ member => absurd member List.not_mem_nil⟩

theorem confined_trans {id : UInt32} {conn middle after : Http2SocketStream}
    (first : Confined id conn middle) (second : Confined id middle after) :
    Confined id conn after where
  named := fun ref => (second.named ref).trans (first.named ref)
  heap := by
    intro ref other
    rw [second.heap ref (by rwa [first.named]), first.heap ref other]
  streams := fun other different => (second.streams other different).trans
    (first.streams other different)
  emitted := by
    obtain ⟨early, firstEq, earlyOwn⟩ := first.emitted
    obtain ⟨late, secondEq, lateOwn⟩ := second.emitted
    refine ⟨early ++ late, by rw [secondEq, firstEq, List.append_assoc], ?_⟩
    intro frame member
    cases List.mem_append.mp member with
    | inl inEarly => exact earlyOwn frame inEarly
    | inr inLate => exact lateOwn frame inLate

theorem enqueue_confined {id : UInt32} (conn : Http2SocketStream) {frame : Frame}
    (concerns : frame.Concerns id) : Confined id conn (conn.enqueue frame) := by
  rw [enqueue_eq]
  refine ⟨fun _ => rfl, fun _ _ => rfl, fun _ _ => rfl, ?_⟩
  split_ifs
  · refine ⟨[frame], rfl, ?_⟩
    intro other member
    rwa [List.mem_singleton.mp member]
  · exact (confined_refl id conn).emitted

theorem modify_confined {id : UInt32} {conn : Http2SocketStream} {ref : Nat}
    (own : (conn.heap ref).id = id) {change : ManagedStream → ManagedStream}
    (keeps : ∀ stream, (change stream).id = stream.id) :
    Confined id conn (conn.modify ref change) := by
  refine ⟨?_, ?_, fun _ _ => rfl, (confined_refl id conn).emitted⟩
  · intro other
    rw [modify_heap]
    split_ifs with same
    · rw [same]
      exact keeps _
    · rfl
  · intro other foreign
    rw [modify_heap, if_neg]
    intro same
    rw [same] at foreign
    exact foreign own

theorem window_update_concerns {id streamId : UInt32} (small : streamId.toNat < 2 ^ 31)
    (own : streamId = 0 ∨ streamId = id) (n : UInt32) :
    (outFrame .windowUpdate 0 streamId (some (.windowUpdate { increment := low31 n }))).Concerns
      id := by
  constructor
  · rw [out_frame_type]
    decide
  · rwa [out_frame_stream_id small]

/-- WINDOW_UPDATE for the connection or for the stream itself. -/
theorem send_window_update_confined {id streamId : UInt32} {conn : Http2SocketStream}
    (sound : Sound conn) (small : streamId.toNat < 2 ^ 31) (own : streamId = 0 ∨ streamId = id)
    (n : UInt32) : Confined id conn (conn.sendWindowUpdate streamId n) := by
  have concerns := window_update_concerns small own n
  unfold sendWindowUpdate getStream
  dsimp only
  split_ifs with zero
  · have added : Confined id conn { conn with recvWindow := int32 (conn.recvWindow + n.toNat) } :=
      ⟨fun _ => rfl, fun _ _ => rfl, fun _ _ => rfl, (confined_refl id conn).emitted⟩
    exact confined_trans added (enqueue_confined _ concerns)
  · have same : streamId = id := own.resolve_left zero
    cases found : conn.streams streamId with
    | none => exact enqueue_confined conn concerns
    | some ref =>
        have named : (conn.heap ref).id = id := (sound.named _ _ found).2.trans same
        have added := modify_confined named
          (fun stream => (show (stream.updateRecvWindowByDiff (int32 n.toNat)).id = _ from rfl))
        exact confined_trans added (enqueue_confined _ concerns)

theorem charge_connection_confined {conn : Http2SocketStream} (sound : Sound conn) (id : UInt32)
    (length : Nat) : Confined id conn (conn.chargeConnection length) := by
  have charged : Confined id conn { conn with recvWindow := int32 (conn.recvWindow - length) } :=
    ⟨fun _ => rfl, fun _ _ => rfl, fun _ _ => rfl, (confined_refl id conn).emitted⟩
  have chargedSound : Sound { conn with recvWindow := int32 (conn.recvWindow - length) } :=
    ⟨sound.sized, sound.named, sound.queued⟩
  unfold chargeConnection
  dsimp only
  split_ifs
  · exact confined_trans charged
      (send_window_update_confined chargedSound (by decide) (.inl rfl) _)
  · exact charged

theorem charge_stream_confined {conn : Http2SocketStream} {ref : Nat} {id : UInt32}
    (sound : Sound conn) (small : id.toNat < 2 ^ 31) (own : (conn.heap ref).id = id)
    (length : Nat) : Confined id conn (conn.chargeStream ref length) := by
  let change (stream : ManagedStream) : ManagedStream :=
    { stream with recvWindow := int32 (stream.recvWindow - length), recvFits := int32_int32 _ }
  have charged : Confined id conn (conn.modify ref change) := modify_confined own fun _ => rfl
  have still : Still conn (conn.modify ref change) := modify_still conn ref fun _ => ⟨rfl, rfl, rfl⟩
  have named : ((conn.modify ref change).heap ref).id = id := (charged.named ref).trans own
  unfold chargeStream
  dsimp only
  split_ifs
  · apply confined_trans charged
    apply send_window_update_confined (sound_quiet sound (still_quiet still))
    · rw [named]
      exact small
    · exact .inr named
  · exact charged

theorem account_confined {conn : Http2SocketStream} {ref : Nat} {id : UInt32} (sound : Sound conn)
    (small : id.toNat < 2 ^ 31) (own : (conn.heap ref).id = id) (frame : Frame) :
    Confined id conn (conn.account ref frame) := by
  unfold account handleRecvData
  dsimp only
  split_ifs
  · have first := charge_connection_confined sound id frame.header.length.toNat
    have still := charge_connection_still conn frame.header.length.toNat
    apply confined_trans first
    apply charge_stream_confined (sound_quiet sound (still_quiet still)) small
    exact (first.named ref).trans own
  · exact confined_refl id conn
  · exact confined_refl id conn

theorem handled_confined {conn after : Http2SocketStream} {ref : Nat} {frame : Frame} {id : UInt32}
    (own : (conn.heap ref).id = id) (handled : Handled conn ref frame after) :
    Confined id conn after := by
  have foreign {other : Nat} (different : (conn.heap other).id ≠ id) : other ≠ ref := by
    intro same
    rw [same] at different
    exact different own
  refine ⟨?_, ?_, ?_, ?_⟩
  · intro other
    by_cases same : other = ref
    · rw [same]
      exact handled.id
    · rw [handled.heap other same]
  · intro other different
    exact handled.heap other (foreign different)
  · intro other _
    rw [handled.streams]
  · rw [handled.emitted]
    exact (confined_refl id conn).emitted

/-- A frame that a client may send for a stream that was closed or deleted, or to reset a stream
that is open. -/
structure Late (conn : Http2SocketStream) (frame : Frame) : Prop where
  typed : frame.wellTyped = true
  nonzero : frame.header.streamId ≠ 0
  below : frame.header.streamId ≤ conn.sn
  kind : frameType frame.header.type ∈
    [some .data, some .headers, some .windowUpdate, some .rstStream]
  closed : ∀ ref, conn.streams frame.header.streamId = some ref →
    (conn.heap ref).state = .closed ∨ frameType frame.header.type = some .rstStream

/-- `doRecv` returns, and only the stream of the frame has changed or is named. -/
def Isolated (conn : Http2SocketStream) (frame : Frame) : Prop :=
  ∃ after, conn.doRecv (some frame) = .ok after ∧ Confined frame.header.streamId conn after

def incrementOf (frame : Frame) : Nat :=
  match frame.data with
  | some (.windowUpdate wuf) => wuf.increment.toNat
  | _ => 0

/-- A deleted stream only takes RST_STREAM, or DATA and HEADERS if it was the last one opened. A
stream in the map takes DATA, increments that fit, and RST_STREAM once it has a request or is
given one, but no HEADERS. -/
def Harmless (conn : Http2SocketStream) (frame : Frame) : Prop :=
  match conn.streams frame.header.streamId with
  | none =>
      frameType frame.header.type = some .rstStream ∨
        frameType frame.header.type ≠ some .windowUpdate ∧ frame.header.streamId = conn.sn
  | some ref =>
      match frameType frame.header.type with
      | some .windowUpdate => (conn.heap ref).sendWindow + incrementOf frame ≤ maxWindow
      | some .headers => False
      | some .rstStream =>
          (conn.heap ref).request ≠ none ∨ frame.header.flags &&& Http2Stream.flagEndStream ≠ 0
      | _ => True

theorem isolated_iff {conn after : Http2SocketStream} {frame : Frame}
    (done : conn.doRecv (some frame) = .ok after) :
    conn.Isolated frame ↔ Confined frame.header.streamId conn after := by
  constructor
  · intro isolated
    obtain ⟨other, same, confined⟩ := isolated
    rw [done] at same
    rwa [Except.ok.inj same]
  · exact fun confined => ⟨after, done, confined⟩

theorem not_confined {id : UInt32} {conn after : Http2SocketStream} {frame : Frame}
    (earlier : List Frame) (emitted : after.emitted = conn.emitted ++ (earlier ++ [frame]))
    (foreign : ¬frame.Concerns id) : ¬Confined id conn after := by
  intro confined
  obtain ⟨extra, same, own⟩ := confined.emitted
  rw [emitted] at same
  apply foreign
  apply own
  rw [← List.append_cancel_left same]
  exact List.mem_append_right _ (List.mem_singleton_self frame)

theorem go_away_concerns (lastStreamId error : UInt32) (debug : Str) (id : UInt32) :
    ¬(outFrame .goaway 0 0 (some (.goAway
      { lastStreamId := low31 lastStreamId, errorCode := error, data := debug }))).Concerns id := by
  intro concerns
  apply concerns.1
  rw [out_frame_type]

theorem go_away_emitted {conn : Http2SocketStream} (connected : conn.connected = true)
    (lastStreamId error : UInt32) (debug : Str) :
    (conn.sendGoAway lastStreamId error debug).emitted = conn.emitted ++ [outFrame .goaway 0 0
      (some (.goAway
        { lastStreamId := low31 lastStreamId, errorCode := error, data := debug }))] := by
  rw [sendGoAway, enqueue_eq]
  simp only [connected, if_true]

theorem go_away_not_confined {conn : Http2SocketStream} (connected : conn.connected = true)
    (id lastStreamId error : UInt32) (debug : Str) :
    ¬Confined id conn (conn.sendGoAway lastStreamId error debug) :=
  not_confined [] (go_away_emitted connected lastStreamId error debug)
    (go_away_concerns lastStreamId error debug id)

theorem reset_reply_concerns {conn : Http2SocketStream} {id : UInt32} (tidy : Tidy conn)
    (nonzero : id ≠ 0) (below : id ≤ conn.sn) :
    (outFrame .rstStream 0 conn.sn (some (.rstStream { errorCode := streamClosedError }))).Concerns
      id ↔ id = conn.sn := by
  have positive : conn.sn ≠ 0 := by
    intro zero
    rw [zero] at below
    exact nonzero (UInt32.le_zero_iff.mp below)
  unfold Frame.Concerns
  rw [out_frame_type, out_frame_stream_id tidy.small]
  constructor
  · intro concerns
    exact (concerns.2.resolve_left positive).symm
  · intro last
    exact ⟨by decide, .inr last.symm⟩

theorem deleted_isolated {conn : Http2SocketStream} {frame : Frame} (tidy : Tidy conn)
    (connected : conn.connected = true) (late : conn.Late frame)
    (unknown : conn.streams frame.header.streamId = none) :
    conn.Isolated frame ↔ frameType frame.header.type = some .rstStream ∨
      frameType frame.header.type ≠ some .windowUpdate ∧ frame.header.streamId = conn.sn := by
  by_cases kind : frameType frame.header.type = some .windowUpdate
  · obtain ⟨wuf, payload⟩ := window_update_payload late.typed kind
    have done : conn.doRecv (some frame) = .ok (conn.sendGoAway conn.sn protocolError []) := by
      simp [doRecv, kind, handleWindowUpdate, payload, late.nonzero, getStream, unknown]
    rw [isolated_iff done]
    simp [kind, go_away_not_confined connected]
  · have located := locate_spec conn frame
    have done := do_recv_located conn frame kind late.nonzero
    generalize conn.locate frame = outcome at located done
    obtain ⟨found, next⟩ := outcome
    cases located with
    | known inMap => cases unknown.symm.trans inMap
    | opened _ _ above => exact absurd above (UInt32.not_lt.mpr late.below)
    | ignored _ harmless =>
        rw [isolated_iff done]
        have reset : frameType frame.header.type = some .rstStream := by
          cases harmless with
          | inl client => cases tidy.server.symm.trans client
          | inr both => exact both.2
        simp [reset, confined_refl]
    | refused _ _ below other =>
        have concerns := reset_reply_concerns tidy late.nonzero below
        rw [isolated_iff done]
        constructor
        · intro confined
          refine .inr ⟨kind, ?_⟩
          by_contra foreign
          apply not_confined [] _ (mt concerns.mp foreign) confined
          change (conn.sendRstStream conn.sn streamClosedError).emitted = _
          rw [sendRstStream, enqueue_eq]
          simp only [connected, if_true]
          rfl
        · intro harmless
          have last := (harmless.resolve_left other).2
          exact enqueue_confined conn (concerns.mpr last)

theorem increment_isolated {conn : Http2SocketStream} {frame : Frame} {ref : Nat}
    (sound : Sound conn) (connected : conn.connected = true) (late : conn.Late frame)
    (kind : frameType frame.header.type = some .windowUpdate)
    (inMap : conn.streams frame.header.streamId = some ref) :
    conn.Isolated frame ↔ (conn.heap ref).sendWindow + incrementOf frame ≤ maxWindow := by
  obtain ⟨wuf, payload⟩ := window_update_payload late.typed kind
  have done : conn.doRecv (some frame) = .ok (conn.handleWindowUpdate frame) := by
    simp only [doRecv, kind, if_true]
  have same : conn.handleWindowUpdate frame =
      if (conn.heap ref).sendWindow + incrementOf frame > maxWindow then
        conn.sendGoAway conn.sn protocolError []
      else conn.modify ref (ManagedStream.updateSendWindowByDiff (incrementOf frame)) := by
    simp only [handleWindowUpdate, payload, getStream, inMap, incrementOf, if_pos late.nonzero]
  rw [isolated_iff done, same]
  by_cases high : (conn.heap ref).sendWindow + incrementOf frame > maxWindow
  · rw [if_pos high]
    constructor
    · exact fun confined => absurd confined (go_away_not_confined connected _ _ _ _)
    · exact fun fits => absurd high (Int.not_lt.mpr fits)
  · rw [if_neg high]
    constructor
    · exact fun _ => Int.not_lt.mp high
    · exact fun _ => modify_confined (sound.named _ _ inMap).2 fun _ => rfl

/-- A stream that is closed behind the frame goes on to `onStreamClose`, which asks for its
request. -/
theorem closing_isolated {conn : Http2SocketStream} {frame : Frame} {ref : Nat}
    {middle : Http2Stream} {table : Option DynamicTable} {rt : Int} (tidy : Tidy conn)
    (sound : Sound conn) (connected : conn.connected = true)
    (kind : frameType frame.header.type ≠ some .windowUpdate)
    (nonzero : frame.header.streamId ≠ 0)
    (inMap : conn.streams frame.header.streamId = some ref)
    (byType : (conn.heap ref).toHttp2Stream.handleByType (some conn.recvTable) frame =
      .ok (rt, middle, table))
    (closed : middle.state = .closed) :
    conn.Isolated frame ↔ (conn.heap ref).request ≠ none ∨
      frame.header.flags &&& Http2Stream.flagEndStream ≠ 0 := by
  have own := (sound.named _ _ inMap).2
  have ready := tidy.ready connected _ _ inMap
  have accounted := account_still conn ref frame
  have before := account_confined sound (stream_id_small frame.header) own frame
  obtain ⟨stream, returned, ended, same⟩ :=
    Http2Stream.handle_frame_returns ready.handler ready.whole byType
  rw [← (accounted.heap ref).1, ← accounted.recvTable, ← tidy.server, ← accounted.isClient]
    at returned
  obtain ⟨next, done, handled, content, _⟩ := handle_frame_done returned
  have state : stream.state = .closed := by
    by_cases ends : frame.header.flags &&& Http2Stream.flagEndStream = 0
    · rw [same ends]
      exact closed
    · exact (ended ends).1
  have request : stream.request ≠ none ↔ (conn.heap ref).request ≠ none ∨
      frame.header.flags &&& Http2Stream.flagEndStream ≠ 0 := by
    by_cases ends : frame.header.flags &&& Http2Stream.flagEndStream = 0
    · rw [same ends, Http2Stream.handle_by_type_request byType]
      simp [ends]
    · simp [ends, (ended ends).2]
  have received : conn.doRecv (some frame) = .ok (next.onStreamClose ref) := by
    rw [do_recv_known kind nonzero inMap, deliver, done, bind_ok, content, if_pos state]
  have server : ¬next.isClient = true := by
    simp [handled.isClient, accounted.isClient, tidy.server]
  have behind := confined_trans before (handled_confined ((before.named ref).trans own) handled)
  rw [isolated_iff received, ← request, onStreamClose]
  dsimp only
  rw [if_neg server, content]
  cases asked : stream.request with
  | none =>
      obtain ⟨extra, emitted, _⟩ := behind.emitted
      have nextConnected : next.connected = true := by
        rw [handled.connected, accounted.connected, connected]
      simp only [ne_eq, not_true_eq_false, iff_false]
      apply not_confined extra _ (go_away_concerns next.sn protocolError [] _)
      rw [del_stream_emitted, go_away_emitted nextConnected, emitted, List.append_assoc]
  | some req =>
      simp only [ne_eq, reduceCtorEq, not_false_eq_true, iff_true]
      split_ifs
      · exact ⟨behind.named, behind.heap, behind.streams, behind.emitted⟩
      · exact behind

theorem failed_not_isolated {conn : Http2SocketStream} {frame : Frame} {ref : Nat} {fault : Fault}
    (kind : frameType frame.header.type ≠ some .windowUpdate)
    (nonzero : frame.header.streamId ≠ 0)
    (inMap : conn.streams frame.header.streamId = some ref)
    (failed : (conn.heap ref).toHttp2Stream.handleByType (some conn.recvTable) frame =
      .error fault) : ¬conn.Isolated frame := by
  intro isolated
  obtain ⟨after, done, _⟩ := isolated
  have accounted := account_still conn ref frame
  rw [do_recv_known kind nonzero inMap, deliver, handleFrame, (accounted.heap ref).1,
    accounted.recvTable, Http2Stream.handleFrame, failed] at done
  cases done

theorem data_isolated {conn : Http2SocketStream} {frame : Frame} {ref : Nat} (tidy : Tidy conn)
    (sound : Sound conn) (connected : conn.connected = true) (late : conn.Late frame)
    (kind : frameType frame.header.type = some .data)
    (inMap : conn.streams frame.header.streamId = some ref) : conn.Isolated frame := by
  obtain ⟨data, payload⟩ := data_payload late.typed kind
  have closed : (conn.heap ref).state = .closed :=
    (late.closed ref inMap).resolve_right (by simp [kind])
  have byType : (conn.heap ref).toHttp2Stream.handleByType (some conn.recvTable) frame =
      .ok (0, { (conn.heap ref).toHttp2Stream with data := (conn.heap ref).data ++ [some data] },
        some conn.recvTable) := by
    simp only [Http2Stream.handleByType, kind, Http2Stream.handleDataFrame, payload]
  apply (closing_isolated tidy sound connected (by simp [kind]) late.nonzero inMap byType
    closed).mpr
  exact .inl ((tidy.ready connected _ _ inMap).asked closed)

theorem headers_not_isolated {conn : Http2SocketStream} {frame : Frame} {ref : Nat}
    (late : conn.Late frame) (kind : frameType frame.header.type = some .headers)
    (inMap : conn.streams frame.header.streamId = some ref) : ¬conn.Isolated frame := by
  have other : frameType frame.header.type ≠ some .windowUpdate := by simp [kind]
  obtain ⟨fault, failed, _⟩ :=
    (conn.heap ref).toHttp2Stream.handle_by_type_fatal (some conn.recvTable) kind
  exact failed_not_isolated other late.nonzero inMap failed

theorem reset_isolated {conn : Http2SocketStream} {frame : Frame} {ref : Nat} (tidy : Tidy conn)
    (sound : Sound conn) (connected : conn.connected = true) (late : conn.Late frame)
    (kind : frameType frame.header.type = some .rstStream)
    (inMap : conn.streams frame.header.streamId = some ref) :
    conn.Isolated frame ↔ (conn.heap ref).request ≠ none ∨
      frame.header.flags &&& Http2Stream.flagEndStream ≠ 0 := by
  have byType : (conn.heap ref).toHttp2Stream.handleByType (some conn.recvTable) frame =
      .ok (0, { (conn.heap ref).toHttp2Stream with state := .closed }, some conn.recvTable) := by
    simp only [Http2Stream.handleByType, kind, Http2Stream.handleRstStreamFrame]
  exact closing_isolated tidy sound connected (by simp [kind]) late.nonzero inMap byType rfl

theorem late_isolated_iff {conn : Http2SocketStream} {frame : Frame} (tidy : Tidy conn)
    (sound : Sound conn) (connected : conn.connected = true) (late : conn.Late frame) :
    conn.Isolated frame ↔ conn.Harmless frame := by
  unfold Harmless
  cases inMap : conn.streams frame.header.streamId with
  | none => exact deleted_isolated tidy connected late inMap
  | some ref =>
      have kinds := late.kind
      simp only [List.mem_cons, List.not_mem_nil, or_false] at kinds
      rcases kinds with kind | kind | kind | kind
      · rw [kind]
        simp only [iff_true]
        exact data_isolated tidy sound connected late kind inMap
      · rw [kind]
        simp only [iff_false]
        exact headers_not_isolated late kind inMap
      · rw [kind]
        exact increment_isolated sound connected late kind inMap
      · rw [kind]
        exact reset_isolated tidy sound connected late kind inMap

/-- In every state that a server reaches, exactly the harmless ones of these frames leave the
other streams alone. -/
theorem late_frame_isolated_iff {start conn : Http2SocketStream} {greeting : List Frame}
    {frame : Frame} (started : Started start greeting) (server : start.isClient = false)
    (reached : Transition.Reaches step (fun _ _ => True) start conn)
    (connected : conn.connected = true) (late : conn.Late frame) :
    conn.Isolated frame ↔ conn.Harmless frame := by
  have both : Sound conn ∧ Tidy conn := by
    apply Transition.invariant_of_reaches _ _ reached
    · exact ⟨started_sound started, started_tidy started server⟩
    · intro state action after before _ taken
      exact ⟨sound_step before.1 taken, tidy_step before.2 before.1 taken⟩
  exact late_isolated_iff both.2 both.1 connected late

/-- DATA behind the response, for the last stream that was opened. -/
theorem late_frame_isolated_last :
    ∃ conn, Transition.Reaches step (fun _ _ => True) greeted conn ∧ conn.streams 1 = none ∧
      conn.Isolated (inFrame .data 0x1 1 2 (.data { data := [0x68, 0x69] })) := by
  let data := inFrame .data 0x1 1 2 (.data { data := [0x68, 0x69] })
  have reached : ∃ conn, Transition.Reaches step (fun _ _ => True) greeted conn ∧
      conn.connected = true ∧ conn.sn = 1 ∧ conn.streams 1 = none :=
    Transition.exists_of_run [.recv data, .task 0 {}] (by decide +kernel)
  obtain ⟨conn, reached, connected, last, unknown⟩ := reached
  have late : conn.Late data := by
    refine ⟨by decide, by decide, ?_, by decide, ?_⟩
    · rw [last]
      decide
    · intro ref found
      cases unknown.symm.trans found
  have harmless : conn.Harmless data := by
    unfold Harmless
    rw [show conn.streams data.header.streamId = none from unknown]
    exact .inr ⟨by decide, last.symm⟩
  exact ⟨conn, reached, unknown,
    (late_frame_isolated_iff greeted_started rfl reached connected late).mpr harmless⟩

/-- Stream 1 is answered while stream 3 is still being received. A further DATA frame for stream
1 resets stream 3. -/
theorem late_data_resets_other :
    ∃ conn after, Transition.Reaches step (fun _ _ => True) greeted conn ∧
      conn.connected = true ∧ conn.streams 3 = some 1 ∧
      conn.Late (inFrame .data 0x1 1 2 (.data { data := [0x68, 0x69] })) ∧
      conn.doRecv (some (inFrame .data 0x1 1 2 (.data { data := [0x68, 0x69] }))) = .ok after ∧
      (∃ frame ∈ after.emitted.drop conn.emitted.length,
        frameType frame.header.type = some .rstStream ∧ frame.header.streamId = 3) ∧
      ¬conn.Isolated (inFrame .data 0x1 1 2 (.data { data := [0x68, 0x69] })) := by
  let second := inFrame .data 0x0 3 1 (.data { data := [0x68] })
  let data := inFrame .data 0x1 1 2 (.data { data := [0x68, 0x69] })
  have reached : ∃ conn, Transition.Reaches step (fun _ _ => True) greeted conn ∧
      conn.connected = true ∧ conn.streams 3 = some 1 ∧ conn.sn = 3 ∧ conn.streams 1 = none ∧
        (conn.doRecv (some data)).toOption.any (fun after =>
          (after.emitted.drop conn.emitted.length).any fun frame =>
            frameType frame.header.type = some .rstStream ∧ frame.header.streamId = 3) = true :=
    Transition.exists_of_run [.recv data, .recv second, .task 0 {}] (by decide +kernel)
  obtain ⟨conn, reached, connected, other, last, unknown, reset⟩ := reached
  have late : conn.Late data := by
    refine ⟨by decide, by decide, ?_, by decide, ?_⟩
    · rw [last]
      decide
    · intro ref found
      cases unknown.symm.trans found
  cases done : conn.doRecv (some data) with
  | error fault =>
      rw [done] at reset
      cases reset
  | ok after =>
      rw [done] at reset
      obtain ⟨frame, member, named⟩ := List.any_eq_true.mp reset
      have facts := of_decide_eq_true named
      refine ⟨conn, after, reached, connected, other, late, done, ⟨frame, member, facts⟩, ?_⟩
      rw [isolated_iff done]
      intro confined
      obtain ⟨extra, emitted, concerns⟩ := confined.emitted
      rw [emitted, List.drop_left] at member
      have own := (concerns frame member).2
      rw [facts.2] at own
      exact absurd own (by decide)

end Http2SocketStream
end ChatServer.Http2
