import ChatServer.Http2.SendData

/-!
# What holds of every connection

The map points to streams that exist under their own ids, the queue of the workers to streams
that exist and have a request, and the frame size for sending is a legal one. So a task that was
scheduled can always run.
-/

namespace ChatServer.Http2.Http2SocketStream

set_option autoImplicit false

structure Sound (conn : Http2SocketStream) : Prop where
  sized : conn.Sized
  named : ∀ id ref, conn.streams id = some ref → ref < conn.allocated ∧ (conn.heap ref).id = id
  queued : ∀ ref ∈ conn.scheduled, ref < conn.allocated ∧ (conn.heap ref).request ≠ none

theorem sound_quiet {conn after : Http2SocketStream} (sound : Sound conn) (quiet : Quiet conn after) :
    Sound after := by
  refine ⟨quiet.sized sound.sized, ?_, ?_⟩
  · intro id ref found
    rw [quiet.allocated, (quiet.heap ref).1]
    exact sound.named id ref (quiet.streams id ref found)
  · intro ref member
    rw [quiet.scheduled] at member
    rw [quiet.allocated]
    have before := sound.queued ref member
    exact ⟨before.1, (quiet.heap ref).2.2 before.2⟩

theorem add_stream_heap (conn : Http2SocketStream) (sn id : UInt32) {ref : Nat}
    (inside : ref < conn.allocated) : ({ conn with sn }.addStream id).heap ref = conn.heap ref := by
  simp only [addStream]
  exact Function.update_of_ne (Nat.ne_of_lt inside) _ _

theorem add_stream_id (conn : Http2SocketStream) (sn id : UInt32) :
    (({ conn with sn }.addStream id).heap conn.allocated).id = id := by
  simp only [addStream, Function.update_self]

theorem add_stream_found {conn : Http2SocketStream} {sn id other : UInt32} {ref : Nat}
    (found : ({ conn with sn }.addStream id).streams other = some ref) :
    other = id ∧ ref = conn.allocated ∨ conn.streams other = some ref := by
  change Function.update conn.streams id (some conn.allocated) other = some ref at found
  by_cases same : other = id
  · rw [same, Function.update_self] at found
    exact .inl ⟨same, (Option.some.inj found).symm⟩
  · rw [Function.update_of_ne same] at found
    exact .inr found

theorem sound_opened {conn : Http2SocketStream} (sound : Sound conn) (sn id : UInt32) :
    Sound ({ conn with sn }.addStream id) := by
  refine ⟨sound.sized, ?_, ?_⟩
  · intro other ref found
    change ref < conn.allocated + 1 ∧ _
    cases add_stream_found found with
    | inl own =>
        rw [own.1, own.2, add_stream_id]
        exact ⟨Nat.lt_succ_self _, rfl⟩
    | inr earlier =>
        have before := sound.named other ref earlier
        rw [add_stream_heap conn sn id before.1]
        exact ⟨Nat.lt_succ_of_lt before.1, before.2⟩
  · intro ref member
    change ref < conn.allocated + 1 ∧ _
    have before := sound.queued ref member
    rw [add_stream_heap conn sn id before.1]
    exact ⟨Nat.lt_succ_of_lt before.1, before.2⟩

theorem sound_located {conn next : Http2SocketStream} {frame : Frame} {ref : Nat}
    (sound : Sound conn) (located : Located conn frame (some ref) next) :
    Sound next ∧ next.streams frame.header.streamId = some ref := by
  cases located with
  | known found => exact ⟨sound, found⟩
  | opened unknown server above =>
      exact ⟨sound_opened sound _ _, Function.update_self _ _ _⟩

theorem sound_missed {conn next : Http2SocketStream} {frame : Frame} (sound : Sound conn)
    (located : Located conn frame none next) : Sound next := by
  cases located with
  | ignored _ _ => exact sound
  | refused _ _ _ _ => exact sound_quiet sound (enqueue_quiet conn _)

theorem sound_scheduled {conn : Http2SocketStream} (sound : Sound conn) {refs : List Nat}
    (ready : ∀ ref ∈ refs, ref < conn.allocated ∧ (conn.heap ref).request ≠ none) :
    Sound { conn with scheduled := refs } := ⟨sound.sized, sound.named, ready⟩

theorem sound_stream_closed {conn : Http2SocketStream} (sound : Sound conn) {ref : Nat}
    (inside : ref < conn.allocated) : Sound (conn.onStreamClose ref) := by
  unfold onStreamClose
  dsimp only
  by_cases client : conn.isClient = true
  · rw [if_pos client]
    have removed := del_stream_quiet conn (conn.heap ref).id
    split_ifs
    · have answered := sound_quiet sound removed
      exact ⟨answered.sized, answered.named, answered.queued⟩
    · exact sound_quiet sound removed
  · rw [if_neg client]
    cases request : (conn.heap ref).request with
    | none => exact sound_quiet sound (quiet_trans (enqueue_quiet conn _) (del_stream_quiet _ _))
    | some req =>
        dsimp only
        split_ifs
        · apply sound_scheduled sound
          intro other member
          cases List.mem_append.mp member with
          | inl earlier => exact sound.queued other earlier
          | inr last =>
              rw [List.mem_singleton.mp last, request]
              exact ⟨inside, Option.some_ne_none req⟩
        · exact sound

theorem sound_received {conn after : Http2SocketStream} {frame : Frame} (sound : Sound conn)
    (received : Received conn frame after) : Sound after := by
  cases received with
  | windowUpdate typed => exact sound_quiet sound (handle_window_update_quiet conn frame)
  | control typed zero done => exact sound_quiet sound (control_quiet done)
  | dropped typed some located => exact sound_missed sound located
  | kept typed some located handled running =>
      have found := (sound_located sound located).1
      exact sound_quiet found (account_quiet (handle_frame_quiet handled))
  | closed typed some located handled ended =>
      obtain ⟨found, inMap⟩ := sound_located sound located
      have quiet := account_quiet (handle_frame_quiet handled)
      apply sound_stream_closed (sound_quiet found quiet)
      rw [quiet.allocated]
      exact (found.named _ _ inMap).1
  | thrown typed some located threw =>
      have found := (sound_located sound located).1
      exact sound_quiet found (account_quiet (inner_close_quiet _))

/-- A dispatch counts one request of one stream, and what the streams hold stays. -/
theorem dispatch_content (conn : Http2SocketStream) (ref : Nat) (req : HttpMessage) (other : Nat) :
    ((conn.dispatch ref req).heap other).toHttp2Stream = (conn.heap other).toHttp2Stream ∧
      ((conn.dispatch ref req).heap other).id = (conn.heap other).id := by
  simp only [dispatch, modify_heap]
  split_ifs with own
  · rw [own]
    exact ⟨rfl, rfl⟩
  · exact ⟨rfl, rfl⟩

theorem dispatch_other (conn : Http2SocketStream) (req : HttpMessage) {ref other : Nat}
    (different : other ≠ ref) : (conn.dispatch ref req).heap other = conn.heap other := by
  simp only [dispatch, modify_heap, if_neg different]

theorem sound_dispatch {conn : Http2SocketStream} (sound : Sound conn) (ref : Nat)
    (req : HttpMessage) : Sound (conn.dispatch ref req) := by
  refine ⟨sound.sized, ?_, ?_⟩
  · intro id other found
    rw [(dispatch_content conn ref req other).2]
    exact sound.named id other found
  · intro other member
    rw [(dispatch_content conn ref req other).1]
    exact sound.queued other member

theorem sound_handle_request {conn after : Http2SocketStream} {ref : Nat} {rsp : HttpResponse}
    (sound : Sound conn) (done : conn.handleRequest ref rsp = .ok after) : Sound after := by
  cases handle_request_cases done with
  | inl again =>
      rw [again.2]
      exact sound
  | inr first =>
      obtain ⟨req, rt, next, _, _, responded, same⟩ := first
      rw [same]
      have answered := sound_quiet (sound_dispatch sound ref req) (still_quiet (send_response_still responded))
      exact sound_quiet answered (del_stream_quiet next _)

theorem sound_open_request {conn : Http2SocketStream} (sound : Sound conn) (isStream : Bool) :
    Sound (conn.openRequest isStream) := by
  have opened := sound_opened sound (conn.sn + 2) (conn.sn + 2)
  unfold openRequest newStream
  dsimp only
  generalize { conn with sn := conn.sn + 2 }.addStream (conn.sn + 2) = grown at opened ⊢
  cases isStream with
  | true =>
      have keeps : Keeps fun stream => { stream with isStream := true } := fun _ => ⟨rfl, rfl, id⟩
      exact sound_quiet opened (modify_quiet grown conn.allocated keeps)
  | false => exact ⟨opened.sized, opened.named, opened.queued⟩

theorem sound_erased {conn : Http2SocketStream} (sound : Sound conn) (pick : Nat) :
    Sound { conn with scheduled := conn.scheduled.eraseIdx pick } := by
  apply sound_scheduled sound
  intro ref member
  exact sound.queued ref (List.mem_of_mem_eraseIdx member)

theorem sound_step {conn after : Http2SocketStream} {action : Action} (sound : Sound conn)
    (taken : conn.step action = some after) : Sound after := by
  cases step_cases taken with
  | recv _ _ received => exact sound_received sound received
  | hangUp _ => exact sound_quiet sound (inner_close_quiet conn)
  | @task pick _ _ _ _ done => exact sound_handle_request (sound_erased sound pick) done
  | openStream isStream _ _ => exact sound_open_request sound isStream
  | unsent _ => exact sound
  | sendRequest _ done => exact sound_quiet sound (still_quiet (send_request_still done))
  | sendData _ done => exact sound_quiet sound (still_quiet (send_data_still done))
  | sendSettings valid => exact sound_quiet sound (send_settings_quiet conn valid)
  | onTimeOut sn _ => exact sound_quiet sound (on_time_out_quiet conn sn)

theorem new_sound (isClient : Bool) (writes : Nat → Int) : Sound { new isClient with writes } := by
  refine ⟨?_, ?_, ?_⟩
  · change defaultMaxFrameSize ≤ defaultMaxFrameSize ∧ defaultMaxFrameSize ≤ maxMaxFrameSize
    decide
  · intro id ref found
    cases found
  · intro ref member
    exact absurd member List.not_mem_nil

theorem started_sound {conn : Http2SocketStream} {received : List Frame}
    (started : Started conn received) : Sound conn := by
  obtain ⟨isClient, writes, quiet⟩ := started_quiet started
  exact sound_quiet (new_sound isClient writes) quiet

theorem send_response_returns {conn : Http2SocketStream} (sized : conn.Sized) (ref : Nat)
    (rsp : HttpResponse) (endStream async : Bool) :
    ∃ result, conn.sendResponse ref rsp endStream async = .ok result := by
  have first (frame : Frame) : (conn.sendFrame frame async).2.Sized :=
    (still_quiet (send_frame_still conn frame async)).sized sized
  unfold sendResponse
  dsimp only
  generalize headersFrame _ _ _ = frame
  have kept := first frame
  generalize conn.sendFrame frame async = sent at kept ⊢
  by_cases refused : sent.1 < 0
  · rw [if_pos refused]
    exact ⟨_, rfl⟩
  · rw [if_neg refused]
    by_cases none : rsp.body = []
    · rw [if_pos none]
      exact ⟨_, rfl⟩
    · rw [if_neg none]
      obtain ⟨ok, next, done, _⟩ := send_data_spec kept ref rsp.body async rsp.trailers.isEmpty
      rw [done]
      exact ⟨_, rfl⟩

/-- A scheduled request can be handled whatever the servlet answers. -/
theorem task_runs {conn : Http2SocketStream} (sound : Sound conn) {pick : Nat}
    (inside : pick < conn.scheduled.length) (rsp : HttpResponse) :
    ∃ after, conn.step (.task pick rsp) = some after := by
  have picked : conn.scheduled[pick]? = some conn.scheduled[pick] := List.getElem?_eq_getElem inside
  have ready := sound.queued _ (List.getElem_mem inside)
  rw [step, runTask, picked]
  dsimp only
  unfold handleRequest
  dsimp only
  split_ifs
  · exact ⟨_, rfl⟩
  · cases request : (conn.heap conn.scheduled[pick]).request with
    | none => exact absurd request ready.2
    | some req =>
        have sized := (sound_dispatch (sound_erased sound pick) conn.scheduled[pick] req).sized
        obtain ⟨result, done⟩ := send_response_returns sized conn.scheduled[pick] rsp true true
        change ∃ after, Except.toOption
          ((sendResponse (dispatch _ conn.scheduled[pick] req) _ rsp true true) >>= _) = some after
        rw [done]
        exact ⟨_, rfl⟩

end ChatServer.Http2.Http2SocketStream
