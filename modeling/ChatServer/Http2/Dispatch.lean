import ChatServer.Http2.ConnectionInvariant

/-!
# Requests are dispatched at most once

Several frames can schedule `handleRequest` for one stream before any of the tasks runs, and a
stream that was handled leaves the map. The first is harmless because the tasks share the
stream and its `m_handleCount`, the second because `newStream` only takes ids above `m_sn`.
-/

namespace ChatServer.Http2.Http2SocketStream

set_option autoImplicit false

/-- Every id has one stream, and a stream is handled once. -/
structure Once (conn : Http2SocketStream) : Prop where
  server : conn.isClient = false
  below : ∀ ref, ref < conn.allocated → (conn.heap ref).id ≤ conn.sn
  distinct : ∀ first second, first < conn.allocated → second < conn.allocated →
    (conn.heap first).id = (conn.heap second).id → first = second
  handled : ∀ id ∈ conn.dispatched.map Prod.fst, ∃ ref, ref < conn.allocated ∧
    (conn.heap ref).id = id ∧ (conn.heap ref).handleCount ≠ 0
  nodup : (conn.dispatched.map Prod.fst).Nodup

theorem once_quiet {conn after : Http2SocketStream} (once : Once conn) (quiet : Quiet conn after) :
    Once after where
  server := quiet.isClient.trans once.server
  below := by
    intro ref inside
    rw [quiet.allocated] at inside
    rw [(quiet.heap ref).1, quiet.sn]
    exact once.below ref inside
  distinct := by
    intro first second firstIn secondIn same
    rw [quiet.allocated] at firstIn secondIn
    rw [(quiet.heap first).1, (quiet.heap second).1] at same
    exact once.distinct first second firstIn secondIn same
  handled := by
    intro id member
    rw [quiet.dispatched] at member
    obtain ⟨ref, inside, same, counted⟩ := once.handled id member
    refine ⟨ref, ?_, ?_, ?_⟩
    · rwa [quiet.allocated]
    · rwa [(quiet.heap ref).1]
    · rwa [(quiet.heap ref).2.1]
  nodup := by
    rw [quiet.dispatched]
    exact once.nodup

/-- A new id is above all others, so its stream is the only one. -/
theorem once_opened {conn : Http2SocketStream} (once : Once conn) {id : UInt32}
    (above : conn.sn < id) : Once ({ conn with sn := id }.addStream id) := by
  let grown := { conn with sn := id }.addStream id
  have old {ref : Nat} (inside : ref < conn.allocated) : grown.heap ref = conn.heap ref :=
    add_stream_heap conn id id inside
  have new : (grown.heap conn.allocated).id = id := add_stream_id conn id id
  have smaller {ref : Nat} (inside : ref < conn.allocated) : (grown.heap ref).id < id := by
    rw [old inside]
    exact UInt32.lt_of_le_of_lt (once.below ref inside) above
  have cases {ref : Nat} (inside : ref < conn.allocated + 1) :
      ref < conn.allocated ∨ ref = conn.allocated := Nat.lt_succ_iff_lt_or_eq.mp inside
  refine ⟨once.server, ?_, ?_, ?_, once.nodup⟩
  · intro ref inside
    change (grown.heap ref).id ≤ id
    cases cases inside with
    | inl earlier => exact UInt32.le_of_lt (smaller earlier)
    | inr last =>
        rw [last, new]
        exact UInt32.le_refl id
  · intro first second firstIn secondIn same
    change (grown.heap first).id = (grown.heap second).id at same
    cases cases firstIn with
    | inl firstOld =>
        cases cases secondIn with
        | inl secondOld =>
            rw [old firstOld, old secondOld] at same
            exact once.distinct first second firstOld secondOld same
        | inr secondNew =>
            rw [secondNew, new] at same
            exact absurd same (UInt32.ne_of_lt (smaller firstOld))
    | inr firstNew =>
        cases cases secondIn with
        | inl secondOld =>
            rw [firstNew, new] at same
            exact absurd same.symm (UInt32.ne_of_lt (smaller secondOld))
        | inr secondNew => rw [firstNew, secondNew]
  · intro other member
    obtain ⟨ref, inside, same, counted⟩ := once.handled other member
    refine ⟨ref, Nat.lt_succ_of_lt inside, ?_, ?_⟩
    · change (grown.heap ref).id = other
      rwa [old inside]
    · change (grown.heap ref).handleCount ≠ 0
      rwa [old inside]

theorem once_scheduled {conn : Http2SocketStream} (once : Once conn) (refs : List Nat) :
    Once { conn with scheduled := refs } :=
  ⟨once.server, once.below, once.distinct, once.handled, once.nodup⟩

theorem once_dispatched {conn : Http2SocketStream} (once : Once conn) {ref : Nat}
    (inside : ref < conn.allocated) (fresh : (conn.heap ref).handleCount = 0) (req : HttpMessage) :
    Once (conn.dispatch ref req) := by
  have id (other : Nat) := (dispatch_content conn ref req other).2
  have count : ((conn.dispatch ref req).heap ref).handleCount = 1 := by
    simp only [dispatch, modify_heap, if_true, fresh]
    rfl
  have unseen : (conn.heap ref).id ∉ conn.dispatched.map Prod.fst := by
    intro member
    obtain ⟨other, otherIn, same, counted⟩ := once.handled _ member
    rw [once.distinct other ref otherIn inside same] at counted
    exact counted fresh
  refine ⟨once.server, ?_, ?_, ?_, ?_⟩
  · intro other otherIn
    rw [id]
    exact once.below other otherIn
  · intro first second firstIn secondIn same
    rw [id, id] at same
    exact once.distinct first second firstIn secondIn same
  · intro other member
    change other ∈ (conn.dispatched ++ [((conn.heap ref).id, req)]).map Prod.fst at member
    rw [List.map_append, List.mem_append] at member
    cases member with
    | inl earlier =>
        obtain ⟨found, foundIn, same, nonzero⟩ := once.handled other earlier
        have different : found ≠ ref := by
          intro equal
          rw [equal] at nonzero
          exact nonzero fresh
        refine ⟨found, foundIn, (id found).trans same, ?_⟩
        rwa [dispatch_other conn req different]
    | inr last =>
        rw [List.map_singleton, List.mem_singleton] at last
        refine ⟨ref, inside, (id ref).trans last.symm, ?_⟩
        rw [count]
        decide
  · change ((conn.dispatched ++ [((conn.heap ref).id, req)]).map Prod.fst).Nodup
    rw [List.map_append, List.nodup_append']
    refine ⟨once.nodup, List.nodup_singleton _, ?_⟩
    intro other earlier last
    rw [List.map_singleton, List.mem_singleton] at last
    rw [last] at earlier
    exact unseen earlier

theorem once_located {conn next : Http2SocketStream} {frame : Frame} {found : Option Nat}
    (once : Once conn) (located : Located conn frame found next) : Once next := by
  cases located with
  | known inMap => exact once
  | opened unknown server above => exact once_opened once above
  | ignored unknown harmless => exact once
  | refused unknown server below other => exact once_quiet once (enqueue_quiet conn _)

theorem once_stream_closed {conn : Http2SocketStream} (once : Once conn) (ref : Nat) :
    Once (conn.onStreamClose ref) := by
  have server : ¬conn.isClient = true := by simp [once.server]
  unfold onStreamClose
  dsimp only
  rw [if_neg server]
  cases (conn.heap ref).request with
  | none => exact once_quiet once (quiet_trans (enqueue_quiet conn _) (del_stream_quiet _ _))
  | some req =>
      dsimp only
      split_ifs
      · exact once_scheduled once _
      · exact once

theorem once_received {conn after : Http2SocketStream} {frame : Frame} (once : Once conn)
    (received : Received conn frame after) : Once after := by
  cases received with
  | windowUpdate typed => exact once_quiet once (handle_window_update_quiet conn frame)
  | control typed zero done => exact once_quiet once (control_quiet done)
  | dropped typed some located => exact once_located once located
  | kept typed some located handled running =>
      have quiet := account_quiet (handle_frame_quiet handled)
      exact once_quiet (once_located once located) quiet
  | @closed ref _ _ typed some located handled ended =>
      have quiet := account_quiet (handle_frame_quiet handled)
      exact once_stream_closed (once_quiet (once_located once located) quiet) ref
  | @thrown ref found _ typed some located threw =>
      have quiet := account_quiet (inner_close_quiet (found.account ref frame))
      exact once_quiet (once_located once located) quiet

theorem once_handle_request {conn after : Http2SocketStream} {ref : Nat} {rsp : HttpResponse}
    (once : Once conn) (inside : ref < conn.allocated)
    (done : conn.handleRequest ref rsp = .ok after) : Once after := by
  cases handle_request_cases done with
  | inl again =>
      rw [again.2]
      exact once
  | inr first =>
      obtain ⟨req, rt, next, fresh, _, responded, same⟩ := first
      rw [same]
      have answered := once_quiet (once_dispatched once inside fresh req)
        (still_quiet (send_response_still responded))
      exact once_quiet answered (del_stream_quiet next _)

theorem once_step {conn after : Http2SocketStream} {action : Action} (sound : Sound conn)
    (once : Once conn) (taken : conn.step action = some after) : Once after := by
  cases step_cases taken with
  | recv _ _ received => exact once_received once received
  | hangUp _ => exact once_quiet once (inner_close_quiet conn)
  | @task pick ref _ _ picked done =>
      have inside := (sound.queued ref (List.mem_of_getElem? picked)).1
      exact once_handle_request (once_scheduled once (conn.scheduled.eraseIdx pick)) inside done
  | openStream _ client _ => simp [once.server] at client
  | unsent _ => exact once
  | sendRequest _ done => exact once_quiet once (still_quiet (send_request_still done))
  | sendData _ done => exact once_quiet once (still_quiet (send_data_still done))
  | sendSettings valid => exact once_quiet once (send_settings_quiet conn valid)
  | onTimeOut _ client => simp [once.server] at client

theorem once_new (writes : Nat → Int) : Once { new false with writes } where
  server := rfl
  below := fun _ inside => absurd inside (Nat.not_lt_zero _)
  distinct := fun _ _ inside => absurd inside (Nat.not_lt_zero _)
  handled := fun _ member => absurd member List.not_mem_nil
  nodup := List.nodup_nil

theorem started_once {conn : Http2SocketStream} {received : List Frame}
    (started : Started conn received) (server : conn.isClient = false) : Once conn := by
  obtain ⟨isClient, writes, quiet⟩ := started_quiet started
  have same : isClient = false := quiet.isClient.symm.trans server
  rw [same] at quiet
  exact once_quiet (once_new writes) quiet

/-- Whatever the client sends and in whatever order the tasks run, no stream id is dispatched
twice. -/
theorem dispatched_at_most_once {start conn : Http2SocketStream} {received : List Frame}
    (started : Started start received) (server : start.isClient = false)
    (reached : Transition.Reaches step (fun _ _ => True) start conn) :
    (conn.dispatched.map Prod.fst).Nodup := by
  have both : Sound conn ∧ Once conn := by
    apply Transition.invariant_of_reaches _ _ reached
    · exact ⟨started_sound started, started_once started server⟩
    · intro state action after before _ taken
      exact ⟨sound_step before.1 taken, once_step before.1 before.2 taken⟩
  exact both.2.nodup

/-- END_STREAM arrives twice before the first task runs, and once more behind it. -/
theorem dispatched_at_most_once_racing :
    ∃ conn, Transition.Reaches step (fun _ _ => True) greeted conn ∧
      conn.dispatched.map Prod.fst = [1] ∧ (conn.dispatched.map Prod.fst).Nodup := by
  let data := inFrame .data 0x1 1 2 (.data { data := [0x68, 0x69] })
  have reached : ∃ conn, Transition.Reaches step (fun _ _ => True) greeted conn ∧
      conn.dispatched.map Prod.fst = [1] :=
    Transition.exists_of_run
      [.recv data, .recv data, .task 0 {}, .recv data, .task 0 {}, .recv data] (by decide +kernel)
  obtain ⟨conn, reached, once⟩ := reached
  exact ⟨conn, reached, once, dispatched_at_most_once greeted_started rfl reached⟩

end ChatServer.Http2.Http2SocketStream
