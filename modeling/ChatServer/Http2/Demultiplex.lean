import ChatServer.Http2.Dispatch
import ChatServer.Http2.Requests

/-!
# Requests that arrive interleaved

The frames of several requests share one connection: its map of streams, its `m_sn` and its
table of headers. Each request begins with a header block, and the first one that is read ends
the process.
-/

namespace ChatServer.Http2

set_option autoImplicit false

def own (id : UInt32) (frames : List Frame) : List Frame :=
  frames.filter fun frame => frame.header.streamId = id

def Frame.opens (frame : Frame) : Bool := frameType frame.header.type = some .headers

/-- Every request is sent in its own order, nothing else is sent, and streams are opened in
increasing order. -/
structure Interleaves (requests : List Request) (wire : List Frame) : Prop where
  distinct : (requests.map Request.id).Nodup
  each : ∀ request ∈ requests, own request.id wire = request.frames
  only : ∀ frame ∈ wire, ∃ request ∈ requests, frame.header.streamId = request.id
  increasing : ((wire.filter Frame.opens).map fun frame => frame.header.streamId).Pairwise (· < ·)

/-- The request that its frames make, with this header list. -/
def Request.message (request : Request) (fields : List HeaderField) : HttpMessage :=
  ChatServer.Http2.message fields (payloads request.frames)

theorem first_opens {requests : List Request} {wire : List Frame}
    (interleaves : Interleaves requests wire) {frame : Frame} {rest : List Frame}
    (front : wire = frame :: rest) : ∃ request ∈ requests, frame = request.opening := by
  rw [front] at interleaves
  obtain ⟨request, inside, named⟩ := interleaves.only frame List.mem_cons_self
  have each := interleaves.each request inside
  rw [own, List.filter_cons_of_pos (by simp [named])] at each
  exact ⟨request, inside, (List.cons.inj each).1⟩

theorem wire_nil_iff {requests : List Request} {wire : List Frame}
    (interleaves : Interleaves requests wire) : wire = [] ↔ requests = [] := by
  constructor
  · intro none
    by_contra some
    obtain ⟨request, rest, same⟩ := List.exists_cons_of_ne_nil some
    have each := interleaves.each request (by rw [same]; exact List.mem_cons_self)
    rw [none] at each
    cases each
  · intro none
    by_contra some
    obtain ⟨frame, rest, same⟩ := List.exists_cons_of_ne_nil some
    obtain ⟨request, inside, _⟩ := first_opens interleaves same
    rw [none] at inside
    exact absurd inside List.not_mem_nil

namespace Http2SocketStream

inductive Move where
  | receive
  | task (pick : Nat) (rsp : HttpResponse)

def serve (state : Http2SocketStream × List Frame) : Move → Option (Http2SocketStream × List Frame)
  | .receive =>
      match state.2 with
      | [] => none
      | frame :: rest => (state.1.step (.recv frame)).map fun after => (after, rest)
  | .task pick rsp => (state.1.step (.task pick rsp)).map fun after => (after, state.2)

/-- What the servlets have been given, and what is left to do. -/
structure Demultiplexed (requests : List Request) (decoded : UInt32 → List HeaderField)
    (state : Http2SocketStream × List Frame) : Prop where
  /-- A servlet is given its own request, as if no other frames had been sent. -/
  given : ∀ entry ∈ state.1.dispatched, ∃ request ∈ requests, entry.1 = request.id ∧
    entry.2 = request.message (decoded request.id) ∧
    entry.2.body = (payloads request.frames).flatMap DataFrame.data ∧
    ∀ key, entry.2.find key = lastValue (decoded request.id) key
  once : (state.1.dispatched.map Prod.fst).Nodup
  /-- The reader never gets stuck. -/
  receives : state.2 ≠ [] → ∃ after, serve state .receive = some after
  /-- When nothing is left to do, every request was given to its servlet. -/
  complete : state.2 = [] → state.1.scheduled = [] → ∀ request ∈ requests,
    (request.id, request.message (decoded request.id)) ∈ state.1.dispatched

theorem deliver_fatal (conn : Http2SocketStream) (ref : Nat) {frame : Frame}
    (typed : frameType frame.header.type = some .headers) : Fatal (conn.deliver ref frame) := by
  apply fatal_bind
  apply fatal_bind
  exact Http2Stream.handle_frame_fatal _ _ _ typed

theorem opening_not_received {conn : Http2SocketStream} {frame : Frame}
    (server : conn.isClient = false) (typed : frameType frame.header.type = some .headers)
    (nonzero : frame.header.streamId ≠ 0) (unknown : conn.streams frame.header.streamId = none)
    (above : conn.sn < frame.header.streamId) : conn.step (.recv frame) = none := by
  have other : frameType frame.header.type ≠ some .windowUpdate := by simp [typed]
  have located : (conn.locate frame).1 = some conn.allocated := by
    have plain : ¬conn.isClient = true := by simp [server]
    unfold locate getStream newStreamAt
    rw [unknown]
    dsimp only
    rw [if_neg plain, if_neg (UInt32.not_le.mpr above)]
  obtain ⟨fault, failed, uncaught⟩ := deliver_fatal (conn.locate frame).2 conn.allocated typed
  have received : conn.doRecv (some frame) = .error fault := by
    rw [do_recv_located conn frame other nonzero, located]
    exact failed
  rw [step, read, received]
  cases fault with
  | thrown exception => exact absurd rfl (uncaught exception)
  | undefined cause => exact ite_self none
  | aborted => exact ite_self none

theorem started_idle {start : Http2SocketStream} {greeting : List Frame}
    (started : Started start greeting) (server : start.isClient = false) :
    start.sn = 0 ∧ (∀ id, start.streams id = none) ∧ start.scheduled = [] ∧
      start.dispatched = [] := by
  obtain ⟨isClient, writes, quiet⟩ := started_quiet started
  have same : isClient = false := quiet.isClient.symm.trans server
  refine ⟨?_, ?_, quiet.scheduled, quiet.dispatched⟩
  · rw [quiet.sn, same]
    rfl
  · intro id
    cases found : start.streams id with
    | none => rfl
    | some ref => cases quiet.streams id ref found

theorem serve_start {start : Http2SocketStream} {greeting wire : List Frame}
    {requests : List Request} (started : Started start greeting) (server : start.isClient = false)
    (interleaves : Interleaves requests wire) (move : Move) : serve (start, wire) move = none := by
  obtain ⟨sn, unknown, idle, _⟩ := started_idle started server
  cases move with
  | receive =>
      cases front : wire with
      | nil => rfl
      | cons frame rest =>
          obtain ⟨request, inside, first⟩ := first_opens interleaves front
          obtain ⟨wellTyped, typed, _⟩ := request.opens
          have named := request.named request.opening List.mem_cons_self
          rw [← first] at typed named
          have nonzero : frame.header.streamId ≠ 0 := by
            rw [named]
            exact request.nonzero
          have above : start.sn < frame.header.streamId := by
            rw [sn]
            exact UInt32.pos_iff_ne_zero.mpr nonzero
          simp only [serve, opening_not_received server typed nonzero (unknown _) above,
            Option.map_none]
  | task pick rsp => simp only [serve, step, runTask, idle, List.getElem?_nil, Option.map_none]

theorem served_start {start : Http2SocketStream} {greeting wire : List Frame}
    {requests : List Request} (started : Started start greeting) (server : start.isClient = false)
    (interleaves : Interleaves requests wire) {state : Http2SocketStream × List Frame}
    (reached : Transition.Reaches serve (fun _ _ => True) (start, wire) state) :
    state = (start, wire) := by
  induction reached with
  | start => rfl
  | next move before _ taken induction =>
      rw [induction, serve_start started server interleaves] at taken
      cases taken

/-- No servlet is ever given a request, so the requests are served as they should be if there are
none. -/
theorem requests_demultiplexed_iff {start : Http2SocketStream} {greeting wire : List Frame}
    {requests : List Request} (decoded : UInt32 → List HeaderField)
    (started : Started start greeting) (server : start.isClient = false)
    (interleaves : Interleaves requests wire) :
    (∀ state, Transition.Reaches serve (fun _ _ => True) (start, wire) state →
      state.1.dispatched = []) ∧
    ((∀ state, Transition.Reaches serve (fun _ _ => True) (start, wire) state →
      Demultiplexed requests decoded state) ↔ requests = []) := by
  obtain ⟨_, _, idle, quiet⟩ := started_idle started server
  refine ⟨?_, ?_, ?_⟩
  · intro state reached
    rw [served_start started server interleaves reached]
    exact quiet
  · intro served
    rw [← wire_nil_iff interleaves]
    by_contra more
    obtain ⟨after, taken⟩ := (served _ .start).receives more
    rw [serve_start started server interleaves] at taken
    cases taken
  · intro none state reached
    have nothing := (wire_nil_iff interleaves).mpr none
    rw [served_start started server interleaves reached]
    refine ⟨?_, ?_, fun more => absurd nothing more, ?_⟩
    · rw [quiet]
      exact fun entry member => absurd member List.not_mem_nil
    · rw [quiet]
      exact List.nodup_nil
    · rw [none]
      exact fun _ _ request member => absurd member List.not_mem_nil

/-- A request with one header block of one byte, `:method: GET`, and one byte of data. -/
def shortRequest : Request where
  id := 1
  opening := inFrame .headers 0x4 1 1 (.headers { data := [0x82] })
  rest := [inFrame .data 0x1 1 1 (.data { data := [0x61] })]
  nonzero := by decide
  opens := ⟨rfl, rfl, (by decide : (0x4 : UInt8) &&& flagEndHeaders ≠ 0)⟩
  carries := by
    intro frame member
    rw [List.mem_singleton.mp member]
    exact ⟨rfl, rfl⟩
  named := by decide
  ends := (by decide : [decide ((0x4 : UInt8) &&& Http2Stream.flagEndStream ≠ 0),
    decide ((0x1 : UInt8) &&& Http2Stream.flagEndStream ≠ 0)] = [false, true])

theorem short_request_interleaves : Interleaves [shortRequest] shortRequest.frames := by
  refine ⟨by decide, ?_, ?_, by decide⟩
  · intro request member
    rw [List.mem_singleton.mp member]
    rfl
  · intro frame member
    exact ⟨shortRequest, List.mem_singleton_self _, shortRequest.named frame member⟩

def shortFields (_ : UInt32) : List HeaderField :=
  [{ type := .indexed, index := 2, name := ascii ":method", value := ascii "GET" }]

theorem requests_demultiplexed_iff_short :
    (∀ state, Transition.Reaches serve (fun _ _ => True) (greeted, shortRequest.frames) state →
      state.1.dispatched = []) ∧
    ((∀ state, Transition.Reaches serve (fun _ _ => True) (greeted, shortRequest.frames) state →
      Demultiplexed [shortRequest] shortFields state) ↔ [shortRequest] = []) :=
  requests_demultiplexed_iff shortFields greeted_started rfl short_request_interleaves

/-- The request stays on the wire. -/
theorem short_request_not_served :
    ∃ wire, Interleaves [shortRequest] wire ∧
      Transition.Reaches serve (fun _ _ => True) (greeted, wire) (greeted, wire) ∧
      greeted.doRecv wire.head? = .error (.undefined .invalidDelete) ∧
      ∀ decoded, ¬Demultiplexed [shortRequest] decoded (greeted, wire) := by
  refine ⟨shortRequest.frames, short_request_interleaves, .start, rfl, ?_⟩
  intro decoded served
  obtain ⟨after, taken⟩ := served.receives (List.cons_ne_nil _ _)
  rw [serve_start greeted_started rfl short_request_interleaves] at taken
  cases taken

end Http2SocketStream
end ChatServer.Http2
