import ChatServer.Http2.Fragments

/-!
# END_STREAM on the frames of a message

`sendRequest` and `sendResponse` decide in three places which frame ends the stream: on the
HEADERS frame, in what they hand to `sendData`, and on the trailers. A frame that `sendFrame`
refuses is not emitted, and what follows depends on how it was refused.
-/

namespace ChatServer.Http2

set_option autoImplicit false

/-- END_STREAM on the last frame and no other when the stream is to end, and on none if not. -/
def Disciplined (endStream : Bool) (frames : List Frame) : Prop :=
  if endStream then
    ∀ front last, frames = front ++ [last] →
      last.endsStream = true ∧ ∀ frame ∈ front, frame.endsStream = false
  else ∀ frame ∈ frames, frame.endsStream = false

/-- Frames without END_STREAM are right for a stream that goes on. -/
theorem disciplined_unmarked (endStream : Bool) {frames : List Frame}
    (unmarked : ∀ frame ∈ frames, frame.endsStream = false) :
    Disciplined endStream frames ↔ endStream = false ∨ frames = [] := by
  unfold Disciplined
  cases endStream with
  | false =>
      rw [if_neg Bool.false_ne_true]
      exact ⟨fun _ => Or.inl rfl, fun _ => unmarked⟩
  | true =>
      rw [if_pos rfl]
      constructor
      · intro disciplined
        right
        rcases List.eq_nil_or_concat' frames with empty | ⟨front, last, same⟩
        · exact empty
        · have marked := (disciplined front last same).1
          rw [unmarked last (by rw [same]; simp)] at marked
          cases marked
      · intro either front last same
        rcases either with goesOn | empty
        · cases goesOn
        · rw [empty] at same
          exact absurd same.symm (List.append_ne_nil_of_right_ne_nil _ (List.cons_ne_nil _ _))

theorem disciplined_marked (endStream : Bool) {front : List Frame} {last : Frame}
    (unmarked : ∀ frame ∈ front, frame.endsStream = false) (marked : last.endsStream = true) :
    Disciplined endStream (front ++ [last]) ↔ endStream = true := by
  unfold Disciplined
  cases endStream with
  | false =>
      rw [if_neg Bool.false_ne_true]
      constructor
      · intro none
        rw [none last (by simp)] at marked
        cases marked
      · intro ends
        cases ends
  | true =>
      rw [if_pos rfl]
      refine ⟨fun _ => rfl, ?_⟩
      intro _ other final same
      rcases List.append_inj' same rfl with ⟨sameFront, sameLast⟩
      rw [← sameFront, ← (List.cons.inj sameLast).1]
      exact ⟨marked, unmarked⟩

theorem headers_frame_ends (id : UInt32) (kvs : List (Str × Str)) (ends : Bool) :
    (headersFrame id kvs ends).endsStream = ends := by
  change decide ((if ends then flagEndHeaders ||| Http2Stream.flagEndStream else flagEndHeaders) &&&
    Http2Stream.flagEndStream ≠ 0) = ends
  cases ends <;> decide

namespace Http2SocketStream

/-- The frames of a message that are accepted: behind a HEADERS frame that fails nothing is
sent, and the trailers are sent behind a body that was cut short. -/
def emission (outcome : Nat → Int) (head : Frame) (body : List Frame) (tail : Option Frame) :
    List Frame :=
  if outcome 0 < 0 then []
  else
    let rest := fun call => outcome (call + 1)
    (if 0 < outcome 0 then [head] else []) ++ body.take (taken rest body.length) ++
      if 0 < rest (calls rest body.length) then tail.toList else []

def trailerFrame (id : UInt32) (rsp : HttpResponse) (endStream : Bool) : Option Frame :=
  if endStream ∧ rsp.trailers ≠ [] then
    some (headersFrame id (rsp.trailers.map fun name => (name.map toLower, rsp.getHeader name)) true)
  else none

def messageBody (conn : Http2SocketStream) (ref : Nat) (body : Str) (endStream : Bool) :
    List Frame :=
  if body = [] then [] else conn.bodyFrames ref body endStream

theorem send_frame_down {conn : Http2SocketStream} (down : conn.connected = false) (frame : Frame)
    (async : Bool) : conn.sendFrame frame async = (-1, conn) := by
  rw [sendFrame, down]
  rfl

theorem head_sent {conn : Http2SocketStream} (connected : conn.connected = true) (head : Frame)
    (async : Bool) : ∃ next, conn.sendFrame head async = (conn.outcome async 0, next) ∧
      next.connected = true ∧ next.outcome async = (fun call => conn.outcome async (call + 1)) ∧
      next.emitted = conn.emitted ++ (if 0 < conn.outcome async 0 then [head] else []) ∧
      next.heap = conn.heap ∧ next.frameRoom = conn.frameRoom := by
  rcases send_frame_up connected head async with ⟨next, sent, nextConnected, outcomes⟩
  rcases send_frame_eq sent with ⟨writes, same⟩
  refine ⟨next, sent, nextConnected, outcomes, ?_, ?_, ?_⟩
  · rw [same]
    by_cases accepted : 0 < conn.outcome async 0
    · rw [if_pos accepted, if_pos accepted]
    · rw [if_neg accepted, if_neg accepted, List.append_nil]
  · rw [same]
  · rw [same]
    rfl

theorem body_frames_same {conn next : Http2SocketStream} (heap : next.heap = conn.heap)
    (room : next.frameRoom = conn.frameRoom) (ref : Nat) (data : Str) (endStream : Bool) :
    next.bodyFrames ref data endStream = conn.bodyFrames ref data endStream := by
  unfold bodyFrames bodyPieces
  rw [heap, room]

theorem behind_outcome {conn next after : Http2SocketStream} {ref : Nat} {frames : List Frame}
    {async : Bool} {rt : Int} (outcomes : next.outcome async = fun call => conn.outcome async (call + 1))
    (written : Written next ref async frames rt after) : after.outcome async 0 =
      conn.outcome async (calls (fun call => conn.outcome async (call + 1)) frames.length + 1) := by
  have later := written.outcome
  rw [outcomes] at later
  rw [later, Nat.add_zero]

theorem send_request_emitted {conn : Http2SocketStream} (connected : conn.connected = true)
    (positive : 0 < conn.frameRoom) (ref : Nat) (req : HttpRequest) (ssl endStream async : Bool) :
    ∃ kvs rt after, conn.sendRequest ref req ssl endStream async = .ok (rt, after) ∧
      after.emitted = conn.emitted ++ emission (conn.outcome async)
        (headersFrame (conn.heap ref).id kvs (endStream && req.body.isEmpty))
        (conn.messageBody ref req.body true) none := by
  unfold sendRequest
  dsimp only
  generalize List.map _ _ ++ _ = kvs
  refine ⟨kvs, ?_⟩
  rcases head_sent connected (headersFrame (conn.heap ref).id kvs (endStream && req.body.isEmpty))
    async with ⟨next, sent, nextConnected, outcomes, emitted, heap, room⟩
  have nextPositive : 0 < next.frameRoom := by rwa [room]
  simp only [sent, emission, Option.toList_none, ite_self, List.append_nil]
  by_cases failed : conn.outcome async 0 < 0
  · rw [if_pos failed, if_pos failed]
    rw [if_neg (by omega), List.append_nil] at emitted
    exact ⟨_, next, rfl, by rw [emitted, List.append_nil]⟩
  · rw [if_neg failed, if_neg failed]
    by_cases empty : req.body = []
    · rw [if_pos empty, messageBody, if_pos empty, List.take_nil, List.append_nil]
      exact ⟨_, next, rfl, emitted⟩
    · rw [if_neg empty, messageBody, if_neg empty]
      rcases send_data_written nextConnected nextPositive ref req.body async true with
        ⟨rt, after, done, written⟩
      refine ⟨rt, after, done, ?_⟩
      rw [written.sent.emitted, emitted, outcomes, body_frames_same heap room, List.append_assoc]

theorem send_trailers_emitted {conn : Http2SocketStream} (connected : conn.connected = true)
    (id : UInt32) (rsp : HttpResponse) (rt : Int) (endStream async : Bool) :
    ∃ ok after, conn.sendTrailers id rsp rt endStream async = (ok, after) ∧
      after.emitted = conn.emitted ++
        if 0 < conn.outcome async 0 then (trailerFrame id rsp endStream).toList else [] := by
  unfold sendTrailers trailerFrame
  by_cases ends : endStream ∧ rsp.trailers ≠ []
  · rcases head_sent connected (headersFrame id
      (rsp.trailers.map fun name => (name.map toLower, rsp.getHeader name)) true) async with
      ⟨last, sent, _, _, emitted, _, _⟩
    simp only [if_pos ends, sent, Option.toList_some]
    by_cases accepted : conn.outcome async 0 > 0
    · rw [if_pos accepted]
      exact ⟨_, last, rfl, emitted⟩
    · rw [if_neg accepted]
      exact ⟨_, last, rfl, emitted⟩
  · simp only [if_neg ends, Option.toList_none, ite_self, List.append_nil]
    exact ⟨_, conn, rfl, rfl⟩

theorem send_response_emitted {conn : Http2SocketStream} (connected : conn.connected = true)
    (positive : 0 < conn.frameRoom) (ref : Nat) (rsp : HttpResponse) (endStream async : Bool) :
    ∃ kvs rt after, conn.sendResponse ref rsp endStream async = .ok (rt, after) ∧
      after.emitted = conn.emitted ++ emission (conn.outcome async)
        (headersFrame (conn.heap ref).id kvs
          (endStream && rsp.body.isEmpty && rsp.trailers.isEmpty))
        (conn.messageBody ref rsp.body rsp.trailers.isEmpty)
        (trailerFrame (conn.heap ref).id rsp endStream) := by
  unfold sendResponse
  dsimp only
  generalize List.map _ _ = kvs
  refine ⟨kvs, ?_⟩
  rcases head_sent connected (headersFrame (conn.heap ref).id kvs
    (endStream && rsp.body.isEmpty && rsp.trailers.isEmpty)) async with
    ⟨next, sent, nextConnected, outcomes, emitted, heap, room⟩
  have nextPositive : 0 < next.frameRoom := by rwa [room]
  simp only [sent, emission]
  by_cases failed : conn.outcome async 0 < 0
  · rw [if_pos failed, if_pos failed]
    rw [if_neg (by omega), List.append_nil] at emitted
    exact ⟨_, next, rfl, by rw [emitted, List.append_nil]⟩
  · rw [if_neg failed, if_neg failed]
    by_cases empty : rsp.body = []
    · rcases send_trailers_emitted nextConnected (conn.heap ref).id rsp (conn.outcome async 0)
        endStream async with ⟨ok, after, trailers, afterEmitted⟩
      rw [outcomes, emitted] at afterEmitted
      rw [if_pos empty, bind_ok, messageBody, if_pos empty, trailers, List.take_nil, List.append_nil]
      exact ⟨ok, after, rfl, by rw [afterEmitted, List.append_assoc]; rfl⟩
    · rcases send_data_written nextConnected nextPositive ref rsp.body async rsp.trailers.isEmpty with
        ⟨rt, middle, done, written⟩
      have middleConnected : middle.connected = true := written.sent.connected.trans nextConnected
      rw [body_frames_same heap room] at written
      have middleEmitted := written.sent.emitted
      have middleOutcome := behind_outcome outcomes written
      rcases send_trailers_emitted middleConnected (conn.heap ref).id rsp rt endStream async with
        ⟨ok, after, trailers, afterEmitted⟩
      rw [middleEmitted, outcomes, emitted, middleOutcome] at afterEmitted
      rw [if_neg empty, done, bind_ok, trailers, messageBody, if_neg empty]
      exact ⟨ok, after, rfl, by rw [afterEmitted]; simp only [List.append_assoc]⟩

def Silent (outcome : Nat → Int) (body : List Frame) : Prop :=
  outcome 0 < 0 ∨ outcome 0 = 0 ∧ (body = [] ∨ outcome 1 ≤ 0)

def BodySent (outcome : Nat → Int) (body : List Frame) : Prop :=
  ∀ call < body.length, 0 < outcome (call + 1)

def TailSent (outcome : Nat → Int) (body : List Frame) : Prop :=
  0 < outcome (calls (fun call => outcome (call + 1)) body.length + 1)

def front (outcome : Nat → Int) (head : Frame) (body : List Frame) : List Frame :=
  (if 0 < outcome 0 then [head] else []) ++
    body.take (taken (fun call => outcome (call + 1)) body.length)

theorem front_nil_iff {outcome : Nat → Int} (going : ¬outcome 0 < 0) (head : Frame)
    (body : List Frame) : front outcome head body = [] ↔ Silent outcome body := by
  have noHead : (if 0 < outcome 0 then [head] else []) = [] ↔ outcome 0 = 0 := by
    by_cases accepted : 0 < outcome 0
    · rw [if_pos accepted]
      constructor
      · intro none
        cases none
      · intro zero
        omega
    · rw [if_neg accepted]
      exact ⟨fun _ => by omega, fun _ => rfl⟩
  have noBody : body.take (taken (fun call => outcome (call + 1)) body.length) = [] ↔
      body = [] ∨ outcome 1 ≤ 0 := by
    cases body with
    | nil => simp
    | cons first rest =>
        rw [List.length_cons, taken]
        by_cases accepted : 0 < outcome (0 + 1)
        · rw [if_pos accepted, List.take_succ_cons]
          constructor
          · intro none
            cases none
          · intro either
            rcases either with none | refused
            · cases none
            · exact absurd accepted (Int.not_lt.mpr refused)
        · rw [if_neg accepted]
          exact ⟨fun _ => Or.inr (Int.not_lt.mp accepted), fun _ => List.take_zero⟩
  rw [front, List.append_eq_nil_iff, noHead, noBody, Silent]
  constructor
  · intro both
    exact Or.inr both
  · intro either
    rcases either with failed | both
    · exact absurd failed going
    · exact both

theorem headed_unmarked {outcome : Nat → Int} {head : Frame} {rest : List Frame}
    (headUnmarked : head.endsStream = false)
    (restUnmarked : ∀ frame ∈ rest, frame.endsStream = false) :
    ∀ frame ∈ (if 0 < outcome 0 then [head] else []) ++ rest, frame.endsStream = false := by
  intro frame member
  rcases List.mem_append.mp member with inHead | inRest
  · by_cases accepted : 0 < outcome 0
    · rw [if_pos accepted] at inHead
      rw [List.mem_singleton.mp inHead]
      exact headUnmarked
    · rw [if_neg accepted] at inHead
      exact absurd inHead List.not_mem_nil
  · exact restUnmarked frame inRest

theorem head_disciplined (outcome : Nat → Int) {head : Frame} {endStream : Bool}
    (marked : head.endsStream = endStream) :
    Disciplined endStream (emission outcome head [] none) := by
  have frames : emission outcome head [] none = [head] ∨ emission outcome head [] none = [] := by
    simp only [emission, Option.toList_none, ite_self, List.take_nil, List.append_nil]
    by_cases failed : outcome 0 < 0
    · rw [if_pos failed]
      exact Or.inr rfl
    · rw [if_neg failed]
      by_cases accepted : 0 < outcome 0
      · rw [if_pos accepted]
        exact Or.inl rfl
      · rw [if_neg accepted]
        exact Or.inr rfl
  rcases frames with one | none
  · rw [one]
    cases endStream with
    | true =>
        rw [← List.nil_append [head]]
        exact (disciplined_marked true (fun _ member => absurd member List.not_mem_nil) marked).mpr rfl
    | false => exact (disciplined_unmarked false (by simpa using marked)).mpr (Or.inl rfl)
  · rw [none]
    exact (disciplined_unmarked endStream (by simp)).mpr (Or.inr rfl)

/-- A body whose last frame ends the stream, whether it is to end or not. -/
theorem marked_body_iff (outcome : Nat → Int) {head last : Frame} {early : List Frame}
    (endStream : Bool) (headUnmarked : head.endsStream = false)
    (unmarked : ∀ frame ∈ early, frame.endsStream = false) (marked : last.endsStream = true) :
    Disciplined endStream (emission outcome head (early ++ [last]) none) ↔
      Silent outcome (early ++ [last]) ∨ (endStream = true ↔ BodySent outcome (early ++ [last])) := by
  by_cases failed : outcome 0 < 0
  · rw [emission, if_pos failed, disciplined_unmarked endStream (by simp)]
    exact ⟨fun _ => Or.inl (Or.inl failed), fun _ => Or.inr rfl⟩
  have frames : emission outcome head (early ++ [last]) none =
      front outcome head (early ++ [last]) := by
    simp only [emission, front, if_neg failed, Option.toList_none, ite_self, List.append_nil]
  have silentIff := front_nil_iff failed head (early ++ [last])
  rw [frames]
  by_cases all : BodySent outcome (early ++ [last])
  · have whole := (taken_all_iff _ fun call => outcome (call + 1)).mpr all
    have split : front outcome head (early ++ [last]) =
        ((if 0 < outcome 0 then [head] else []) ++ early) ++ [last] := by
      rw [front, whole, List.take_length, List.append_assoc]
    have heard : ¬Silent outcome (early ++ [last]) := by
      rw [← silentIff, split]
      exact List.append_ne_nil_of_right_ne_nil _ (List.cons_ne_nil _ _)
    rw [split, disciplined_marked endStream (headed_unmarked headUnmarked unmarked) marked]
    exact ⟨fun ends => Or.inr ⟨fun _ => all, fun _ => ends⟩,
      fun either => (either.resolve_left heard).mpr all⟩
  · have short : taken (fun call => outcome (call + 1)) (early ++ [last]).length ≤ early.length := by
      have le := taken_le (early ++ [last]).length fun call => outcome (call + 1)
      have notAll : taken (fun call => outcome (call + 1)) (early ++ [last]).length ≠
          (early ++ [last]).length := fun whole => all ((taken_all_iff _ _).mp whole)
      rw [List.length_append, List.length_singleton] at *
      omega
    have cutUnmarked : ∀ frame ∈ (early ++ [last]).take
        (taken (fun call => outcome (call + 1)) (early ++ [last]).length),
        frame.endsStream = false := by
      intro frame member
      rw [List.take_append_of_le_length short] at member
      exact unmarked frame (List.mem_of_mem_take member)
    have earlier : ∀ frame ∈ front outcome head (early ++ [last]), frame.endsStream = false :=
      headed_unmarked headUnmarked cutUnmarked
    rw [disciplined_unmarked endStream earlier, silentIff, or_comm]
    apply or_congr_right
    constructor
    · intro goesOn
      rw [goesOn]
      exact ⟨fun ends => absurd ends Bool.false_ne_true, fun sent => absurd sent all⟩
    · intro same
      cases endStream with
      | false => rfl
      | true => exact absurd (same.mp rfl) all

theorem trailers_iff (outcome : Nat → Int) {head tail : Frame} {body : List Frame}
    (endStream : Bool) (headUnmarked : head.endsStream = false)
    (unmarked : ∀ frame ∈ body, frame.endsStream = false) (marked : tail.endsStream = true) :
    Disciplined endStream (emission outcome head body (if endStream then some tail else none)) ↔
      Silent outcome body ∨ (endStream = true → TailSent outcome body) := by
  by_cases failed : outcome 0 < 0
  · rw [emission, if_pos failed, disciplined_unmarked endStream (by simp)]
    exact ⟨fun _ => Or.inl (Or.inl failed), fun _ => Or.inr rfl⟩
  have silentIff := front_nil_iff failed head body
  have earlier : ∀ frame ∈ front outcome head body, frame.endsStream = false :=
    headed_unmarked headUnmarked fun frame member => unmarked frame (List.mem_of_mem_take member)
  by_cases both : endStream = true ∧ TailSent outcome body
  · have frames : emission outcome head body (if endStream then some tail else none) =
        front outcome head body ++ [tail] := by
      have sent : 0 < outcome (calls (fun call => outcome (call + 1)) body.length + 1) := both.2
      simp only [emission, front, if_neg failed, if_pos both.1, Option.toList_some, if_pos sent]
    rw [frames, disciplined_marked endStream earlier marked]
    exact ⟨fun _ => Or.inr fun _ => both.2, fun _ => both.1⟩
  · have frames : emission outcome head body (if endStream then some tail else none) =
        front outcome head body := by
      simp only [emission, front, if_neg failed]
      by_cases sent : 0 < outcome (calls (fun call => outcome (call + 1)) body.length + 1)
      · rw [if_neg fun ends => both ⟨ends, sent⟩, Option.toList_none, ite_self, List.append_nil]
      · rw [if_neg sent, List.append_nil]
    rw [frames, disciplined_unmarked endStream earlier, silentIff, or_comm]
    apply or_congr_right
    constructor
    · intro goesOn ends
      rw [goesOn] at ends
      cases ends
    · intro sent
      cases endStream with
      | false => rfl
      | true => exact absurd ⟨rfl, sent rfl⟩ both

/-- The flag of a request is right: `sendData` is always told to end the stream. -/
def RequestEnds (conn : Http2SocketStream) (ref : Nat) (req : HttpRequest) (endStream async : Bool) :
    Prop :=
  conn.connected = false ∨ req.body = [] ∨
    Silent (conn.outcome async) (conn.bodyFrames ref req.body true) ∨
      (endStream = true ↔ BodySent (conn.outcome async) (conn.bodyFrames ref req.body true))

/-- The flag of a response is right: without trailers `sendData` is told to end the stream. -/
def ResponseEnds (conn : Http2SocketStream) (ref : Nat) (rsp : HttpResponse)
    (endStream async : Bool) : Prop :=
  let body := conn.messageBody ref rsp.body rsp.trailers.isEmpty
  conn.connected = false ∨ rsp.body = [] ∧ rsp.trailers = [] ∨ Silent (conn.outcome async) body ∨
    if rsp.trailers = [] then (endStream = true ↔ BodySent (conn.outcome async) body)
    else (endStream = true → TailSent (conn.outcome async) body)

theorem body_frames_end (conn : Http2SocketStream) (ref : Nat) (data : Str) (endStream : Bool) :
    ∃ early last, conn.bodyFrames ref data endStream = early ++ [last] ∧
      last.endsStream = endStream ∧ ∀ frame ∈ early, frame.endsStream = false :=
  data_frames_end (conn.heap ref).id endStream (conn.body_pieces_ne_nil data)

theorem body_frames_unmarked (conn : Http2SocketStream) (ref : Nat) (data : Str) :
    ∀ frame ∈ conn.messageBody ref data false, frame.endsStream = false := by
  intro frame member
  unfold messageBody at member
  by_cases empty : data = []
  · rw [if_pos empty] at member
    exact absurd member List.not_mem_nil
  · rw [if_neg empty] at member
    rcases conn.body_frames_end ref data false with ⟨early, last, same, lastUnmarked, unmarked⟩
    rw [same] at member
    rcases List.mem_append.mp member with inEarly | isLast
    · exact unmarked frame inEarly
    · rw [List.mem_singleton.mp isLast]
      exact lastUnmarked

theorem trailer_frame_none (id : UInt32) {rsp : HttpResponse} (endStream : Bool)
    (plain : rsp.trailers = []) : trailerFrame id rsp endStream = none := by
  rw [trailerFrame, if_neg fun both => both.2 plain]

theorem trailer_frame_some (id : UInt32) {rsp : HttpResponse} (endStream : Bool)
    (trailers : rsp.trailers ≠ []) : trailerFrame id rsp endStream = if endStream then
      some (headersFrame id
        (rsp.trailers.map fun name => (name.map toLower, rsp.getHeader name)) true)
      else none := by
  rw [trailerFrame]
  cases endStream with
  | false => rw [if_neg fun both => Bool.false_ne_true both.1, if_neg Bool.false_ne_true]
  | true => rw [if_pos ⟨rfl, trailers⟩, if_pos rfl]

theorem request_ends_iff {conn : Http2SocketStream} (positive : 0 < conn.frameRoom) (ref : Nat)
    (req : HttpRequest) (ssl endStream async : Bool) :
    ∃ rt after frames, conn.sendRequest ref req ssl endStream async = .ok (rt, after) ∧
      after.emitted = conn.emitted ++ frames ∧
      (Disciplined endStream frames ↔ conn.RequestEnds ref req endStream async) := by
  cases connected : conn.connected with
  | false =>
      refine ⟨-1, conn, [], ?_, (List.append_nil _).symm, ?_⟩
      · simp only [sendRequest, send_frame_down connected]
        rfl
      · rw [disciplined_unmarked endStream (by simp)]
        exact ⟨fun _ => Or.inl connected, fun _ => Or.inr rfl⟩
  | true =>
      have up : conn.connected ≠ false := by rw [connected]; exact Bool.true_eq_false_eq_False
      rcases send_request_emitted connected positive ref req ssl endStream async with
        ⟨kvs, rt, after, done, emitted⟩
      refine ⟨rt, after, _, done, emitted, ?_⟩
      have marked := headers_frame_ends (conn.heap ref).id kvs (endStream && req.body.isEmpty)
      by_cases empty : req.body = []
      · rw [messageBody, if_pos empty]
        rw [empty, List.isEmpty_nil, Bool.and_true] at marked ⊢
        exact ⟨fun _ => Or.inr (Or.inl empty), fun _ => head_disciplined _ marked⟩
      · rcases conn.body_frames_end ref req.body true with ⟨early, last, same, lastMarked, unmarked⟩
        rw [List.isEmpty_eq_false_iff.mpr empty, Bool.and_false] at marked ⊢
        rw [messageBody, if_neg empty, RequestEnds, same,
          marked_body_iff (conn.outcome async) endStream marked unmarked lastMarked]
        exact ⟨fun either => Or.inr (Or.inr either),
          fun any => (any.resolve_left up).resolve_left empty⟩

theorem response_ends_iff {conn : Http2SocketStream} (positive : 0 < conn.frameRoom) (ref : Nat)
    (rsp : HttpResponse) (endStream async : Bool) :
    ∃ rt after frames, conn.sendResponse ref rsp endStream async = .ok (rt, after) ∧
      after.emitted = conn.emitted ++ frames ∧
      (Disciplined endStream frames ↔ conn.ResponseEnds ref rsp endStream async) := by
  cases connected : conn.connected with
  | false =>
      refine ⟨-1, conn, [], ?_, (List.append_nil _).symm, ?_⟩
      · simp only [sendResponse, send_frame_down connected]
        rfl
      · rw [disciplined_unmarked endStream (by simp)]
        exact ⟨fun _ => Or.inl connected, fun _ => Or.inr rfl⟩
  | true =>
      have up : conn.connected ≠ false := by rw [connected]; exact Bool.true_eq_false_eq_False
      rcases send_response_emitted connected positive ref rsp endStream async with
        ⟨kvs, rt, after, done, emitted⟩
      refine ⟨rt, after, _, done, emitted, ?_⟩
      have marked := headers_frame_ends (conn.heap ref).id kvs
        (endStream && rsp.body.isEmpty && rsp.trailers.isEmpty)
      by_cases plain : rsp.trailers = []
      · rw [trailer_frame_none _ endStream plain]
        by_cases empty : rsp.body = []
        · rw [messageBody, if_pos empty]
          rw [empty, plain, List.isEmpty_nil, List.isEmpty_nil, Bool.and_true, Bool.and_true] at marked ⊢
          exact ⟨fun _ => Or.inr (Or.inl ⟨empty, plain⟩), fun _ => head_disciplined _ marked⟩
        · have flag : rsp.trailers.isEmpty = true := by rw [plain]; exact List.isEmpty_nil
          rcases conn.body_frames_end ref rsp.body true with
            ⟨early, last, same, lastMarked, unmarked⟩
          rw [List.isEmpty_eq_false_iff.mpr empty, Bool.and_false, Bool.false_and] at marked ⊢
          rw [ResponseEnds, messageBody, if_neg empty, flag, same, if_pos plain,
            marked_body_iff (conn.outcome async) endStream marked unmarked lastMarked]
          exact ⟨fun either => Or.inr (Or.inr either),
            fun any => (any.resolve_left up).resolve_left fun both => empty both.1⟩
      · have flag : rsp.trailers.isEmpty = false := List.isEmpty_eq_false_iff.mpr plain
        have tail := trailer_frame_some (conn.heap ref).id endStream plain
        rw [flag, Bool.and_false] at marked ⊢
        rw [ResponseEnds, flag, if_neg plain, tail,
          trailers_iff (conn.outcome async) endStream marked (conn.body_frames_unmarked ref rsp.body)
            (headers_frame_ends _ _ true)]
        exact ⟨fun either => Or.inr (Or.inr either),
          fun any => (any.resolve_left up).resolve_left fun both => plain both.2⟩

theorem body_sent_async (conn : Http2SocketStream) (body : List Frame) :
    BodySent (conn.outcome true) body :=
  fun _ _ => Int.one_pos

theorem heard_async (conn : Http2SocketStream) (body : List Frame) :
    ¬Silent (conn.outcome true) body := by
  intro silent
  rcases silent with failed | quiet
  · cases failed
  · cases quiet.1

theorem request_ends_async {conn : Http2SocketStream} (connected : conn.connected = true) (ref : Nat)
    {req : HttpRequest} (some : req.body ≠ []) (endStream : Bool) :
    conn.RequestEnds ref req endStream true ↔ endStream = true := by
  have sent := body_sent_async conn (conn.bodyFrames ref req.body true)
  constructor
  · intro right
    rcases right with down | empty | silent | same
    · rw [connected] at down
      cases down
    · exact absurd empty some
    · exact absurd silent (heard_async conn _)
    · exact same.mpr sent
  · intro ends
    exact Or.inr (Or.inr (Or.inr ⟨fun _ => sent, fun _ => ends⟩))

theorem response_ends_async {conn : Http2SocketStream} (connected : conn.connected = true)
    (ref : Nat) {rsp : HttpResponse} (some : rsp.body ≠ []) (plain : rsp.trailers = [])
    (endStream : Bool) : conn.ResponseEnds ref rsp endStream true ↔ endStream = true := by
  have sent := body_sent_async conn (conn.messageBody ref rsp.body rsp.trailers.isEmpty)
  simp only [ResponseEnds, if_pos plain]
  constructor
  · intro right
    rcases right with down | empty | silent | same
    · rw [connected] at down
      cases down
    · exact absurd empty.1 some
    · exact absurd silent (heard_async conn _)
    · exact same.mpr sent
  · intro ends
    exact Or.inr (Or.inr (Or.inr ⟨fun _ => sent, fun _ => ends⟩))

/-- END_STREAM is where it belongs exactly when nothing that ends the stream is sent for a stream
that goes on, and what ends it is accepted for one that does not. -/
theorem end_stream_iff (conn : Http2SocketStream) (ref : Nat) (req : HttpRequest)
    (rsp : HttpResponse) (ssl endStream async : Bool) (positive : 0 < conn.frameRoom) :
    (∃ rt after frames, conn.sendRequest ref req ssl endStream async = .ok (rt, after) ∧
      after.emitted = conn.emitted ++ frames ∧
      (Disciplined endStream frames ↔ conn.RequestEnds ref req endStream async)) ∧
    ∃ rt after frames, conn.sendResponse ref rsp endStream async = .ok (rt, after) ∧
      after.emitted = conn.emitted ++ frames ∧
      (Disciplined endStream frames ↔ conn.ResponseEnds ref rsp endStream async) :=
  ⟨request_ends_iff positive ref req ssl endStream async,
    response_ends_iff positive ref rsp endStream async⟩

/-- A stream of a client that was opened to go on, and one of a server. -/
theorem end_stream_goes_on :
    let conn := (new true).addStream 1
    (∃ rt after frames, conn.sendRequest 0 { body := [1] } false false true = .ok (rt, after) ∧
      after.emitted = conn.emitted ++ frames ∧
      (Disciplined false frames ↔ conn.RequestEnds 0 { body := [1] } false true)) ∧
    ∃ rt after frames, conn.sendResponse 0 { body := [1] } false true = .ok (rt, after) ∧
      after.emitted = conn.emitted ++ frames ∧
      (Disciplined false frames ↔ conn.ResponseEnds 0 { body := [1] } false true) :=
  end_stream_iff _ 0 _ _ false false true (by decide)

/-- The first message of a stream that goes on ends it, in both directions. -/
theorem first_message_ends :
    (∃ rt after frames, ((new true).addStream 1).sendRequest 0 { body := [1] } false false true =
      .ok (rt, after) ∧ after.emitted = ((new true).addStream 1).emitted ++ frames ∧
      ¬Disciplined false frames) ∧
    ∃ rt after frames, ((new false).addStream 1).sendResponse 0 { body := [1] } false true =
      .ok (rt, after) ∧ after.emitted = ((new false).addStream 1).emitted ++ frames ∧
      ¬Disciplined false frames := by
  constructor
  · rcases request_ends_iff (show 0 < ((new true).addStream 1).frameRoom by decide) 0 { body := [1] }
      false false true with ⟨rt, after, frames, done, emitted, right⟩
    refine ⟨rt, after, frames, done, emitted, ?_⟩
    rw [right, request_ends_async rfl 0 (List.cons_ne_nil _ _)]
    exact Bool.false_ne_true
  · rcases response_ends_iff (show 0 < ((new false).addStream 1).frameRoom by decide) 0 { body := [1] }
      false true with ⟨rt, after, frames, done, emitted, right⟩
    refine ⟨rt, after, frames, done, emitted, ?_⟩
    rw [right, response_ends_async rfl 0 (List.cons_ne_nil _ _) rfl]
    exact Bool.false_ne_true

end Http2SocketStream
end ChatServer.Http2
