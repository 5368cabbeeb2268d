import ChatServer.Http2.SendData

/-!
# The frames of a message body

`sendData` takes pieces of its data until the rest fits into one frame, which it marks as the
last. It stops at the first frame that `sendFrame` does not accept.
-/

namespace ChatServer.Http2

set_option autoImplicit false

/-- The data cut at every `room` bytes; what fits is one piece, also when it is empty. -/
def pieces (room : Nat) (data : Str) : List Str :=
  if room = 0 ∨ data.length ≤ room then [data]
  else data.take room :: pieces room (data.drop room)
termination_by data.length
decreasing_by
  rw [List.length_drop]
  omega

theorem pieces_whole {room : Nat} {data : Str} (fits : data.length ≤ room) :
    pieces room data = [data] := by
  rw [pieces, if_pos (Or.inr fits)]

theorem pieces_cut {room : Nat} {data : Str} (positive : 0 < room) (more : room < data.length) :
    pieces room data = data.take room :: pieces room (data.drop room) := by
  rw [pieces, if_neg (by omega)]

theorem pieces_ne_nil (room : Nat) (data : Str) : pieces room data ≠ [] := by
  rw [pieces]
  split <;> exact List.cons_ne_nil _ _

/-- The pieces are the data, none is too long, and none is empty unless the data is. -/
theorem pieces_spec {room : Nat} (positive : 0 < room) (length : Nat) :
    ∀ {data : Str}, data.length = length →
      (pieces room data).flatten = data ∧
        ∀ piece ∈ pieces room data, piece.length ≤ room ∧ (piece = [] → data = []) := by
  induction length using Nat.strong_induction_on with
  | h length induction =>
      intro data measured
      by_cases fits : data.length ≤ room
      · rw [pieces_whole fits]
        refine ⟨List.flatten_singleton, ?_⟩
        intro piece member
        rw [List.mem_singleton.mp member]
        exact ⟨fits, id⟩
      · have more := Nat.not_le.mp fits
        have shorter : (data.drop room).length < length := by
          rw [List.length_drop]
          omega
        rcases induction _ shorter rfl with ⟨rest, each⟩
        rw [pieces_cut positive more]
        constructor
        · rw [List.flatten_cons, rest, List.take_append_drop]
        · intro piece member
          rcases List.mem_cons.mp member with first | later
          · have full : piece.length = room := by
              rw [first, List.length_take]
              omega
            refine ⟨Nat.le_of_eq full, ?_⟩
            intro empty
            rw [empty, List.length_nil] at full
            omega
          · rcases each piece later with ⟨short, nothing⟩
            refine ⟨short, ?_⟩
            intro empty
            have end_ := congrArg List.length (nothing empty)
            rw [List.length_drop, List.length_nil] at end_
            omega

namespace Http2SocketStream

def dataFrames (id : UInt32) (endStream : Bool) : List Str → List Frame
  | [] => []
  | [body] => [dataFrame id body true endStream]
  | body :: next :: rest =>
      dataFrame id body false endStream :: dataFrames id endStream (next :: rest)

theorem data_frames_cons (id : UInt32) (endStream : Bool) (body : Str) {rest : List Str}
    (some : rest ≠ []) : dataFrames id endStream (body :: rest) =
      dataFrame id body false endStream :: dataFrames id endStream rest := by
  cases rest with
  | nil => exact absurd rfl some
  | cons next rest => rfl

theorem data_frames_bodies (id : UInt32) (endStream : Bool) (bodies : List Str) :
    (dataFrames id endStream bodies).map Frame.body = bodies := by
  induction bodies with
  | nil => rfl
  | cons body rest induction =>
      cases rest with
      | nil => rfl
      | cons next rest =>
          rw [data_frames_cons id endStream body (List.cons_ne_nil _ _), List.map_cons, induction]
          rfl

theorem data_frame_ends (id : UInt32) (body : Str) (last endStream : Bool) :
    (dataFrame id body last endStream).endsStream = (endStream && last) := by
  change decide ((if endStream && last then Http2Stream.flagEndStream else 0) &&&
    Http2Stream.flagEndStream ≠ 0) = (endStream && last)
  cases last <;> cases endStream <;> decide

theorem data_frames_end (id : UInt32) (endStream : Bool) {bodies : List Str} (some : bodies ≠ []) :
    ∃ front last, dataFrames id endStream bodies = front ++ [last] ∧
      last.endsStream = endStream ∧ ∀ frame ∈ front, frame.endsStream = false := by
  induction bodies with
  | nil => exact absurd rfl some
  | cons body rest induction =>
      cases rest with
      | nil =>
          refine ⟨[], dataFrame id body true endStream, rfl, ?_, ?_⟩
          · rw [data_frame_ends, Bool.and_true]
          · intro frame member
            exact absurd member List.not_mem_nil
      | cons next rest =>
          rcases induction (List.cons_ne_nil _ _) with ⟨front, last, same, marked, unmarked⟩
          refine ⟨dataFrame id body false endStream :: front, last, ?_, marked, ?_⟩
          · rw [data_frames_cons id endStream body (List.cons_ne_nil _ _), same, List.cons_append]
          · intro frame member
            rcases List.mem_cons.mp member with first | later
            · rw [first, data_frame_ends, Bool.and_false]
            · exact unmarked frame later

/-- What the next calls of `sendFrame` return while the connection is up. -/
def outcome (conn : Http2SocketStream) (async : Bool) : Nat → Int :=
  if async then fun _ => 1 else conn.writes

def taken : (Nat → Int) → Nat → Nat
  | _, 0 => 0
  | outcome, count + 1 =>
      if 0 < outcome 0 then taken (fun call => outcome (call + 1)) count + 1 else 0

def calls : (Nat → Int) → Nat → Nat
  | _, 0 => 0
  | outcome, count + 1 =>
      if 0 < outcome 0 then calls (fun call => outcome (call + 1)) count + 1 else 1

theorem taken_le (count : Nat) : ∀ outcome : Nat → Int, taken outcome count ≤ count := by
  induction count with
  | zero => exact fun _ => Nat.le_refl 0
  | succ count induction =>
      intro outcome
      rw [taken]
      split
      · exact Nat.succ_le_succ (induction _)
      · exact Nat.zero_le _

theorem taken_all_iff (count : Nat) : ∀ outcome : Nat → Int,
    taken outcome count = count ↔ ∀ call < count, 0 < outcome call := by
  induction count with
  | zero =>
      intro outcome
      exact ⟨fun _ call below => absurd below (Nat.not_lt_zero call), fun _ => rfl⟩
  | succ count induction =>
      intro outcome
      rw [taken]
      by_cases first : 0 < outcome 0
      · rw [if_pos first, Nat.add_right_cancel_iff, induction]
        constructor
        · intro rest call below
          cases call with
          | zero => exact first
          | succ call => exact rest call (Nat.lt_of_succ_lt_succ below)
        · intro each call below
          exact each (call + 1) (Nat.succ_lt_succ below)
      · rw [if_neg first]
        constructor
        · intro none
          cases none
        · intro each
          exact absurd (each 0 (Nat.succ_pos count)) first

theorem send_frame_up {conn : Http2SocketStream} (connected : conn.connected = true) (frame : Frame)
    (async : Bool) : ∃ next, conn.sendFrame frame async = (conn.outcome async 0, next) ∧
      next.connected = true ∧ next.outcome async = fun call => conn.outcome async (call + 1) := by
  unfold sendFrame outcome
  rw [if_pos connected]
  cases async with
  | true => exact ⟨_, rfl, connected, rfl⟩
  | false => exact ⟨_, rfl, connected, rfl⟩

structure Written (conn : Http2SocketStream) (ref : Nat) (async : Bool) (frames : List Frame)
    (rt : Int) (after : Http2SocketStream) : Prop where
  sent : Sent conn ref (frames.take (taken (conn.outcome async) frames.length)) after
  window : int32 after.sendWindow = int32 (conn.sendWindow -
    (bodies (frames.take (taken (conn.outcome async) frames.length))).length)
  outcome : after.outcome async = fun call =>
    conn.outcome async (calls (conn.outcome async) frames.length + call)
  returned : taken (conn.outcome async) frames.length = frames.length → rt = 1

theorem written_refused {conn next : Http2SocketStream} {ref : Nat} {async : Bool} {frame : Frame}
    {rest : List Frame} {rt : Int} (sent : conn.sendFrame frame async = (rt, next))
    (outcomes : next.outcome async = fun call => conn.outcome async (call + 1))
    (own : conn.outcome async 0 = rt) (refused : rt ≤ 0) :
    Written conn ref async (frame :: rest) rt next := by
  have none : taken (conn.outcome async) (frame :: rest).length = 0 := by
    rw [List.length_cons, taken, if_neg (by omega)]
  have once : calls (conn.outcome async) (frame :: rest).length = 1 := by
    rw [List.length_cons, calls, if_neg (by omega)]
  rcases send_frame_eq sent with ⟨writes, same⟩
  rw [if_neg (by omega)] at same
  have unchanged : next.sendWindow = conn.sendWindow := by rw [same]
  constructor
  · rw [none, List.take_zero, same]
    exact sent_refl conn ref writes
  · rw [none, List.take_zero, unchanged]
    exact congrArg int32 (Int.sub_zero _).symm
  · rw [once, outcomes]
    funext call
    rw [Nat.add_comm]
  · intro all
    rw [none] at all
    cases all

theorem written_cons {conn middle after : Http2SocketStream} {ref : Nat} {async : Bool}
    {frame : Frame} {rest : List Frame} {rt : Int} (accepted : 0 < conn.outcome async 0)
    (sent : Sent conn ref [frame] middle)
    (window : int32 middle.sendWindow = int32 (conn.sendWindow - frame.body.length))
    (outcomes : middle.outcome async = fun call => conn.outcome async (call + 1))
    (written : Written middle ref async rest rt after) :
    Written conn ref async (frame :: rest) rt after := by
  have count : taken (conn.outcome async) (frame :: rest).length =
      taken (middle.outcome async) rest.length + 1 := by
    rw [List.length_cons, taken, if_pos accepted, outcomes]
  have made : calls (conn.outcome async) (frame :: rest).length =
      calls (middle.outcome async) rest.length + 1 := by
    rw [List.length_cons, calls, if_pos accepted, outcomes]
  constructor
  · rw [count, List.take_succ_cons]
    exact sent_trans sent written.sent
  · have bytes : bodies (frame :: rest.take (taken (middle.outcome async) rest.length)) =
        frame.body ++ bodies (rest.take (taken (middle.outcome async) rest.length)) := rfl
    have further (value : Int) : int32 (middle.sendWindow - value) =
        int32 (conn.sendWindow - frame.body.length - value) := by
      rw [Int.sub_eq_add_neg, ← int32_int32_add, window, int32_int32_add, ← Int.sub_eq_add_neg]
    rw [count, List.take_succ_cons, written.window, bytes, List.length_append, Int.natCast_add,
      ← Int.sub_sub, further]
  · rw [made, written.outcome, outcomes]
    funext call
    rw [Nat.add_right_comm]
  · intro all
    rw [count, List.length_cons] at all
    exact written.returned (Nat.succ.inj all)

theorem data_frames_round (id : UInt32) (endStream : Bool) {data : Str} {room pos length : Nat}
    (positive : 0 < room) (inside : pos + length ≤ data.length) :
    ∃ later, dataFrames id endStream (pieces room ((data.drop pos).take length)) =
        dataFrame id ((data.drop pos).take (min length room))
          ((length : Int) = (min length room : Nat)) endStream :: later ∧
      (length = min length room → later = []) ∧
      (min length room < length → later = dataFrames id endStream
        (pieces room ((data.drop (pos + min length room)).take (length - min length room)))) := by
  have left : ((data.drop pos).take length).length = length := by
    rw [List.length_take, List.length_drop]
    omega
  by_cases fits : length ≤ room
  · rw [pieces_whole (by rw [left]; exact fits), Nat.min_eq_left fits]
    refine ⟨[], ?_, fun _ => rfl, fun more => absurd more (Nat.lt_irrefl _)⟩
    simp [dataFrames]
  · have full : min length room = room := Nat.min_eq_right (Nat.le_of_not_le fits)
    rw [full, pieces_cut positive (by rw [left]; exact Nat.not_le.mp fits),
      data_frames_cons _ _ _ (pieces_ne_nil _ _), List.take_take,
      Nat.min_eq_left (Nat.le_of_not_le fits), List.drop_take, List.drop_drop,
      decide_eq_false (by omega : ¬(length : Int) = room)]
    exact ⟨_, rfl, fun whole => absurd whole (by omega), fun _ => rfl⟩

/-- From a position inside the data the loop sends the pieces of what is left. -/
theorem send_data_loop_written {ref : Nat} {data : Str} {room : Int} {async endStream : Bool}
    (positive : 0 < room) (rounds : Nat) :
    ∀ {conn : Http2SocketStream} {pos length : Nat}, conn.connected = true →
      pos + length ≤ data.length → pos + length < 2 ^ 31 → length < rounds →
      ∃ rt after, sendDataLoop ref data room async endStream rounds conn pos length =
          .ok (rt, after) ∧
        Written conn ref async (dataFrames (conn.heap ref).id endStream
          (pieces room.toNat ((data.drop pos).take length))) rt after := by
  induction rounds with
  | zero =>
      intro conn pos length _ _ _ enough
      exact absurd enough (Nat.not_lt_zero _)
  | succ rounds induction =>
      intro conn pos length connected inside small enough
      let len := min length room.toNat
      have lenLe : len ≤ length := Nat.min_le_left _ _
      have shorter : (len : Int) = min (length : Int) room := by
        change ((min length room.toNat : Nat) : Int) = _
        omega
      rcases substr_inside (show pos + len ≤ data.length by omega) with ⟨cut, bodyLength⟩
      let body := (data.drop pos).take len
      rcases send_frame_up connected
        (dataFrame (conn.heap ref).id body ((length : Int) = len) endStream) async with
        ⟨next, sent, nextConnected, outcomes⟩
      rw [send_data_loop_succ shorter cut sent]
      rcases data_frames_round (conn.heap ref).id endStream
        (show 0 < room.toNat by omega) inside with ⟨later, frames, last, more⟩
      rw [frames]
      by_cases refused : conn.outcome async 0 ≤ 0
      · rw [if_pos refused]
        exact ⟨_, next, rfl, written_refused sent outcomes rfl refused⟩
      · have accepted : 0 < conn.outcome async 0 := Int.not_le.mp refused
        have first := sent_round sent accepted
          ⟨0, (show (body.length : Int) = len + 2 ^ 32 * 0 by rw [bodyLength]; omega)⟩
        have window : int32 (next.consume ref len).sendWindow =
            int32 (conn.sendWindow - body.length) := by
          rcases send_frame_eq sent with ⟨writes, same⟩
          rw [bodyLength, same]
          exact int32_int32 _
        have remains : int32 ((length : Int) - len) = (length - len : Nat) := by
          rw [← Int.ofNat_sub lenLe, int32_of_small (by omega)]
        have behind : int32 ((pos : Int) + len) = (pos + len : Nat) := by
          rw [← Int.natCast_add, int32_of_small (by omega)]
        rw [if_neg refused, remains, behind]
        by_cases rest : len < length
        · have total : pos + len + (length - len) = pos + length := by
            rw [Nat.add_assoc, Nat.add_sub_cancel' lenLe]
          have onward : ∃ rt after, sendDataLoop ref data room async endStream rounds
              (next.consume ref len) ((pos + len : Nat) : Int) ((length - len : Nat) : Int) =
                .ok (rt, after) ∧ Written (next.consume ref len) ref async
                  (dataFrames ((next.consume ref len).heap ref).id endStream
                    (pieces room.toNat ((data.drop (pos + len)).take (length - len)))) rt after :=
            induction nextConnected (total ▸ inside) (total ▸ small) (by omega)
          rcases onward with ⟨rt, after, done, written⟩
          have same : ((next.consume ref len).heap ref).id = (conn.heap ref).id := by
            rw [first.heap, Function.update_self]
            rfl
          rw [same, ← more rest] at written
          rw [if_pos (by omega)]
          exact ⟨rt, after, done, written_cons accepted first window outcomes written⟩
        · have whole : length = len := by omega
          rw [if_neg (by omega), last whole]
          refine ⟨1, _, rfl, written_cons accepted first window outcomes ?_⟩
          exact ⟨sent_refl _ _ _, by simp [bodies], by simp [calls], fun _ => rfl⟩

/-- What `sendData` cuts, given the length as an `int`. A negative one sends everything in one
frame, because a negative count is a huge one for `substr`. -/
def bodyPieces (conn : Http2SocketStream) (data : Str) : List Str :=
  if int32 data.length < 0 then [data]
  else pieces conn.frameRoom.toNat (data.take (int32 data.length).toNat)

def bodyFrames (conn : Http2SocketStream) (ref : Nat) (data : Str) (endStream : Bool) : List Frame :=
  dataFrames (conn.heap ref).id endStream (conn.bodyPieces data)

theorem body_pieces_ne_nil (conn : Http2SocketStream) (data : Str) : conn.bodyPieces data ≠ [] := by
  unfold bodyPieces
  split
  · exact List.cons_ne_nil _ _
  · exact pieces_ne_nil _ _

theorem body_pieces_small (conn : Http2SocketStream) {data : Str} (small : data.length < 2 ^ 31) :
    conn.bodyPieces data = pieces conn.frameRoom.toNat data := by
  have exact := int32_of_small small
  rw [bodyPieces, exact, if_neg (by omega), Int.toNat_natCast, List.take_length]

theorem send_data_written {conn : Http2SocketStream} (connected : conn.connected = true)
    (positive : 0 < conn.frameRoom) (ref : Nat) (data : Str) (async endStream : Bool) :
    ∃ rt after, conn.sendData ref data async endStream = .ok (rt, after) ∧
      Written conn ref async (conn.bodyFrames ref data endStream) rt after := by
  rcases int32_wraps data.length with ⟨turns, wraps⟩
  have upper := (int32_bounds data.length).2
  unfold bodyFrames bodyPieces
  by_cases negative : int32 data.length < 0
  · have whole : substr data 0 (int32 data.length) = .ok data := by
      rw [substr, if_neg (by omega), if_pos negative]
      rfl
    have shorter : int32 data.length = min (int32 data.length) conn.frameRoom := by omega
    rcases send_frame_up connected (dataFrame (conn.heap ref).id data
      (int32 data.length = int32 data.length) endStream) async with ⟨next, sent, _, outcomes⟩
    have last : ¬0 < int32 (int32 data.length - int32 data.length) := by
      rw [Int.sub_self]
      decide
    have frames : dataFrames (conn.heap ref).id endStream [data] =
        [dataFrame (conn.heap ref).id data (int32 data.length = int32 data.length) endStream] := by
      rw [decide_eq_true (by omega : int32 data.length = int32 data.length)]
      rfl
    have loop := @send_data_loop_succ ref data _ _ async endStream (data.length + 1) conn next _ _ _ _
      shorter whole sent
    rw [if_pos negative, frames]
    change ∃ rt after, sendDataLoop ref data conn.frameRoom async endStream (data.length + 2) conn 0
      (int32 data.length) = .ok (rt, after) ∧ _
    rw [loop]
    by_cases refused : conn.outcome async 0 ≤ 0
    · rw [if_pos refused]
      exact ⟨_, next, rfl, written_refused sent outcomes rfl refused⟩
    · have accepted : 0 < conn.outcome async 0 := Int.not_le.mp refused
      have first := sent_round sent accepted ⟨turns, wraps⟩
      have window : int32 (next.consume ref (int32 data.length)).sendWindow =
          int32 (conn.sendWindow - data.length) := by
        rcases send_frame_eq sent with ⟨writes, same⟩
        have charged : conn.sendWindow - int32 data.length =
            conn.sendWindow - data.length + 2 ^ 32 * turns := by omega
        rw [same]
        change int32 (int32 (conn.sendWindow - int32 data.length)) = _
        rw [int32_int32, charged, int32_add_turns]
      rw [if_neg refused, if_neg last]
      refine ⟨1, _, rfl, written_cons accepted first window outcomes ?_⟩
      exact ⟨sent_refl _ _ _, by simp [bodies], by simp [calls], fun _ => rfl⟩
  · rcases Int.eq_ofNat_of_zero_le (Int.not_lt.mp negative) with ⟨length, exact⟩
    have sent : ∃ rt after, sendDataLoop ref data conn.frameRoom async endStream (data.length + 2)
        conn ((0 : Nat) : Int) (length : Int) = .ok (rt, after) ∧
          Written conn ref async (dataFrames (conn.heap ref).id endStream
            (pieces conn.frameRoom.toNat ((data.drop 0).take length))) rt after :=
      send_data_loop_written positive (data.length + 2) connected (by omega) (by omega) (by omega)
    rw [List.drop_zero] at sent
    rw [if_neg negative, sendData, exact]
    exact sent

/-- The frames of a body, all sent: they are DATA frames of the stream that hold the body in
order, each within the limit, and END_STREAM is on the last at most. -/
structure Fragmented (conn : Http2SocketStream) (ref : Nat) (data : Str) (endStream : Bool)
    (after : Http2SocketStream) (front : List Frame) (last : Frame) : Prop where
  emitted : after.emitted = conn.emitted ++ front ++ [last]
  whole : bodies (front ++ [last]) = data
  ofStream : ∀ frame ∈ front ++ [last], frameType frame.header.type = some .data ∧
    frame.header.identifier = low31 (conn.heap ref).id ∧
      frame.data = some (.data { data := frame.body })
  bounded : ∀ frame ∈ front ++ [last], frame.body.length ≤ conn.peer.maxFrameSize.toNat - 9
  filled : ∀ frame ∈ front ++ [last], frame.body = [] → data = []
  ends : last.endsStream = endStream ∧ ∀ frame ∈ front, frame.endsStream = false
  streamWindow : (after.heap ref).sendWindow = int32 ((conn.heap ref).sendWindow - data.length)
  window : int32 after.sendWindow = int32 (conn.sendWindow - data.length)

theorem frame_room_of_bounds {conn : Http2SocketStream} (least : 10 ≤ conn.peer.maxFrameSize)
    (most : conn.peer.maxFrameSize ≤ maxMaxFrameSize) :
    conn.frameRoom = conn.peer.maxFrameSize.toNat - 9 ∧ 10 ≤ conn.peer.maxFrameSize.toNat := by
  have lower := UInt32.le_iff_toNat_le.mp least
  have upper := UInt32.le_iff_toNat_le.mp most
  have ten : (10 : UInt32).toNat = 10 := rfl
  have limit : maxMaxFrameSize.toNat = 2 ^ 24 - 1 := rfl
  have nine : (9 : UInt32).toNat = 9 := rfl
  have exact : (conn.peer.maxFrameSize - 9).toNat = conn.peer.maxFrameSize.toNat - 9 := by
    apply UInt32.toNat_sub_of_le
    apply UInt32.le_iff_toNat_le.mpr
    omega
  unfold frameRoom
  rw [exact, int32_of_small (by omega)]
  omega

/-- When every frame is accepted, `sendData` sends the data in frames within the limit. -/
theorem send_data_fragmented (conn : Http2SocketStream) (ref : Nat) (data : Str)
    (async endStream : Bool) (small : data.length < 2 ^ 31) (least : 10 ≤ conn.peer.maxFrameSize)
    (most : conn.peer.maxFrameSize ≤ maxMaxFrameSize) (connected : conn.connected = true)
    (accepted : ∀ call < (conn.bodyFrames ref data endStream).length, 0 < conn.outcome async call) :
    ∃ after front last, conn.sendData ref data async endStream = .ok (1, after) ∧
      Fragmented conn ref data endStream after front last := by
  rcases frame_room_of_bounds least most with ⟨room, ten⟩
  have positive : 0 < conn.frameRoom := by omega
  rcases send_data_written connected positive ref data async endStream with
    ⟨rt, after, done, written⟩
  have all := (taken_all_iff _ _).mpr accepted
  have sent := written.sent
  have window := written.window
  rw [written.returned all] at done
  rw [all, List.take_length] at sent window
  rcases data_frames_end (conn.heap ref).id endStream (conn.body_pieces_ne_nil data) with
    ⟨front, last, frames, marked, unmarked⟩
  have cut := body_pieces_small conn small
  rcases pieces_spec (show 0 < conn.frameRoom.toNat by omega) data.length rfl with ⟨whole, each⟩
  change conn.bodyFrames ref data endStream = _ at frames
  have payloads : (front ++ [last]).map Frame.body = pieces conn.frameRoom.toNat data := by
    rw [← frames, ← cut]
    exact data_frames_bodies _ _ _
  have everything : bodies (front ++ [last]) = data := by
    rw [bodies, List.flatMap_def, payloads, whole]
  have piece {frame : Frame} (member : frame ∈ front ++ [last]) :
      frame.body ∈ pieces conn.frameRoom.toNat data := by
    rw [← payloads]
    exact List.mem_map_of_mem member
  rw [frames] at sent window
  rw [everything] at window
  refine ⟨after, front, last, done, ?_⟩
  constructor
  · rw [sent.emitted, List.append_assoc]
  · exact everything
  · intro frame member
    rcases sent.named frame member with ⟨body, final, ends, same⟩
    rw [same]
    exact ⟨out_frame_type .data _ _ _, rfl, rfl⟩
  · intro frame member
    have short := (each _ (piece member)).1
    omega
  · intro frame member
    exact (each _ (piece member)).2
  · exact ⟨marked, unmarked⟩
  · rw [sent.heap, Function.update_self, everything]
    rfl
  · exact window

/-- Seven bytes in frames of three. -/
theorem send_data_fragmented_seven :
    let conn := { new false with peer := { maxFrameSize := 12 } }.addStream 1
    ∃ after front last, conn.sendData 0 [1, 2, 3, 4, 5, 6, 7] true true = .ok (1, after) ∧
      Fragmented conn 0 [1, 2, 3, 4, 5, 6, 7] true after front last :=
  send_data_fragmented _ 0 [1, 2, 3, 4, 5, 6, 7] true true (by decide) (by decide) (by decide) rfl
    (fun _ _ => Int.one_pos)

end Http2SocketStream
end ChatServer.Http2
