import ChatServer.Http2.Footprint

/-!
# Sending data

`sendData` cuts its data into DATA frames and takes their bytes from the send windows of the
stream and of the connection, without looking at either window. The frames are no longer than
`m_peer.max_frame_size - 9`, and `m_peer` holds the settings that this side has sent.
-/

namespace ChatServer.Http2

set_option autoImplicit false

def Frame.body (frame : Frame) : Str :=
  match frame.data with
  | some (.data data) => data.data
  | _ => []

def bodies (frames : List Frame) : Str := frames.flatMap Frame.body

theorem bodies_append (first second : List Frame) :
    bodies (first ++ second) = bodies first ++ bodies second := List.flatMap_append

theorem update_send_congr {first second : Int} (same : int32 first = int32 second) :
    ManagedStream.updateSendWindowByDiff first = ManagedStream.updateSendWindowByDiff second := by
  funext stream
  unfold ManagedStream.updateSendWindowByDiff
  have wrapped : int32 (stream.sendWindow + first) = int32 (stream.sendWindow + second) := by
    rw [← int32_add_int32, same, int32_add_int32]
  simp only [wrapped]

theorem update_send_twice (stream : ManagedStream) (first second : Int) :
    (stream.updateSendWindowByDiff first).updateSendWindowByDiff second =
      stream.updateSendWindowByDiff (first + second) := by
  simp [ManagedStream.updateSendWindowByDiff, Int.add_assoc]

namespace Http2SocketStream

theorem body_data_frame (id : UInt32) (body : Str) (last endStream : Bool) :
    (dataFrame id body last endStream).body = body := rfl

def frameRoom (conn : Http2SocketStream) : Int := int32 (conn.peer.maxFrameSize - 9).toNat

theorem frame_room {conn : Http2SocketStream} (sized : conn.Sized) :
    conn.frameRoom = conn.peer.maxFrameSize.toNat - 9 ∧ 0 < conn.frameRoom ∧
      conn.frameRoom < 2 ^ 24 := by
  have lower := UInt32.le_iff_toNat_le.mp sized.1
  have upper := UInt32.le_iff_toNat_le.mp sized.2
  have least : defaultMaxFrameSize.toNat = 16384 := rfl
  have most : maxMaxFrameSize.toNat = 2 ^ 24 - 1 := rfl
  have exact : (conn.peer.maxFrameSize - 9).toNat = conn.peer.maxFrameSize.toNat - 9 := by
    apply UInt32.toNat_sub_of_le
    apply UInt32.le_iff_toNat_le.mpr
    change 9 ≤ _
    omega
  unfold frameRoom
  rw [exact, int32_of_small (by omega)]
  omega

/-- DATA frames of one stream were sent and charged, and nothing else happened. -/
structure Sent (conn : Http2SocketStream) (ref : Nat) (frames : List Frame)
    (after : Http2SocketStream) : Prop where
  isClient : after.isClient = conn.isClient
  sn : after.sn = conn.sn
  allocated : after.allocated = conn.allocated
  streams : after.streams = conn.streams
  connected : after.connected = conn.connected
  owner : after.owner = conn.owner
  peer : after.peer = conn.peer
  recvWindow : after.recvWindow = conn.recvWindow
  scheduled : after.scheduled = conn.scheduled
  dispatched : after.dispatched = conn.dispatched
  emitted : after.emitted = conn.emitted ++ frames
  heap : after.heap = Function.update conn.heap ref
    ((conn.heap ref).updateSendWindowByDiff (-((bodies frames).length : Int)))
  charged : int32 conn.sendWindow = conn.sendWindow →
    after.sendWindow = int32 (conn.sendWindow + -((bodies frames).length : Int))
  named : ∀ frame ∈ frames, ∃ body last endStream,
    frame = dataFrame (conn.heap ref).id body last endStream

theorem send_frame_eq {conn next : Http2SocketStream} {frame : Frame} {async : Bool} {rt : Int}
    (sent : conn.sendFrame frame async = (rt, next)) :
    ∃ writes, next = { conn with
      writes
      emitted := if 0 < rt then conn.emitted ++ [frame] else conn.emitted } := by
  unfold sendFrame at sent
  split_ifs at sent
  · cases sent
    exact ⟨_, rfl⟩
  · cases sent
    exact ⟨_, rfl⟩
  · cases sent
    exact ⟨_, rfl⟩

theorem sent_refl (conn : Http2SocketStream) (ref : Nat) (writes : Nat → Int) :
    Sent conn ref [] { conn with writes } := by
  have unchanged : (conn.heap ref).updateSendWindowByDiff 0 = conn.heap ref := by
    simp [ManagedStream.updateSendWindowByDiff, (conn.heap ref).sendFits]
  refine ⟨rfl, rfl, rfl, rfl, rfl, rfl, rfl, rfl, rfl, rfl, ?_, ?_, ?_, ?_⟩
  · exact (List.append_nil _).symm
  · change conn.heap = Function.update conn.heap ref ((conn.heap ref).updateSendWindowByDiff 0)
    rw [unchanged, Function.update_eq_self]
  · intro fits
    change conn.sendWindow = int32 (conn.sendWindow + 0)
    rw [Int.add_zero, fits]
  · intro other member
    exact absurd member List.not_mem_nil

/-- A round charges what `int` makes of the length of its frame. -/
theorem sent_round {conn next : Http2SocketStream} {ref : Nat} {body : Str} {len : Int}
    {last async endStream : Bool} {rt : Int}
    (sent : conn.sendFrame (dataFrame (conn.heap ref).id body last endStream) async = (rt, next))
    (taken : 0 < rt) (wraps : ∃ turns : Int, (body.length : Int) = len + 2 ^ 32 * turns) :
    Sent conn ref [dataFrame (conn.heap ref).id body last endStream] (next.consume ref len) := by
  obtain ⟨writes, same⟩ := send_frame_eq sent
  rw [if_pos taken] at same
  have bytes : bodies [dataFrame (conn.heap ref).id body last endStream] = body := by
    rw [bodies, List.flatMap_singleton, body_data_frame]
  have charge (window : Int) : int32 (window - len) = int32 (window + -(body.length : Int)) := by
    obtain ⟨turns, length⟩ := wraps
    have shifted : window - len = window + -(body.length : Int) + 2 ^ 32 * turns := by omega
    rw [shifted, int32_add_turns]
  have negated : int32 (int32 (-len)) = int32 (-(body.length : Int)) := by
    have zero := charge 0
    rwa [Int.zero_sub, Int.zero_add, ← int32_int32] at zero
  rw [same]
  refine ⟨rfl, rfl, rfl, rfl, rfl, rfl, rfl, rfl, rfl, rfl, rfl, ?_, ?_, ?_⟩
  · rw [bytes, ← update_send_congr negated]
    rfl
  · intro fits
    rw [bytes, ← charge]
    rfl
  · intro frame member
    rw [List.mem_singleton.mp member]
    exact ⟨body, last, endStream, rfl⟩

theorem sent_trans {conn middle after : Http2SocketStream} {ref : Nat} {first second : List Frame}
    (earlier : Sent conn ref first middle) (later : Sent middle ref second after) :
    Sent conn ref (first ++ second) after := by
  have bytes : -((bodies (first ++ second)).length : Int) =
      -((bodies first).length : Int) + -((bodies second).length : Int) := by
    rw [bodies_append, List.length_append]
    omega
  have stream : middle.heap ref =
      (conn.heap ref).updateSendWindowByDiff (-((bodies first).length : Int)) := by
    rw [earlier.heap, Function.update_self]
  constructor
  · exact later.isClient.trans earlier.isClient
  · exact later.sn.trans earlier.sn
  · exact later.allocated.trans earlier.allocated
  · exact later.streams.trans earlier.streams
  · exact later.connected.trans earlier.connected
  · exact later.owner.trans earlier.owner
  · exact later.peer.trans earlier.peer
  · exact later.recvWindow.trans earlier.recvWindow
  · exact later.scheduled.trans earlier.scheduled
  · exact later.dispatched.trans earlier.dispatched
  · rw [later.emitted, earlier.emitted, List.append_assoc]
  · rw [later.heap, stream, earlier.heap, update_send_twice, Function.update_idem, bytes]
  · intro fits
    have once := earlier.charged fits
    rw [later.charged (by rw [once, int32_int32]), once, int32_int32_add, bytes, Int.add_assoc]
  · intro frame member
    cases List.mem_append.mp member with
    | inl inFirst => exact earlier.named frame inFirst
    | inr inSecond =>
        have named := later.named frame inSecond
        rwa [stream] at named

/-- The frames hold a first part of the data, and none is longer than `room`. -/
def Cut (conn : Http2SocketStream) (ref : Nat) (data : Str) (room : Int)
    (after : Http2SocketStream) : Prop :=
  ∃ frames, Sent conn ref frames after ∧ bodies frames <+: data ∧
    ∀ frame ∈ frames, (frame.body.length : Int) ≤ room

theorem cut_nothing (conn : Http2SocketStream) (ref : Nat) (data : Str) (room : Int)
    (writes : Nat → Int) : Cut conn ref data room { conn with writes } := by
  refine ⟨[], sent_refl conn ref writes, List.nil_prefix, ?_⟩
  intro other member
  exact absurd member List.not_mem_nil

theorem cut_refused {conn next : Http2SocketStream} (ref : Nat) {frame : Frame} {async : Bool}
    {rt : Int} (data : Str) (room : Int) (sent : conn.sendFrame frame async = (rt, next))
    (refused : rt ≤ 0) : Cut conn ref data room next := by
  obtain ⟨writes, same⟩ := send_frame_eq sent
  rw [if_neg (Int.not_lt.mpr refused)] at same
  rw [same]
  exact cut_nothing conn ref data room writes

/-- One frame that was sent holds the first part. -/
theorem cut_single {conn after : Http2SocketStream} {ref : Nat} {data body : Str} {room : Int}
    {last endStream : Bool}
    (sent : Sent conn ref [dataFrame (conn.heap ref).id body last endStream] after)
    (inOrder : body <+: data) (fits : (body.length : Int) ≤ room) : Cut conn ref data room after := by
  refine ⟨_, sent, ?_, ?_⟩
  · rwa [bodies, List.flatMap_singleton, body_data_frame]
  · intro frame member
    rwa [List.mem_singleton.mp member, body_data_frame]

/-- A frame in front of a first part of what is left. -/
theorem cut_cons {conn middle after : Http2SocketStream} {ref : Nat} {body rest : Str}
    {room less : Int} {last endStream : Bool}
    (first : Sent conn ref [dataFrame (conn.heap ref).id body last endStream] middle)
    (fits : (body.length : Int) ≤ room) (shorter : less ≤ room)
    (cut : Cut middle ref rest less after) : Cut conn ref (body ++ rest) room after := by
  obtain ⟨frames, sent, inOrder, bounded⟩ := cut
  refine ⟨_, sent_trans first sent, ?_, ?_⟩
  · rw [bodies_append, bodies, List.flatMap_singleton, body_data_frame]
    exact (List.prefix_append_right_inj body).mpr inOrder
  · intro frame member
    cases List.mem_append.mp member with
    | inl head => rwa [List.mem_singleton.mp head, body_data_frame]
    | inr tail => exact Int.le_trans (bounded frame tail) shorter

theorem substr_inside {data : Str} {pos len : Nat} (inside : pos + len ≤ data.length) :
    substr data pos len = .ok ((data.drop pos).take len) ∧
      ((data.drop pos).take len).length = len := by
  refine ⟨?_, ?_⟩
  · unfold substr
    rw [if_neg (by omega), if_neg (by omega), Int.toNat_natCast, Int.toNat_natCast]
  · rw [List.length_take, List.length_drop]
    omega

theorem send_data_loop_succ {ref : Nat} {data body : Str} {room : Int} {async endStream : Bool}
    {rounds : Nat} {conn next : Http2SocketStream} {pos length len rt : Int}
    (shorter : len = min length room) (taken : substr data pos len = .ok body)
    (sent : conn.sendFrame (dataFrame (conn.heap ref).id body (length = len) endStream) async =
      (rt, next)) :
    sendDataLoop ref data room async endStream (rounds + 1) conn pos length =
      if rt ≤ 0 then .ok (rt, next)
      else if 0 < int32 (length - len) then
        sendDataLoop ref data room async endStream rounds (next.consume ref len) (int32 (pos + len))
          (int32 (length - len))
      else .ok (1, next.consume ref len) := by
  rw [sendDataLoop, round_length, ← shorter, taken]
  simp only [bind_ok, sent]

/-- From a position inside the data every round takes the next bytes of it, and the rounds that
are left are enough. -/
theorem send_data_loop_spec {ref : Nat} {data : Str} {room : Int} {async endStream : Bool}
    (positive : 0 < room) (rounds : Nat) :
    ∀ {conn : Http2SocketStream} {pos length : Nat}, pos + length ≤ data.length →
      pos + length < 2 ^ 31 → length < rounds →
      ∃ rt after, sendDataLoop ref data room async endStream rounds conn pos length =
          .ok (rt, after) ∧
        Cut conn ref ((data.drop pos).take length) (min length room) after := by
  induction rounds with
  | zero =>
      intro conn pos length _ _ enough
      exact absurd enough (Nat.not_lt_zero _)
  | succ rounds induction =>
      intro conn pos length inside small enough
      let len := min length room.toNat
      have lenLe : len ≤ length := Nat.min_le_left _ _
      have shorter : (len : Int) = min (length : Int) room := by
        change ((min length room.toNat : Nat) : Int) = _
        omega
      obtain ⟨taken, bodyLength⟩ := substr_inside (show pos + len ≤ data.length by omega)
      let body := (data.drop pos).take len
      cases sent : conn.sendFrame
        (dataFrame (conn.heap ref).id body ((length : Int) = len) endStream) async with
      | mk rt next =>
          rw [send_data_loop_succ shorter taken sent]
          by_cases refused : rt ≤ 0
          · rw [if_pos refused]
            exact ⟨rt, next, rfl, cut_refused ref _ _ sent refused⟩
          rw [if_neg refused]
          have first := sent_round sent (Int.not_le.mp refused)
            ⟨0, (show (body.length : Int) = len + 2 ^ 32 * 0 by rw [bodyLength]; omega)⟩
          have fits : (body.length : Int) ≤ min (length : Int) room := by rw [bodyLength, shorter]
          have left : int32 ((length : Int) - len) = (length - len : Nat) := by
            rw [← Int.ofNat_sub lenLe, int32_of_small (by omega)]
          have behind : int32 ((pos : Int) + len) = (pos + len : Nat) := by
            rw [← Int.natCast_add, int32_of_small (by omega)]
          rw [left, behind]
          by_cases more : 0 < ((length - len : Nat) : Int)
          · rw [if_pos more]
            have total : pos + len + (length - len) = pos + length := by
              rw [Nat.add_assoc, Nat.add_sub_cancel' lenLe]
            have fewer : length - len < rounds := by omega
            obtain ⟨rt, after, done, rest⟩ :=
              @induction (next.consume ref len) (pos + len) (length - len) (total ▸ inside)
                (total ▸ small) fewer
            have split : (data.drop pos).take length =
                body ++ (data.drop (pos + len)).take (length - len) := by
              rw [← List.drop_drop, ← List.take_add, Nat.add_sub_cancel' lenLe]
            refine ⟨rt, after, done, ?_⟩
            rw [split]
            exact cut_cons first fits (by omega) rest
          · rw [if_neg more]
            have whole : len = length := by omega
            exact ⟨1, _, rfl, cut_single first ⟨[], by rw [List.append_nil, ← whole]⟩ fits⟩

/-- The longest payload for data of this length. A length that is negative as an `int` goes
out in one frame. -/
def largest (room : Int) (size : Nat) : Int :=
  if int32 size < 0 then size else min (int32 size) room

theorem send_data_spec {conn : Http2SocketStream} (sized : conn.Sized) (ref : Nat) (data : Str)
    (async endStream : Bool) :
    ∃ rt after, conn.sendData ref data async endStream = .ok (rt, after) ∧
      Cut conn ref data (largest conn.frameRoom data.length) after := by
  obtain ⟨_, positive, _⟩ := frame_room sized
  obtain ⟨turns, wraps⟩ := int32_wraps data.length
  obtain ⟨_, upper⟩ := int32_bounds data.length
  by_cases negative : int32 data.length < 0
  · have whole : substr data 0 (int32 data.length) = .ok data := by
      unfold substr
      rw [if_neg (by omega), if_pos negative]
      rfl
    have shorter : int32 data.length = min (int32 data.length) conn.frameRoom := by omega
    cases sent : conn.sendFrame (dataFrame (conn.heap ref).id data
      (int32 data.length = int32 data.length) endStream) async with
    | mk rt next =>
        unfold sendData
        rw [largest, if_pos negative]
        change ∃ rt after, sendDataLoop ref data conn.frameRoom async endStream (data.length + 2)
          conn 0 (int32 data.length) = .ok (rt, after) ∧ Cut conn ref data data.length after
        rw [send_data_loop_succ shorter whole sent]
        by_cases refused : rt ≤ 0
        · rw [if_pos refused]
          exact ⟨rt, next, rfl, cut_refused ref _ _ sent refused⟩
        have last : ¬0 < int32 (int32 data.length - int32 data.length) := by
          rw [Int.sub_self]
          decide
        rw [if_neg refused, if_neg last]
        have first := sent_round sent (Int.not_le.mp refused) ⟨turns, wraps⟩
        exact ⟨1, _, rfl, cut_single first List.prefix_rfl (Int.le_refl _)⟩
  · let length := (int32 data.length).toNat
    have exact : int32 data.length = length := (Int.toNat_of_nonneg (by omega)).symm
    have inside : 0 + length ≤ data.length := by omega
    obtain ⟨rt, after, done, frames, sent, inOrder, bounded⟩ :=
      @send_data_loop_spec ref data conn.frameRoom async endStream positive (data.length + 2) conn
        0 length inside (by omega) (by omega)
    refine ⟨rt, after, ?_, frames, sent, ?_, ?_⟩
    · unfold sendData
      rw [exact]
      exact done
    · exact inOrder.trans (List.take_prefix length data)
    · rwa [largest, if_neg negative, exact]

theorem send_data_whole {conn : Http2SocketStream} {data : Str} (connected : conn.connected = true)
    (short : data.length ≤ conn.frameRoom) (ref : Nat) (endStream : Bool) :
    conn.sendData ref data true endStream = .ok (1, { conn with
      emitted := conn.emitted ++ [dataFrame (conn.heap ref).id data true endStream] }.consume ref
        data.length) := by
  have bound : conn.frameRoom < 2 ^ 31 := (int32_bounds _).2
  have exact : int32 data.length = data.length := int32_of_small (by omega)
  have taken : substr data 0 data.length = .ok data := by
    have inside := (substr_inside (show 0 + data.length ≤ data.length by omega)).1
    rwa [List.drop_zero, List.take_length] at inside
  have shorter : (data.length : Int) = min (data.length : Int) conn.frameRoom := by omega
  have sent : conn.sendFrame
      (dataFrame (conn.heap ref).id data ((data.length : Int) = data.length) endStream) true =
      (1, { conn with
        emitted := conn.emitted ++ [dataFrame (conn.heap ref).id data true endStream] }) := by
    simp [sendFrame, connected]
  have last : ¬0 < int32 ((data.length : Int) - data.length) := by
    rw [Int.sub_self]
    decide
  unfold sendData
  rw [exact]
  change sendDataLoop ref data conn.frameRoom true endStream (data.length + 1 + 1) conn 0 _ = _
  rw [send_data_loop_succ shorter taken sent, if_neg (by decide), if_neg last]

end Http2SocketStream
end ChatServer.Http2
