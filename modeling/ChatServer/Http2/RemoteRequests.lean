import Mathlib.Data.List.Forall2
import ChatServer.Http2.Demultiplex
import ChatServer.Http2.EndStream
import ChatServer.Http2.Wire

/-!
# Requests that cross the connection

Several callers of a client send requests at a time, and their frames interleave on the way to
the server. The header lists are packed on one table in the order in which the frames are
written, and `parse(ba, length)` unpacks the blocks on another. The frames that the codec reads are
the requests again, each with its own headers and its own body.
-/

namespace ChatServer.Http2

set_option autoImplicit false

def requestHeaders (id : UInt32) (req : HttpRequest) (ssl : Bool) : List (Str × Str) :=
  (req.initForWrite ssl).headers.map (fun entry => (entry.1.map toLower, entry.2)) ++
    [(ascii "stream_id", ascii (toString id.toNat))]

def KeysApart (headers : List (Str × Str)) : Prop :=
  headers.Pairwise fun first second => sameKey first.1 second.1 = false

structure Post where
  id : UInt32
  req : HttpRequest
  ssl : Bool
  frames : List Frame

/-- `sendRequest` emitted the frames of the request on a stream of a client, where all of them
were accepted. -/
structure Posted (post : Post) : Prop where
  nonzero : post.id ≠ 0
  small : post.id.toNat < 2 ^ 31
  short : post.req.body.length < 2 ^ 31
  apart : KeysApart post.req.headers
  sent : ∃ (conn after : Http2SocketStream) (ref : Nat) (async : Bool) (rt : Int),
    conn.connected = true ∧ 0 < conn.frameRoom ∧ conn.frameRoom < 2 ^ 24 ∧
      (∀ call, 0 < conn.outcome async call) ∧ (conn.heap ref).id = post.id ∧
      conn.sendRequest ref post.req post.ssl true async = .ok (rt, after) ∧
      after.emitted = conn.emitted ++ post.frames

/-- Every request is written in its own order, nothing else is written, and the streams are
opened in increasing order. -/
structure Interwoven (posts : List Post) (sent : List Frame) : Prop where
  distinct : (posts.map Post.id).Nodup
  each : ∀ post ∈ posts, own post.id sent = post.frames
  only : ∀ frame ∈ sent, ∃ post ∈ posts, frame.header.streamId = post.id
  increasing : ((sent.filter Frame.opens).map fun frame => frame.header.streamId).Pairwise (· < ·)

namespace Http2SocketStream

def bodyOf (id : UInt32) (ends : Bool) (room : Nat) (body : Str) : List Frame :=
  if body = [] then [] else dataFrames id ends (pieces room body)

theorem send_request_whole {conn : Http2SocketStream} {async : Bool}
    (connected : conn.connected = true) (positive : 0 < conn.frameRoom)
    (accepted : ∀ call, 0 < conn.outcome async call) (ref : Nat) {req : HttpRequest}
    (short : req.body.length < 2 ^ 31) (ssl : Bool) :
    ∃ rt after, conn.sendRequest ref req ssl true async = .ok (rt, after) ∧
      after.emitted = conn.emitted ++
        headersFrame (conn.heap ref).id (requestHeaders (conn.heap ref).id req ssl)
          req.body.isEmpty :: bodyOf (conn.heap ref).id true conn.frameRoom.toNat req.body := by
  obtain ⟨next, sent, nextConnected, outcomes, emitted, heap, room⟩ := head_sent connected
    (headersFrame (conn.heap ref).id (requestHeaders (conn.heap ref).id req ssl) req.body.isEmpty)
    async
  rw [if_pos (accepted 0)] at emitted
  unfold sendRequest
  dsimp only
  rw [← requestHeaders, Bool.true_and, sent]
  dsimp only
  rw [if_neg (Int.not_lt.mpr (Int.le_of_lt (accepted 0))), bodyOf]
  by_cases empty : req.body = []
  · rw [if_pos empty, if_pos empty]
    exact ⟨_, next, rfl, emitted⟩
  · rw [if_neg empty, if_neg empty]
    have nextPositive : 0 < next.frameRoom := by rwa [room]
    obtain ⟨rt, after, done, written⟩ :=
      send_data_written nextConnected nextPositive ref req.body async true
    refine ⟨rt, after, done, ?_⟩
    have all : taken (next.outcome async) (next.bodyFrames ref req.body true).length =
        (next.bodyFrames ref req.body true).length := by
      rw [taken_all_iff, outcomes]
      exact fun call _ => accepted (call + 1)
    rw [written.sent.emitted, all, List.take_length, emitted, body_frames_same heap room,
      bodyFrames, body_pieces_small conn short, List.append_assoc, List.singleton_append]

end Http2SocketStream

open Http2SocketStream

theorem posted_frames {post : Post} (posted : Posted post) :
    ∃ room, 0 < room ∧ room < 2 ^ 24 ∧ post.frames =
      headersFrame post.id (requestHeaders post.id post.req post.ssl) post.req.body.isEmpty ::
        bodyOf post.id true room post.req.body := by
  obtain ⟨conn, after, ref, async, rt, connected, positive, fits, accepted, named, sent, emitted⟩ :=
    posted.sent
  obtain ⟨_, _, done, whole⟩ :=
    send_request_whole connected positive accepted ref posted.short post.ssl
  rw [sent] at done
  have same := (Prod.mk.inj (Except.ok.inj done)).2
  rw [← same, emitted, named] at whole
  exact ⟨conn.frameRoom.toNat, by omega, by omega, List.append_cancel_left whole⟩

section Related

variable {First Second Value : Type} {related : First → Second → Prop} {firsts : List First}
  {seconds : List Second}

theorem forall₂_map_eq {value : First → Value} {other : Second → Value}
    (all : List.Forall₂ related firsts seconds)
    (same : ∀ first second, related first second → value first = other second) :
    firsts.map value = seconds.map other := by
  induction all with
  | nil => rfl
  | cons both _ induction => rw [List.map_cons, List.map_cons, same _ _ both, induction]

theorem forall₂_from (all : List.Forall₂ related firsts seconds) {second : Second}
    (member : second ∈ seconds) : ∃ first ∈ firsts, related first second := by
  induction all with
  | nil => cases member
  | cons both _ induction =>
      cases List.mem_cons.mp member with
      | inl same =>
          rw [same]
          exact ⟨_, List.mem_cons_self, both⟩
      | inr later =>
          obtain ⟨first, inside, others⟩ := induction later
          exact ⟨first, List.mem_cons_of_mem _ inside, others⟩

end Related

inductive Carried : Frame → Frame → Prop where
  | headers (id : UInt32) (kvs : List (Str × Str)) (ends : Bool) (block : Str) :
      Carried (headersFrame id kvs ends) (arrivedHeaders id ends block)
  | data (id : UInt32) (body : Str) (last ends : Bool) :
      Carried (dataFrame id body last ends) (arrivedData id body last ends)

theorem carried_header {frame arrived : Frame} (carried : Carried frame arrived) :
    ∃ length, arrived.header = { frame.header with length } := by
  cases carried <;> exact ⟨_, rfl⟩

theorem carried_stream_id {frame arrived : Frame} (carried : Carried frame arrived) :
    frame.header.streamId = arrived.header.streamId := by
  obtain ⟨length, same⟩ := carried_header carried
  rw [same]
  rfl

theorem carried_opens {frame arrived : Frame} (carried : Carried frame arrived) :
    frame.opens = arrived.opens := by
  obtain ⟨length, same⟩ := carried_header carried
  unfold Frame.opens
  rw [same]

theorem carried_type {frame arrived : Frame} (carried : Carried frame arrived) :
    frameType frame.header.type = frameType arrived.header.type := by
  obtain ⟨length, same⟩ := carried_header carried
  rw [same]

theorem headers_frame_opens (id : UInt32) (kvs : List (Str × Str)) (ends : Bool) :
    (headersFrame id kvs ends).opens = true := decide_eq_true (out_frame_type .headers _ _ _)

theorem carried_ends {frame arrived : Frame} (carried : Carried frame arrived) :
    frame.endsStream = arrived.endsStream := by
  obtain ⟨length, same⟩ := carried_header carried
  unfold Frame.endsStream
  rw [same]

theorem carried_body {frame arrived : Frame} (carried : Carried frame arrived) :
    frame.body = arrived.body := by
  cases carried <;> rfl

theorem carried_well_typed {frame arrived : Frame} (carried : Carried frame arrived) :
    arrived.wellTyped = true := by
  cases carried <;> rfl

theorem arrives_carried {table : DynamicTable} {frames wire : List Frame}
    (arrives : Arrives table frames wire) : List.Forall₂ Carried frames wire := by
  induction arrives with
  | nil => exact .nil
  | headers id ends chosen sendable short later induction => exact .cons (.headers _ _ _ _) induction
  | data id body last ends later induction => exact .cons (.data _ _ _ _) induction

theorem carried_own {frames wire : List Frame} (carried : List.Forall₂ Carried frames wire)
    (id : UInt32) : List.Forall₂ Carried (own id frames) (own id wire) := by
  apply List.rel_filter _ carried
  intro frame arrived both
  dsimp only
  rw [carried_stream_id both]

theorem carried_openings {frames wire : List Frame} (carried : List.Forall₂ Carried frames wire) :
    (wire.filter Frame.opens).map (fun frame => frame.header.streamId) =
      (frames.filter Frame.opens).map fun frame => frame.header.streamId := by
  have opened : List.Forall₂ Carried (frames.filter Frame.opens) (wire.filter Frame.opens) := by
    apply List.rel_filter _ carried
    intro frame arrived both
    dsimp only
    rw [carried_opens both]
  exact (forall₂_map_eq opened fun _ _ => carried_stream_id).symm

theorem payloads_bodies (frames : List Frame) :
    (payloads frames).flatMap DataFrame.data = bodies frames := by
  induction frames with
  | nil => rfl
  | cons frame rest induction =>
      have first : frame.parts.flatMap DataFrame.data = frame.body := by
        unfold Frame.parts Frame.body
        cases frame.data with
        | none => rfl
        | some payload =>
            cases payload with
            | data data => exact List.append_nil _
            | headers | priority | rstStream | settings | pushPromised | ping | goAway
            | windowUpdate => rfl
      rw [payloads, List.flatMap_cons, List.flatMap_append, first, ← payloads, induction]
      rfl

theorem body_of_bodies (id : UInt32) (ends : Bool) {room : Nat} (positive : 0 < room) (body : Str) :
    bodies (bodyOf id ends room body) = body := by
  unfold bodyOf
  by_cases empty : body = []
  · rw [if_pos empty, empty]
    rfl
  · rw [if_neg empty, bodies, List.flatMap_def, data_frames_bodies]
    exact (pieces_spec positive body.length rfl).1

theorem data_frames_data (id : UInt32) (ends : Bool) (bodies : List Str) :
    ∀ frame ∈ dataFrames id ends bodies,
      ∃ piece ∈ bodies, ∃ last, frame = dataFrame id piece last ends := by
  induction bodies with
  | nil => exact fun _ member => absurd member List.not_mem_nil
  | cons first rest induction =>
      intro frame member
      cases rest with
      | nil => exact ⟨first, List.mem_cons_self, true, List.mem_singleton.mp member⟩
      | cons next rest =>
          rw [data_frames_cons id ends first (List.cons_ne_nil _ _)] at member
          cases List.mem_cons.mp member with
          | inl same => exact ⟨first, List.mem_cons_self, false, same⟩
          | inr later =>
              obtain ⟨piece, inside, last, same⟩ := induction frame later
              exact ⟨piece, List.mem_cons_of_mem _ inside, last, same⟩

theorem body_of_data (id : UInt32) (ends : Bool) {room : Nat} (positive : 0 < room) (body : Str) :
    ∀ frame ∈ bodyOf id ends room body, ∃ piece last, frame = dataFrame id piece last ends ∧
      piece.length ≤ room := by
  intro frame member
  unfold bodyOf at member
  split_ifs at member
  · cases member
  · obtain ⟨piece, inside, last, same⟩ := data_frames_data id ends _ frame member
    exact ⟨piece, last, same, ((pieces_spec positive body.length rfl).2 piece inside).1⟩

/-- The last frame of a request ends its stream and no other does. -/
theorem request_flags (id : UInt32) (kvs : List (Str × Str)) (room : Nat) (body : Str) :
    (headersFrame id kvs body.isEmpty :: bodyOf id true room body).map Frame.endsStream =
      List.replicate (bodyOf id true room body).length false ++ [true] := by
  unfold bodyOf
  rw [List.map_cons, headers_frame_ends]
  by_cases empty : body = []
  · rw [if_pos empty, empty]
    rfl
  · obtain ⟨front, last, same, marked, unmarked⟩ :=
      data_frames_end id true (pieces_ne_nil room body)
    have plain : front.map Frame.endsStream = List.replicate front.length false := by
      rw [List.eq_replicate_iff]
      refine ⟨List.length_map _, ?_⟩
      intro flag member
      obtain ⟨frame, inside, is⟩ := List.mem_map.mp member
      rw [← is]
      exact unmarked frame inside
    rw [if_neg empty, same, List.map_append, plain, List.map_singleton, marked,
      List.isEmpty_eq_false_iff.mpr empty, List.length_append, List.length_singleton,
      List.replicate_succ, List.cons_append]

/-- What is read of the frames of a request that was sent is a request with its body. -/
theorem posted_request {post : Post} {arrived : List Frame} (posted : Posted post)
    (carried : List.Forall₂ Carried post.frames arrived)
    (named : ∀ frame ∈ arrived, frame.header.streamId = post.id) :
    ∃ request : Request, request.id = post.id ∧ request.frames = arrived ∧
      (payloads arrived).flatMap DataFrame.data = post.req.body := by
  obtain ⟨room, positive, fits, frames⟩ := posted_frames posted
  have marks := forall₂_map_eq carried fun _ _ => carried_ends
  have bytes : bodies arrived = bodies post.frames := by
    rw [bodies, List.flatMap_def, ← forall₂_map_eq carried fun _ _ => carried_body]
    rfl
  rw [frames] at carried marks bytes
  rw [request_flags] at marks
  have same : (payloads arrived).flatMap DataFrame.data = post.req.body := by
    rw [payloads_bodies, bytes]
    exact body_of_bodies post.id true positive post.req.body
  obtain ⟨opening, rest, first, later, whole⟩ := List.forall₂_cons_left_iff.mp carried
  rw [whole] at marks same named
  have length : (bodyOf post.id true room post.req.body).length = rest.length := later.length_eq
  rw [length] at marks
  generalize post.req.body.isEmpty = alone at first
  have ended : opening.header.flags &&& flagEndHeaders ≠ 0 := by
    obtain ⟨size, head⟩ := carried_header first
    rw [head]
    change (if alone then flagEndHeaders ||| Http2Stream.flagEndStream else flagEndHeaders) &&&
      flagEndHeaders ≠ 0
    cases alone <;> decide
  have typed : frameType opening.header.type = some .headers :=
    of_decide_eq_true ((carried_opens first).symm.trans (headers_frame_opens _ _ _))
  have carries : ∀ frame ∈ rest, frame.wellTyped = true ∧
      frameType frame.header.type = some .data := by
    intro frame member
    obtain ⟨own, inside, both⟩ := forall₂_from later member
    obtain ⟨piece, last, is, _⟩ := body_of_data post.id true positive post.req.body own inside
    refine ⟨carried_well_typed both, ?_⟩
    rw [← carried_type both, is]
    exact out_frame_type .data _ _ _
  rw [whole]
  exact ⟨⟨post.id, opening, rest, posted.nonzero, ⟨carried_well_typed first, typed, ended⟩, carries,
    named, marks.symm⟩, rfl, rfl, same⟩

/-- The header blocks, parsed one after the other on a shared table, give these lists. -/
def Decodes (decoded : UInt32 → List HeaderField) : DynamicTable → List Frame → Prop
  | _, [] => True
  | table, frame :: rest =>
      match frame.data with
      | some (.headers headers) => ∃ after,
          ParsesTo ⟨[], table⟩ headers.data ⟨decoded frame.header.streamId, after⟩ ∧
            Decodes decoded after rest
      | _ => Decodes decoded table rest

theorem later_increasing {frame : Frame} {rest : List Frame}
    (increasing : (((frame :: rest).filter Frame.opens).map fun frame =>
      frame.header.streamId).Pairwise (· < ·)) :
    ((rest.filter Frame.opens).map fun frame => frame.header.streamId).Pairwise (· < ·) := by
  cases opens : frame.opens with
  | true =>
      rw [List.filter_cons_of_pos opens, List.map_cons] at increasing
      exact (List.pairwise_cons.mp increasing).2
  | false =>
      rwa [List.filter_cons_of_neg (by simp [opens])] at increasing

/-- Only the lists of the streams whose blocks are decoded matter. -/
theorem decodes_congr {decoded other : UInt32 → List HeaderField} {wire : List Frame} :
    ∀ {table : DynamicTable}, (∀ frame ∈ wire, frame.opens = true →
        decoded frame.header.streamId = other frame.header.streamId) →
      (∀ frame ∈ wire, frame.wellTyped = true) → Decodes decoded table wire →
      Decodes other table wire := by
  induction wire with
  | nil => exact fun _ _ _ => trivial
  | cons frame rest induction =>
      intro table agree typed decodes
      have agreeRest := fun later member => agree later (List.mem_cons_of_mem frame member)
      have typedRest := fun later member => typed later (List.mem_cons_of_mem frame member)
      unfold Decodes at decodes ⊢
      split
      · rename_i headers payload
        rw [payload] at decodes
        obtain ⟨after, parsed, others⟩ := decodes
        have opens : frame.opens = true := by
          have shaped := typed frame List.mem_cons_self
          unfold Frame.wellTyped at shaped
          unfold Frame.opens
          rw [payload] at shaped
          cases kind : frameType frame.header.type with
          | none =>
              rw [kind] at shaped
              cases shaped
          | some named =>
              rw [kind] at shaped
              cases named with
              | headers => rfl
              | data | priority | rstStream | settings | pushPromise | ping | goaway | windowUpdate
              | continuation => cases shaped
        rw [agree frame List.mem_cons_self opens] at parsed
        exact ⟨after, parsed, induction agreeRest typedRest others⟩
      · rename_i other
        split at decodes
        · rename_i headers payload
          exact absurd payload (other headers)
        · exact induction agreeRest typedRest decodes

theorem last_value_map (fields : List HeaderField) (key : Str) : lastValue fields key =
    ((fields.map fun h => (h.name, h.value)).reverse.find? fun entry =>
      sameKey entry.1 key).map Prod.snd := by
  unfold lastValue
  rw [← List.map_reverse, List.find?_map, Option.map_map]
  rfl

/-- Every block is decoded to the header list that was packed. -/
theorem arrives_decodes {table : DynamicTable} {frames wire : List Frame}
    (arrives : Arrives table frames wire)
    (increasing : ((frames.filter Frame.opens).map fun frame =>
      frame.header.streamId).Pairwise (· < ·)) :
    ∃ decoded, Decodes decoded table wire ∧ ∀ frame ∈ frames, frame.opens = true →
      ∀ headers, frame.data = some (.headers headers) →
        (decoded frame.header.streamId).map (fun h => (h.name, h.value)) = headers.kvs := by
  induction arrives with
  | nil table => exact ⟨fun _ => [], trivial, fun _ member => absurd member List.not_mem_nil⟩
  | @headers table last kvs fields rest wire id ends chosen sendable short later induction =>
      obtain ⟨decoded, decodes, named⟩ := induction (later_increasing increasing)
      have small : (blockBytes fields).length < 2 ^ 31 := by omega
      obtain ⟨got, names, parsed⟩ := parse_spec ⟨[], table⟩ sendable small
      rw [choose_all_resolves chosen] at parsed names
      let opened := (headersFrame id kvs ends).header.streamId
      rw [List.filter_cons_of_pos (headers_frame_opens id kvs ends), List.map_cons] at increasing
      have above := (List.pairwise_cons.mp increasing).1
      -- the streams that are opened later have greater ids
      have apart : ∀ frame ∈ rest, frame.opens = true → frame.header.streamId ≠ opened := by
        intro frame member opens same
        have greater := above _ (List.mem_map_of_mem (List.mem_filter.mpr ⟨member, opens⟩))
        rw [same] at greater
        exact absurd greater (UInt32.lt_irrefl _)
      have carried := arrives_carried later
      refine ⟨Function.update decoded opened got, ?_, ?_⟩
      · refine ⟨last, ?_, ?_⟩
        · intro ba behind reachable front
          change _ = Except.ok (_, HPack.mk (Function.update decoded opened got opened) last, _)
          rw [Function.update_self]
          exact parsed ba behind (ByteArray.reachable_inv reachable) front
        · apply decodes_congr _ _ decodes
          · intro arrived member opens
            obtain ⟨frame, inside, both⟩ := forall₂_from carried member
            rw [← carried_stream_id both]
            rw [← carried_opens both] at opens
            exact (Function.update_of_ne (apart frame inside opens) _ _).symm
          · intro arrived member
            obtain ⟨frame, inside, both⟩ := forall₂_from carried member
            exact carried_well_typed both
      · intro frame member opens headers payload
        cases List.mem_cons.mp member with
        | inl same =>
            subst same
            rw [← IFrame.headers.inj (Option.some.inj payload)]
            change (Function.update decoded opened got opened).map _ = kvs
            rw [Function.update_self, names]
        | inr inside =>
            rw [Function.update_of_ne (apart frame inside opens)]
            exact named frame inside opens headers payload
  | @data table rest wire id body last ends later induction =>
      obtain ⟨decoded, decodes, named⟩ := induction (later_increasing increasing)
      refine ⟨decoded, decodes, ?_⟩
      intro frame member opens headers payload
      cases List.mem_cons.mp member with
      | inl same =>
          rw [same] at payload
          cases payload
      | inr inside => exact named frame inside opens headers payload

theorem to_lower_cases (byte : UInt8) :
    toLower byte = byte ∨ 97 ≤ (toLower byte).toNat ∧ 65 ≤ byte.toNat := by
  unfold toLower
  by_cases upper : 0x41 ≤ byte ∧ byte ≤ 0x5A
  · right
    have lower := UInt8.le_iff_toNat_le.mp upper.1
    have bound := UInt8.le_iff_toNat_le.mp upper.2
    rw [if_pos upper, UInt8.toNat_add]
    change byte.toNat ≤ 90 at bound
    change 65 ≤ byte.toNat at lower
    change 97 ≤ (byte.toNat + 32) % 256 ∧ 65 ≤ byte.toNat
    omega
  · left
    rw [if_neg upper]

theorem to_lower_to_lower (byte : UInt8) : toLower (toLower byte) = toLower byte := by
  rcases to_lower_cases byte with same | ⟨above, _⟩
  · rw [same, same]
  · generalize toLower byte = lowered at above
    unfold toLower
    rw [if_neg]
    rintro ⟨_, most⟩
    have below := UInt8.le_iff_toNat_le.mp most
    change lowered.toNat ≤ 90 at below
    omega

theorem to_lower_zero (byte : UInt8) : toLower byte = 0 ↔ byte = 0 := by
  rcases to_lower_cases byte with same | ⟨above, least⟩
  · rw [same]
  · constructor
    · intro zero
      rw [zero] at above
      exact absurd above (by decide)
    · intro zero
      rw [zero] at least
      exact absurd least (by decide)

theorem lower_same_key (name key : Str) : sameKey (name.map toLower) key = sameKey name key := by
  have ends : (fun byte => decide (byte ≠ 0)) ∘ toLower = fun byte => decide (byte ≠ 0) := by
    funext byte
    exact decide_eq_decide.mpr (not_congr (to_lower_zero byte))
  have cut : cString (name.map toLower) = (cString name).map toLower := by
    unfold cString
    rw [List.takeWhile_map, ends]
  have twice : toLower ∘ toLower = toLower := funext to_lower_to_lower
  unfold sameKey
  rw [cut, List.map_map, twice]

theorem find_reverse {headers : List (Str × Str)} (apart : KeysApart headers) (key : Str) :
    headers.reverse.find? (fun entry => sameKey entry.1 key) =
      headers.find? fun entry => sameKey entry.1 key := by
  induction headers with
  | nil => rfl
  | cons entry rest induction =>
      obtain ⟨others, restApart⟩ := List.pairwise_cons.mp apart
      rw [List.reverse_cons, List.find?_append, induction restApart, List.find?_cons]
      cases same : sameKey entry.1 key with
      | true =>
          have absent : rest.find? (fun entry => sameKey entry.1 key) = none := by
            rw [List.find?_eq_none]
            intro other member found
            have both := (same_key_right found entry.1).trans same
            rw [others other member] at both
            cases both
          rw [absent]
          simp [same]
      | false => simp [same]

theorem set_header_apart {message : HttpMessage} (apart : KeysApart message.headers)
    (name value : Str) : KeysApart (message.setHeader name value).headers := by
  unfold HttpMessage.setHeader
  split_ifs with present
  · unfold KeysApart
    rw [List.pairwise_map]
    refine apart.imp ?_
    intro first second different
    split_ifs <;> exact different
  · have absent := Bool.eq_false_iff.mpr present
    unfold KeysApart
    rw [List.pairwise_append]
    refine ⟨apart, List.pairwise_singleton _ _, ?_⟩
    intro entry member last only
    rw [List.mem_singleton.mp only]
    exact Bool.eq_false_iff.mpr (List.any_eq_false.mp absent entry member)

theorem init_for_write_apart {req : HttpRequest} (apart : KeysApart req.headers) (ssl : Bool) :
    KeysApart (req.initForWrite ssl).headers := by
  unfold HttpRequest.initForWrite
  generalize ascii (if ssl then "https" else "http") = scheme
  have schemed := set_header_apart apart (ascii ":scheme") scheme
  dsimp only
  apply set_header_apart
  split_ifs
  · exact schemed
  · exact set_header_apart schemed _ _

/-- Every name but that of the stream id has the value that the request has for it. -/
theorem request_headers_find (id : UInt32) {req : HttpRequest} (apart : KeysApart req.headers)
    (ssl : Bool) {key : Str} (other : sameKey (ascii "stream_id") key = false) :
    ((requestHeaders id req ssl).reverse.find? fun entry => sameKey entry.1 key).map Prod.snd =
      (req.initForWrite ssl).find key := by
  have lowered : (fun entry : Str × Str => sameKey entry.1 key) ∘
      (fun entry : Str × Str => (entry.1.map toLower, entry.2)) =
        fun entry => sameKey entry.1 key := by
    funext entry
    exact lower_same_key entry.1 key
  unfold requestHeaders
  rw [List.reverse_append, List.reverse_singleton, List.singleton_append, List.find?_cons]
  dsimp only
  rw [other, ← List.map_reverse, List.find?_map, lowered,
    find_reverse (init_for_write_apart apart ssl), Option.map_map]
  rfl

structure Matches (wire : List Frame) (post : Post) (request : Request) : Prop where
  id : request.id = post.id
  frames : own post.id wire = request.frames
  body : (payloads request.frames).flatMap DataFrame.data = post.req.body

theorem exists_matches {wire : List Frame} {posts : List Post}
    (each : ∀ post ∈ posts, ∃ request, Matches wire post request) :
    ∃ requests, List.Forall₂ (Matches wire) posts requests := by
  induction posts with
  | nil => exact ⟨[], .nil⟩
  | cons post rest induction =>
      obtain ⟨request, first⟩ := each post List.mem_cons_self
      obtain ⟨requests, others⟩ :=
        induction fun other member => each other (List.mem_cons_of_mem post member)
      exact ⟨request :: requests, .cons first others⟩

theorem matches_from {wire : List Frame} {posts : List Post} {requests : List Request}
    (all : List.Forall₂ (Matches wire) posts requests) :
    (∀ post ∈ posts, ∃ request ∈ requests, Matches wire post request) ∧
      ∀ request ∈ requests, ∃ post ∈ posts, Matches wire post request :=
  ⟨fun _ => forall₂_from (List.Forall₂.flip all), fun _ => forall₂_from all⟩

theorem interwoven_matches {posts : List Post} {sent wire : List Frame}
    (posted : ∀ post ∈ posts, Posted post) (interwoven : Interwoven posts sent)
    (carried : List.Forall₂ Carried sent wire) :
    ∃ requests, List.Forall₂ (Matches wire) posts requests ∧ Interleaves requests wire := by
  have each : ∀ post ∈ posts, ∃ request, Matches wire post request := by
    intro post member
    have ownCarried := carried_own carried post.id
    rw [interwoven.each post member] at ownCarried
    obtain ⟨request, named, frames, body⟩ := posted_request (posted post member) ownCarried
      fun frame inside => of_decide_eq_true (List.mem_filter.mp inside).2
    exact ⟨request, named, frames.symm, by rw [frames]; exact body⟩
  obtain ⟨requests, all⟩ := exists_matches each
  obtain ⟨toRequest, toPost⟩ := matches_from all
  refine ⟨requests, all, ?_, ?_, ?_, ?_⟩
  · rw [← forall₂_map_eq all fun _ _ same => same.id.symm]
    exact interwoven.distinct
  · intro request member
    obtain ⟨post, _, same⟩ := toPost request member
    rw [same.id]
    exact same.frames
  · intro arrived member
    obtain ⟨frame, inside, both⟩ := forall₂_from carried member
    obtain ⟨post, ofPost, named⟩ := interwoven.only frame inside
    obtain ⟨request, ofRequest, same⟩ := toRequest post ofPost
    refine ⟨request, ofRequest, ?_⟩
    rw [← carried_stream_id both, named, same.id]
  · rw [carried_openings carried]
    exact interwoven.increasing

structure Arrived (decoded : UInt32 → List HeaderField) (post : Post) (request : Request) :
    Prop where
  id : request.id = post.id
  body : (request.message (decoded request.id)).body = post.req.body
  headers : ∀ key, sameKey (ascii "stream_id") key = false →
    (request.message (decoded request.id)).find key = (post.req.initForWrite post.ssl).find key

theorem matches_arrived {posts : List Post} {sent wire : List Frame} {post : Post}
    {request : Request} {decoded : UInt32 → List HeaderField} (posted : Posted post)
    (interwoven : Interwoven posts sent) (member : post ∈ posts)
    (same : Matches wire post request)
    (named : ∀ frame ∈ sent, frame.opens = true → ∀ headers, frame.data = some (.headers headers) →
      (decoded frame.header.streamId).map (fun h => (h.name, h.value)) = headers.kvs) :
    Arrived decoded post request := by
  refine ⟨same.id, (message_body _ _).trans same.body, ?_⟩
  obtain ⟨room, _, _, frames⟩ := posted_frames posted
  intro key other
  rw [Request.message, message_find]
  have inside : headersFrame post.id (requestHeaders post.id post.req post.ssl)
      post.req.body.isEmpty ∈ sent := by
    have first : headersFrame post.id (requestHeaders post.id post.req post.ssl)
        post.req.body.isEmpty ∈ own post.id sent := by
      rw [interwoven.each post member, frames]
      exact List.mem_cons_self
    exact (List.mem_filter.mp first).1
  have list := named _ inside (headers_frame_opens _ _ _) _ rfl
  have streamId : (headersFrame post.id (requestHeaders post.id post.req post.ssl)
      post.req.body.isEmpty).header.streamId = request.id :=
    (out_frame_stream_id posted.small _ _ _).trans same.id.symm
  rw [streamId] at list
  rw [last_value_map, list]
  exact request_headers_find post.id posted.apart post.ssl other

/-- A request for `/` with these bytes, as it is sent on a new stream of a client. -/
def plainPost (id : UInt32) (body : Str) : Post where
  id := id
  req := { body }
  ssl := false
  frames := headersFrame id (requestHeaders id { body } false) body.isEmpty :: bodyOf id true 16375 body

theorem plain_post_posted {id : UInt32} {body : Str} (nonzero : id ≠ 0) (small : id.toNat < 2 ^ 31)
    (short : body.length < 2 ^ 31) : Posted (plainPost id body) := by
  let conn := (new true).addStream id
  have room : conn.frameRoom = 16375 := (by decide : (new true).frameRoom = 16375)
  have named : (conn.heap 0).id = id := rfl
  have positive : 0 < conn.frameRoom := by omega
  have accepted : ∀ call, 0 < conn.outcome true call := fun _ => Int.one_pos
  obtain ⟨rt, after, done, emitted⟩ := send_request_whole (rfl : conn.connected = true) positive
    accepted 0 (show (plainPost id body).req.body.length < 2 ^ 31 from short) false
  rw [named, room] at emitted
  exact ⟨nonzero, small, short, .nil, conn, after, 0, true, rt, rfl, positive, by omega, accepted,
    named, done, emitted⟩

end ChatServer.Http2
