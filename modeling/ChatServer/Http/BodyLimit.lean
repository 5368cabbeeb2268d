import ChatServer.Http.BodySizes
import ChatServer.Http.ChunkPlaces

/-!
# How large a body may become

`http.request.max_body_size` and `http.response.max_body_size` are read by nobody, so a body stays
below them as far as the peer says so.
-/

namespace ChatServer.Http

set_option autoImplicit false

open ChatServer.Http2 (ascii)
open Recorded

theorem read_fix_loop_le (config : HttpConfig) (length : Nat) (rounds : Nat) :
    ∀ {stream after : SocketStream} {buffer bytes : Str} {left : Nat} {rt : Int},
      SocketStream.readFixLoop config length rounds stream buffer left = .ok (rt, bytes, after) →
      bytes.length ≤ buffer.length + left := by
  induction rounds with
  | zero =>
      intro stream after buffer bytes left rt read
      rw [SocketStream.readFixLoop] at read
      split at read
      · cases read
      · have same : buffer = bytes := congrArg (fun value => value.2.1) (Except.ok.inj read)
        rw [same]
        exact Nat.le_add_right _ _
  | succ rounds induction =>
      intro stream after buffer bytes left rt read
      rw [SocketStream.readFixLoop] at read
      split at read
      · have most : (stream.read (min left config.maxLen)).1.length ≤ left := by
          rw [SocketStream.read]
          split
          · have within := stream.arriving_le (min left config.maxLen)
            rw [List.length_take]
            omega
          · exact Nat.zero_le _
        dsimp only at read
        split at read
        · have same : buffer = bytes := congrArg (fun value => value.2.1) (Except.ok.inj read)
          rw [same]
          exact Nat.le_add_right _ _
        · have rest := induction read
          rw [List.length_append] at rest
          omega
      · have same : buffer = bytes := congrArg (fun value => value.2.1) (Except.ok.inj read)
        rw [same]
        exact Nat.le_add_right _ _

theorem answer_expect_body (request : HttpRequest) (stream : SocketStream) :
    (answerExpect request stream).1.body = request.body := by
  rw [answerExpect]
  split
  · rfl
  · rfl

theorem body_set (request : HttpRequest) (body : Str) : (request.setBody body).body = body := rfl

theorem recv_body_length {config : HttpConfig} {parser : HttpRequestParser} {held : Str}
    {stream after : SocketStream} {request : HttpRequest} (empty : parser.data.body = [])
    (received : recvBody config parser held stream = .ok (some request, after)) :
    request.body.length ≤ (int64 parser.getContentLength).toNat := by
  have kept := answer_expect_body parser.data stream
  rw [recvBody] at received
  generalize answerExpect parser.data stream = answered at kept received
  rcases answered with ⟨asked, next⟩
  dsimp only at kept received
  split at received
  · split at received
    · rcases bind_eq_ok received with ⟨⟨rt, bytes, last⟩, read, checked⟩
      have most := read_fix_loop_le config _ _ read
      rw [List.length_nil] at most
      dsimp only at checked
      split at checked
      · cases checked
      · have same := Option.some.inj (congrArg Prod.fst (Except.ok.inj checked))
        rw [← same, body_init, body_set, List.length_append, List.length_take]
        omega
    · have same := Option.some.inj (congrArg Prod.fst (Except.ok.inj received))
      rw [← same, body_init, body_set, List.length_take]
      exact Nat.min_le_left _ _
  · have same := Option.some.inj (congrArg Prod.fst (Except.ok.inj received))
    rw [← same, body_init, kept, empty]
    exact Nat.zero_le _

/-- The limit is kept: by the memory of the body, by what is returned, and by refusing a longer
body that is announced. -/
structure RequestLimited (limit : Nat) (machine : HttpMachine) (config : HttpConfig)
    (queryStart : Nat) (stream : SocketStream) : Prop where
  allocated : Keeps (· ≤ limit) (recvRequestRecorded machine config queryStart stream)
  returned : ∀ request after,
    recvRequest machine config queryStart stream = .ok (some request, after) →
      request.body.length ≤ limit
  refused : ∀ parser held between, recvHead machine config (stream.incoming.length + 1) stream []
    (HttpRequestParser.new machine queryStart) = .ok (some (parser, held), between) →
      limit < parser.getContentLength → ∀ request after,
        recvRequest machine config queryStart stream ≠ .ok (some request, after)

/-- The head, if one arrives, announces no more than the limit. -/
def RequestFits (limit : Nat) (machine : HttpMachine) (config : HttpConfig) (queryStart : Nat)
    (stream : SocketStream) : Prop :=
  ∀ parser held between, recvHead machine config (stream.incoming.length + 1) stream []
    (HttpRequestParser.new machine queryStart) = .ok (some (parser, held), between) →
      parser.getContentLength ≤ limit

theorem unsigned_of_lt {digits : Str} {value : Nat} (read : unsignedOf digits = some value) :
    value < 2 ^ 64 := by
  rw [unsignedOf] at read
  split at read
  · rename_i digits
    rw [← Option.some.inj read]
    exact digits.2.2
  · cases read

theorem announced_lt (found : Option Str) : (found.bind lexicalCast).getD 0 < 2 ^ 64 := by
  cases read : found.bind lexicalCast with
  | none => exact Nat.two_pow_pos 64
  | some value =>
      rcases Option.bind_eq_some_iff.mp read with ⟨text, _, cast⟩
      rw [lexicalCast] at cast
      split at cast
      · exact unsigned_of_lt cast
      · split at cast
        · rcases Option.map_eq_some_iff.mp cast with ⟨magnitude, _, same⟩
          rw [Option.getD_some, ← same]
          exact Nat.mod_lt _ (Nat.two_pow_pos 64)
        · exact unsigned_of_lt cast

theorem int64_positive {value : Nat} (some : 0 < int64 value) (wide : value < 2 ^ 64) :
    int64 value = value := by
  unfold int64 at *
  rw [Int.bmod_def] at *
  omega

theorem int64_to_nat_le (value : Nat) : (int64 value).toNat ≤ value := by
  have most := int64_le value
  omega

theorem fits_request_limited {limit : Nat} {machine : HttpMachine} {config : HttpConfig}
    {queryStart : Nat} {stream : SocketStream}
    (fits : RequestFits limit machine config queryStart stream) :
    RequestLimited limit machine config queryStart stream := by
  constructor
  case allocated =>
    rw [recvRequestRecorded, keeps_quiet_bind]
    intro received head
    rcases received with ⟨received, between⟩
    cases received with
    | none => exact keeps_pure _ _
    | some received =>
        have announced := fits _ _ _ head
        have most := int64_to_nat_le received.1.getContentLength
        dsimp only
        rw [recvBodyRecorded]
        refine keeps_after.mpr ⟨?_, keeps_quiet _ _⟩
        intro size member
        split at member
        · rw [List.mem_singleton.mp member]
          omega
        · cases member
  case returned =>
    intro request after done
    rcases bind_eq_ok done with ⟨⟨received, between⟩, head, body⟩
    cases received with
    | none => cases body
    | some received =>
        have announced := fits _ _ _ head
        have most := int64_to_nat_le received.1.getContentLength
        have length := recv_body_length (recv_head_body _ head) body
        omega
  case refused =>
    intro parser held between head more
    exact absurd (fits parser held between head) (by omega)

theorem request_limited_iff (limit : Nat) (machine : HttpMachine) (config : HttpConfig)
    (queryStart : Nat) (stream : SocketStream) :
    RequestLimited limit machine config queryStart stream ↔
      RequestFits limit machine config queryStart stream := by
  refine ⟨?_, fits_request_limited⟩
  intro limited parser held between head
  by_cases fits : parser.getContentLength ≤ limit
  · exact fits
  · exfalso
    have more : limit < parser.getContentLength := by omega
    by_cases some : 0 < int64 parser.getContentLength
    · -- the memory is taken before anything is compared
      have exact : (int64 parser.getContentLength).toNat = parser.getContentLength := by
        have small := int64_positive some (announced_lt (parser.data.toHttpMessage.find _))
        omega
      have kept := limited.allocated
      rw [recvRequestRecorded, keeps_quiet_bind] at kept
      have kept := kept _ head
      dsimp only at kept
      rw [recvBodyRecorded] at kept
      have size := (keeps_after.mp kept).1 (int64 parser.getContentLength).toNat (by simp [some])
      omega
    · -- from 2^63 on the length is negative, and the request seems to have no body
      have received : ∃ request after,
          recvBody config parser held between = .ok (Option.some request, after) := by
        rw [recvBody]
        dsimp only
        rw [if_neg some]
        exact ⟨_, _, rfl⟩
      rcases received with ⟨request, after, body⟩
      apply limited.refused parser held between head more request after
      rw [recvRequest, head, bind_ok]
      exact body

/-- By how much the body grows while a payload is read, with the line end that is cut off again
unless it is in the buffer. -/
def grown (contentLen : Int) (held incoming : Nat) : Nat :=
  if 2 ^ 31 ≤ contentLen + 2 then 0
  else if contentLen + 2 ≤ held then contentLen.toNat
  else min (contentLen + 2).toNat (held + incoming)

section Payloads

variable {config : HttpConfig} {limit : Nat}

theorem keeps_recv_left (room : 0 < config.buffSize) (rounds : Nat) :
    ∀ {stream : SocketStream} {body : Str} {left : Int}, stream.connected = true →
      left ≤ rounds → body.length ≤ limit →
      (Keeps (· ≤ limit) (recvLeftRecorded config rounds stream body left) ↔
        body.length + min left.toNat stream.incoming.length ≤ limit) := by
  induction rounds with
  | zero =>
      intro stream body left _ enough within
      have none : left.toNat = 0 := by omega
      rw [none, Nat.zero_min]
      exact ⟨fun _ => within, fun _ => keeps_quiet _ _⟩
  | succ rounds induction =>
      intro stream body left connected enough within
      rw [recvLeftRecorded]
      by_cases some : 0 < left
      · have most := stream.arriving_le (min left.toNat config.buffSize)
        have come : 0 < stream.incoming.length →
            0 < stream.arriving (min left.toNat config.buffSize) := by
          intro there
          exact SocketStream.arriving_pos (by omega) there
        rw [if_pos some, SocketStream.read_open connected]
        generalize stream.arriving (min left.toNat config.buffSize) = count at most come
        have bytes : (stream.incoming.take count).length = count := by
          rw [List.length_take]
          omega
        have still : (stream.advance count).connected = true := connected
        dsimp only
        rw [bytes]
        by_cases drained : count = 0
        · rw [if_pos drained]
          constructor
          · intro _
            omega
          · exact fun _ => keeps_pure _ _
        · rw [if_neg drained, keeps_after, List.forall_mem_singleton, List.length_append, bytes]
          constructor
          · intro kept
            have rest := (induction still (by omega)
              (by rw [List.length_append, bytes]; exact kept.1)).mp kept.2
            rw [List.length_append, bytes, SocketStream.advance_incoming, List.length_drop] at rest
            omega
          · intro fits
            have now : body.length + count ≤ limit := by omega
            refine ⟨now, (induction still (by omega)
              (by rw [List.length_append, bytes]; exact now)).mpr ?_⟩
            rw [List.length_append, bytes, SocketStream.advance_incoming, List.length_drop]
            omega
      · have none : left.toNat = 0 := by omega
        rw [if_neg some, none, Nat.zero_min]
        exact ⟨fun _ => within, fun _ => keeps_pure _ _⟩

variable {contentLen whole : Int} {stream : SocketStream} {body held : Str}

theorem grown_held (inside : contentLen + 2 ≤ held.length) (small : contentLen + 2 < 2 ^ 31)
    (incoming : Nat) : grown contentLen held.length incoming = contentLen.toNat := by
  rw [grown, if_neg (by omega), if_pos inside]

theorem grown_left (outside : ¬contentLen + 2 ≤ held.length) (small : contentLen + 2 < 2 ^ 31)
    (incoming : Nat) : grown contentLen held.length incoming =
      held.length + min (contentLen - held.length + 2).toNat incoming := by
  rw [grown, if_neg (by omega), if_neg outside]
  omega

theorem keeps_checked {Value : Type} {sum : Int} (checked : checkedInt sum = .ok whole)
    (next : Int → Growing Value) :
    Keeps (· ≤ limit) (quiet (checkedInt sum) >>= next) ↔ Keeps (· ≤ limit) (next sum) := by
  rw [keeps_quiet_bind, checked]
  have same := (checked_int_value checked).1
  constructor
  · intro kept
    rw [← same]
    exact kept whole rfl
  · intro kept value returned
    rw [← Except.ok.inj returned, same]
    exact kept

theorem keeps_payload_held (checked : checkedInt (contentLen + 2) = .ok whole)
    (inside : contentLen + 2 ≤ held.length) (within : body.length ≤ limit) :
    Keeps (· ≤ limit) (recvPayloadRecorded config contentLen stream body held) ↔
      body.length + contentLen.toNat ≤ limit := by
  rw [recvPayloadRecorded, keeps_checked checked, if_pos inside, keeps_quiet_bind]
  constructor
  · intro kept
    by_cases negative : contentLen < 0
    · omega
    · have appended : appendData body held contentLen =
          .ok (body ++ held.take contentLen.toNat) := if_neg negative
      have size := (keeps_after.mp (kept _ appended)).1 _ (List.mem_singleton_self _)
      rw [(append_data_length appended inside).2] at size
      exact size
  · intro fits after appended
    refine keeps_after.mpr ⟨?_, keeps_pure _ _⟩
    rw [List.forall_mem_singleton, (append_data_length appended inside).2]
    exact fits

theorem keeps_payload_left (room : 0 < config.buffSize) (connected : stream.connected = true)
    (checked : checkedInt (contentLen + 2) = .ok whole)
    (outside : ¬contentLen + 2 ≤ held.length) :
    Keeps (· ≤ limit) (recvPayloadRecorded config contentLen stream body held) ↔
      body.length + (held.length + min (contentLen - held.length + 2).toNat
        stream.incoming.length) ≤ limit := by
  rw [recvPayloadRecorded, keeps_checked checked, if_neg outside, keeps_after,
    List.forall_mem_singleton, List.length_append, keeps_bind]
  constructor
  · rintro ⟨first, read, _⟩
    have rest := (keeps_recv_left room _ connected (by omega)
      (by rw [List.length_append]; exact first)).mp read
    rw [List.length_append] at rest
    omega
  · intro fits
    have first : body.length + held.length ≤ limit := by omega
    refine ⟨first, (keeps_recv_left room _ connected (by omega)
      (by rw [List.length_append]; exact first)).mpr ?_, ?_⟩
    · rw [List.length_append]
      omega
    · intro read left
      rcases read with ⟨read, between⟩
      cases read with
      | none => exact keeps_pure _ _
      | some got =>
          rw [result_recv_left] at left
          have length := recv_left_whole _ connected left
          rw [List.length_append] at length
          dsimp only
          rw [keeps_quiet_bind]
          intro after dropped
          have shorter := drop_crlf_length dropped
          refine keeps_after.mpr ⟨?_, keeps_pure _ _⟩
          rw [List.forall_mem_singleton]
          omega

theorem keeps_payload (room : 0 < config.buffSize) (connected : stream.connected = true)
    (within : body.length ≤ limit) :
    Keeps (· ≤ limit) (recvPayloadRecorded config contentLen stream body held) ↔
      body.length + grown contentLen held.length stream.incoming.length ≤ limit := by
  cases checked : checkedInt (contentLen + 2) with
  | error fault =>
      rw [recvPayloadRecorded, keeps_quiet_bind, checked]
      constructor
      · intro _
        rw [checkedInt] at checked
        split at checked
        · cases checked
        · rename_i range
          rw [grown]
          split
          · exact within
          · rw [if_pos (by omega)]
            omega
      · intro _ value returned
        cases returned
  | ok whole =>
      have small := (checked_int_value checked).2
      by_cases inside : contentLen + 2 ≤ held.length
      · rw [grown_held inside small]
        exact keeps_payload_held checked inside within
      · rw [grown_left inside small]
        exact keeps_payload_left room connected checked inside

end Payloads

/-- The limit is kept by a response in the same ways. -/
structure ResponseLimited (limit : Nat) (machine : HttpClientMachine) (config : HttpConfig)
    (unzip : Unzip) (stream : SocketStream) : Prop where
  allocated : Keeps (· ≤ limit) (recvResponseRecorded machine config unzip stream)
  returned : ∀ response after, recvResponse machine config unzip stream =
    .ok (some response, after) → response.body.length ≤ limit
  refused : ∀ parser held between, recvResponseHead machine config (stream.incoming.length + 1)
    stream [] (HttpResponseParser.new machine) = .ok (some (parser, held), between) →
      limit < parser.getContentLength → ∀ response after,
        recvResponse machine config unzip stream ≠ .ok (some response, after)

def decodedBody (unzip : Unzip) (response : HttpResponse) (body : Str) : Str :=
  if body = [] then [] else decoded unzip (response.getHeader (ascii "content-encoding")) body

def BytesFit (limit : Nat) (unzip : Unzip) (announced : Nat) (response : HttpResponse)
    (bytes : Str) : Prop :=
  announced ≤ limit ∧ (decodedBody unzip response bytes).length ≤ limit

/-- All of a body is in the buffer, or the rest of it comes and its length, which `readFixSize`
returns, is positive as an `int`. -/
def BodyArrives (length : Int) (place : Place) : Prop :=
  length ≤ place.held.length ∨
    length ≤ place.bytes.length ∧ 0 < int32 (length - place.held.length).toNat

def PlainFits (limit : Nat) (unzip : Unzip) (place : Place) : Prop :=
  let announced := place.parser.getContentLength
  announced ≤ limit ∧ (BodyArrives (int64 announced) place →
    (decodedBody unzip place.parser.data
      (place.bytes.take (int64 announced).toNat)).length ≤ limit)

/-- The sizes behind every size line fit. All chunks have the length that stands in the copy of
the parser; if the copy has seen the last chunk, the first payload is the body. -/
def ChunksFit (limit : Nat) (machine : HttpClientMachine) (config : HttpConfig) (unzip : Unzip)
    (place : Place) : Prop :=
  let size := place.parser.parser.contentLen
  if place.parser.parser.chunksDone then
    ∀ behind, Place.SizeLine machine config true place behind →
      grown size behind.held.length behind.stream.incoming.length ≤ limit ∧
        (Place.HasPayload size behind →
          BytesFit limit unzip place.parser.getContentLength behind.parser.data
            (behind.bytes.take size.toNat))
  else ∀ count last behind, Place.ChunksOff machine config size count place last →
    Place.SizeLine machine config true last behind →
      count * size.toNat + grown size behind.held.length behind.stream.incoming.length ≤ limit

/-- Behind the head, if one arrives, the lengths fit that are announced, read and decoded. -/
def ResponseFits (limit : Nat) (machine : HttpClientMachine) (config : HttpConfig) (unzip : Unzip)
    (stream : SocketStream) : Prop :=
  ∀ parser held between, recvResponseHead machine config (stream.incoming.length + 1) stream []
    (HttpResponseParser.new machine) = .ok (some (parser, held), between) →
      if parser.parser.chunked then ChunksFit limit machine config unzip ⟨between, held, parser⟩
      else PlainFits limit unzip ⟨between, held, parser⟩

section Responses

variable {limit : Nat} {machine : HttpClientMachine} {config : HttpConfig} {unzip : Unzip}

theorem finished_body {parser : HttpResponseParser} (empty : parser.data.body = [])
    (unzip : Unzip) (body : Str) :
    (finishResponse unzip parser.data body).body = decodedBody unzip parser.data body := by
  rw [decodedBody]
  by_cases none : body = []
  · rw [if_pos none, finishResponse, if_pos none, HttpResponse.initConnection]
    split
    · exact empty
    · exact empty
  · rw [if_neg none, finish_response_body unzip parser.data none]

variable {clientParser : HttpClientParser} {stream between last : SocketStream}
  {body held behind whole rest : Str} {parser after : HttpResponseParser} {rounds : Nat}

theorem recv_chunks_round (rounds : Nat)
    (sized : recvChunkSize machine config (stream.incoming.length + 2) true stream held parser =
      .ok (some (after, behind), between))
    (taken : recvPayload config clientParser.contentLen between body behind =
      .ok (some (whole, rest), last)) :
    recvChunks machine config clientParser (rounds + 1) stream body held parser =
      if clientParser.chunksDone then .ok (some (after, whole), last)
      else recvChunks machine config clientParser rounds last whole rest after := by
  rw [recvChunks, sized, bind_ok]
  dsimp only
  rw [taken, bind_ok]

theorem recv_chunks_some {final : HttpResponseParser × Str}
    (received : recvChunks machine config clientParser (rounds + 1) stream body held parser =
      .ok (some final, last)) :
    ∃ after behind between whole rest next,
      recvChunkSize machine config (stream.incoming.length + 2) true stream held parser =
        .ok (some (after, behind), between) ∧
      recvPayload config clientParser.contentLen between body behind =
        .ok (some (whole, rest), next) := by
  rcases bind_eq_ok received with ⟨⟨size, between⟩, sized, more⟩
  cases size with
  | none => cases more
  | some size =>
      rcases bind_eq_ok more with ⟨⟨payload, next⟩, taken, checked⟩
      cases payload with
      | none => cases checked
      | some payload => exact ⟨_, _, _, _, _, _, sized, taken⟩

theorem keeps_chunks_round {limit : Nat} :
    Keeps (· ≤ limit)
        (recvChunksRecorded machine config clientParser (rounds + 1) stream body held parser) ↔
      ∀ after between behind, recvChunkSize machine config (stream.incoming.length + 2) true stream
          held parser = .ok (some (after, behind), between) →
        Keeps (· ≤ limit)
          (recvPayloadRecorded config clientParser.contentLen between body behind) ∧
        ∀ whole rest last, recvPayload config clientParser.contentLen between body behind =
            .ok (some (whole, rest), last) → clientParser.chunksDone = false →
          Keeps (· ≤ limit)
            (recvChunksRecorded machine config clientParser rounds last whole rest after) := by
  rw [recvChunksRecorded, keeps_quiet_bind]
  constructor
  · intro kept after between behind sized
    have payload := keeps_bind.mp (kept _ sized)
    refine ⟨payload.1, ?_⟩
    intro whole rest last taken pending
    have goesOn := payload.2 (some (whole, rest), last) (by rw [result_recv_payload]; exact taken)
    dsimp only at goesOn
    rw [pending] at goesOn
    exact goesOn
  · intro kept value sized
    rcases value with ⟨size, between⟩
    cases size with
    | none => exact keeps_pure _ _
    | some size =>
        rcases size with ⟨after, behind⟩
        have round := kept after between behind sized
        refine keeps_bind.mpr ⟨round.1, ?_⟩
        intro value taken
        rw [result_recv_payload] at taken
        rcases value with ⟨payload, last⟩
        cases payload with
        | none => exact keeps_pure _ _
        | some payload =>
            dsimp only
            cases done : clientParser.chunksDone with
            | true => exact keeps_pure _ _
            | false => exact round.2 payload.1 payload.2 last taken done

theorem payload_grown {size : Int} {place : Place} (payload : Place.HasPayload size place) :
    size.toNat ≤ grown size place.held.length place.stream.incoming.length := by
  obtain ⟨nonneg, narrow, there⟩ := payload
  rw [place.bytes_length] at there
  by_cases inside : size + 2 ≤ place.held.length
  · rw [grown_held inside narrow]
  · rw [grown_left inside narrow]
    omega

theorem payload_length {size : Int} {place : Place} (payload : Place.HasPayload size place)
    (body : Str) : (body ++ place.bytes.take size.toNat).length = body.length + size.toNat := by
  have there := payload.there
  rw [List.length_append, List.length_take]
  omega

/-- With a copy that has not seen the last chunk, the body grows chunk by chunk. -/
theorem keeps_chunks_iff (room : 0 < config.buffSize) (pending : clientParser.chunksDone = false)
    (rounds : Nat) :
    ∀ {place : Place} {body : Str}, place.stream.connected = true →
      place.bytes.length < rounds → (body = [] ∨ 0 ≤ clientParser.contentLen) →
      body.length ≤ limit →
      (Keeps (· ≤ limit) (recvChunksRecorded machine config clientParser rounds place.stream body
          place.held place.parser) ↔
        ∀ count last behind,
          Place.ChunksOff machine config clientParser.contentLen count place last →
          Place.SizeLine machine config true last behind →
            body.length + (count * clientParser.contentLen.toNat +
              grown clientParser.contentLen behind.held.length
                behind.stream.incoming.length) ≤ limit) := by
  induction rounds with
  | zero =>
      intro place body _ enough
      exact absurd enough (Nat.not_lt_zero _)
  | succ rounds induction =>
      intro place body connected enough start within
      have later : ∀ {behind : Place}, Place.SizeLine machine config true place behind →
          Place.HasPayload clientParser.contentLen behind →
          body.length + grown clientParser.contentLen behind.held.length
            behind.stream.incoming.length ≤ limit →
          (Keeps (· ≤ limit) (recvChunksRecorded machine config clientParser rounds
              (behind.skip (clientParser.contentLen + 2).toNat).stream
              (body ++ behind.bytes.take clientParser.contentLen.toNat)
              (behind.skip (clientParser.contentLen + 2).toNat).held behind.parser) ↔
            ∀ count last next, Place.ChunksOff machine config clientParser.contentLen count
                (behind.skip (clientParser.contentLen + 2).toNat) last →
              Place.SizeLine machine config true last next →
              body.length + clientParser.contentLen.toNat +
                (count * clientParser.contentLen.toNat + grown clientParser.contentLen
                  next.held.length next.stream.incoming.length) ≤ limit) := by
        intro behind line payload fits
        have left := Place.size_line_left line
        have more := payload_grown payload
        have length := payload_length payload body
        have shorter : (behind.skip (clientParser.contentLen + 2).toNat).bytes.length < rounds := by
          have nonneg := payload.nonneg
          have there := payload.there
          rw [Place.skip_bytes, List.length_drop]
          omega
        have rest := @induction (behind.skip (clientParser.contentLen + 2).toNat)
          (body ++ behind.bytes.take clientParser.contentLen.toNat) (left.2.trans connected)
          shorter (.inr payload.nonneg) (by omega)
        rw [length] at rest
        exact rest
      rw [keeps_chunks_round]
      constructor
      · intro kept count last next off line
        cases off with
        | none =>
            have open_ := (Place.size_line_left line).2.trans connected
            have round := kept _ _ _ ((Place.recv_chunk_size_iff connected).mpr line)
            have fits := (keeps_payload room open_ within).mp round.1
            omega
        | @chunk count _ behind _ first payload others =>
            have open_ := (Place.size_line_left first).2.trans connected
            have round := kept _ _ _ ((Place.recv_chunk_size_iff connected).mpr first)
            have fits := (keeps_payload room open_ within).mp round.1
            have taken := Place.recv_payload_takes room open_ payload body
            have all := (later first payload fits).mp (round.2 _ _ _ taken pending) count last next
              others line
            have sum : (count + 1) * clientParser.contentLen.toNat =
              count * clientParser.contentLen.toNat + clientParser.contentLen.toNat :=
                Nat.succ_mul _ _
            omega
      · intro fits after between held sized
        let behind : Place := ⟨between, held, after⟩
        have line : Place.SizeLine machine config true place behind :=
          (Place.recv_chunk_size_iff connected).mp sized
        have open_ := (Place.size_line_left line).2.trans connected
        have first := fits 0 place behind (.none place) line
        rw [Nat.zero_mul, Nat.zero_add] at first
        refine ⟨(keeps_payload room open_ within).mpr first, ?_⟩
        intro whole rest last received _
        have payload : Place.HasPayload clientParser.contentLen behind :=
          Place.payload_of_recv open_ start received
        rw [Place.recv_payload_takes room open_ payload body] at received
        obtain ⟨same, rfl⟩ := Prod.mk.inj (Except.ok.inj received)
        obtain ⟨rfl, rfl⟩ := Prod.mk.inj (Option.some.inj same)
        apply (later line payload first).mpr
        intro count final next others after
        have all := fits (count + 1) final next (.chunk line payload others) after
        have sum : (count + 1) * clientParser.contentLen.toNat =
          count * clientParser.contentLen.toNat + clientParser.contentLen.toNat := Nat.succ_mul _ _
        omega

/-- With a copy that has seen the last chunk there is one round. -/
theorem last_chunk_iff (room : 0 < config.buffSize) (done : clientParser.chunksDone = true)
    (rounds : Nat) {place : Place} (connected : place.stream.connected = true)
    {Fine : HttpResponseParser → Str → Prop} :
    (Keeps (· ≤ limit) (recvChunksRecorded machine config clientParser (rounds + 1) place.stream []
          place.held place.parser) ∧
        ∀ after whole last, recvChunks machine config clientParser (rounds + 1) place.stream []
          place.held place.parser = .ok (some (after, whole), last) → Fine after whole) ↔
      ∀ behind, Place.SizeLine machine config true place behind →
        grown clientParser.contentLen behind.held.length behind.stream.incoming.length ≤ limit ∧
          (Place.HasPayload clientParser.contentLen behind →
            Fine behind.parser (behind.bytes.take clientParser.contentLen.toNat)) := by
  have empty : ([] : Str).length ≤ limit := Nat.zero_le limit
  rw [keeps_chunks_round]
  constructor
  · rintro ⟨kept, returned⟩ behind line
    have open_ := (Place.size_line_left line).2.trans connected
    have sized := (Place.recv_chunk_size_iff connected).mpr line
    have fits := (keeps_payload room open_ empty).mp (kept _ _ _ sized).1
    rw [List.length_nil, Nat.zero_add] at fits
    refine ⟨fits, ?_⟩
    intro payload
    have taken := Place.recv_payload_takes room open_ payload []
    have round := recv_chunks_round rounds sized taken
    rw [done, if_pos rfl] at round
    exact returned _ _ _ round
  · intro fits
    constructor
    · intro after between held sized
      let behind : Place := ⟨between, held, after⟩
      have line : Place.SizeLine machine config true place behind :=
        (Place.recv_chunk_size_iff connected).mp sized
      have open_ := (Place.size_line_left line).2.trans connected
      refine ⟨(keeps_payload room open_ empty).mpr ?_, ?_⟩
      · rw [List.length_nil, Nat.zero_add]
        exact (fits behind line).1
      · intro _ _ _ _ pending
        rw [done] at pending
        cases pending
    · intro final whole last received
      rcases recv_chunks_some received with ⟨after, held, between, grown, rest, next, sized, taken⟩
      let behind : Place := ⟨between, held, after⟩
      have line : Place.SizeLine machine config true place behind :=
        (Place.recv_chunk_size_iff connected).mp sized
      have open_ := (Place.size_line_left line).2.trans connected
      have payload : Place.HasPayload clientParser.contentLen behind :=
        Place.payload_of_recv open_ (.inl rfl) taken
      rw [recv_chunks_round rounds sized (Place.recv_payload_takes room open_ payload []), done,
        if_pos rfl] at received
      cases received
      exact (fits behind line).2 payload

/-- The loop over the chunks keeps the limit exactly when the sizes on the wire fit. -/
theorem chunks_fit_iff (room : 0 < config.buffSize) (place : Place)
    (connected : place.stream.connected = true) :
    (Keeps (· ≤ limit) (recvChunksRecorded machine config place.parser.parser
          (place.bytes.length + 1) place.stream [] place.held place.parser) ∧
        ∀ after whole last, recvChunks machine config place.parser.parser
          (place.bytes.length + 1) place.stream [] place.held place.parser =
            .ok (some (after, whole), last) →
          BytesFit limit unzip place.parser.getContentLength after.data whole) ↔
      ChunksFit limit machine config unzip place := by
  rw [ChunksFit]
  cases done : place.parser.parser.chunksDone with
  | true =>
      rw [if_pos rfl]
      exact last_chunk_iff room done _ connected
  | false =>
      have never : ∀ result after, recvChunks machine config place.parser.parser
          (place.bytes.length + 1) place.stream [] place.held place.parser ≠
            .ok (some result, after) := recv_chunks_never config done _ _ _ _ _
      have empty : ([] : Str).length ≤ limit := Nat.zero_le limit
      rw [if_neg Bool.false_ne_true,
        keeps_chunks_iff room done (place.bytes.length + 1) connected (Nat.lt_succ_self _) (.inl rfl)
          empty]
      simp only [List.length_nil, Nat.zero_add]
      exact ⟨And.left, fun fits => ⟨fits, fun after whole last received =>
        absurd received (never _ _)⟩⟩

/-- `readFixSize` returns something positive only when all of it came. -/
theorem read_fix_loop_there (config : HttpConfig) (length : Nat) (rounds : Nat) :
    ∀ {stream after : SocketStream} {buffer bytes : Str} {left : Nat} {rt : Int},
      stream.connected = true →
      SocketStream.readFixLoop config length rounds stream buffer left = .ok (rt, bytes, after) →
      0 < rt → left ≤ stream.incoming.length := by
  induction rounds with
  | zero =>
      intro stream after buffer bytes left rt _ read _
      rw [SocketStream.readFixLoop] at read
      split at read
      · cases read
      · omega
  | succ rounds induction =>
      intro stream after buffer bytes left rt connected read positive
      rw [SocketStream.readFixLoop] at read
      split at read
      · have within := stream.arriving_le (min left config.maxLen)
        rw [SocketStream.read_open connected] at read
        dsimp only at read
        split at read
        · cases read
          exact absurd positive (Int.lt_irrefl 0)
        · have rest := @induction (stream.advance _) _ _ _ _ _ connected read positive
          rw [SocketStream.advance_incoming, List.length_drop, List.length_take] at rest
          omega
      · omega

/-- A body that is not chunked is what is announced, when it arrives. -/
theorem recv_plain_body_iff (config : HttpConfig) {place : Place}
    (connected : place.stream.connected = true) {body : Str} :
    (∃ last, recvPlainBody config place.parser place.held place.stream =
        .ok (some body, last)) ↔
      BodyArrives (int64 place.parser.getContentLength) place ∧
        body = place.bytes.take (int64 place.parser.getContentLength).toNat := by
  rw [recvPlainBody, BodyArrives]
  generalize int64 place.parser.getContentLength = length
  dsimp only
  by_cases some : 0 < length
  · rw [if_pos some]
    by_cases rest : 0 < length - place.held.length
    · have outside : ¬length ≤ place.held.length := by omega
      have behind : length.toNat - place.held.length = (length - place.held.length).toNat := by
        omega
      rw [if_pos rest, place.bytes_length, Place.bytes, List.take_append, behind]
      constructor
      · rintro ⟨last, received⟩
        rcases bind_eq_ok received with ⟨⟨rt, bytes, next⟩, read, checked⟩
        dsimp only at checked
        split at checked
        · cases checked
        · rename_i positive
          have there := read_fix_loop_there _ _ _ connected read (by omega)
          rw [SocketStream.read_fix_size_takes config connected there] at read
          obtain ⟨returned, same⟩ := Prod.mk.inj (Except.ok.inj read)
          have bytes := Option.some.inj (congrArg Prod.fst (Except.ok.inj checked))
          rw [← (Prod.mk.inj same).1] at bytes
          exact ⟨.inr ⟨by omega, by omega⟩, bytes.symm⟩
      · rintro ⟨arrives, rfl⟩
        obtain ⟨there, positive⟩ := arrives.resolve_left outside
        have rest : (length - place.held.length).toNat ≤ place.stream.incoming.length := by omega
        rw [SocketStream.read_fix_size_takes config connected rest, bind_ok]
        dsimp only
        rw [if_neg (Int.not_le.mpr positive)]
        exact ⟨_, rfl⟩
    · rw [if_neg rest, Place.bytes, List.take_append_of_le_length (by omega)]
      constructor
      · rintro ⟨last, received⟩
        cases received
        exact ⟨.inl (by omega), rfl⟩
      · rintro ⟨_, rfl⟩
        exact ⟨_, rfl⟩
  · have none : length.toNat = 0 := by omega
    rw [if_neg some, none, List.take_zero]
    constructor
    · rintro ⟨last, received⟩
      cases received
      exact ⟨.inl (by omega), rfl⟩
    · rintro ⟨_, rfl⟩
      exact ⟨_, rfl⟩

theorem plain_fits_iff (config : HttpConfig) (place : Place)
    (connected : place.stream.connected = true) :
    (place.parser.getContentLength ≤ limit ∧ ∀ body last,
      recvPlainBody config place.parser place.held place.stream = .ok (some body, last) →
        BytesFit limit unzip place.parser.getContentLength place.parser.data body) ↔
      PlainFits limit unzip place := by
  constructor
  · rintro ⟨fits, returned⟩
    refine ⟨fits, ?_⟩
    intro arrives
    obtain ⟨last, received⟩ := (recv_plain_body_iff config connected).mpr ⟨arrives, rfl⟩
    exact (returned _ last received).2
  · rintro ⟨fits, bytes⟩
    refine ⟨fits, ?_⟩
    intro body last received
    obtain ⟨arrives, same⟩ := (recv_plain_body_iff config connected).mp ⟨last, received⟩
    rw [same]
    exact ⟨fits, bytes arrives⟩

theorem recv_response_some {response : HttpResponse}
    (received : recvResponse machine config unzip stream = .ok (some response, last)) :
    ∃ parser held between, recvResponseHead machine config (stream.incoming.length + 1) stream []
        (HttpResponseParser.new machine) = .ok (some (parser, held), between) ∧
      ((parser.parser.chunked = true ∧ ∃ after body next,
          recvChunks machine config parser.parser (held.length + between.incoming.length + 1)
            between [] held parser = .ok (some (after, body), next) ∧
          response = finishResponse unzip after.data body) ∨
        parser.parser.chunked = false ∧ ∃ body next,
          recvPlainBody config parser held between = .ok (some body, next) ∧
          response = finishResponse unzip parser.data body) := by
  rcases bind_eq_ok received with ⟨⟨head, between⟩, headed, more⟩
  cases head with
  | none => cases more
  | some head =>
      rcases head with ⟨parser, held⟩
      refine ⟨parser, held, between, headed, ?_⟩
      dsimp only at more
      cases chunked : parser.parser.chunked with
      | true =>
          rw [chunked, if_pos rfl] at more
          rcases bind_eq_ok more with ⟨⟨result, next⟩, ran, finished⟩
          cases result with
          | none => cases finished
          | some result =>
              cases finished
              exact Or.inl ⟨rfl, _, _, _, ran, rfl⟩
      | false =>
          rw [chunked, if_neg Bool.false_ne_true] at more
          rcases bind_eq_ok more with ⟨⟨result, next⟩, ran, finished⟩
          cases result with
          | none => cases finished
          | some result =>
              cases finished
              exact Or.inr ⟨rfl, _, _, ran, rfl⟩

theorem recv_chunks_body (rounds : Nat) :
    ∀ {stream last : SocketStream} {body held whole : Str} {parser after : HttpResponseParser},
      recvChunks machine config clientParser rounds stream body held parser =
        .ok (some (after, whole), last) → after.data.body = parser.data.body := by
  induction rounds with
  | zero =>
      intro stream last body held whole parser after received
      cases received
  | succ rounds induction =>
      intro stream last body held whole parser after received
      rcases recv_chunks_some received with ⟨next, _, _, _, _, _, sized, taken⟩
      have kept := (recv_chunk_size_left _ sized).1
      rw [recv_chunks_round rounds sized taken] at received
      split at received
      · cases received
        exact kept
      · exact (induction received).trans kept

theorem limited_returns (limited : ResponseLimited limit machine config unzip stream)
    (headed : recvResponseHead machine config (stream.incoming.length + 1) stream []
      (HttpResponseParser.new machine) = .ok (some (parser, held), between))
    (empty : after.data.body = [])
    (received : recvResponse machine config unzip stream =
      .ok (some (finishResponse unzip after.data whole), last)) :
    BytesFit limit unzip parser.getContentLength after.data whole := by
  constructor
  · by_cases fits : parser.getContentLength ≤ limit
    · exact fits
    · exact absurd received (limited.refused parser held between headed (by omega) _ _)
  · rw [← finished_body empty]
    exact limited.returned _ _ received

theorem limited_response_fits (limited : ResponseLimited limit machine config unzip stream) :
    ResponseFits limit machine config unzip stream := by
  intro parser held between headed
  rcases recv_response_head_left _ headed with ⟨empty, connected, room⟩
  let place : Place := ⟨between, held, parser⟩
  have kept := limited.allocated
  rw [recvResponseRecorded, keeps_quiet_bind] at kept
  have kept := kept _ headed
  dsimp only at kept
  cases chunked : parser.parser.chunked with
  | true =>
      rw [chunked, if_pos rfl, ← place.bytes_length] at kept
      rw [if_pos rfl]
      apply (chunks_fit_iff room place connected).mp
      refine ⟨(keeps_bind.mp kept).1, ?_⟩
      intro after whole last received
      apply limited_returns limited headed ((recv_chunks_body _ received).trans empty)
      rw [recvResponse, headed, bind_ok]
      dsimp only
      rw [chunked, if_pos rfl, ← place.bytes_length, received, bind_ok]
  | false =>
      rw [chunked, if_neg Bool.false_ne_true] at kept
      rw [if_neg Bool.false_ne_true]
      apply (plain_fits_iff config place connected).mp
      have returns : ∀ body last, recvPlainBody config parser held between =
          .ok (some body, last) →
            BytesFit limit unzip parser.getContentLength parser.data body := by
        intro body last received
        apply limited_returns limited headed empty
        rw [recvResponse, headed, bind_ok]
        dsimp only
        rw [chunked, if_neg Bool.false_ne_true, received, bind_ok]
      refine ⟨?_, returns⟩
      by_cases some : 0 < int64 parser.getContentLength
      · have exact : (int64 parser.getContentLength).toNat = parser.getContentLength := by
          have small := int64_positive some (announced_lt (parser.data.toHttpMessage.find _))
          omega
        have plain := (keeps_bind.mp kept).1
        rw [recvPlainBodyRecorded] at plain
        have size := (keeps_after.mp plain).1 (int64 parser.getContentLength).toNat (by simp [some])
        change parser.getContentLength ≤ limit
        omega
      · have received : recvPlainBody config parser held between =
            .ok (Option.some [], between) := by
          rw [recvPlainBody]
          exact if_neg some
        exact (returns [] between received).1

theorem fits_returned (fits : ResponseFits limit machine config unzip stream)
    {response : HttpResponse} {last : SocketStream}
    (received : recvResponse machine config unzip stream = .ok (some response, last)) :
    ∃ parser held between, recvResponseHead machine config (stream.incoming.length + 1) stream []
        (HttpResponseParser.new machine) = .ok (some (parser, held), between) ∧
      parser.getContentLength ≤ limit ∧ response.body.length ≤ limit := by
  rcases recv_response_some received with ⟨parser, held, between, headed, ways⟩
  rcases recv_response_head_left _ headed with ⟨empty, connected, room⟩
  let place : Place := ⟨between, held, parser⟩
  have now := fits parser held between headed
  refine ⟨parser, held, between, headed, ?_⟩
  rcases ways with ⟨chunked, after, body, next, ran, same⟩ | ⟨plain, body, next, ran, same⟩
  · rw [chunked, if_pos rfl] at now
    rw [← place.bytes_length] at ran
    rw [same, finished_body ((recv_chunks_body _ ran).trans empty)]
    exact ((chunks_fit_iff room place connected).mpr now).2 after body next ran
  · rw [plain, if_neg Bool.false_ne_true] at now
    rw [same, finished_body empty]
    exact ((plain_fits_iff config place connected).mpr now).2 body next ran

theorem fits_allocated (fits : ResponseFits limit machine config unzip stream) :
    Keeps (· ≤ limit) (recvResponseRecorded machine config unzip stream) := by
  rw [recvResponseRecorded, keeps_quiet_bind]
  intro value headed
  rcases value with ⟨head, between⟩
  cases head with
  | none => exact keeps_pure _ _
  | some head =>
      rcases head with ⟨parser, held⟩
      rcases recv_response_head_left _ headed with ⟨_, connected, room⟩
      let place : Place := ⟨between, held, parser⟩
      have now := fits parser held between headed
      dsimp only
      cases chunked : parser.parser.chunked with
      | true =>
          rw [chunked, if_pos rfl] at now
          rw [if_pos rfl]
          refine keeps_bind.mpr ⟨?_, ?_⟩
          · rw [← place.bytes_length]
            exact ((chunks_fit_iff room place connected).mpr now).1
          · intro value _
            rcases value with ⟨result, next⟩
            cases result with
            | none => exact keeps_pure _ _
            | some result => exact keeps_pure _ _
      | false =>
          rw [chunked, if_neg Bool.false_ne_true] at now
          rw [if_neg Bool.false_ne_true]
          refine keeps_bind.mpr ⟨?_, ?_⟩
          · have most := int64_to_nat_le parser.getContentLength
            rw [recvPlainBodyRecorded]
            refine keeps_after.mpr ⟨?_, keeps_quiet _ _⟩
            intro size member
            split at member
            · rw [List.mem_singleton.mp member]
              exact Nat.le_trans most now.1
            · cases member
          · intro value _
            rcases value with ⟨result, next⟩
            cases result with
            | none => exact keeps_pure _ _
            | some result => exact keeps_pure _ _

theorem fits_response_limited (fits : ResponseFits limit machine config unzip stream) :
    ResponseLimited limit machine config unzip stream := by
  constructor
  case allocated => exact fits_allocated fits
  case returned =>
    intro response last received
    rcases fits_returned fits received with ⟨_, _, _, _, _, within⟩
    exact within
  case refused =>
    intro parser held between headed more response last received
    rcases fits_returned fits received with ⟨other, _, _, same, within, _⟩
    rw [headed] at same
    cases same
    omega

end Responses

/-- The limits are kept exactly as far as the peers keep them. -/
theorem body_limit_iff (limit : Nat) (config : HttpConfig) (stream : SocketStream) :
    (∀ (machine : HttpMachine) (queryStart : Nat),
      RequestLimited limit machine config queryStart stream ↔
        RequestFits limit machine config queryStart stream) ∧
    ∀ (machine : HttpClientMachine) (unzip : Unzip),
      ResponseLimited limit machine config unzip stream ↔
        ResponseFits limit machine config unzip stream :=
  ⟨fun machine queryStart => request_limited_iff limit machine config queryStart stream,
    fun _ _ => ⟨limited_response_fits, fits_response_limited⟩⟩

def announcing (line length : String) : SocketStream where
  connected := true
  incoming := ascii line ++ ascii "\r\nContent-Length: " ++ ascii length ++ ascii "\r\n\r\nG"
  ready := fun _ => 4095
  outgoing := []

def announced {Parser : Type} (length : Parser → Nat)
    (result : Result (Option (Parser × Str) × SocketStream)) : Option Nat :=
  match result with
  | .ok (some (parser, _), _) => some (length parser)
  | _ => none

theorem announced_some {Parser : Type} {length : Parser → Nat}
    {result : Result (Option (Parser × Str) × SocketStream)} {value : Nat}
    (read : announced length result = some value) :
    ∃ parser held between, result = .ok (some (parser, held), between) ∧
      length parser = value := by
  unfold announced at read
  split at read
  · exact ⟨_, _, _, rfl, Option.some.inj read⟩
  · cases read

/-- A byte more than 64 MiB, and a length that is negative as an `int64_t`. -/
theorem body_above_limit :
    ¬RequestLimited (64 * 1024 * 1024) originForm defaultConfig 0
      (announcing "PUT / HTTP/1.1" "67108865") ∧
    ¬RequestLimited (64 * 1024 * 1024) originForm defaultConfig 0
      (announcing "PUT / HTTP/1.1" "9223372036854775808") ∧
    ¬ResponseLimited (64 * 1024 * 1024) lengthForm defaultConfig ⟨id, id⟩
      (announcing "HTTP/1.1 200 OK" "67108865") := by
  have request : ∀ {value : Nat} {stream : SocketStream}, 64 * 1024 * 1024 < value →
      announced HttpRequestParser.getContentLength (recvHead originForm defaultConfig
        (stream.incoming.length + 1) stream [] (HttpRequestParser.new originForm 0)) = some value →
      ¬RequestLimited (64 * 1024 * 1024) originForm defaultConfig 0 stream := by
    intro value stream above read limited
    rcases announced_some read with ⟨parser, held, between, head, same⟩
    have fits := (request_limited_iff _ _ _ _ _).mp limited parser held between head
    omega
  refine ⟨?_, ?_, ?_⟩
  · apply @request 67108865
    · decide
    · decide +kernel
  · apply @request 9223372036854775808
    · decide
    · decide +kernel
  · intro limited
    have read : announced (fun parser => if parser.parser.chunked then 0
        else parser.getContentLength) (recvResponseHead lengthForm defaultConfig
          ((announcing "HTTP/1.1 200 OK" "67108865").incoming.length + 1)
          (announcing "HTTP/1.1 200 OK" "67108865") [] (HttpResponseParser.new lengthForm)) =
        some 67108865 := by decide +kernel
    rcases announced_some read with ⟨parser, held, between, head, same⟩
    have fits := limited_response_fits limited parser held between head
    cases chunked : parser.parser.chunked with
    | true =>
        rw [chunked, if_pos rfl] at same
        cases same
    | false =>
        rw [chunked, if_neg Bool.false_ne_true] at same fits
        have within : parser.getContentLength ≤ 64 * 1024 * 1024 := fits.1
        omega

end ChatServer.Http
