import ChatServer.Http2.ServerStreams

/-!
# Requests of a client

A request is one HEADERS frame and the DATA frames behind it. The message it stands for has the
payloads of the DATA frames as its body, and for every name the last value in the decoded header
list.
-/

namespace ChatServer.Http2

set_option autoImplicit false

/-- `m_headers` at a key. -/
def HttpMessage.find (message : HttpMessage) (key : Str) : Option Str :=
  (message.headers.find? fun entry => sameKey entry.1 key).map Prod.snd

def lastValue (fields : List HeaderField) (key : Str) : Option Str :=
  (fields.reverse.find? fun field => sameKey field.name key).map HeaderField.value

theorem same_key_left {first second : Str} (same : sameKey first second = true) (third : Str) :
    sameKey first third = sameKey second third := by
  unfold sameKey at *
  rw [of_decide_eq_true same]

theorem same_key_right {first second : Str} (same : sameKey first second = true) (third : Str) :
    sameKey third first = sameKey third second := by
  unfold sameKey at *
  rw [of_decide_eq_true same]

/-- Overwriting a name leaves the values of the others. -/
theorem find_other {name key : Str} (different : sameKey name key = false) (value : Str)
    (entries : List (Str × Str)) :
    ((entries.map fun entry => if sameKey entry.1 name then (entry.1, value) else entry).find?
        fun entry => sameKey entry.1 key).map Prod.snd =
      (entries.find? fun entry => sameKey entry.1 key).map Prod.snd := by
  induction entries with
  | nil => rfl
  | cons entry rest induction =>
      rw [List.map_cons, List.find?_cons, List.find?_cons]
      cases own : sameKey entry.1 name with
      | true =>
          have skipped : sameKey entry.1 key = false := (same_key_left own key).trans different
          simpa [skipped] using induction
      | false =>
          cases found : sameKey entry.1 key with
          | true => simp [found]
          | false => simpa [found] using induction

theorem find_overwritten {name key : Str} (same : sameKey name key = true) (value : Str)
    {entries : List (Str × Str)} (present : entries.any (fun entry => sameKey entry.1 name) = true) :
    ((entries.map fun entry => if sameKey entry.1 name then (entry.1, value) else entry).find?
        fun entry => sameKey entry.1 key).map Prod.snd = some value := by
  induction entries with
  | nil => cases present
  | cons entry rest induction =>
      have both := same_key_right same entry.1
      rw [List.map_cons, List.find?_cons]
      cases own : sameKey entry.1 name with
      | true => simp [← both, own]
      | false =>
          rw [List.any_cons, own, Bool.false_or] at present
          simpa [← both, own] using induction present

theorem set_header_find (message : HttpMessage) (name value key : Str) :
    (message.setHeader name value).find key =
      if sameKey name key then some value else message.find key := by
  unfold HttpMessage.setHeader HttpMessage.find
  cases present : message.headers.any (fun entry => sameKey entry.1 name) with
  | true =>
      rw [if_pos rfl]
      cases same : sameKey name key with
      | true => exact find_overwritten same value present
      | false => exact find_other same value message.headers
  | false =>
      rw [if_neg (by decide), List.find?_append]
      cases same : sameKey name key with
      | true =>
          have absent : message.headers.find? (fun entry => sameKey entry.1 key) = none := by
            rw [List.find?_eq_none]
            intro entry member found
            rw [← same_key_right same] at found
            have missing := List.any_eq_false.mp present entry member
            exact missing found
          simp [absent, same]
      | false => simp [same]

/-- `setHeader` for every field, the last value wins. -/
theorem set_headers_find (fields : List HeaderField) (key : Str) : ∀ message : HttpMessage,
    (fields.foldl (fun message i => message.setHeader i.name i.value) message).find key =
      (lastValue fields key).or (message.find key) := by
  induction fields with
  | nil => exact fun _ => rfl
  | cons field rest induction =>
      intro message
      rw [List.foldl_cons, induction, set_header_find]
      unfold lastValue
      rw [List.reverse_cons, List.find?_append]
      cases rest.reverse.find? fun field => sameKey field.name key with
      | some last => rfl
      | none =>
          cases same : sameKey field.name key with
          | true => simp [same]
          | false => simp [same]

theorem set_headers_body (fields : List HeaderField) : ∀ message : HttpMessage,
    (fields.foldl (fun message i => message.setHeader i.name i.value) message).body =
      message.body := by
  induction fields with
  | nil => exact fun _ => rfl
  | cons field rest induction =>
      intro message
      rw [List.foldl_cons, induction]
      unfold HttpMessage.setHeader
      split_ifs <;> rfl

def Frame.parts (frame : Frame) : List DataFrame :=
  match frame.data with
  | some (.data data) => [data]
  | _ => []

def payloads (frames : List Frame) : List DataFrame := frames.flatMap Frame.parts

/-- One HEADERS frame with END_HEADERS, any number of DATA frames, and END_STREAM on the last
frame only. -/
structure Request where
  id : UInt32
  opening : Frame
  rest : List Frame
  nonzero : id ≠ 0
  opens : opening.wellTyped = true ∧ frameType opening.header.type = some .headers ∧
    opening.header.flags &&& flagEndHeaders ≠ 0
  carries : ∀ frame ∈ rest, frame.wellTyped = true ∧ frameType frame.header.type = some .data
  named : ∀ frame ∈ opening :: rest, frame.header.streamId = id
  ends : (opening :: rest).map Frame.endsStream = List.replicate rest.length false ++ [true]

def Request.frames (request : Request) : List Frame := request.opening :: request.rest

/-- The message made of a header list and payloads. -/
def message (fields : List HeaderField) (parts : List DataFrame) : HttpMessage :=
  fields.foldl (fun message i => message.setHeader i.name i.value)
    { body := parts.flatMap DataFrame.data }

theorem message_body (fields : List HeaderField) (parts : List DataFrame) :
    (message fields parts).body = parts.flatMap DataFrame.data := set_headers_body fields _

theorem message_find (fields : List HeaderField) (parts : List DataFrame) (key : Str) :
    (message fields parts).find key = lastValue fields key := by
  unfold message
  rw [set_headers_find]
  exact Option.or_none

end ChatServer.Http2
