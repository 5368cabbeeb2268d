import ChatServer.Http.Dump

/-!
# Messages that tell where they end

Texts that make one line each tell nothing about the length of a body but by a content-length
header. Every plain request is read back whole, a plain response when its header fits its body.
-/

namespace ChatServer.Http

set_option autoImplicit false

open ChatServer.Http2 (ascii cString toLower sameKey)

/-- A line that does not begin with the name is none. -/
theorem content_length_other {line front : Str} {byte : UInt8} (begins : front <+: line)
    (uncolon : 58 ∉ front) (inside : byte ∈ front)
    (foreign : toLower byte ∉ ascii "content-length") : contentLength line = none := by
  rcases begins with ⟨rest, same⟩
  have name : line.takeWhile (· ≠ 58) = front ++ rest.takeWhile (· ≠ 58) := by
    rw [← same]
    apply List.takeWhile_append_of_pos
    intro symbol member
    rw [decide_eq_true_eq]
    intro colon
    rw [colon] at member
    exact uncolon member
  rw [contentLength, name]
  apply if_neg
  intro named
  apply foreign
  rw [← named.1]
  exact List.mem_map_of_mem (List.mem_append_left _ inside)

theorem other_line {text : Str} (front : Str) (byte : UInt8) (unended : 10 ∉ text)
    (begins : front <+: text) (uncolon : 58 ∉ front) (inside : byte ∈ front)
    (foreign : toLower byte ∉ ascii "content-length") :
    [] ∉ crlf.lines [] (text ++ crlf.newline) ∧
      lengths (crlf.lines [] (text ++ crlf.newline)) = [] := by
  have one : crlf.lines [] (text ++ crlf.newline) = [text] := LineEnd.lines_single unended
  rw [one]
  constructor
  · rw [List.mem_singleton]
    intro bare
    rw [← bare] at begins
    exact absurd (begins.subset inside) List.not_mem_nil
  · rw [lengths, List.filterMap_cons, content_length_other begins uncolon inside foreign]
    rfl

theorem decimal_no_feed (value : Nat) : 10 ∉ decimal value := by
  intro feed
  exact absurd (decimal_digit feed).1 (by decide)

theorem version_no_feed (version : UInt8) : 10 ∉ versionText version := by
  simp only [versionText, List.mem_append, not_or]
  exact ⟨⟨⟨by decide, decimal_no_feed _⟩, by decide⟩, decimal_no_feed _⟩

theorem method_to_string_plain (m : HttpMethod) :
    58 ∉ httpMethodToString m ∧ 10 ∉ httpMethodToString m := by
  have table : ∀ entry ∈ httpMethodMap, (58 : UInt8) ∉ entry.2 ∧ (10 : UInt8) ∉ entry.2 := by
    decide
  rw [httpMethodToString]
  split
  · rename_i entry found
    exact table entry (List.mem_of_find?_eq_some found)
  · decide

theorem status_to_string_no_feed (s : Int) : 10 ∉ httpStatusToString s := by
  have table : ∀ entry ∈ httpStatusMap, (10 : UInt8) ∉ entry.2 := by decide +kernel
  rw [httpStatusToString]
  split
  · rename_i entry found
    exact table entry (List.mem_of_find?_eq_some found)
  · decide

/-- A header without line ends whose key is a C string without a colon. -/
structure PlainHeader (entry : Str × Str) : Prop where
  unended : 0 ∉ entry.1
  uncolon : 58 ∉ entry.1
  key : 10 ∉ entry.1
  value : 10 ∉ entry.2

variable {entry : Str × Str}

theorem header_line_lines (plain : PlainHeader entry) :
    crlf.lines [] (headerLine entry) = [entry.1 ++ ascii ": " ++ entry.2] := by
  apply LineEnd.lines_single
  simp only [List.mem_append, not_or]
  exact ⟨⟨plain.key, by decide⟩, plain.value⟩

theorem content_length_key (plain : PlainHeader entry) :
    entry.1.map toLower = ascii "content-length" ↔ isContentLength entry.1 = true := by
  have whole : cString entry.1 = entry.1 := by
    rw [cString]
    apply List.takeWhile_eq_self_iff.mpr
    intro byte member
    rw [decide_eq_true_eq]
    intro zero
    rw [zero] at member
    exact plain.unended member
  have name : (cString (ascii "content-length")).map toLower = ascii "content-length" := by decide
  rw [isContentLength, sameKey, decide_eq_true_eq, whole, name]

theorem header_line_content_length (plain : PlainHeader entry) :
    contentLength (entry.1 ++ ascii ": " ++ entry.2) =
      if isContentLength entry.1 then some (0x20 :: entry.2) else none := by
  have name : (entry.1 ++ ascii ": " ++ entry.2).takeWhile (· ≠ 58) = entry.1 := by
    have before : ∀ byte ∈ entry.1, decide (byte ≠ 58) = true := by
      intro byte member
      rw [decide_eq_true_eq]
      intro colon
      rw [colon] at member
      exact plain.uncolon member
    have stops : (ascii ": " ++ entry.2).takeWhile (· ≠ 58) = [] := rfl
    rw [List.append_assoc, List.takeWhile_append_of_pos before, stops, List.append_nil]
  have inside : entry.1.length < (entry.1 ++ ascii ": " ++ entry.2).length := by
    have two : (ascii ": ").length = 2 := by decide
    rw [List.length_append, List.length_append, two]
    omega
  have value : (entry.1 ++ ascii ": " ++ entry.2).drop (entry.1.length + 1) =
      0x20 :: entry.2 := by
    rw [List.append_assoc, List.drop_length_add_append]
    rfl
  rw [contentLength, name, value]
  by_cases told : isContentLength entry.1 = true
  · rw [if_pos ⟨(content_length_key plain).mpr told, inside⟩, if_pos told]
  · rw [if_neg (fun named => told ((content_length_key plain).mp named.1)), if_neg told]

theorem header_line_lengths (plain : PlainHeader entry) :
    [] ∉ crlf.lines [] (headerLine entry) ∧
      lengths (crlf.lines [] (headerLine entry)) =
        if isContentLength entry.1 then [number entry.2] else [] := by
  rw [header_line_lines plain]
  constructor
  · rw [List.mem_singleton]
    intro none
    have last := List.append_eq_nil_iff.mp none.symm
    exact absurd (List.append_eq_nil_iff.mp last.1).2 (by decide)
  · have blank : number (0x20 :: entry.2) = number entry.2 := rfl
    by_cases told : isContentLength entry.1 = true
    · rw [lengths, List.filterMap_cons, header_line_content_length plain, if_pos told, if_pos told,
        Option.map_some, blank]
      rfl
    · rw [lengths, List.filterMap_cons, header_line_content_length plain, if_neg told, if_neg told]
      rfl

theorem flat_map_lines {Item : Type} {print : Item → Str} (ended : ∀ item, crlf.Ended (print item))
    (told : Item → List (Option Nat)) (items : List Item)
    (each : ∀ item ∈ items, [] ∉ crlf.lines [] (print item) ∧
      lengths (crlf.lines [] (print item)) = told item) :
    [] ∉ crlf.lines [] (items.flatMap print) ∧
      lengths (crlf.lines [] (items.flatMap print)) = items.flatMap told := by
  induction items with
  | nil => exact ⟨List.not_mem_nil, rfl⟩
  | cons item items induction =>
      have first := each item List.mem_cons_self
      have later := induction fun other member => each other (List.mem_cons_of_mem _ member)
      rw [List.flatMap_cons, List.flatMap_cons, LineEnd.lines_append (ended item), lengths_append,
        first.2, later.2, List.mem_append, not_or]
      exact ⟨⟨first.1, later.1⟩, rfl⟩

namespace WrittenRequest

/-- The texts of the request make one line each. -/
structure Plain (request : WrittenRequest) : Prop where
  path : 10 ∉ request.path
  query : 10 ∉ request.query
  fragment : 10 ∉ request.fragment
  headers : ∀ entry ∈ request.headers, PlainHeader entry

variable {request : WrittenRequest}

theorem start_line_plain (plain : request.Plain) :
    [] ∉ crlf.lines [] request.startLine ∧ lengths (crlf.lines [] request.startLine) = [] := by
  rcases method_to_string_plain request.method with ⟨uncolon, unended⟩
  have mark : ∀ (given : Prop) [Decidable given] (text : String), 10 ∉ ascii text →
      10 ∉ ascii (if given then "" else text) := by
    intro given decidable text absent
    split
    · decide
    · exact absent
  rw [startLine]
  apply other_line (httpMethodToString request.method ++ ascii " ") 32
  · simp only [List.mem_append, not_or]
    exact ⟨⟨⟨⟨⟨⟨⟨⟨unended, by decide⟩, plain.path⟩, mark _ _ (by decide)⟩, plain.query⟩,
      mark _ _ (by decide)⟩, plain.fragment⟩, by decide⟩, version_no_feed _⟩
  · simp only [List.append_assoc, List.prefix_append_right_inj, List.prefix_append]
  · rw [List.mem_append, not_or]
    exact ⟨uncolon, by decide⟩
  · exact List.mem_append_right _ (by decide)
  · decide

theorem headers_plain (plain : request.Plain) :
    [] ∉ crlf.lines [] (request.headers.flatMap request.dumpHeader) ∧
      lengths (crlf.lines [] (request.headers.flatMap request.dumpHeader)) = [] := by
  have none : (request.headers.flatMap fun entry => ([] : List (Option Nat))) = [] :=
    List.flatMap_eq_nil_iff.mpr fun entry member => rfl
  have all := flat_map_lines request.ended_header (fun entry => []) request.headers ?each
  · rw [none] at all
    exact all
  · intro entry member
    rw [dumpHeader]
    split
    · exact ⟨List.not_mem_nil, rfl⟩
    · split
      · exact ⟨List.not_mem_nil, rfl⟩
      · rename_i other
        have line := header_line_lengths (plain.headers entry member)
        rw [if_neg other] at line
        exact line

theorem plain_delimited (plain : request.Plain) : SelfDelimiting request.dump request.body := by
  have start := start_line_plain plain
  have headers := headers_plain plain
  have own : request.ownLines = crlf.lines [] request.startLine ++
      crlf.lines [] (request.headers.flatMap request.dumpHeader) :=
    LineEnd.lines_append request.ended_start_line _
  have told : lengths request.ownLines = [] := by
    rw [own, lengths_append, start.2, headers.2]
    rfl
  rw [delimited_iff]
  constructor
  · rw [own, List.mem_append, not_or]
    exact ⟨start.1, headers.1⟩
  · intro some
    rw [told, if_pos rfl]
  · intro none length member
    rw [told] at member
    cases member

end WrittenRequest

namespace WrittenResponse

/-- The texts of the response make one line each, and its headers are a map. -/
structure Plain (response : WrittenResponse) : Prop where
  reason : 10 ∉ response.reason
  headers : ∀ entry ∈ response.headers, PlainHeader entry
  keys : response.headers.Pairwise fun entry other => sameKey entry.1 other.1 = false
  cookies : ∀ cookie ∈ response.cookies, 10 ∉ cookie

variable {response : WrittenResponse}

def toldBy (entry : Str × Str) : List (Option Nat) :=
  if isContentLength entry.1 then [number entry.2] else []

theorem status_line_plain (plain : response.Plain) :
    [] ∉ crlf.lines [] response.statusLine ∧
      lengths (crlf.lines [] response.statusLine) = [] := by
  rw [statusLine]
  apply other_line (ascii "HTTP/") 47
  · simp only [List.mem_append, not_or]
    refine ⟨⟨⟨⟨version_no_feed _, by decide⟩, decimal_no_feed _⟩, by decide⟩, ?_⟩
    split
    · exact status_to_string_no_feed _
    · exact plain.reason
  · simp only [versionText, List.append_assoc, List.prefix_append]
  · decide
  · decide
  · decide

theorem cookies_plain (plain : response.Plain) :
    [] ∉ crlf.lines [] (response.cookies.flatMap cookieLine) ∧
      lengths (crlf.lines [] (response.cookies.flatMap cookieLine)) = [] := by
  have none : (response.cookies.flatMap fun cookie => ([] : List (Option Nat))) = [] :=
    List.flatMap_eq_nil_iff.mpr fun cookie member => rfl
  have all := flat_map_lines ended_cookie (fun cookie => []) response.cookies ?each
  · rw [none] at all
    exact all
  · intro cookie member
    apply other_line (ascii "Set-Cookie") 83
    · rw [List.mem_append, not_or]
      exact ⟨by decide, plain.cookies cookie member⟩
    · exact ⟨ascii ": " ++ cookie, rfl⟩
    · decide
    · decide
    · decide

theorem headers_plain (plain : response.Plain) :
    [] ∉ crlf.lines [] (response.headers.flatMap response.shownHeader) ∧
      lengths (crlf.lines [] (response.headers.flatMap response.shownHeader)) =
        response.headers.flatMap toldBy := by
  apply flat_map_lines response.ended_header
  intro entry member
  rw [shownHeader]
  by_cases connection : isConnection response.websocket entry.1 = true
  · rw [if_pos connection, toldBy, not_content_length connection]
    exact ⟨List.not_mem_nil, rfl⟩
  · rw [if_neg connection]
    exact header_line_lengths (plain.headers entry member)

theorem own_lines_plain (plain : response.Plain) :
    [] ∉ response.ownLines ∧ lengths response.ownLines = response.headers.flatMap toldBy := by
  have status := status_line_plain plain
  have headers := headers_plain plain
  have cookies := cookies_plain plain
  have front : crlf.Ended (response.statusLine ++ response.headers.flatMap response.shownHeader) :=
    LineEnd.ended_append response.ended_status_line response.ended_headers
  have own : response.ownLines = crlf.lines [] response.statusLine ++
      crlf.lines [] (response.headers.flatMap response.shownHeader) ++
        crlf.lines [] (response.cookies.flatMap cookieLine) := by
    rw [ownLines, ownText, LineEnd.lines_append front,
      LineEnd.lines_append response.ended_status_line]
  rw [own, lengths_append, lengths_append, status.2, headers.2, cookies.2, List.append_nil,
    List.mem_append, List.mem_append, not_or, not_or]
  exact ⟨⟨⟨status.1, headers.1⟩, cookies.1⟩, rfl⟩

/-- Of a map at most one header has the key. -/
theorem told_by_one {headers : List (Str × Str)} {entry : Str × Str}
    (keys : headers.Pairwise fun entry other => sameKey entry.1 other.1 = false)
    (member : entry ∈ headers) (found : isContentLength entry.1 = true) :
    headers.flatMap toldBy = [number entry.2] := by
  have same : ∀ other : Str × Str, isContentLength other.1 = true →
      sameKey entry.1 other.1 = true ∧ sameKey other.1 entry.1 = true := by
    intro other also
    rw [isContentLength, sameKey, decide_eq_true_eq] at found also
    rw [sameKey, sameKey, found, also]
    exact ⟨decide_eq_true rfl, decide_eq_true rfl⟩
  induction headers with
  | nil => cases member
  | cons first rest induction =>
      rcases List.pairwise_cons.mp keys with ⟨apart, later⟩
      rw [List.flatMap_cons]
      rcases List.mem_cons.mp member with here | behind
      · rw [← here] at apart ⊢
        have none : rest.flatMap toldBy = [] := by
          apply List.flatMap_eq_nil_iff.mpr
          intro other inside
          rw [toldBy, if_neg]
          intro also
          have clash := apart other inside
          rw [(same other also).1] at clash
          cases clash
        rw [toldBy, if_pos found, none, List.append_nil]
      · have none : toldBy first = [] := by
          rw [toldBy, if_neg]
          intro also
          have clash := apart entry behind
          rw [(same first also).2] at clash
          cases clash
        rw [none, induction later behind, List.nil_append]

/-- A plain response tells where it ends exactly when its content-length header, if there is one,
tells the truth. -/
theorem plain_delimited_iff (plain : response.Plain) :
    SelfDelimiting response.dump response.body ↔
      ∀ entry ∈ response.headers, isContentLength entry.1 = true →
        number entry.2 = some response.body.length := by
  rcases own_lines_plain plain with ⟨unbroken, told⟩
  rw [delimited_iff]
  constructor
  · intro framed entry member found
    have one := told_by_one plain.keys member found
    have has : response.hasContentLength = true :=
      List.any_eq_true.mpr ⟨entry, member, found⟩
    by_cases some : response.body ≠ []
    · have filled := framed.filled some
      rw [told, one, has, if_neg (by decide)] at filled
      exact List.head_eq_of_cons_eq filled
    · have empty := framed.empty (not_not.mp some) (number entry.2)
      rw [told, one] at empty
      rw [empty (List.mem_singleton.mpr rfl), not_not.mp some]
      rfl
  · intro honest
    by_cases has : response.hasContentLength = true
    · rcases List.any_eq_true.mp has with ⟨entry, member, found⟩
      have one := told_by_one plain.keys member found
      have length := honest entry member found
      constructor
      · exact unbroken
      · intro some
        rw [told, one, length, has, if_neg (by decide)]
      · intro none length' inside
        rw [told, one, length, none] at inside
        exact List.mem_singleton.mp inside
    · have none : response.headers.flatMap toldBy = [] := by
        apply List.flatMap_eq_nil_iff.mpr
        intro entry member
        rw [toldBy, if_neg]
        intro found
        exact has (List.any_eq_true.mpr ⟨entry, member, found⟩)
      have added : (!response.hasContentLength) = true := by
        rw [Bool.eq_false_of_not_eq_true has]
        rfl
      constructor
      · exact unbroken
      · intro some
        rw [told, none, if_pos added]
      · intro empty length inside
        rw [told, none] at inside
        cases inside

end WrittenResponse

/-- The messages that tell where they end, and what that comes to for plain ones. -/
theorem dump_delimited_iff (request : WrittenRequest) (response : WrittenResponse) :
    (SelfDelimiting request.dump request.body ↔
        Framed request.ownLines true request.body) ∧
      (request.Plain → SelfDelimiting request.dump request.body) ∧
      (SelfDelimiting response.dump response.body ↔
        Framed response.ownLines (!response.hasContentLength) response.body) ∧
      (response.Plain →
        (SelfDelimiting response.dump response.body ↔
          ∀ entry ∈ response.headers, isContentLength entry.1 = true →
            number entry.2 = some response.body.length)) :=
  ⟨request.delimited_iff, WrittenRequest.plain_delimited, response.delimited_iff,
    WrittenResponse.plain_delimited_iff⟩

def postRequest : WrittenRequest :=
  { method := .post, headers := [(ascii "Content-Length", ascii "7")], body := ascii "ok" }

def lengthResponse (length body : Str) : WrittenResponse :=
  { headers := [(ascii "Content-Length", length)], body }

theorem content_length_header_plain (length : Str) (unended : 10 ∉ length) :
    PlainHeader (ascii "Content-Length", length) := by
  have key : 0 ∉ ascii "Content-Length" ∧ 58 ∉ ascii "Content-Length" ∧
      10 ∉ ascii "Content-Length" := by decide
  exact ⟨key.1, key.2.1, key.2.2, unended⟩

theorem dump_delimited_ok : SelfDelimiting postRequest.dump (ascii "ok") ∧
    SelfDelimiting (lengthResponse (ascii "2") (ascii "ok")).dump (ascii "ok") := by
  have shown := dump_delimited_iff postRequest (lengthResponse (ascii "2") (ascii "ok"))
  constructor
  · apply shown.2.1
    constructor
    · decide
    · decide
    · decide
    · intro entry member
      rw [List.mem_singleton.mp member]
      exact content_length_header_plain _ (by decide)
  · apply (shown.2.2.2 ?plain).mpr
    · intro entry member found
      rw [List.mem_singleton.mp member]
      decide
    · constructor
      · decide
      · intro entry member
        rw [List.mem_singleton.mp member]
        exact content_length_header_plain _ (by decide)
      · exact List.pairwise_singleton _ _
      · intro cookie member
        cases member

/-- A header that was set for another body stays, in front of a body and in front of none. -/
theorem stale_length_kept :
    (13 ∉ ascii "Content-Length" ++ ascii "5" ∧ 10 ∉ ascii "Content-Length" ++ ascii "5") ∧
      ¬ SelfDelimiting (lengthResponse (ascii "5") (ascii "ok")).dump (ascii "ok") ∧
      ¬ SelfDelimiting (lengthResponse (ascii "5") []).dump [] := by
  refine ⟨by decide, ?_, ?_⟩
  · rintro ⟨head, read, filled, empty⟩
    have kept : (crlf.block [] (lengthResponse (ascii "5") (ascii "ok")).dump).map
        (fun read => lengths read.1) = some [some 5] := by decide +kernel
    rw [read, Option.map_some, filled (by decide)] at kept
    exact absurd kept (by decide)
  · rintro ⟨head, read, filled, empty⟩
    have kept : (crlf.block [] (lengthResponse (ascii "5") []).dump).map
        (fun read => lengths read.1) = some [some 5] := by decide +kernel
    rw [read, Option.map_some, Option.some.injEq] at kept
    have none := empty rfl (some 5) (by rw [kept]; exact List.mem_singleton.mpr rfl)
    exact absurd none (by decide)

end ChatServer.Http
