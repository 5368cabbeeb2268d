import ChatServer.Http.HttpResponseParser
import ChatServer.Lib.LineEnd
import Mathlib.Data.List.DropRight

/-!
# Messages as they are written

`HttpRequest::dump` and `HttpResponse::dump`, and what the lines in front of the blank one tell
about the length of the body. The request printer drops a content-length header and writes its
own, the response printer keeps the header and then writes none.
-/

namespace ChatServer.Http

set_option autoImplicit false

open ChatServer.Http2 (ascii toLower sameKey)

def httpStatusMap : List (Int × Str) := [
    (100, ascii "Continue"), (101, ascii "Switching Protocols"), (102, ascii "Processing"),
    (200, ascii "OK"), (201, ascii "Created"), (202, ascii "Accepted"),
    (203, ascii "Non-Authoritative Information"), (204, ascii "No Content"),
    (205, ascii "Reset Content"), (206, ascii "Partial Content"), (207, ascii "Multi-Status"),
    (208, ascii "Already Reported"), (226, ascii "IM Used"), (300, ascii "Multiple Choices"),
    (301, ascii "Moved Permanently"), (302, ascii "Found"), (303, ascii "See Other"),
    (304, ascii "Not Modified"), (305, ascii "Use Proxy"), (307, ascii "Temporary Redirect"),
    (308, ascii "Permanent Redirect"), (400, ascii "Bad Request"), (401, ascii "Unauthorized"),
    (402, ascii "Payment Required"), (403, ascii "Forbidden"), (404, ascii "Not Found"),
    (405, ascii "Method Not Allowed"), (406, ascii "Not Acceptable"),
    (407, ascii "Proxy Authentication Required"), (408, ascii "Request Timeout"),
    (409, ascii "Conflict"), (410, ascii "Gone"), (411, ascii "Length Required"),
    (412, ascii "Precondition Failed"), (413, ascii "Payload Too Large"),
    (414, ascii "URI Too Long"), (415, ascii "Unsupported Media Type"),
    (416, ascii "Range Not Satisfiable"), (417, ascii "Expectation Failed"),
    (421, ascii "Misdirected Request"), (422, ascii "Unprocessable Entity"),
    (423, ascii "Locked"), (424, ascii "Failed Dependency"), (426, ascii "Upgrade Required"),
    (428, ascii "Precondition Required"), (429, ascii "Too Many Requests"),
    (431, ascii "Request Header Fields Too Large"),
    (451, ascii "Unavailable For Legal Reasons"), (500, ascii "Internal Server Error"),
    (501, ascii "Not Implemented"), (502, ascii "Bad Gateway"),
    (503, ascii "Service Unavailable"), (504, ascii "Gateway Timeout"),
    (505, ascii "HTTP Version Not Supported"), (506, ascii "Variant Also Negotiates"),
    (507, ascii "Insufficient Storage"), (508, ascii "Loop Detected"),
    (510, ascii "Not Extended"), (511, ascii "Network Authentication Required")]

def httpMethodToString (m : HttpMethod) : Str :=
  match httpMethodMap.find? fun entry => entry.1 = m with
  | some entry => entry.2
  | none => ascii "<unknown>"

def httpStatusToString (s : Int) : Str :=
  match httpStatusMap.find? fun entry => entry.1 = s with
  | some entry => entry.2
  | none => ascii "<unknown>"

theorem ret_ne_feed : (13 : UInt8) ≠ 10 := by decide

/-- Both grammars end a line at a line feed, with or without a carriage return in front of it. -/
def crlf : LineEnd UInt8 := ⟨13, 10, ret_ne_feed⟩

def decimal (value : Nat) : Str := ascii (String.ofList (Nat.toDigits 10 value))

/-- `HTTP/` with the two halves of the version. -/
def versionText (version : UInt8) : Str :=
  ascii "HTTP/" ++ decimal (version >>> 4).toNat ++ ascii "." ++
    decimal (version &&& 0x0F).toNat

def headerLine (entry : Str × Str) : Str := entry.1 ++ ascii ": " ++ entry.2 ++ crlf.newline

def isContentLength (key : Str) : Bool := sameKey key (ascii "content-length")

/-- Keys for which the printers write a line of their own. -/
def isConnection (websocket : Bool) (key : Str) : Bool :=
  !websocket && sameKey key (ascii "connection")

def connectionLine (websocket close : Bool) : Str :=
  if websocket then []
  else ascii "connection: " ++ ascii (if close then "close" else "keep-alive") ++ crlf.newline

def lengthLine (body : Str) : Str :=
  ascii "content-length: " ++ decimal body.length ++ crlf.newline

/-- A request with the field that only writing reads. -/
structure WrittenRequest extends HttpRequest where
  websocket : Bool := false

structure WrittenResponse extends HttpResponse where
  websocket : Bool := false
  cookies : List Str := []

namespace WrittenRequest

def startLine (request : WrittenRequest) : Str :=
  httpMethodToString request.method ++ ascii " " ++ request.path ++
    ascii (if request.query = [] then "" else "?") ++ request.query ++
    ascii (if request.fragment = [] then "" else "#") ++ request.fragment ++
    ascii " " ++ versionText request.version ++ crlf.newline

def dumpHeader (request : WrittenRequest) (entry : Str × Str) : Str :=
  if isConnection request.websocket entry.1 then []
  else if isContentLength entry.1 then []
  else headerLine entry

def dump (request : WrittenRequest) : Str :=
  request.startLine ++ connectionLine request.websocket request.close ++
    request.headers.flatMap request.dumpHeader ++
    if request.body ≠ [] then lengthLine request.body ++ crlf.newline ++ request.body
    else crlf.newline

end WrittenRequest

namespace WrittenResponse

def statusLine (response : WrittenResponse) : Str :=
  versionText response.version ++ ascii " " ++ decimal (response.status % 2 ^ 32).toNat ++
    ascii " " ++
    (if response.reason = [] then httpStatusToString response.status else response.reason) ++
    crlf.newline

/-- The loop over the headers, with the flag `has_content_length`. -/
def dumpHeaders (websocket : Bool) : Bool → List (Str × Str) → Str × Bool
  | hasContentLength, [] => ([], hasContentLength)
  | hasContentLength, entry :: rest =>
      if isConnection websocket entry.1 then dumpHeaders websocket hasContentLength rest
      else
        let found := !hasContentLength && isContentLength entry.1
        let (text, hasContentLength) := dumpHeaders websocket (hasContentLength || found) rest
        (headerLine entry ++ text, hasContentLength)

def cookieLine (cookie : Str) : Str := ascii "Set-Cookie: " ++ cookie ++ crlf.newline

def dump (response : WrittenResponse) : Str :=
  let (headers, hasContentLength) := dumpHeaders response.websocket false response.headers
  response.statusLine ++ headers ++ response.cookies.flatMap cookieLine ++
    connectionLine response.websocket response.close ++
    if response.body ≠ [] then
      if hasContentLength then crlf.newline ++ response.body
      else lengthLine response.body ++ crlf.newline ++ response.body
    else crlf.newline

end WrittenResponse

/-- The value of a line whose name is content-length, in any case. -/
def contentLength (line : Str) : Option Str :=
  let name := line.takeWhile (· ≠ 58)
  if name.map toLower = ascii "content-length" ∧ name.length < line.length then
    some (line.drop (name.length + 1))
  else none

def isBlank (byte : UInt8) : Bool := byte = 32 || byte = 9

/-- Digits between blanks. -/
def number (value : Str) : Option Nat :=
  let digits := (value.dropWhile isBlank).rdropWhile isBlank
  if digits ≠ [] ∧ digits.all (fun digit => 48 ≤ digit && digit ≤ 57) = true then
    some (digitsValue digits)
  else none

def lengths (lines : List Str) : List (Option Nat) :=
  lines.filterMap fun line => (contentLength line).map number

/-- The blank line of a message stands in front of its body, and the lines up to there tell how
long the body is. -/
def SelfDelimiting (output body : Str) : Prop :=
  ∃ head, crlf.block [] output = some (head, body) ∧
    (body ≠ [] → lengths head = [some body.length]) ∧
    (body = [] → ∀ length ∈ lengths head, length = some 0)

/-- What the lines that a message brings with it may say about its body, when the printer adds a
length to them and when it does not. -/
structure Framed (lines : List Str) (added : Bool) (body : Str) : Prop where
  unbroken : [] ∉ lines
  filled : body ≠ [] → lengths lines = if added then [] else [some body.length]
  empty : body = [] → ∀ length ∈ lengths lines, length = some 0

theorem ascii_of_list (characters : List Char) :
    ascii (String.ofList characters) = characters.map fun c => UInt8.ofNat c.toNat := by
  rw [ascii, String.toList_ofList]

theorem decimal_ne_nil (value : Nat) : decimal value ≠ [] := by
  rw [decimal, ascii_of_list]
  intro none
  exact Nat.toDigits_ne_nil (List.map_eq_nil_iff.mp none)

theorem decimal_digit {value : Nat} {byte : UInt8} (member : byte ∈ decimal value) :
    48 ≤ byte.toNat ∧ byte.toNat ≤ 57 := by
  rw [decimal, ascii_of_list] at member
  rcases List.mem_map.mp member with ⟨c, digit, same⟩
  have shown := Nat.isDigit_of_mem_toDigits (by decide) (by decide) digit
  rw [Char.isDigit, Bool.and_eq_true, decide_eq_true_eq, decide_eq_true_eq] at shown
  have lower : 48 ≤ c.toNat := UInt32.le_iff_toNat_le.mp shown.1
  have upper : c.toNat ≤ 57 := UInt32.le_iff_toNat_le.mp shown.2
  rw [← same, UInt8.toNat_ofNat', Nat.mod_eq_of_lt (by omega)]
  exact ⟨lower, upper⟩

theorem digits_value_decimal (value : Nat) : digitsValue (decimal value) = value := by
  have each : ∀ digits : List Char, (∀ c ∈ digits, c.isDigit = true) → ∀ value : Nat,
      (digits.map fun c => UInt8.ofNat c.toNat).foldl
          (fun value digit => 10 * value + (digit.toNat - 48)) value =
        Nat.ofDigitChars 10 digits value := by
    intro digits
    induction digits with
    | nil =>
        intro shown value
        rfl
    | cons c digits induction =>
        intro shown value
        have digit := shown c List.mem_cons_self
        rw [Char.isDigit, Bool.and_eq_true, decide_eq_true_eq, decide_eq_true_eq] at digit
        have upper : c.toNat ≤ 57 := UInt32.le_iff_toNat_le.mp digit.2
        rw [List.map_cons, List.foldl_cons, induction fun c member =>
          shown c (List.mem_cons_of_mem _ member), Nat.ofDigitChars_cons, UInt8.toNat_ofNat',
          Nat.mod_eq_of_lt (by omega)]
        rfl
  rw [digitsValue, decimal, ascii_of_list, each _ (fun c member =>
    Nat.isDigit_of_mem_toDigits (by decide) (by decide) member), Nat.ofDigitChars_toDigits
    (by decide) (by decide)]

theorem digit_not_blank {byte : UInt8} (digit : 48 ≤ byte.toNat ∧ byte.toNat ≤ 57) :
    ¬ isBlank byte = true := by
  rw [isBlank, Bool.or_eq_true, decide_eq_true_eq, decide_eq_true_eq]
  rintro (blank | blank)
  · rw [blank] at digit
    exact absurd digit.1 (by decide)
  · rw [blank] at digit
    exact absurd digit.1 (by decide)

/-- A written number is read back. -/
theorem number_decimal (value : Nat) : number (0x20 :: decimal value) = some value := by
  have first : (decimal value).dropWhile isBlank = decimal value := by
    apply List.dropWhile_eq_self_iff.mpr
    intro filled
    exact digit_not_blank (decimal_digit (List.getElem_mem filled))
  have last : (decimal value).rdropWhile isBlank = decimal value := by
    apply List.rdropWhile_eq_self_iff.mpr
    intro filled
    exact digit_not_blank (decimal_digit (List.getLast_mem filled))
  have digits : (decimal value).all (fun digit => 48 ≤ digit && digit ≤ 57) = true := by
    apply List.all_eq_true.mpr
    intro byte member
    have digit := decimal_digit member
    rw [Bool.and_eq_true, decide_eq_true_eq, decide_eq_true_eq]
    exact ⟨UInt8.le_iff_toNat_le.mpr digit.1, UInt8.le_iff_toNat_le.mpr digit.2⟩
  have blank : (0x20 :: decimal value).dropWhile isBlank = decimal value := first
  rw [number, blank, last, if_pos ⟨decimal_ne_nil value, digits⟩, digits_value_decimal]

theorem lengths_append (front back : List Str) :
    lengths (front ++ back) = lengths front ++ lengths back :=
  List.filterMap_append

theorem connection_line_lines (websocket close : Bool) :
    [] ∉ crlf.lines [] (connectionLine websocket close) ∧
      lengths (crlf.lines [] (connectionLine websocket close)) = [] := by
  cases websocket <;> cases close <;> decide

theorem length_line_lines (body : Str) :
    crlf.lines [] (lengthLine body) = [ascii "content-length: " ++ decimal body.length] := by
  apply LineEnd.lines_single
  intro feed
  rcases List.mem_append.mp feed with name | digit
  · exact absurd name (by decide)
  · exact absurd (decimal_digit digit).1 (by decide)

theorem length_line_lengths (body : Str) :
    lengths (crlf.lines [] (lengthLine body)) = [some body.length] := by
  have told : contentLength (ascii "content-length: " ++ decimal body.length) =
      some (0x20 :: decimal body.length) := by
    have name : (ascii "content-length: " ++ decimal body.length).takeWhile (· ≠ 58) =
        ascii "content-length" := rfl
    have inside : (ascii "content-length").length <
        (ascii "content-length: " ++ decimal body.length).length := by
      rw [List.length_append]
      exact Nat.lt_add_right _ (by decide)
    rw [contentLength, name, if_pos ⟨by decide, inside⟩]
    rfl
  rw [length_line_lines, lengths, List.filterMap_cons, told, Option.map_some, number_decimal]
  rfl

theorem ended_connection_line (websocket close : Bool) :
    crlf.Ended (connectionLine websocket close) := by
  rw [connectionLine]
  split
  · exact LineEnd.ended_nil
  · exact LineEnd.ended_newline _

theorem self_delimiting_lines {text body : Str} (ended : crlf.Ended text) :
    SelfDelimiting (text ++ (crlf.newline ++ body)) body ↔
      [] ∉ crlf.lines [] text ∧
        (body ≠ [] → lengths (crlf.lines [] text) = [some body.length]) ∧
        (body = [] → ∀ length ∈ lengths (crlf.lines [] text), length = some 0) := by
  constructor
  · intro delimited
    rcases delimited with ⟨head, read, filled, empty⟩
    rcases (LineEnd.block_closed_iff ended).mp read with ⟨unbroken, same⟩
    rw [same] at filled empty
    exact ⟨unbroken, filled, empty⟩
  · intro framed
    exact ⟨_, (LineEnd.block_closed_iff ended).mpr ⟨framed.1, rfl⟩, framed.2⟩

def addedLength (added : Bool) (body : Str) : Str :=
  if body ≠ [] ∧ added = true then lengthLine body else []

theorem added_length_lines (added : Bool) (body : Str) :
    crlf.Ended (addedLength added body) ∧ [] ∉ crlf.lines [] (addedLength added body) ∧
      lengths (crlf.lines [] (addedLength added body)) =
        if body ≠ [] ∧ added = true then [some body.length] else [] := by
  rw [addedLength]
  split
  · refine ⟨LineEnd.ended_newline _, ?_, length_line_lengths body⟩
    rw [length_line_lines, List.mem_singleton]
    exact (List.append_ne_nil_of_left_ne_nil (by decide) _).symm
  · exact ⟨LineEnd.ended_nil, List.not_mem_nil, rfl⟩

/-- A message brings the lines of `front` and `back`, a printer adds a connection between them
and perhaps a length behind them. -/
theorem self_delimiting_framed {front back : Str} (first : crlf.Ended front)
    (second : crlf.Ended back) (websocket close added : Bool) (body : Str) :
    SelfDelimiting (front ++ connectionLine websocket close ++ back ++ addedLength added body ++
        (crlf.newline ++ body)) body ↔
      Framed (crlf.lines [] (front ++ back)) added body := by
  have connection := connection_line_lines websocket close
  have length := added_length_lines added body
  have opened := LineEnd.ended_append first (ended_connection_line websocket close)
  have closed := LineEnd.ended_append opened second
  have read : crlf.lines []
      (front ++ connectionLine websocket close ++ back ++ addedLength added body) =
        crlf.lines [] front ++ crlf.lines [] (connectionLine websocket close) ++
          crlf.lines [] back ++ crlf.lines [] (addedLength added body) := by
    rw [LineEnd.lines_append closed, LineEnd.lines_append opened, LineEnd.lines_append first]
  have own : crlf.lines [] (front ++ back) = crlf.lines [] front ++ crlf.lines [] back :=
    LineEnd.lines_append first back
  have told : lengths (crlf.lines [] front ++ crlf.lines [] (connectionLine websocket close) ++
      crlf.lines [] back ++ crlf.lines [] (addedLength added body)) =
        lengths (crlf.lines [] (front ++ back)) ++
          if body ≠ [] ∧ added = true then [some body.length] else [] := by
    rw [own, lengths_append, lengths_append, lengths_append, lengths_append, connection.2,
      length.2.2, List.append_nil]
  rw [self_delimiting_lines (LineEnd.ended_append closed length.1), read, told]
  constructor
  · rintro ⟨unbroken, filled, empty⟩
    constructor
    · intro blank
      rw [own] at blank
      apply unbroken
      rcases List.mem_append.mp blank with early | late
      · simp only [List.mem_append, early, true_or]
      · simp only [List.mem_append, late, true_or, or_true]
    · intro some
      have told := filled some
      cases added with
      | true =>
          rw [if_pos ⟨some, rfl⟩] at told
          exact List.append_left_eq_self.mp told
      | false =>
          rw [if_neg (fun both => Bool.false_ne_true both.2), List.append_nil] at told
          exact told
    · intro none length member
      exact empty none length (List.mem_append_left _ member)
  · intro framed
    refine ⟨?_, ?_, ?_⟩
    · intro blank
      have unbroken := framed.unbroken
      rw [own] at unbroken
      simp only [List.mem_append, connection.1, length.2.1, or_false] at blank
      exact unbroken (List.mem_append.mpr blank)
    · intro some
      rw [framed.filled some]
      cases added with
      | true =>
          rw [if_pos rfl, if_pos ⟨some, rfl⟩]
          rfl
      | false =>
          rw [if_neg Bool.false_ne_true, if_neg (fun both => Bool.false_ne_true both.2)]
          rfl
    · intro none length member
      rw [if_neg (fun both => both.1 none), List.append_nil] at member
      exact framed.empty none length member

namespace WrittenRequest

theorem ended_start_line (request : WrittenRequest) : crlf.Ended request.startLine :=
  LineEnd.ended_newline _

theorem ended_header (request : WrittenRequest) (entry : Str × Str) :
    crlf.Ended (request.dumpHeader entry) := by
  rw [dumpHeader]
  split
  · exact LineEnd.ended_nil
  · split
    · exact LineEnd.ended_nil
    · exact LineEnd.ended_newline _

theorem ended_headers (request : WrittenRequest) :
    crlf.Ended (request.headers.flatMap request.dumpHeader) :=
  LineEnd.ended_flat_map request.ended_header _

/-- The lines that come from the request itself. -/
def ownLines (request : WrittenRequest) : List Str :=
  crlf.lines [] (request.startLine ++ request.headers.flatMap request.dumpHeader)

theorem dump_eq (request : WrittenRequest) :
    request.dump = request.startLine ++ connectionLine request.websocket request.close ++
      request.headers.flatMap request.dumpHeader ++ addedLength true request.body ++
        (crlf.newline ++ request.body) := by
  rw [dump, addedLength]
  by_cases some : request.body ≠ []
  · rw [if_pos some, if_pos ⟨some, rfl⟩]
    simp only [List.append_assoc]
  · rw [if_neg some, if_neg fun both => some both.1, not_not.mp some, List.append_nil,
      List.append_nil]

theorem delimited_iff (request : WrittenRequest) :
    SelfDelimiting request.dump request.body ↔ Framed request.ownLines true request.body := by
  rw [dump_eq]
  exact self_delimiting_framed request.ended_start_line request.ended_headers _ _ _ _

end WrittenRequest

namespace WrittenResponse

def shownHeader (response : WrittenResponse) (entry : Str × Str) : Str :=
  if isConnection response.websocket entry.1 then [] else headerLine entry

theorem ended_status_line (response : WrittenResponse) : crlf.Ended response.statusLine :=
  LineEnd.ended_newline _

theorem ended_cookie (cookie : Str) : crlf.Ended (cookieLine cookie) := LineEnd.ended_newline _

theorem ended_header (response : WrittenResponse) (entry : Str × Str) :
    crlf.Ended (response.shownHeader entry) := by
  rw [shownHeader]
  split
  · exact LineEnd.ended_nil
  · exact LineEnd.ended_newline _

theorem ended_headers (response : WrittenResponse) :
    crlf.Ended (response.headers.flatMap response.shownHeader) :=
  LineEnd.ended_flat_map response.ended_header _

/-- Whether the printer leaves the length to the headers. -/
def hasContentLength (response : WrittenResponse) : Bool :=
  response.headers.any fun entry => isContentLength entry.1

theorem not_content_length {websocket : Bool} {key : Str}
    (connection : isConnection websocket key = true) : isContentLength key = false := by
  rw [isConnection, Bool.and_eq_true, sameKey, decide_eq_true_eq] at connection
  rw [isContentLength, sameKey, decide_eq_false_iff_not, connection.2]
  decide

theorem dump_headers_eq (response : WrittenResponse) (headers : List (Str × Str)) (found : Bool) :
    dumpHeaders response.websocket found headers =
      (headers.flatMap response.shownHeader,
        found || headers.any fun entry => isContentLength entry.1) := by
  induction headers generalizing found with
  | nil => rw [dumpHeaders, List.any_nil, Bool.or_false, List.flatMap_nil]
  | cons entry headers induction =>
      rw [dumpHeaders, List.flatMap_cons, List.any_cons, shownHeader]
      by_cases connection : isConnection response.websocket entry.1 = true
      · rw [if_pos connection, if_pos connection, induction, not_content_length connection]
        rfl
      · rw [if_neg connection, if_neg connection]
        dsimp only
        rw [induction]
        cases found with
        | true => rfl
        | false => rfl

def ownText (response : WrittenResponse) : Str :=
  response.statusLine ++ response.headers.flatMap response.shownHeader ++
    response.cookies.flatMap cookieLine

/-- The lines that come from the response itself. -/
def ownLines (response : WrittenResponse) : List Str := crlf.lines [] response.ownText

theorem ended_own_text (response : WrittenResponse) : crlf.Ended response.ownText := by
  rw [ownText]
  apply LineEnd.ended_append
  · exact LineEnd.ended_append response.ended_status_line response.ended_headers
  · exact LineEnd.ended_flat_map ended_cookie _

theorem dump_eq (response : WrittenResponse) :
    response.dump = response.ownText ++ connectionLine response.websocket response.close ++ [] ++
      addedLength (!response.hasContentLength) response.body ++
        (crlf.newline ++ response.body) := by
  rw [dump, dump_headers_eq, Bool.false_or, List.append_nil, addedLength, hasContentLength, ownText]
  dsimp only
  by_cases some : response.body ≠ []
  · rw [if_pos some]
    cases response.headers.any fun entry => isContentLength entry.1 with
    | true =>
        rw [if_pos rfl, if_neg (fun both => Bool.false_ne_true both.2), List.append_nil]
    | false =>
        rw [if_neg Bool.false_ne_true, if_pos ⟨some, rfl⟩]
        simp only [List.append_assoc]
  · rw [if_neg some, if_neg fun both => some both.1, not_not.mp some, List.append_nil,
      List.append_nil]

theorem delimited_iff (response : WrittenResponse) :
    SelfDelimiting response.dump response.body ↔
      Framed response.ownLines (!response.hasContentLength) response.body := by
  have framed := self_delimiting_framed response.ended_own_text LineEnd.ended_nil
    response.websocket response.close (!response.hasContentLength) response.body
  have whole : response.ownText ++ [] = response.ownText := List.append_nil _
  rw [whole] at framed
  rw [dump_eq, ownLines]
  exact framed

end WrittenResponse

end ChatServer.Http
