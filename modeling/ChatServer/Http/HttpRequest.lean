import ChatServer.Http2.Requests
import Mathlib.Data.List.Find

/-!
# The request that a parser fills in

`HttpRequest` with what parsing sets and reads back: the method table, the header map, the
length that a header announces, and `init`.
-/

namespace ChatServer.Http

set_option autoImplicit false

open ChatServer.Http2 (HttpMessage ascii cString sameKey)

inductive HttpMethod where
  | delete
  | get
  | head
  | post
  | put
  | connect
  | options
  | trace
  | copy
  | lock
  | mkcol
  | move
  | propfind
  | proppatch
  | search
  | unlock
  | bind
  | rebind
  | unbind
  | acl
  | report
  | mkactivity
  | checkout
  | merge
  | msearch
  | notify
  | subscribe
  | unsubscribe
  | patch
  | purge
  | mkcalendar
  | link
  | unlink
  | source
  | invalidMethod
  deriving DecidableEq, Repr

/-- `HTTP_METHOD_MAP`. -/
def httpMethodMap : List (HttpMethod × Str) := [
    (.delete, ascii "DELETE"), (.get, ascii "GET"), (.head, ascii "HEAD"),
    (.post, ascii "POST"), (.put, ascii "PUT"), (.connect, ascii "CONNECT"),
    (.options, ascii "OPTIONS"), (.trace, ascii "TRACE"), (.copy, ascii "COPY"),
    (.lock, ascii "LOCK"), (.mkcol, ascii "MKCOL"), (.move, ascii "MOVE"),
    (.propfind, ascii "PROPFIND"), (.proppatch, ascii "PROPPATCH"), (.search, ascii "SEARCH"),
    (.unlock, ascii "UNLOCK"), (.bind, ascii "BIND"), (.rebind, ascii "REBIND"),
    (.unbind, ascii "UNBIND"), (.acl, ascii "ACL"), (.report, ascii "REPORT"),
    (.mkactivity, ascii "MKACTIVITY"), (.checkout, ascii "CHECKOUT"), (.merge, ascii "MERGE"),
    (.msearch, ascii "M-SEARCH"), (.notify, ascii "NOTIFY"), (.subscribe, ascii "SUBSCRIBE"),
    (.unsubscribe, ascii "UNSUBSCRIBE"), (.patch, ascii "PATCH"), (.purge, ascii "PURGE"),
    (.mkcalendar, ascii "MKCALENDAR"), (.link, ascii "LINK"), (.unlink, ascii "UNLINK"),
    (.source, ascii "SOURCE")]

/-- `CharsToHttpMethod`: the first name of the table that the characters begin with. -/
def charsToHttpMethod (m : Str) : HttpMethod :=
  match httpMethodMap.find? fun entry => entry.2.isPrefixOf m with
  | some entry => entry.1
  | none => .invalidMethod

structure HttpRequest extends HttpMessage where
  method : HttpMethod := .get
  version : UInt8 := 0x11
  close : Bool := true
  path : Str := ascii "/"
  query : Str := []
  fragment : Str := []
  deriving DecidableEq

def digitsValue (digits : Str) : Nat :=
  digits.foldl (fun value digit => 10 * value + (digit.toNat - 48)) 0

def unsignedOf (digits : Str) : Option Nat :=
  if digits ≠ [] ∧ digits.all (fun digit => 48 ≤ digit && digit ≤ 57) = true ∧
      digitsValue digits < 2 ^ 64 then
    some (digitsValue digits)
  else none

/-- `boost::lexical_cast<uint64_t>`: a sign may stand in front, and a minus negates modulo
2^64. -/
def lexicalCast (text : Str) : Option Nat :=
  if text.head? = some 43 then unsignedOf text.tail
  else if text.head? = some 45 then
    (unsignedOf text.tail).map fun value => (2 ^ 64 - value) % 2 ^ 64
  else unsignedOf text

namespace HttpRequest

def getHeader (request : HttpRequest) (key : Str) : Str :=
  (request.toHttpMessage.find key).getD []

def setHeader (request : HttpRequest) (key val : Str) : HttpRequest :=
  { request with toHttpMessage := request.toHttpMessage.setHeader key val }

def delHeader (request : HttpRequest) (key : Str) : HttpRequest :=
  { request with headers := request.headers.filter fun entry => !sameKey entry.1 key }

/-- `getHeaderAs<uint64_t>` with the default 0. -/
def getHeaderAs (request : HttpRequest) (key : Str) : Nat :=
  ((request.toHttpMessage.find key).bind lexicalCast).getD 0

def setBody (request : HttpRequest) (body : Str) : HttpRequest :=
  { request with toHttpMessage := { request.toHttpMessage with body } }

/-- `init()`: a connection header says whether the connection ends behind the request. -/
def init (request : HttpRequest) : HttpRequest :=
  let conn := request.getHeader (ascii "connection")
  if conn ≠ [] then { request with close := !sameKey conn (ascii "keep-alive") } else request

end HttpRequest

theorem method_names_unspaced : ∀ entry ∈ httpMethodMap, (0x20 : UInt8) ∉ entry.2 := by
  decide

/-- A name is found in the text in front of a space or not at all. -/
theorem prefix_before_space {name : Str} (unspaced : (0x20 : UInt8) ∉ name) (text rest : Str) :
    name.isPrefixOf (text ++ 0x20 :: rest) = name.isPrefixOf text := by
  rw [Bool.eq_iff_iff, List.isPrefixOf_iff_prefix, List.isPrefixOf_iff_prefix]
  constructor
  · intro begins
    have upTo : text ++ [0x20] <+: text ++ 0x20 :: rest := ⟨rest, by simp⟩
    rcases List.prefix_or_prefix_of_prefix begins upTo with inside | beyond
    · rcases List.prefix_concat_iff.mp inside with whole | within
      · exact absurd (whole ▸ List.mem_append_right text List.mem_cons_self) unspaced
      · exact within
    · exact absurd (beyond.subset (List.mem_append_right text List.mem_cons_self)) unspaced
  · intro begins
    exact begins.trans (List.prefix_append _ _)

theorem chars_to_http_method_text (text rest : Str) :
    charsToHttpMethod (text ++ 0x20 :: rest) = charsToHttpMethod text := by
  have same := List.find?_congr (l := httpMethodMap) fun entry listed =>
    prefix_before_space (method_names_unspaced entry listed) text rest
  rw [charsToHttpMethod, charsToHttpMethod, same]

end ChatServer.Http
