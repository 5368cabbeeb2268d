import ChatServer.Http.HttpRequest
import ChatServer.Lib.TextSearch

/-!
# The URI of a request

`setUri` cuts a URI at the first question mark, and only what follows that at a number sign. A
field that the URI does not mention keeps its old value.
-/

namespace ChatServer.Http

set_option autoImplicit false

open ChatServer.Http2 (ascii)
open TextSearch

namespace HttpRequest

def setUri (request : HttpRequest) (uri : Str) : HttpRequest :=
  match find uri 0x3F 0 with
  | none =>
      match find uri 0x23 0 with
      | none => { request with path := uri }
      | some pos2 => { request with path := uri.take pos2, fragment := uri.drop (pos2 + 1) }
  | some pos =>
      match find uri 0x23 (pos + 1) with
      | none => { request with path := uri.take pos, query := uri.drop (pos + 1) }
      | some pos2 =>
          { request with
            path := uri.take pos
            query := (uri.drop (pos + 1)).take (pos2 - pos - 1)
            fragment := uri.drop (pos2 + 1) }

def getUri (request : HttpRequest) : Str :=
  request.path ++ (if request.query = [] then [] else 0x3F :: request.query)
    ++ (if request.fragment = [] then [] else 0x23 :: request.fragment)

end HttpRequest

/-- A URI reference taken apart, with `none` for a part that is not there. -/
structure UriParts where
  path : Str
  query : Option Str
  fragment : Option Str
  pathPlain : 0x3F ∉ path ∧ 0x23 ∉ path
  queryPlain : ∀ text, query = some text → 0x23 ∉ text

namespace UriParts

def marked (mark : UInt8) : Option Str → Str
  | none => []
  | some text => mark :: text

def text (parts : UriParts) : Str :=
  parts.path ++ (marked 0x3F parts.query ++ marked 0x23 parts.fragment)

end UriParts

theorem cut_query_plain (uri text : Str)
    (query : (cut 0x3F (cut 0x23 uri).1).2 = some text) : 0x23 ∉ text := by
  have absent := cut_front_absent (0x23 : UInt8) uri
  rcases mark_cases (0x3F : UInt8) (cut 0x23 uri).1 with plain | ⟨front, back, split, plain⟩
  · rw [cut_absent plain] at query
    exact absurd query (Option.some_ne_none text).symm
  · rw [split, cut_first plain] at query
    injection query with same
    rw [split, same] at absent
    intro member
    exact absent (List.mem_append_right front (List.mem_cons_of_mem _ member))

theorem cut_path_plain (uri : Str) :
    0x3F ∉ (cut 0x3F (cut (0x23 : UInt8) uri).1).1 ∧
      0x23 ∉ (cut 0x3F (cut (0x23 : UInt8) uri).1).1 :=
  ⟨cut_front_absent _ _, fun member => cut_front_absent 0x23 uri (cut_front_subset _ _ member)⟩

/-- The fragment follows the first number sign, the query the first question mark before it. -/
def splitUri (uri : Str) : UriParts :=
  { path := (cut 0x3F (cut 0x23 uri).1).1
    query := (cut 0x3F (cut 0x23 uri).1).2
    fragment := (cut 0x23 uri).2
    pathPlain := cut_path_plain uri
    queryPlain := cut_query_plain uri }

theorem split_text (parts : UriParts) :
    (splitUri parts.text).path = parts.path ∧ (splitUri parts.text).query = parts.query ∧
      (splitUri parts.text).fragment = parts.fragment := by
  rcases parts with ⟨path, query, fragment, ⟨noQuery, noFragment⟩, queryPlain⟩
  have front : 0x23 ∉ path ++ UriParts.marked 0x3F query := by
    intro member
    rcases List.mem_append.mp member with inside | behind
    · exact noFragment inside
    · cases query with
      | none => exact absurd behind List.not_mem_nil
      | some text =>
          rcases List.mem_cons.mp behind with sign | inside
          · exact absurd sign (by decide)
          · exact queryPlain text rfl inside
  have outer : cut 0x23 (path ++ (UriParts.marked 0x3F query ++ UriParts.marked 0x23 fragment)) =
      (path ++ UriParts.marked 0x3F query, fragment) := by
    rw [← List.append_assoc]
    cases fragment with
    | none =>
        rw [UriParts.marked, List.append_nil]
        exact cut_absent front
    | some text => exact cut_first front
  have inner : cut 0x3F (path ++ UriParts.marked 0x3F query) = (path, query) := by
    cases query with
    | none =>
        rw [UriParts.marked, List.append_nil]
        exact cut_absent noQuery
    | some text => exact cut_first noQuery
  simp only [splitUri, UriParts.text, outer, inner, and_self]

theorem text_split (uri : Str) : (splitUri uri).text = uri := by
  have front : (cut 0x3F (cut (0x23 : UInt8) uri).1).1 ++
      UriParts.marked 0x3F (cut 0x3F (cut (0x23 : UInt8) uri).1).2 =
        (cut (0x23 : UInt8) uri).1 := by
    rcases mark_cases (0x3F : UInt8) (cut 0x23 uri).1 with plain | ⟨front, back, split, plain⟩
    · rw [cut_absent plain]
      exact List.append_nil _
    · rw [split, cut_first plain]
      rfl
  simp only [splitUri, UriParts.text]
  rw [← List.append_assoc, front]
  rcases mark_cases (0x23 : UInt8) uri with plain | ⟨front, back, split, plain⟩
  · rw [cut_absent plain]
    exact List.append_nil _
  · rw [split, cut_first plain]
    rfl

namespace HttpRequest

theorem set_uri_plain (request : HttpRequest) {path : Str} {fragment : Option Str}
    (noFragment : 0x23 ∉ path) (noQuery : 0x3F ∉ path ++ UriParts.marked 0x23 fragment) :
    request.setUri (path ++ UriParts.marked 0x23 fragment) =
      { request with path, fragment := fragment.getD request.fragment } := by
  have first : find (path ++ UriParts.marked 0x23 fragment) 0x3F 0 = none :=
    find_absent [] noQuery
  rw [setUri, first]
  dsimp only
  cases fragment with
  | none =>
      rw [UriParts.marked, List.append_nil]
      have second : find path 0x23 0 = none := find_absent [] noFragment
      rw [second, Option.getD_none]
  | some text =>
      have second : find (path ++ 0x23 :: text) 0x23 0 = some (0 + path.length) :=
        find_first [] noFragment
      have behind : path.length + 1 = (path ++ [0x23]).length := by
        rw [List.length_append, List.length_singleton]
      have cut : path ++ 0x23 :: text = path ++ [0x23] ++ text := by
        rw [List.append_assoc, List.singleton_append]
      rw [UriParts.marked, second, Nat.zero_add]
      dsimp only
      rw [List.take_left, behind, cut, List.drop_left, Option.getD_some]

theorem set_uri_query (request : HttpRequest) {path query : Str} {fragment : Option Str}
    (noQuery : 0x3F ∉ path) (noFragment : 0x23 ∉ query) :
    request.setUri (path ++ 0x3F :: (query ++ UriParts.marked 0x23 fragment)) =
      { request with path, query, fragment := fragment.getD request.fragment } := by
  have first : find (path ++ 0x3F :: (query ++ UriParts.marked 0x23 fragment)) 0x3F 0 =
      some (0 + path.length) := find_first [] noQuery
  have behind : path.length + 1 = (path ++ [0x3F]).length := by
    rw [List.length_append, List.length_singleton]
  have cut : ∀ rest, path ++ 0x3F :: rest = path ++ [0x3F] ++ rest := by
    intro rest
    rw [List.append_assoc, List.singleton_append]
  rw [setUri, first, Nat.zero_add]
  dsimp only
  rw [List.take_left, behind, cut, List.drop_left]
  cases fragment with
  | none =>
      rw [UriParts.marked, List.append_nil, find_absent _ noFragment, Option.getD_none]
  | some text =>
      have place : (path ++ [0x3F]).length + query.length - path.length - 1 = query.length := by
        rw [← behind]
        omega
      have further : (path ++ [0x3F]).length + query.length + 1 =
          (path ++ [0x3F] ++ query ++ [0x23]).length := by
        simp only [List.length_append, List.length_singleton]
      have cutAgain : path ++ [0x3F] ++ (query ++ 0x23 :: text) =
          path ++ [0x3F] ++ query ++ [0x23] ++ text := by
        simp only [List.append_assoc, List.cons_append, List.nil_append]
      rw [UriParts.marked, find_first _ noFragment]
      dsimp only
      rw [place, List.take_left, further, cutAgain, List.drop_left, Option.getD_some]

theorem set_uri_hidden (request : HttpRequest) {front rest : Str} (plain : 0x3F ∉ front) :
    (request.setUri (front ++ 0x3F :: rest)).path = front := by
  have first : find (front ++ 0x3F :: rest) 0x3F 0 = some (0 + front.length) :=
    find_first [] plain
  rw [setUri, first, Nat.zero_add]
  dsimp only
  split
  · exact List.take_left
  · exact List.take_left

/-- What setting a URI is to do: the parts are in their fields, and `getUri` gives the URI back
unless a part is empty. -/
def SplitsRight (request : HttpRequest) (uri : Str) : Prop :=
  (request.setUri uri).path = (splitUri uri).path ∧
    (request.setUri uri).query = (splitUri uri).query.getD [] ∧
    (request.setUri uri).fragment = (splitUri uri).fragment.getD [] ∧
    ((splitUri uri).query ≠ some [] → (splitUri uri).fragment ≠ some [] →
      (request.setUri uri).getUri = uri)

theorem get_uri_text {request : HttpRequest} {parts : UriParts}
    (path : request.path = parts.path) (query : request.query = parts.query.getD [])
    (fragment : request.fragment = parts.fragment.getD []) (someQuery : parts.query ≠ some [])
    (someFragment : parts.fragment ≠ some []) : request.getUri = parts.text := by
  have shown : ∀ (mark : UInt8) (part : Option Str), part ≠ some [] →
      (if part.getD [] = [] then [] else mark :: part.getD []) = UriParts.marked mark part := by
    intro mark part nonempty
    cases part with
    | none => rfl
    | some text =>
        apply if_neg
        intro empty
        exact nonempty (congrArg some empty)
  rw [getUri, path, query, fragment, shown 0x3F _ someQuery, shown 0x23 _ someFragment,
    UriParts.text, List.append_assoc]

theorem get_d_same (part : Option Str) (old : Str) :
    part.getD old = part.getD [] ↔ part ≠ none ∨ old = [] := by
  cases part with
  | none =>
      constructor
      · exact Or.inr
      · rintro (impossible | empty)
        · exact absurd rfl impossible
        · exact empty
  | some text => exact ⟨fun _ => Or.inl (Option.some_ne_none text), fun _ => rfl⟩

theorem fragment_mem (parts : UriParts) : 0x23 ∈ parts.text ↔ parts.fragment ≠ none := by
  rcases parts with ⟨path, query, fragment, ⟨noQuery, noFragment⟩, queryPlain⟩
  cases fragment with
  | none =>
      constructor
      · intro member
        rcases List.mem_append.mp member with inside | behind
        · exact absurd inside noFragment
        · rw [UriParts.marked, List.append_nil] at behind
          cases query with
          | none => exact absurd behind List.not_mem_nil
          | some text =>
              rcases List.mem_cons.mp behind with sign | inside
              · exact absurd sign (by decide)
              · exact absurd inside (queryPlain text rfl)
      · intro present
        exact absurd rfl present
  | some text =>
      constructor
      · intro _
        exact Option.some_ne_none text
      · intro _
        exact List.mem_append_right _ (List.mem_append_right _ List.mem_cons_self)

theorem hidden_sign {path front back : Str} {fragment : Option Str} (noQuery : 0x3F ∉ path)
    (split : path ++ UriParts.marked 0x23 fragment = front ++ 0x3F :: back) : 0x23 ∈ front := by
  rcases List.append_eq_append_iff.mp split with ⟨more, whole, rest⟩ | ⟨more, whole, rest⟩
  · cases fragment with
    | none =>
        have empty := (List.append_eq_nil_iff.mp rest.symm).2
        exact absurd empty (List.cons_ne_nil _ _)
    | some text =>
        cases more with
        | nil =>
            injection rest with sign
            exact absurd sign (by decide)
        | cons sign more =>
            injection rest with sign
            rw [whole, ← sign]
            exact List.mem_append_right path List.mem_cons_self
  · cases more with
    | nil =>
        cases fragment with
        | none => exact absurd rest (List.cons_ne_nil _ _)
        | some text =>
            injection rest with sign
            exact absurd sign (by decide)
    | cons sign more =>
        injection rest with sign
        rw [whole, ← sign] at noQuery
        exact absurd (List.mem_append_right front List.mem_cons_self) noQuery

theorem marked_query (path text : Str) (fragment : Option Str) :
    path ++ (UriParts.marked 0x3F (some text) ++ UriParts.marked 0x23 fragment) =
      path ++ 0x3F :: (text ++ UriParts.marked 0x23 fragment) := rfl

/-- The fields are those of the parts if the text shows them in order and mentions them. -/
theorem fields_iff (request : HttpRequest) (parts : UriParts) :
    ((request.setUri parts.text).path = parts.path ∧
        (request.setUri parts.text).query = parts.query.getD [] ∧
        (request.setUri parts.text).fragment = parts.fragment.getD []) ↔
      (0x3F ∈ parts.text → 0x23 ∉ (cut 0x3F parts.text).1) ∧
        (0x3F ∈ parts.text ∨ request.query = []) ∧
        (0x23 ∈ parts.text ∨ request.fragment = []) := by
  rw [fragment_mem]
  rcases parts with ⟨path, query, fragment, ⟨noQuery, noFragment⟩, queryPlain⟩
  rw [UriParts.text]
  dsimp only
  cases query with
  | some text =>
      have inside : 0x3F ∈ path ++ 0x3F :: (text ++ UriParts.marked 0x23 fragment) :=
        List.mem_append_right _ List.mem_cons_self
      rw [marked_query, set_uri_query request noQuery (queryPlain text rfl), cut_first noQuery]
      constructor
      · rintro ⟨-, -, same⟩
        exact ⟨fun _ => noFragment, Or.inl inside, (get_d_same _ _).mp same⟩
      · rintro ⟨-, -, mentioned⟩
        exact ⟨rfl, rfl, (get_d_same _ _).mpr mentioned⟩
  | none =>
      have bare : path ++ (UriParts.marked 0x3F none ++ UriParts.marked 0x23 fragment) =
          path ++ UriParts.marked 0x23 fragment := rfl
      rw [bare]
      rcases mark_cases (0x3F : UInt8) (path ++ UriParts.marked 0x23 fragment) with
        absent | ⟨front, back, split, absent⟩
      · rw [set_uri_plain request noFragment absent]
        constructor
        · rintro ⟨-, old, same⟩
          exact ⟨fun inside => absurd inside absent, Or.inr old, (get_d_same _ _).mp same⟩
        · rintro ⟨-, old, mentioned⟩
          exact ⟨rfl, old.resolve_left absent, (get_d_same _ _).mpr mentioned⟩
      · have hidden : 0x23 ∈ front := hidden_sign noQuery split
        constructor
        · rintro ⟨same, -⟩
          rw [split, set_uri_hidden request absent] at same
          rw [same] at hidden
          exact absurd hidden noFragment
        · rintro ⟨before, -⟩
          have inside : 0x3F ∈ path ++ UriParts.marked 0x23 fragment := by
            rw [split]
            exact List.mem_append_right _ List.mem_cons_self
          have early := before inside
          rw [split, cut_first absent] at early
          exact absurd hidden early

/-- `setUri` is right when no number sign precedes the first question mark, and a field that the
URI does not mention was empty. -/
theorem set_uri_iff (request : HttpRequest) (uri : Str) :
    request.SplitsRight uri ↔
      (0x3F ∈ uri → 0x23 ∉ (cut 0x3F uri).1) ∧ (0x3F ∈ uri ∨ request.query = []) ∧
        (0x23 ∈ uri ∨ request.fragment = []) := by
  have fields := request.fields_iff (splitUri uri)
  rw [text_split] at fields
  rw [← fields]
  constructor
  · rintro ⟨path, query, fragment, -⟩
    exact ⟨path, query, fragment⟩
  · rintro ⟨path, query, fragment⟩
    exact ⟨path, query, fragment, fun someQuery someFragment =>
      (get_uri_text path query fragment someQuery someFragment).trans (text_split uri)⟩

/-- A URI without a query keeps the query of the one before it, and a question mark in the
fragment is taken for the start of a query. -/
theorem uri_parts_wrong :
    ¬({ query := ascii "a=1" } : HttpRequest).SplitsRight (ascii "/p") ∧
      ¬({} : HttpRequest).SplitsRight (ascii "/p#a?b") := by
  constructor
  · rintro ⟨-, query, -⟩
    exact absurd query (by decide +kernel)
  · rintro ⟨path, -⟩
    exact absurd path (by decide +kernel)

end HttpRequest

end ChatServer.Http
