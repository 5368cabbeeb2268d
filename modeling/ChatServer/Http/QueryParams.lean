import ChatServer.Http.ParamMap
import ChatServer.Lib.TextSearch
import ChatServer.Util.UrlCode

/-!
# Query parameters

`paramToQuery` joins the parameters without any escaping. The parser looks for the next equals
sign, takes all that stands in front of it for the key, and decodes the value up to the next
ampersand.
-/

namespace ChatServer.Http

set_option autoImplicit false

open TextSearch
open ChatServer.Http2 (ascii)
open ChatServer.Util (urlDecode Unescaped)

structure ParamRequest extends HttpRequest where
  params : ParamMap := ParamMap.empty
  parserParamFlag : UInt8 := 0

def mapJoin (entries : List Param) (_tag1 tag2 : Str) : Str :=
  match entries with
  | [] => []
  | first :: rest => first.1 ++ 0x3D :: first.2 ++
      rest.flatMap fun entry => tag2 ++ (entry.1 ++ 0x3D :: entry.2)

/-- The pairs that `PARSE_PARAM` inserts from `last` on, in order; `trim` is empty. -/
def parseParamLoop (str : Str) (flag : UInt8) : Nat → Nat → Result (List Param)
  | 0, _ => .error (.undefined .endlessLoop)
  | fuel + 1, last =>
      match find str 0x3D last with
      | none => .ok []
      | some key =>
          let name := (str.drop last).take (key - last)
          match find str flag key with
          | none => .ok [(name, urlDecode (str.drop (key + 1)) true)]
          | some pos => do
              let others ← parseParamLoop str flag fuel (pos + 1)
              .ok ((name, urlDecode ((str.drop (key + 1)).take (pos - key - 1)) true) :: others)

def parseParam (str : Str) (flag : UInt8) : Result (List Param) :=
  parseParamLoop str flag (str.length + 1) 0

namespace ParamRequest

def setParam (request : ParamRequest) (key val : Str) : ParamRequest :=
  { request with params := request.params.assign key val }

def paramToQuery (request : ParamRequest) : ParamRequest :=
  { request with query := mapJoin request.params.entries [0x3D] [0x26] }

def initQueryParam (request : ParamRequest) : Result ParamRequest :=
  if request.parserParamFlag &&& 1 ≠ 0 then .ok request
  else do
    let pairs ← parseParam request.query 0x26
    .ok { request with
      params := request.params.insertAll pairs
      parserParamFlag := request.parserParamFlag ||| 1 }

end ParamRequest

variable {key value rest text : Str} {flag : UInt8}

theorem ampersand_other : (0x26 : UInt8) ≠ 0x3D := by
  decide

theorem pair_cases (flag : UInt8) (text : Str) :
    0x3D ∉ text ∨
      (∃ key value, text = key ++ 0x3D :: value ∧ 0x3D ∉ key ∧ flag ∉ value) ∨
      ∃ key value rest, text = key ++ 0x3D :: (value ++ flag :: rest) ∧ 0x3D ∉ key ∧
        flag ∉ value := by
  rcases mark_cases (0x3D : UInt8) text with plain | ⟨key, behind, split, absent⟩
  · exact Or.inl plain
  · right
    rcases mark_cases flag behind with whole | ⟨value, rest, cut, free⟩
    · exact Or.inl ⟨key, behind, split, absent, whole⟩
    · exact Or.inr ⟨key, value, rest, by rw [split, cut], absent, free⟩

theorem parse_loop_plain (skipped : Str) (plain : 0x3D ∉ text) (fuel : Nat) :
    parseParamLoop (skipped ++ text) flag (fuel + 1) skipped.length = .ok [] := by
  rw [parseParamLoop, find_absent skipped plain]

theorem name_cut (skipped key value : Str) :
    ((skipped ++ (key ++ 0x3D :: value)).drop skipped.length).take
        (skipped.length + key.length - skipped.length) = key ∧
      (skipped ++ (key ++ 0x3D :: value)).drop (skipped.length + key.length + 1) = value := by
  constructor
  · rw [List.drop_left, Nat.add_sub_cancel_left, List.take_left]
  · have before : skipped ++ (key ++ 0x3D :: value) = skipped ++ key ++ [0x3D] ++ value := by
      simp only [List.append_assoc, List.cons_append, List.nil_append]
    have length : skipped.length + key.length + 1 = (skipped ++ key ++ [0x3D]).length := by
      simp only [List.length_append, List.length_singleton]
    rw [before, length, List.drop_left]

theorem parse_loop_last (skipped : Str) (other : flag ≠ 0x3D) (absent : 0x3D ∉ key)
    (free : flag ∉ value) (fuel : Nat) :
    parseParamLoop (skipped ++ (key ++ 0x3D :: value)) flag (fuel + 1) skipped.length =
      .ok [(key, urlDecode value true)] := by
  rcases name_cut skipped key value with ⟨name, behind⟩
  have nowhere : find (skipped ++ (key ++ 0x3D :: value)) flag (skipped.length + key.length) =
      none := by
    have all : flag ∉ 0x3D :: value := by
      rw [List.mem_cons, not_or]
      exact ⟨other, free⟩
    rw [← List.append_assoc, ← List.length_append]
    exact find_absent _ all
  rw [parseParamLoop, find_first skipped absent]
  dsimp only
  rw [nowhere]
  dsimp only
  rw [name, behind]

theorem parse_loop_next (skipped : Str) (other : flag ≠ 0x3D) (absent : 0x3D ∉ key)
    (free : flag ∉ value) (fuel : Nat) :
    parseParamLoop (skipped ++ (key ++ 0x3D :: (value ++ flag :: rest))) flag (fuel + 1)
        skipped.length =
      List.cons (key, urlDecode value true) <$>
        parseParamLoop (skipped ++ (key ++ 0x3D :: (value ++ flag :: rest))) flag fuel
          (skipped ++ key ++ 0x3D :: value ++ [flag]).length := by
  rcases name_cut skipped key (value ++ flag :: rest) with ⟨name, behind⟩
  have there : find (skipped ++ (key ++ 0x3D :: (value ++ flag :: rest))) flag
      (skipped.length + key.length) = some (skipped.length + key.length + (value.length + 1)) := by
    have all : flag ∉ 0x3D :: value := by
      rw [List.mem_cons, not_or]
      exact ⟨other, free⟩
    rw [← List.append_assoc, ← List.length_append]
    exact find_first _ all
  have place : skipped.length + key.length + (value.length + 1) -
      (skipped.length + key.length) - 1 = value.length := by omega
  have next : skipped.length + key.length + (value.length + 1) + 1 =
      (skipped ++ key ++ 0x3D :: value ++ [flag]).length := by
    simp only [List.length_append, List.length_cons, List.length_nil]
  rw [parseParamLoop, find_first skipped absent]
  dsimp only
  rw [there]
  dsimp only
  rw [name, behind, place, List.take_left, next]
  rfl

/-- The pairs depend on the text from `last` on, and a round for each of its bytes is enough. -/
theorem parse_loop_same (other : flag ≠ 0x3D) : ∀ (bound : Nat) (skipped skipped' : Str)
    {text : Str} {fuel fuel' : Nat}, text.length ≤ bound → text.length < fuel →
    text.length < fuel' →
    parseParamLoop (skipped ++ text) flag fuel skipped.length =
      parseParamLoop (skipped' ++ text) flag fuel' skipped'.length := by
  intro bound
  induction bound with
  | zero =>
      intro skipped skipped' text fuel fuel' few enough enough'
      have empty := List.length_eq_zero_iff.mp (Nat.le_zero.mp few)
      have plain : (0x3D : UInt8) ∉ text := by
        rw [empty]
        exact List.not_mem_nil
      have first : fuel = fuel - 1 + 1 := by omega
      have second : fuel' = fuel' - 1 + 1 := by omega
      rw [first, second, parse_loop_plain skipped plain, parse_loop_plain skipped' plain]
  | succ bound induction =>
      intro skipped skipped' text fuel fuel' few enough enough'
      have first : fuel = fuel - 1 + 1 := by omega
      have second : fuel' = fuel' - 1 + 1 := by omega
      rw [first, second]
      rcases pair_cases flag text with plain | ⟨key, value, split, absent, free⟩ |
        ⟨key, value, rest, split, absent, free⟩
      · rw [parse_loop_plain skipped plain, parse_loop_plain skipped' plain]
      · rw [split, parse_loop_last skipped other absent free,
          parse_loop_last skipped' other absent free]
      · have behind : ∀ front : Str, front ++ (key ++ 0x3D :: (value ++ flag :: rest)) =
            front ++ key ++ 0x3D :: value ++ [flag] ++ rest := by
          intro front
          simp only [List.append_assoc, List.cons_append, List.nil_append]
        rw [split, List.length_append, List.length_cons, List.length_append,
          List.length_cons] at few enough enough'
        rw [split, parse_loop_next skipped other absent free,
          parse_loop_next skipped' other absent free, behind skipped, behind skipped']
        apply congrArg
        exact induction _ _ (by omega) (by omega) (by omega)

theorem parse_plain (plain : 0x3D ∉ text) : parseParam text flag = .ok [] :=
  parse_loop_plain [] plain text.length

theorem parse_last (other : flag ≠ 0x3D) (absent : 0x3D ∉ key) (free : flag ∉ value) :
    parseParam (key ++ 0x3D :: value) flag = .ok [(key, urlDecode value true)] :=
  parse_loop_last [] other absent free _

theorem parse_next (other : flag ≠ 0x3D) (absent : 0x3D ∉ key) (free : flag ∉ value) :
    parseParam (key ++ 0x3D :: (value ++ flag :: rest)) flag =
      List.cons (key, urlDecode value true) <$> parseParam rest flag := by
  have step := @parse_loop_next key value rest flag [] other absent free
    (key ++ 0x3D :: (value ++ flag :: rest)).length
  have behind : [] ++ (key ++ 0x3D :: (value ++ flag :: rest)) =
      [] ++ key ++ 0x3D :: value ++ [flag] ++ rest := by
    simp only [List.append_assoc, List.cons_append, List.nil_append]
  have enough : rest.length < (key ++ 0x3D :: (value ++ flag :: rest)).length := by
    simp only [List.length_append, List.length_cons]
    omega
  rw [parseParam]
  refine step.trans ?_
  apply congrArg
  rw [behind]
  exact parse_loop_same other rest.length _ [] (Nat.le_refl _) enough
    (Nat.lt_succ_self _)

/-- The parser comes to an end, and no key has an equals sign or a byte from elsewhere. -/
theorem parse_ok (other : flag ≠ 0x3D) : ∀ (bound : Nat) {text : Str}, text.length ≤ bound →
    ∃ pairs, parseParam text flag = .ok pairs ∧
      ∀ pair ∈ pairs, 0x3D ∉ pair.1 ∧ pair.1 ⊆ text := by
  intro bound
  induction bound with
  | zero =>
      intro text few
      rw [List.length_eq_zero_iff.mp (Nat.le_zero.mp few)]
      exact ⟨[], parse_plain List.not_mem_nil, by simp⟩
  | succ bound induction =>
      intro text few
      rcases pair_cases flag text with plain | ⟨key, value, split, absent, free⟩ |
        ⟨key, value, rest, split, absent, free⟩
      · exact ⟨[], parse_plain plain, by simp⟩
      · rw [split]
        refine ⟨_, parse_last other absent free, fun pair member => ?_⟩
        rw [List.mem_singleton.mp member]
        exact ⟨absent, List.subset_append_left _ _⟩
      · rw [split, List.length_append, List.length_cons, List.length_append,
          List.length_cons] at few
        rcases induction (show rest.length ≤ bound by omega) with ⟨pairs, parsed, keys⟩
        refine ⟨(key, urlDecode value true) :: pairs, ?_, fun pair member => ?_⟩
        · rw [split, parse_next other absent free, parsed]
          rfl
        · rw [split]
          rcases List.mem_cons.mp member with first | later
          · rw [first]
            exact ⟨absent, List.subset_append_left _ _⟩
          · refine ⟨(keys pair later).1, fun byte inside => ?_⟩
            have within := (keys pair later).2 inside
            exact List.mem_append_right _ (List.mem_cons_of_mem _
              (List.mem_append_right _ (List.mem_cons_of_mem _ within)))

/-- Each piece between ampersands is read as if it were the whole query. -/
def PiecesAlone (query : Str) : Prop :=
  parseParam query 0x26 =
    List.flatten <$> (query.splitOn 0x26).mapM fun piece => parseParam piece 0x26

/-- No piece without an equals sign stands in front of one that has it. -/
def FlagsLast (query : Str) : Prop :=
  ∀ front piece back, query.splitOn 0x26 = front ++ piece :: back → 0x3D ∉ piece →
    ∀ later ∈ back, 0x3D ∉ later

theorem pieces_parsed {pieces : List Str} (free : ∀ piece ∈ pieces, 0x26 ∉ piece) :
    ∃ pairs, (pieces.mapM fun piece => parseParam piece 0x26) = .ok pairs ∧
      (∀ pair ∈ pairs.flatten, 0x26 ∉ pair.1) ∧
      ((∀ piece ∈ pieces, 0x3D ∉ piece) → pairs.flatten = []) := by
  induction pieces with
  | nil => exact ⟨[], rfl, by simp, fun _ => rfl⟩
  | cons piece pieces induction =>
      rcases induction (fun other member => free other (List.mem_cons_of_mem piece member))
        with ⟨others, parsed, keys, flags⟩
      rcases parse_ok ampersand_other piece.length (Nat.le_refl _)
        with ⟨own, here, within⟩
      refine ⟨own :: others, ?_, fun pair member => ?_, fun plain => ?_⟩
      · rw [List.mapM_cons, here, bind_ok, parsed]
        rfl
      · rw [List.flatten_cons] at member
        rcases List.mem_append.mp member with first | later
        · intro sign
          exact free piece List.mem_cons_self ((within pair first).2 sign)
        · exact keys pair later
      · rw [parse_plain (plain piece List.mem_cons_self)] at here
        rw [List.flatten_cons, ← Except.ok.inj here, List.nil_append]
        exact flags fun other member => plain other (List.mem_cons_of_mem piece member)

theorem parse_first (other : flag ≠ 0x3D) (absent : 0x3D ∉ key) (behind : Str) :
    ∃ val more, parseParam (key ++ 0x3D :: behind) flag = .ok ((key, val) :: more) := by
  rcases mark_cases flag behind with free | ⟨value, rest, split, free⟩
  · exact ⟨_, _, parse_last other absent free⟩
  · rcases parse_ok other rest.length (Nat.le_refl _) with ⟨more, parsed, -⟩
    refine ⟨urlDecode value true, more, ?_⟩
    rw [split, parse_next other absent free, parsed]
    rfl

theorem map_cons_same {Value : Type} (first : Value) (left right : Result (List Value)) :
    List.cons first <$> left = List.cons first <$> right ↔ left = right := by
  constructor
  · intro same
    cases left with
    | error fault =>
        cases right with
        | error other => exact congrArg Except.error (Except.error.inj same)
        | ok values => cases same
    | ok values =>
        cases right with
        | error fault => cases same
        | ok others => exact congrArg Except.ok (List.cons.inj (Except.ok.inj same)).2
  · intro same
    rw [same]

theorem flatten_single {Value : Type} (first : Value) (others : Result (List (List Value))) :
    (List.flatten <$> do
      let lists ← others
      pure ([first] :: lists)) = List.cons first <$> List.flatten <$> others := by
  cases others with
  | error fault => rfl
  | ok lists => rfl

theorem pieces_alone_pair {front back : Str} (free : 0x26 ∉ front) (pair : 0x3D ∈ front) :
    PiecesAlone (front ++ 0x26 :: back) ↔ PiecesAlone back := by
  rcases mark_cases (0x3D : UInt8) front with plain | ⟨key, value, split, absent⟩
  · exact absurd pair plain
  · have valueFree : 0x26 ∉ value := by
      intro sign
      rw [split] at free
      exact free (List.mem_append_right key (List.mem_cons_of_mem _ sign))
    have whole : front ++ 0x26 :: back = key ++ 0x3D :: (value ++ 0x26 :: back) := by
      rw [split, List.append_assoc, List.cons_append]
    have first : parseParam front 0x26 = .ok [(key, urlDecode value true)] := by
      rw [split, parse_last (by decide) absent valueFree]
    rw [PiecesAlone, List.splitOn_append_cons_self_of_not_mem free, whole,
      parse_next (by decide) absent valueFree, List.mapM_cons, first, bind_ok, flatten_single,
      map_cons_same, PiecesAlone]

/-- The parser treats the pieces alone exactly when all pieces without a sign come last. -/
theorem pieces_alone_iff (query : Str) : PiecesAlone query ↔ FlagsLast query := by
  induction query using pieces_induction (0x26 : UInt8) with
  | single text absent =>
      have one := List.splitOn_eq_singleton absent
      constructor
      · intro _ front piece back split
        rw [one] at split
        cases front with
        | nil =>
            injection split with _ rest
            rw [← rest]
            exact fun _ later member => absurd member List.not_mem_nil
        | cons first front =>
            injection split with _ rest
            exact absurd rest.symm (List.append_ne_nil_of_right_ne_nil _ (List.cons_ne_nil _ _))
      · intro _
        rw [PiecesAlone, one, List.mapM_cons]
        cases parseParam text 0x26 with
        | error fault => rfl
        | ok pairs => exact congrArg Except.ok (List.append_nil pairs).symm
  | next front back free induction =>
      have pieces := List.splitOn_append_cons_self_of_not_mem free back
      by_cases pair : 0x3D ∈ front
      · rw [pieces_alone_pair free pair, induction]
        constructor
        · intro last before piece behind split plain
          rw [pieces] at split
          cases before with
          | nil =>
              injection split with same
              rw [same] at pair
              exact absurd pair plain
          | cons first before =>
              injection split with _ split
              exact last before piece behind split plain
        · intro last before piece behind split
          exact last (front :: before) piece behind (by rw [pieces, split, List.cons_append])
      · rcases pieces_parsed (mark_not_mem_piece 0x26 (front ++ 0x26 :: back)) with
          ⟨pairs, parsed, keys, flags⟩
        rw [PiecesAlone, parsed]
        rcases mark_cases (0x3D : UInt8) back with plain | ⟨key, behind, split, absent⟩
        · have bare : 0x3D ∉ front ++ 0x26 :: back := by
            simp [pair, plain]
          have each : ∀ piece ∈ (front ++ 0x26 :: back).splitOn 0x26, 0x3D ∉ piece := by
            intro piece member sign
            exact bare ((mem_pieces (by decide) _).mpr ⟨piece, member, sign⟩)
          constructor
          · intro _ before piece behind split _ later member
            apply each
            rw [split]
            exact List.mem_append_right before (List.mem_cons_of_mem piece member)
          · intro _
            rw [parse_plain bare]
            exact congrArg Except.ok (flags each).symm
        · have merged : front ++ 0x26 :: back = (front ++ 0x26 :: key) ++ 0x3D :: behind := by
            rw [split, List.append_assoc, List.cons_append]
          have plainKey : 0x3D ∉ front ++ 0x26 :: key := by
            simp [pair, absent]
          rcases parse_first ampersand_other plainKey behind with ⟨val, more, first⟩
          constructor
          · intro same
            rw [merged, first] at same
            have inside := keys (front ++ 0x26 :: key, val) (by
              rw [← Except.ok.inj same]
              exact List.mem_cons_self)
            exact absurd (List.mem_append_right front List.mem_cons_self) inside
          · intro last
            have sign : 0x3D ∈ back := by
              rw [split]
              exact List.mem_append_right key List.mem_cons_self
            rcases (mem_pieces ampersand_other.symm back).mp sign with ⟨piece, member, inside⟩
            exact absurd inside (last [] front _ pieces pair piece member)

/-- A request that is given the parameters one after the other and made a query of. -/
def sentRequest (params : ParamMap) : ParamRequest :=
  (params.entries.foldl (fun request entry => request.setParam entry.1 entry.2)
    ({} : ParamRequest)).paramToQuery

def RoundTrips (params : ParamMap) : Prop :=
  ∃ received, ({ query := (sentRequest params).query } : ParamRequest).initQueryParam =
    .ok received ∧ received.params = params

/-- A parameter that joining and parsing leave as it is. -/
def Plain (entry : Param) : Prop := 0x3D ∉ entry.1 ∧ 0x26 ∉ entry.2 ∧ Unescaped entry.2

theorem set_params (entries : List Param) (request : ParamRequest) :
    (entries.foldl (fun request entry => request.setParam entry.1 entry.2) request).params =
      entries.foldl (fun params entry => params.assign entry.1 entry.2) request.params := by
  induction entries generalizing request with
  | nil => rfl
  | cons entry entries induction => exact induction _

theorem sent_query (params : ParamMap) :
    (sentRequest params).query = mapJoin params.entries [0x3D] [0x26] := by
  have same : params.entries.foldl (fun params entry => params.assign entry.1 entry.2)
      ParamMap.empty = params := by
    apply ParamMap.ext
    exact ParamMap.fold_ordered (fun _ _ => ParamMap.assign_last) params.entries params.ordered
  rw [sentRequest, ParamRequest.paramToQuery, set_params]
  exact congrArg (fun params : ParamMap => mapJoin params.entries [0x3D] [0x26]) same

theorem join_single (entry : Param) :
    mapJoin [entry] [0x3D] [0x26] = entry.1 ++ 0x3D :: entry.2 := List.append_nil _

theorem join_cons (entry next : Param) (rest : List Param) :
    mapJoin (entry :: next :: rest) [0x3D] [0x26] =
      entry.1 ++ 0x3D :: (entry.2 ++ 0x26 :: mapJoin (next :: rest) [0x3D] [0x26]) := by
  simp only [mapJoin, List.flatMap_cons, List.append_assoc, List.cons_append, List.nil_append]

theorem parse_join {entries : List Param} (plain : ∀ entry ∈ entries, Plain entry) :
    parseParam (mapJoin entries [0x3D] [0x26]) 0x26 = .ok entries := by
  induction entries with
  | nil => exact parse_plain List.not_mem_nil
  | cons entry rest induction =>
      rcases plain entry List.mem_cons_self with ⟨key, value, same⟩
      rw [← ChatServer.Util.decode_same_iff] at same
      cases rest with
      | nil => rw [join_single, parse_last (by decide) key value, same]
      | cons next rest =>
          rw [join_cons, parse_next (by decide) key value, same,
            induction fun other member => plain other (List.mem_cons_of_mem entry member)]
          rfl

theorem parse_wrong {key val : Str} (absent : 0x3D ∉ key)
    (wrong : ¬(0x26 ∉ val ∧ Unescaped val)) (rest : List Param) :
    ∃ other more, parseParam (mapJoin ((key, val) :: rest) [0x3D] [0x26]) 0x26 =
      .ok ((key, other) :: more) ∧ other ≠ val := by
  rcases mark_cases (0x26 : UInt8) val with free | ⟨front, back, split, free⟩
  · have changed : urlDecode val true ≠ val := by
      intro same
      exact wrong ⟨free, (ChatServer.Util.decode_same_iff val).mp same⟩
    cases rest with
    | nil =>
        rw [join_single]
        exact ⟨_, _, parse_last (by decide) absent free, changed⟩
    | cons next rest =>
        rcases parse_ok ampersand_other _
          (Nat.le_refl (mapJoin (next :: rest) [0x3D] [0x26]).length) with ⟨more, parsed, -⟩
        refine ⟨urlDecode val true, more, ?_, changed⟩
        rw [join_cons, parse_next (by decide) absent free, parsed]
        rfl
  · have shorter : urlDecode front true ≠ val := by
      intro same
      have length := ChatServer.Util.decode_length true front
      rw [← ChatServer.Util.url_decode_eq, same, split, List.length_append,
        List.length_cons] at length
      omega
    have cut : ∃ behind, mapJoin ((key, val) :: rest) [0x3D] [0x26] =
        key ++ 0x3D :: (front ++ 0x26 :: behind) := by
      cases rest with
      | nil => exact ⟨back, by rw [join_single, split]⟩
      | cons next rest =>
          exact ⟨back ++ 0x26 :: mapJoin (next :: rest) [0x3D] [0x26], by
            rw [join_cons, split, List.append_assoc, List.cons_append]⟩
    rcases cut with ⟨behind, whole⟩
    rcases parse_ok ampersand_other behind.length (Nat.le_refl _) with ⟨more, parsed, -⟩
    refine ⟨urlDecode front true, more, ?_, shorter⟩
    rw [whole, parse_next (by decide) absent free, parsed]
    rfl

theorem parse_up_to_wrong {entries : List Param} (keys : ∀ entry ∈ entries, 0x3D ∉ entry.1) :
    (∀ entry ∈ entries, Plain entry) ∨
      ∃ good key val rest other more, entries = good ++ (key, val) :: rest ∧
        parseParam (mapJoin entries [0x3D] [0x26]) 0x26 = .ok (good ++ (key, other) :: more) ∧
        other ≠ val := by
  induction entries with
  | nil => exact Or.inl (by simp)
  | cons entry rest induction =>
      rcases entry with ⟨key, val⟩
      have absent := keys (key, val) List.mem_cons_self
      by_cases plain : 0x26 ∉ val ∧ Unescaped val
      · rcases induction (fun other member => keys other (List.mem_cons_of_mem _ member)) with
          all | ⟨good, badKey, badVal, others, other, more, split, parsed, wrong⟩
        · left
          intro other member
          rcases List.mem_cons.mp member with same | later
          · rw [same]
            exact ⟨absent, plain⟩
          · exact all other later
        · right
          refine ⟨(key, val) :: good, badKey, badVal, others, other, more, ?_, ?_, wrong⟩
          · rw [split, List.cons_append]
          · cases rest with
            | nil => exact absurd split.symm (List.append_ne_nil_of_right_ne_nil _
                (List.cons_ne_nil _ _))
            | cons next rest =>
                rw [join_cons, parse_next (by decide) absent plain.1, parsed,
                  (ChatServer.Util.decode_same_iff val).mpr plain.2]
                rfl
      · right
        rcases parse_wrong absent plain rest with ⟨other, more, parsed, wrong⟩
        exact ⟨[], key, val, rest, other, more, rfl, parsed, wrong⟩

theorem round_trips_parsed {params : ParamMap} {pairs : List Param}
    (parsed : parseParam (mapJoin params.entries [0x3D] [0x26]) 0x26 = .ok pairs) :
    RoundTrips params ↔ ParamMap.empty.insertAll pairs = params := by
  have received : ({ query := (sentRequest params).query } : ParamRequest).initQueryParam =
      .ok { query := (sentRequest params).query, params := ParamMap.empty.insertAll pairs,
            parserParamFlag := 0 ||| 1 } := by
    rw [ParamRequest.initQueryParam, if_neg (not_not_intro (show (0 : UInt8) &&& 1 = 0 from rfl))]
    dsimp only
    rw [sent_query, parsed]
    rfl
  rw [RoundTrips, received]
  constructor
  · rintro ⟨request, same, result⟩
    rw [← Except.ok.inj same] at result
    exact result
  · intro result
    exact ⟨_, rfl, result⟩

theorem round_trips_iff (params : ParamMap) :
    RoundTrips params ↔ ∀ entry ∈ params.entries, Plain entry := by
  constructor
  · intro same
    rcases parse_ok ampersand_other _
      (Nat.le_refl (mapJoin params.entries [0x3D] [0x26]).length) with ⟨pairs, parsed, names⟩
    rw [round_trips_parsed parsed] at same
    have contents := ParamMap.insert_all_mem pairs ParamMap.empty
    rw [same] at contents
    have keys : ∀ entry ∈ params.entries, 0x3D ∉ entry.1 := by
      intro entry member
      rcases contents.1 entry member with impossible | inside
      · exact absurd impossible List.not_mem_nil
      · exact (names entry inside).1
    rcases parse_up_to_wrong keys with
      all | ⟨good, key, val, rest, other, more, split, stopped, wrong⟩
    · exact all
    · have ordered := params.ordered
      rw [parsed] at stopped
      rw [Except.ok.inj stopped, ParamMap.insertAll, List.foldl_append, List.foldl_cons] at same
      rw [split] at ordered
      rcases List.pairwise_append.mp ordered with ⟨goodOrdered, -, across⟩
      have front := ParamMap.insert_all_ordered goodOrdered
      have placed : (ParamMap.insert (ParamMap.empty.insertAll good) (key, other)).entries =
          good ++ [(key, other)] := by
        rw [ParamMap.insert_last, front]
        intro entry member
        rw [front] at member
        exact across entry member (key, val) List.mem_cons_self
      have stays := (ParamMap.insert_all_mem more
        (ParamMap.insert (ParamMap.empty.insertAll good) (key, other))).2
        (key, other) (by
          rw [placed]
          exact List.mem_append_right good List.mem_cons_self)
      have inside : (key, other) ∈ params.entries := by
        rw [← same]
        exact stays
      have stored : (key, val) ∈ params.entries := by
        rw [split]
        exact List.mem_append_right good List.mem_cons_self
      exact absurd (ParamMap.value_unique inside stored) wrong
  · intro plain
    rw [round_trips_parsed (parse_join plain)]
    apply ParamMap.ext
    exact ParamMap.insert_all_ordered params.ordered

/-- The parameters come back when nothing in them would have to be escaped, and a query is read
piece by piece when its bare flags come last. -/
theorem query_params_iff (params : ParamMap) (query : Str) :
    (RoundTrips params ↔ ∀ entry ∈ params.entries,
        0x3D ∉ entry.1 ∧ 0x26 ∉ entry.2 ∧ Unescaped entry.2) ∧
      (PiecesAlone query ↔ ∀ front piece back, query.splitOn 0x26 = front ++ piece :: back →
        0x3D ∉ piece → ∀ later ∈ back, 0x3D ∉ later) :=
  ⟨round_trips_iff params, pieces_alone_iff query⟩

/-- A value with an ampersand in it becomes two parameters, and a flag a part of the next key. -/
theorem query_params_wrong :
    ¬RoundTrips ⟨[(ascii "a", ascii "1&b=2")], List.pairwise_singleton _ _⟩ ∧
      ¬PiecesAlone (ascii "flag&a=1") := by
  constructor
  · rw [round_trips_iff]
    intro plain
    exact absurd (plain (ascii "a", ascii "1&b=2") List.mem_cons_self).2.1 (by decide)
  · intro alone
    have whole : parseParam (ascii "flag&a=1") 0x26 = .ok [(ascii "flag&a", ascii "1")] := by
      decide +kernel
    have pieces : (ascii "flag&a=1").splitOn 0x26 = [ascii "flag", ascii "a=1"] := by
      decide +kernel
    have each : (([ascii "flag", ascii "a=1"].mapM fun piece => parseParam piece 0x26)) =
        .ok [[], [(ascii "a", ascii "1")]] := by
      decide +kernel
    rw [PiecesAlone, whole, pieces, each] at alone
    exact absurd (Except.ok.inj alone) (by decide +kernel)

end ChatServer.Http
