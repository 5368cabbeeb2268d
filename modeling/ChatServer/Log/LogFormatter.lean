import ChatServer.Http2.DynamicTable

/-!
# Patterns of log lines

`LogFormatter::init` of `log.cc` takes a pattern apart into texts and directives. An escaped
percent sign is appended once, but the scan goes on with the second sign, which then begins
a directive.
-/

namespace ChatServer.Log

set_option autoImplicit false

open ChatServer.Http2 (ascii)

def percent : UInt8 := 0x25
def openBrace : UInt8 := 0x7B
def closeBrace : UInt8 := 0x7D

def isalpha (c : UInt8) : Bool := (65 ≤ c && c ≤ 90) || (97 ≤ c && c ≤ 122)

inductive Directive where
  | message | level | elapse | name | threadId | newLine
  | dateTime | filename | line | tab | fiberId | threadName
  deriving DecidableEq

def formatItems : List (Str × Directive) := [
    (ascii "m", .message), (ascii "p", .level), (ascii "r", .elapse), (ascii "c", .name),
    (ascii "t", .threadId), (ascii "n", .newLine), (ascii "d", .dateTime), (ascii "f", .filename),
    (ascii "l", .line), (ascii "T", .tab), (ascii "F", .fiberId), (ascii "N", .threadName)]

/-- An entry of `vec`: type 0 or type 1. -/
inductive Entry where
  | literal (str : Str)
  | directive (str fmt : Str)
  deriving DecidableEq

/-- An element of `m_items`: a text, or an object of a class of the table made with `fmt`. -/
inductive FormatItem where
  | string (text : Str)
  | known (kind : Directive) (fmt : Str)
  deriving DecidableEq

/-- The inner loop from the brace on, with `fmt_status` 1: the name, the format and what is
behind the closing brace. -/
def fmtLoop (str fmt : Str) : Str → Option (Str × Str × Str)
  | [] => none
  | c :: rest => if c = closeBrace then some (str, fmt, rest) else fmtLoop str (fmt ++ [c]) rest

/-- The inner loop while `fmt_status` is 0. `str` is what lies between `i + 1` and `n`; at the
end of the pattern it is the name too. -/
def nameLoop (str : Str) : Str → Option (Str × Str × Str)
  | [] => some (str, [], [])
  | c :: rest =>
      if isalpha c = false ∧ c ≠ openBrace ∧ c ≠ closeBrace then some (str, [], c :: rest)
      else if c = openBrace then fmtLoop str [] rest
      else nameLoop (str ++ [c]) rest

/-- The text that has been gathered, if there is any. -/
def flush (nstr : Str) : List Entry := if nstr = [] then [] else [.literal nstr]

def patternError : Str := ascii "<<pattern_error>>"

/-- The outer loop over what is left of the pattern, with a bound on its rounds. A format
without its closing brace is an error, and the scan goes on behind the percent sign. -/
def scan : Nat → Str → Str → List Entry → Bool → Result (List Entry × Bool)
  | _, [], nstr, vec, error => .ok (vec ++ flush nstr, error)
  | 0, _ :: _, _, _, _ => .error (.undefined .endlessLoop)
  | fuel + 1, c :: rest, nstr, vec, error =>
      if c ≠ percent then scan fuel rest (nstr ++ [c]) vec error
      else if rest.head? = some percent then scan fuel rest (nstr ++ [percent]) vec error
      else
        match nameLoop [] rest with
        | some (str, fmt, behind) =>
            scan fuel behind [] (vec ++ flush nstr ++ [.directive str fmt]) error
        | none => scan fuel rest nstr (vec ++ [.literal patternError]) true

/-- The item for an entry, and whether its name is not in the table. -/
def makeItem : Entry → FormatItem × Bool
  | .literal str => (.string str, false)
  | .directive str fmt =>
      match formatItems.lookup str with
      | none => (.string (ascii "<<error_format %" ++ str ++ ascii ">>"), true)
      | some kind => (.known kind fmt, false)

/-- `m_items` and `m_error`. -/
def init (pattern : Str) : Result (List FormatItem × Bool) := do
  let (vec, error) ← scan pattern.length pattern [] [] false
  .ok (vec.map fun entry => (makeItem entry).1, error || vec.any fun entry => (makeItem entry).2)

structure Format where
  text : Str
  plain : closeBrace ∉ text

inductive Item where
  | literal (text : Str)
  | directive (kind : Directive) (format : Option Format)

def Directive.letter : Directive → UInt8
  | .message => 0x6D
  | .level => 0x70
  | .elapse => 0x72
  | .name => 0x63
  | .threadId => 0x74
  | .newLine => 0x6E
  | .dateTime => 0x64
  | .filename => 0x66
  | .line => 0x6C
  | .tab => 0x54
  | .fiberId => 0x46
  | .threadName => 0x4E

def escapePercent (text : Str) : Str :=
  text.flatMap fun c => if c = percent then [percent, percent] else [c]

def Item.render : Item → Str
  | .literal text => escapePercent text
  | .directive kind none => [percent, kind.letter]
  | .directive kind (some format) =>
      [percent, kind.letter, openBrace] ++ format.text ++ [closeBrace]

def render (items : List Item) : Str := items.flatMap Item.render

def formatText : Option Format → Str
  | none => []
  | some format => format.text

def flushItem (nstr : Str) : List FormatItem := if nstr = [] then [] else [.string nstr]

/-- The items that should come out: literals that stand together merged, `nstr` the part that
came before. -/
def merged : Str → List Item → List FormatItem
  | nstr, [] => flushItem nstr
  | nstr, .literal text :: rest => merged (nstr ++ text) rest
  | nstr, .directive kind format :: rest =>
      flushItem nstr ++ .known kind (formatText format) :: merged [] rest

def leading : List Item → Str
  | .literal text :: rest => text ++ leading rest
  | _ => []

/-- The text behind a directive without braces does not go on with its name. -/
def Separated : List Item → Prop
  | [] => True
  | .directive _ none :: rest =>
      (∀ c, (leading rest).head? = some c → isalpha c = false ∧ c ≠ openBrace ∧ c ≠ closeBrace) ∧
        Separated rest
  | .directive _ (some _) :: rest => Separated rest
  | .literal _ :: rest => Separated rest

/-- The items come out and there is no error. -/
def Parsed (items : List Item) : Prop := init (render items) = .ok (merged [] items, false)

variable {str fmt nstr rest : Str}

theorem fmt_loop_cut {out : Str × Str × Str} (fmt : Str) (done : fmtLoop str fmt rest = some out) :
    ∃ inside, rest = inside ++ closeBrace :: out.2.2 ∧ out.1 = str ∧ out.2.1 = fmt ++ inside := by
  induction rest generalizing fmt with
  | nil => cases done
  | cons c rest induction =>
      rw [fmtLoop] at done
      by_cases closes : c = closeBrace
      · rw [if_pos closes] at done
        cases done
        exact ⟨[], by rw [closes, List.nil_append], rfl, (List.append_nil fmt).symm⟩
      · rw [if_neg closes] at done
        rcases induction (fmt ++ [c]) done with ⟨inside, split, name, format⟩
        refine ⟨c :: inside, by rw [split, List.cons_append], name, ?_⟩
        rw [format, List.append_assoc, List.singleton_append]

/-- What the inner loop takes has one part without a percent sign and one that is the format. -/
theorem name_loop_cut {out : Str × Str × Str} (str : Str) (done : nameLoop str rest = some out) :
    ∃ name, percent ∉ name ∧
      (rest = name ++ out.2.2 ∧ out.2.1 = [] ∨
        rest = name ++ openBrace :: (out.2.1 ++ closeBrace :: out.2.2)) := by
  induction rest generalizing str with
  | nil =>
      cases done
      exact ⟨[], List.not_mem_nil, Or.inl ⟨rfl, rfl⟩⟩
  | cons c rest induction =>
      rw [nameLoop] at done
      by_cases stops : isalpha c = false ∧ c ≠ openBrace ∧ c ≠ closeBrace
      · rw [if_pos stops] at done
        cases done
        exact ⟨[], List.not_mem_nil, Or.inl ⟨rfl, rfl⟩⟩
      · rw [if_neg stops] at done
        by_cases opens : c = openBrace
        · rw [if_pos opens] at done
          rcases fmt_loop_cut [] done with ⟨inside, split, _, format⟩
          refine ⟨[], List.not_mem_nil, Or.inr ?_⟩
          rw [format, opens, split, List.nil_append, List.nil_append]
        · rw [if_neg opens] at done
          rcases induction (str ++ [c]) done with ⟨name, plain, cut⟩
          have other : percent ≠ c := by
            intro same
            rw [← same] at stops
            exact stops (by decide)
          refine ⟨c :: name, ?_, ?_⟩
          · rw [List.mem_cons, not_or]
            exact ⟨other, plain⟩
          · rcases cut with ⟨split, format⟩ | split
            · exact Or.inl ⟨by rw [List.cons_append, ← split], format⟩
            · exact Or.inr (by rw [List.cons_append, ← split])

theorem name_loop_shorter {out : Str × Str × Str} (done : nameLoop [] rest = some out) :
    out.2.2.length ≤ rest.length := by
  rcases name_loop_cut [] done with ⟨name, _, ⟨split, _⟩ | split⟩
  · rw [split, List.length_append]
    exact Nat.le_add_left _ _
  · rw [split]
    simp only [List.length_append, List.length_cons]
    omega

theorem scan_returns (fuel : Nat) : ∀ (rest nstr : Str) (vec : List Entry) (error : Bool),
    rest.length ≤ fuel → ∃ out, scan fuel rest nstr vec error = .ok out := by
  induction fuel with
  | zero =>
      intro rest nstr vec error enough
      rw [List.length_eq_zero_iff.mp (Nat.le_zero.mp enough)]
      exact ⟨_, rfl⟩
  | succ fuel induction =>
      intro rest nstr vec error enough
      cases rest with
      | nil => exact ⟨_, rfl⟩
      | cons c rest =>
          have shorter : rest.length ≤ fuel := Nat.le_of_succ_le_succ enough
          rw [scan]
          split
          · exact induction _ _ _ _ shorter
          · split
            · exact induction _ _ _ _ shorter
            · split
              · rename_i taken
                exact induction _ _ _ _ (Nat.le_trans (name_loop_shorter taken) shorter)
              · exact induction _ _ _ _ shorter

theorem init_returns (pattern : Str) : ∃ parsed, init pattern = .ok parsed := by
  rcases scan_returns pattern.length pattern [] [] false (Nat.le_refl _) with ⟨out, done⟩
  rw [init, done]
  exact ⟨_, rfl⟩

def Entry.percents : Entry → Nat
  | .literal str => str.count percent
  | .directive _ fmt => 1 + fmt.count percent

def FormatItem.percents : FormatItem → Nat
  | .string text => text.count percent
  | .known _ fmt => 1 + fmt.count percent

def vecPercents (vec : List Entry) : Nat := (vec.map Entry.percents).sum

def itemPercents (items : List FormatItem) : Nat := (items.map FormatItem.percents).sum

theorem vec_percents_append (front back : List Entry) :
    vecPercents (front ++ back) = vecPercents front + vecPercents back := by
  rw [vecPercents, List.map_append, List.sum_append, vecPercents, vecPercents]

theorem item_percents_append (front back : List FormatItem) :
    itemPercents (front ++ back) = itemPercents front + itemPercents back := by
  rw [itemPercents, List.map_append, List.sum_append, itemPercents, itemPercents]

theorem item_percents_cons (item : FormatItem) (items : List FormatItem) :
    itemPercents (item :: items) = item.percents + itemPercents items := List.sum_cons

theorem flush_percents (nstr : Str) : vecPercents (flush nstr) = nstr.count percent := by
  rw [flush]
  split
  · rename_i empty
    rw [empty]
    rfl
  · exact Nat.add_zero _

theorem flush_item_percents (nstr : Str) : itemPercents (flushItem nstr) = nstr.count percent := by
  rw [flushItem]
  split
  · rename_i empty
    rw [empty]
    rfl
  · exact Nat.add_zero _

theorem name_loop_percents {out : Str × Str × Str} (done : nameLoop [] rest = some out) :
    rest.count percent = out.2.1.count percent + out.2.2.count percent := by
  have brace : ∀ c, c = openBrace ∨ c = closeBrace → percent ≠ c := by
    rintro c (same | same) <;> rw [same] <;> decide
  rcases name_loop_cut [] done with ⟨name, plain, ⟨split, format⟩ | split⟩
  · rw [split, format, List.count_append, List.count_eq_zero.mpr plain, List.count_nil]
  · rw [split, List.count_append, List.count_eq_zero.mpr plain,
      List.count_cons_of_ne (brace openBrace (Or.inl rfl)).symm, List.count_append,
      List.count_cons_of_ne (brace closeBrace (Or.inr rfl)).symm, Nat.zero_add]

/-- Without an error every percent sign is in a text, begins a directive or is in a format. -/
theorem scan_percents (fuel : Nat) : ∀ (rest nstr : Str) (vec out : List Entry) (error : Bool),
    scan fuel rest nstr vec error = .ok (out, false) →
      error = false ∧
        vecPercents out = rest.count percent + nstr.count percent + vecPercents vec := by
  have ended (nstr : Str) (vec out : List Entry) (error : Bool)
      (done : (.ok (vec ++ flush nstr, error) : Result (List Entry × Bool)) = .ok (out, false)) :
      error = false ∧
        vecPercents out = List.count percent ([] : Str) + nstr.count percent + vecPercents vec := by
    cases done
    refine ⟨rfl, ?_⟩
    rw [vec_percents_append, flush_percents, List.count_nil]
    omega
  induction fuel with
  | zero =>
      intro rest nstr vec out error done
      cases rest with
      | nil => exact ended nstr vec out error done
      | cons c rest => cases done
  | succ fuel induction =>
      intro rest nstr vec out error done
      cases rest with
      | nil => exact ended nstr vec out error done
      | cons c rest =>
          rw [scan] at done
          by_cases other : c ≠ percent
          · rw [if_pos other] at done
            rcases induction _ _ _ _ _ done with ⟨flag, total⟩
            rw [List.count_append, List.count_singleton] at total
            refine ⟨flag, ?_⟩
            rw [total, List.count_cons]
            omega
          · have same : c = percent := not_not.mp other
            rw [if_neg other] at done
            rw [same, List.count_cons_self]
            by_cases escaped : rest.head? = some percent
            · rw [if_pos escaped] at done
              rcases induction _ _ _ _ _ done with ⟨flag, total⟩
              rw [List.count_append, List.count_singleton_self] at total
              exact ⟨flag, by omega⟩
            · rw [if_neg escaped] at done
              cases taken : nameLoop [] rest with
              | none =>
                  rw [taken] at done
                  cases (induction _ _ _ _ _ done).1
              | some out =>
                  rcases out with ⟨str, fmt, behind⟩
                  rw [taken] at done
                  rcases induction _ _ _ _ _ done with ⟨flag, total⟩
                  refine ⟨flag, ?_⟩
                  have inside := name_loop_percents taken
                  dsimp only at inside
                  have single : vecPercents [Entry.directive str fmt] =
                      1 + fmt.count percent := Nat.add_zero _
                  rw [vec_percents_append, vec_percents_append, flush_percents, single,
                    List.count_nil] at total
                  omega

theorem make_item_percents {entry : Entry} (known : (makeItem entry).2 = false) :
    (makeItem entry).1.percents = entry.percents := by
  cases entry with
  | literal str => rfl
  | directive str fmt =>
      rw [makeItem] at known ⊢
      cases found : formatItems.lookup str with
      | none =>
          rw [found] at known
          cases known
      | some kind => rfl

theorem init_percents {pattern : Str} {items : List FormatItem}
    (done : init pattern = .ok (items, false)) : itemPercents items = pattern.count percent := by
  rcases bind_eq_ok done with ⟨⟨vec, error⟩, scanned, last⟩
  have both := Prod.mk.inj (Except.ok.inj last)
  rcases Bool.or_eq_false_iff.mp both.2 with ⟨quiet, known⟩
  rw [quiet] at scanned
  have total := (scan_percents _ _ _ _ _ _ scanned).2
  have same : itemPercents items = vecPercents vec := by
    rw [← both.1, itemPercents, vecPercents, List.map_map]
    congr 1
    apply List.map_congr_left
    intro entry member
    exact make_item_percents (Bool.eq_false_iff.mpr (List.any_eq_false.mp known entry member))
  rw [same, total, List.count_nil]
  rfl

def literalPercents : List Item → Nat
  | [] => 0
  | .literal text :: rest => text.count percent + literalPercents rest
  | .directive _ _ :: rest => literalPercents rest

theorem escape_percents (text : Str) :
    (escapePercent text).count percent = 2 * text.count percent := by
  induction text with
  | nil => rfl
  | cons c text induction =>
      rw [escapePercent, List.flatMap_cons, List.count_append]
      rw [escapePercent] at induction
      rw [induction]
      by_cases same : c = percent
      · rw [if_pos same, same]
        simp only [List.count_cons_self, List.count_nil]
        omega
      · rw [if_neg same]
        simp only [List.count_cons_of_ne same, List.count_nil, Nat.zero_add]

theorem letter_ne_percent (kind : Directive) : kind.letter ≠ percent := by
  cases kind <;> decide

/-- A rendered pattern has one percent sign more for each in a literal. -/
theorem render_percents (items : List Item) : ∀ nstr : Str,
    itemPercents (merged nstr items) + literalPercents items =
      nstr.count percent + (render items).count percent := by
  induction items with
  | nil =>
      intro nstr
      rw [merged, flush_item_percents]
      rfl
  | cons item items induction =>
      intro nstr
      rw [render, List.flatMap_cons, List.count_append]
      cases item with
      | literal text =>
          have later := induction (nstr ++ text)
          rw [List.count_append, render] at later
          rw [merged, literalPercents, Item.render, escape_percents]
          omega
      | directive kind format =>
          have later := induction []
          rw [List.count_nil, render] at later
          have letter := letter_ne_percent kind
          rw [merged, literalPercents, item_percents_append, item_percents_cons,
            flush_item_percents, FormatItem.percents]
          cases format with
          | none =>
              rw [Item.render, List.count_cons_self, List.count_cons_of_ne letter, List.count_nil,
                formatText, List.count_nil]
              omega
          | some format =>
              have opens : openBrace ≠ percent := by decide
              have closes : closeBrace ≠ percent := by decide
              rw [Item.render, List.count_append, List.count_append, List.count_cons_self,
                List.count_cons_of_ne letter, List.count_cons_of_ne opens, List.count_nil,
                List.count_cons_of_ne closes, List.count_nil, formatText]
              omega

theorem literal_percents_zero_iff (items : List Item) :
    literalPercents items = 0 ↔ ∀ text, .literal text ∈ items → percent ∉ text := by
  induction items with
  | nil => simp [literalPercents]
  | cons item items induction =>
      cases item with
      | literal text =>
          rw [literalPercents, Nat.add_eq_zero_iff, induction, List.count_eq_zero]
          simp
      | directive kind format =>
          rw [literalPercents, induction]
          simp

theorem literal_percents_of_parsed {items : List Item} (parsed : Parsed items) :
    literalPercents items = 0 := by
  have total := init_percents parsed
  have rendered := render_percents items []
  rw [List.count_nil] at rendered
  omega

/-- The entries that should come out. -/
def entries : Str → List Item → List Entry
  | nstr, [] => flush nstr
  | nstr, .literal text :: rest => entries (nstr ++ text) rest
  | nstr, .directive kind format :: rest =>
      flush nstr ++ .directive [kind.letter] (formatText format) :: entries [] rest

theorem lookup_letter (kind : Directive) : formatItems.lookup [kind.letter] = some kind := by
  cases kind <;> decide

theorem flush_items (nstr : Str) :
    (flush nstr).map (fun entry => (makeItem entry).1) = flushItem nstr ∧
      (flush nstr).any (fun entry => (makeItem entry).2) = false := by
  rw [flush, flushItem]
  split
  · exact ⟨rfl, rfl⟩
  · exact ⟨rfl, rfl⟩

theorem entries_items (items : List Item) : ∀ nstr : Str,
    (entries nstr items).map (fun entry => (makeItem entry).1) = merged nstr items ∧
      (entries nstr items).any (fun entry => (makeItem entry).2) = false := by
  induction items with
  | nil => exact flush_items
  | cons item items induction =>
      intro nstr
      cases item with
      | literal text => exact induction (nstr ++ text)
      | directive kind format =>
          rcases flush_items nstr with ⟨made, known⟩
          rcases induction [] with ⟨later, rest⟩
          have entry : makeItem (.directive [kind.letter] (formatText format)) =
              (.known kind (formatText format), false) := by
            rw [makeItem, lookup_letter]
          rw [entries, merged, List.map_append, List.map_cons, made, later, List.any_append,
            List.any_cons, known, rest, entry]
          exact ⟨rfl, rfl⟩

theorem fmt_loop_closed {inside : Str} (plain : closeBrace ∉ inside) (str rest : Str) :
    ∀ fmt : Str, fmtLoop str fmt (inside ++ closeBrace :: rest) =
      some (str, fmt ++ inside, rest) := by
  induction inside with
  | nil =>
      intro fmt
      rw [List.nil_append, fmtLoop, if_pos rfl, List.append_nil]
  | cons c inside induction =>
      intro fmt
      rw [List.mem_cons, not_or] at plain
      rw [List.cons_append, fmtLoop, if_neg (Ne.symm plain.1), induction plain.2,
        List.append_assoc, List.singleton_append]

theorem letter_step (kind : Directive) (rest : Str) :
    nameLoop [] (kind.letter :: rest) = nameLoop [kind.letter] rest := by
  have letter : isalpha kind.letter = true ∧ kind.letter ≠ openBrace := by
    cases kind <;> decide
  rw [nameLoop, if_neg, if_neg letter.2, List.nil_append]
  rintro ⟨other, _⟩
  rw [letter.1] at other
  cases other

theorem name_loop_ended (str : Str)
    (ends : ∀ c, rest.head? = some c → isalpha c = false ∧ c ≠ openBrace ∧ c ≠ closeBrace) :
    nameLoop str rest = some (str, [], rest) := by
  cases rest with
  | nil => rfl
  | cons c rest => exact if_pos (ends c rfl)

theorem escape_plain {text : Str} (plain : percent ∉ text) : escapePercent text = text := by
  have each : ∀ c ∈ text, (if c = percent then [percent, percent] else [c]) = [c] := by
    intro c member
    apply if_neg
    intro sign
    rw [sign] at member
    exact plain member
  rw [escapePercent, List.flatMap_congr each, List.flatMap_singleton']

theorem render_literal {text : Str} (plain : percent ∉ text) (items : List Item) :
    render (.literal text :: items) = text ++ render items := by
  rw [render, List.flatMap_cons, Item.render, escape_plain plain]
  rfl

/-- Behind the text in front of the next directive there is a percent sign or nothing. -/
theorem render_leading (items : List Item) (plain : literalPercents items = 0) :
    ∃ back, render items = leading items ++ back ∧ ∀ c, back.head? = some c → c = percent := by
  induction items with
  | nil => exact ⟨[], rfl, by simp⟩
  | cons item items induction =>
      cases item with
      | literal text =>
          rw [literalPercents, Nat.add_eq_zero_iff, List.count_eq_zero] at plain
          rcases induction plain.2 with ⟨back, split, starts⟩
          exact ⟨back, by rw [render_literal plain.1, split, leading, List.append_assoc], starts⟩
      | directive kind format =>
          refine ⟨render (.directive kind format :: items), rfl, ?_⟩
          intro c first
          cases format with
          | none => exact (Option.some.inj first).symm
          | some format => exact (Option.some.inj first).symm

theorem scan_text (text : Str) : ∀ (fuel : Nat) (rest nstr : Str) (vec : List Entry),
    percent ∉ text → (text ++ rest).length ≤ fuel → ∃ left, rest.length ≤ left ∧
      scan fuel (text ++ rest) nstr vec false = scan left rest (nstr ++ text) vec false := by
  induction text with
  | nil =>
      intro fuel rest nstr vec plain enough
      exact ⟨fuel, enough, by rw [List.nil_append, List.append_nil]⟩
  | cons c text induction =>
      intro fuel rest nstr vec plain enough
      rw [List.mem_cons, not_or] at plain
      cases fuel with
      | zero => cases enough
      | succ fuel =>
          rcases induction fuel rest (nstr ++ [c]) vec plain.2 (Nat.le_of_succ_le_succ enough) with
            ⟨left, fits, same⟩
          refine ⟨left, fits, ?_⟩
          rw [List.cons_append, scan, if_pos (Ne.symm plain.1), same, List.append_assoc,
            List.singleton_append]

theorem scan_directive {fuel : Nat} {str fmt behind : Str}
    (taken : nameLoop [] rest = some (str, fmt, behind)) (first : rest.head? ≠ some percent)
    (nstr : Str) (vec : List Entry) : scan (fuel + 1) (percent :: rest) nstr vec false =
      scan fuel behind [] (vec ++ flush nstr ++ [.directive str fmt]) false := by
  rw [scan, if_neg (not_not.mpr rfl), if_neg first, taken]

theorem scan_render (items : List Item) : ∀ (fuel : Nat) (nstr : Str) (vec : List Entry),
    literalPercents items = 0 → Separated items → (render items).length ≤ fuel →
      scan fuel (render items) nstr vec false = .ok (vec ++ entries nstr items, false) := by
  induction items with
  | nil =>
      intro fuel nstr vec plain separated enough
      cases fuel <;> rfl
  | cons item items induction =>
      intro fuel nstr vec plain separated enough
      cases item with
      | literal text =>
          rw [literalPercents, Nat.add_eq_zero_iff, List.count_eq_zero] at plain
          rw [render_literal plain.1] at enough ⊢
          rcases scan_text text fuel (render items) nstr vec plain.1 enough with
            ⟨left, fits, scanned⟩
          rw [scanned, entries]
          exact induction left (nstr ++ text) vec plain.2 separated fits
      | directive kind format =>
          have letter := letter_ne_percent kind
          have next : ∀ rest : Str, (kind.letter :: rest).head? ≠ some percent :=
            fun rest same => letter (Option.some.inj same)
          cases fuel with
          | zero =>
              cases format <;> cases enough
          | succ fuel =>
              cases format with
              | none =>
                  have split : render (.directive kind none :: items) =
                      percent :: kind.letter :: render items := rfl
                  rw [split] at enough ⊢
                  have ended : ∀ c, (render items).head? = some c →
                      isalpha c = false ∧ c ≠ openBrace ∧ c ≠ closeBrace := by
                    intro c first
                    rcases render_leading items plain with ⟨back, parts, starts⟩
                    rw [parts, List.head?_append] at first
                    cases lead : (leading items).head? with
                    | some d =>
                        rw [lead] at first
                        rw [← Option.some.inj first]
                        exact separated.1 d lead
                    | none =>
                        rw [lead] at first
                        rw [starts c first]
                        decide
                  have taken : nameLoop [] (kind.letter :: render items) =
                      some ([kind.letter], [], render items) := by
                    rw [letter_step, name_loop_ended _ ended]
                  rw [scan_directive taken (next _), entries, formatText,
                    induction fuel [] _ plain separated.2 (by simp at enough; omega)]
                  simp
              | some format =>
                  have split : render (.directive kind (some format) :: items) =
                      percent :: kind.letter :: openBrace ::
                        (format.text ++ closeBrace :: render items) := by
                    rw [render, List.flatMap_cons, Item.render]
                    simp [render]
                  rw [split] at enough ⊢
                  have taken : nameLoop [] (kind.letter :: openBrace ::
                      (format.text ++ closeBrace :: render items)) =
                      some ([kind.letter], format.text, render items) := by
                    rw [letter_step, nameLoop, if_neg (by decide), if_pos rfl,
                      fmt_loop_closed format.plain, List.nil_append]
                  rw [scan_directive taken (next _), entries, formatText,
                    induction fuel [] _ plain separated (by simp at enough; omega)]
                  simp

/-- The items come out just when no literal has a percent sign; the scan of any pattern ends. -/
theorem log_pattern_iff (pattern : Str) (items : List Item) (separated : Separated items) :
    (∃ parsed, init pattern = .ok parsed) ∧
      (Parsed items ↔ ∀ text, .literal text ∈ items → percent ∉ text) := by
  refine ⟨init_returns pattern, ?_⟩
  rw [← literal_percents_zero_iff]
  constructor
  · exact literal_percents_of_parsed
  · intro plain
    have scanned := scan_render items (render items).length [] [] plain separated (Nat.le_refl _)
    rcases entries_items items [] with ⟨made, known⟩
    rw [Parsed, init, scanned, bind_ok, List.nil_append]
    exact congrArg Except.ok (Prod.ext made (by rw [known]; rfl))

theorem log_pattern_iff_line : (∃ parsed, init [0x25] = .ok parsed) ∧
    (Parsed [.literal [0x5B], .directive .level none, .literal [0x5D]] ↔
      ∀ text, .literal text ∈ [Item.literal [0x5B], .directive .level none, .literal [0x5D]] →
        percent ∉ text) := by
  apply log_pattern_iff
  refine ⟨?_, trivial⟩
  intro c first
  rw [← Option.some.inj first]
  decide

/-- The pattern `%%` gives the percent sign and then a directive without a name. -/
theorem escaped_percent_scanned : init (render [.literal [percent]]) =
      .ok ([.string [percent], .string (ascii "<<error_format %>>")], true) ∧
    Separated [.literal [percent]] ∧ ¬Parsed [.literal [percent]] := by
  have done : init (render [.literal [percent]]) =
      .ok ([.string [percent], .string (ascii "<<error_format %>>")], true) := by decide +kernel
  refine ⟨done, trivial, ?_⟩
  intro parsed
  rw [Parsed, done] at parsed
  cases (Prod.mk.inj (Except.ok.inj parsed)).2

end ChatServer.Log
