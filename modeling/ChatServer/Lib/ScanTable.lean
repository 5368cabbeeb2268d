import Mathlib.Data.List.Basic

/-!
# Table-driven scanners

A scanner is a finite table: in a state, a byte of a row's range runs the actions of the row and
leads to its target. Without a row for the byte the scanner stands still in its error state; a
row with a stopping action ends the run behind the byte. The text may come in parts, and then
the actions see places in the part rather than in the whole text.
-/

namespace ScanTable

set_option autoImplicit false

structure Row (Action : Type) where
  source : Nat
  first : UInt8
  last : UInt8
  actions : List Action
  target : Nat

structure Table (Action : Type) where
  rows : List (Row Action)
  start : Nat
  error : Nat
  firstFinal : Nat

variable {Action Data Error : Type}

namespace Table

def next (table : Table Action) (state : Nat) (byte : UInt8) : Option (Row Action) :=
  table.rows.find? fun row => row.source == state && row.first ≤ byte && byte ≤ row.last

def Live (table : Table Action) (state : Nat) : Prop :=
  state ≠ table.error ∧ state < table.firstFinal

instance (table : Table Action) (state : Nat) : Decidable (table.Live state) :=
  inferInstanceAs (Decidable (_ ∧ _))

/-- The rows stop exactly at the final states, and none leads to the error state. -/
structure Sound (table : Table Action) (stops : Action → Bool) : Prop where
  start : table.Live table.start
  stopping : ∀ row ∈ table.rows, row.actions.any stops = true ↔ table.firstFinal ≤ row.target
  moving : ∀ row ∈ table.rows, row.target ≠ table.error

/-- The actions that each byte of a text runs, up to a byte without a row. -/
def trace (table : Table Action) (state : Nat) : List UInt8 → List (List Action)
  | [] => []
  | byte :: rest =>
      match table.next state byte with
      | none => []
      | some row => row.actions :: table.trace row.target rest

/-- A run from a place on: how far it came, in which state, with which data. -/
def run (table : Table Action) (stops : Action → Bool)
    (perform : Nat → Action → Data → Except Error Data) :
    Nat → Nat → List UInt8 → Data → Except Error (Nat × Nat × Data)
  | place, state, [], data => .ok (place, state, data)
  | place, state, byte :: rest, data =>
      match table.next state byte with
      | none => .ok (place, table.error, data)
      | some row => do
          let data ← row.actions.foldlM (fun data action => perform place action data) data
          if row.actions.any stops then .ok (place + 1, row.target, data)
          else table.run stops perform (place + 1) row.target rest data

variable {table : Table Action} {stops : Action → Bool}
  {perform : Nat → Action → Data → Except Error Data}

theorem next_mem {state : Nat} {byte : UInt8} {row : Row Action}
    (found : table.next state byte = some row) :
    row ∈ table.rows ∧ row.first ≤ byte ∧ byte ≤ row.last := by
  have suits := List.find?_some found
  simp only [Bool.and_eq_true, decide_eq_true_eq] at suits
  exact ⟨List.mem_of_find?_eq_some found, suits.1.2, suits.2⟩

theorem next_live (sound : table.Sound stops) {state : Nat} {byte : UInt8} {row : Row Action}
    (found : table.next state byte = some row) (goes : row.actions.any stops = false) :
    table.Live row.target := by
  have listed := (next_mem found).1
  have open_ := mt (sound.stopping row listed).mpr (by rw [goes]; exact Bool.false_ne_true)
  exact ⟨sound.moving row listed, Nat.lt_of_not_le open_⟩

theorem stop_not_live (sound : table.Sound stops) {state : Nat} {byte : UInt8} {row : Row Action}
    (found : table.next state byte = some row) (stopped : row.actions.any stops = true) :
    ¬ table.Live row.target := by
  intro live
  exact absurd live.2 (Nat.not_lt.mpr ((sound.stopping row (next_mem found).1).mp stopped))

theorem run_cons {place state : Nat} {byte : UInt8} {rest : List UInt8} {data : Data}
    {row : Row Action} (found : table.next state byte = some row) :
    table.run stops perform place state (byte :: rest) data = (do
      let data ← row.actions.foldlM (fun data action => perform place action data) data
      if row.actions.any stops then .ok (place + 1, row.target, data)
      else table.run stops perform (place + 1) row.target rest data) := by
  rw [run, found]

theorem run_stuck {place state : Nat} {byte : UInt8} {rest : List UInt8} {data : Data}
    (stuck : table.next state byte = none) :
    table.run stops perform place state (byte :: rest) data = .ok (place, table.error, data) := by
  rw [run, stuck]

theorem run_stops {place state : Nat} {byte : UInt8} {rest : List UInt8} {data middle : Data}
    {row : Row Action} (found : table.next state byte = some row)
    (acted : row.actions.foldlM (fun data action => perform place action data) data = .ok middle)
    (stopped : row.actions.any stops = true) :
    table.run stops perform place state (byte :: rest) data =
      .ok (place + 1, row.target, middle) := by
  rw [run_cons found, acted]
  exact if_pos stopped

theorem run_goes {place state : Nat} {byte : UInt8} {rest : List UInt8} {data middle : Data}
    {row : Row Action} (found : table.next state byte = some row)
    (acted : row.actions.foldlM (fun data action => perform place action data) data = .ok middle)
    (goes : row.actions.any stops = false) :
    table.run stops perform place state (byte :: rest) data =
      table.run stops perform (place + 1) row.target rest middle := by
  rw [run_cons found, acted]
  exact if_neg (by rw [goes]; exact Bool.false_ne_true)

/-- What a run over a byte can have done: it stood still, it stopped behind the byte, or it
went on from there. -/
theorem run_cons_cases {place state : Nat} {byte : UInt8} {rest : List UInt8}
    {data after : Data} {last final : Nat}
    (ran : table.run stops perform place state (byte :: rest) data = .ok (last, final, after)) :
    (table.next state byte = none ∧ last = place ∧ final = table.error ∧ after = data) ∨
    ∃ row middle, table.next state byte = some row ∧
      row.actions.foldlM (fun data action => perform place action data) data = .ok middle ∧
      (row.actions.any stops = true ∧ last = place + 1 ∧ final = row.target ∧ after = middle ∨
        row.actions.any stops = false ∧
          table.run stops perform (place + 1) row.target rest middle =
            .ok (last, final, after)) := by
  cases found : table.next state byte with
  | none =>
      rw [run_stuck found] at ran
      cases ran
      exact Or.inl ⟨rfl, rfl, rfl, rfl⟩
  | some row =>
      rw [run_cons found] at ran
      cases acted : row.actions.foldlM (fun data action => perform place action data) data with
      | error fault =>
          rw [acted] at ran
          cases ran
      | ok middle =>
          rw [acted] at ran
          change (if _ then _ else _) = _ at ran
          refine Or.inr ⟨row, middle, rfl, acted, ?_⟩
          by_cases stopped : row.actions.any stops = true
          · rw [if_pos stopped] at ran
            cases ran
            exact Or.inl ⟨stopped, rfl, rfl, rfl⟩
          · rw [if_neg stopped] at ran
            exact Or.inr ⟨by simpa using stopped, ran⟩

theorem run_cons_live (sound : table.Sound stops) {place state : Nat} {byte : UInt8}
    {rest : List UInt8} {data after : Data} {last final : Nat} (live : table.Live final)
    (ran : table.run stops perform place state (byte :: rest) data = .ok (last, final, after)) :
    ∃ row middle, table.next state byte = some row ∧
      row.actions.foldlM (fun data action => perform place action data) data = .ok middle ∧
      row.actions.any stops = false ∧
      table.run stops perform (place + 1) row.target rest middle = .ok (last, final, after) := by
  rcases run_cons_cases ran with ⟨_, _, failed, _⟩ | ⟨row, middle, found, acted, ends⟩
  · exact absurd failed live.1
  · rcases ends with ⟨stopped, _, target, _⟩ | ⟨goes, onto⟩
    · exact absurd (target ▸ live) (stop_not_live sound found stopped)
    · exact ⟨row, middle, found, acted, goes, onto⟩

theorem run_place {place state : Nat} {text : List UInt8} {data after : Data} {last final : Nat}
    (ran : table.run stops perform place state text data = .ok (last, final, after)) :
    place ≤ last ∧ last ≤ place + text.length := by
  induction text generalizing place state data with
  | nil =>
      cases ran
      simp
  | cons byte rest induction =>
      rw [List.length_cons]
      rcases run_cons_cases ran with ⟨_, stood, _⟩ | ⟨row, middle, _, _, stopped | goes⟩
      · omega
      · have behind := stopped.2.1
        omega
      · have behind := induction goes.2
        omega

theorem run_live (sound : table.Sound stops) {place state : Nat} {text : List UInt8}
    {data after : Data} {last final : Nat} (live : table.Live final)
    (ran : table.run stops perform place state text data = .ok (last, final, after)) :
    last = place + text.length := by
  induction text generalizing place state data with
  | nil =>
      cases ran
      rfl
  | cons byte rest induction =>
      rcases run_cons_live sound live ran with ⟨row, middle, _, _, _, onto⟩
      rw [induction onto, List.length_cons]
      omega

/-- A run over two texts is a run over the first and, if that is live, over the second. -/
theorem run_append (sound : table.Sound stops) {place state : Nat} (live : table.Live state)
    (front rest : List UInt8) (data : Data) :
    table.run stops perform place state (front ++ rest) data = (do
      let (last, final, after) ← table.run stops perform place state front data
      if table.Live final then table.run stops perform last final rest after
      else .ok (last, final, after)) := by
  induction front generalizing place state data with
  | nil =>
      rw [List.nil_append, run]
      exact (if_pos live).symm
  | cons byte front induction =>
      rw [List.cons_append]
      cases found : table.next state byte with
      | none =>
          rw [run_stuck found, run_stuck found]
          change _ = if _ then _ else _
          rw [if_neg fun wrong => wrong.1 rfl]
      | some row =>
          rw [run_cons found, run_cons found]
          cases row.actions.foldlM (fun data action => perform place action data) data with
          | error fault => rfl
          | ok middle =>
              change (if _ then _ else _) = (if _ then _ else _) >>= _
              by_cases stopped : row.actions.any stops = true
              · rw [if_pos stopped, if_pos stopped]
                change _ = if _ then _ else _
                rw [if_neg (stop_not_live sound found stopped)]
              · have goes : row.actions.any stops = false := by simpa using stopped
                rw [if_neg stopped, if_neg stopped]
                exact induction (next_live sound found goes) middle

theorem trace_append (sound : table.Sound stops) {place state : Nat} {front : List UInt8}
    {data after : Data} {last final : Nat} (live : table.Live final)
    (ran : table.run stops perform place state front data = .ok (last, final, after))
    (rest : List UInt8) :
    table.trace state (front ++ rest) = table.trace state front ++ table.trace final rest ∧
      (table.trace state front).length = front.length := by
  induction front generalizing place state data with
  | nil =>
      cases ran
      exact ⟨rfl, rfl⟩
  | cons byte front induction =>
      rcases run_cons_live sound live ran with ⟨row, middle, found, _, _, onto⟩
      rcases induction onto with ⟨split, length⟩
      rw [List.cons_append, trace, trace, found]
      exact ⟨congrArg (row.actions :: ·) split, congrArg (· + 1) length⟩

theorem trace_prefix (table : Table Action) (state : Nat) (front rest : List UInt8) :
    ∃ more, table.trace state (front ++ rest) = table.trace state front ++ more := by
  induction front generalizing state with
  | nil => exact ⟨table.trace state rest, rfl⟩
  | cons byte front induction =>
      rw [List.cons_append, trace, trace]
      cases table.next state byte with
      | none => exact ⟨[], rfl⟩
      | some row =>
          rcases induction row.target with ⟨more, split⟩
          exact ⟨more, congrArg (row.actions :: ·) split⟩

theorem actions_cons {place : Nat} {action : Action} {actions : List Action} {data after : Data}
    (acted : (action :: actions).foldlM (fun data action => perform place action data) data =
      .ok after) :
    ∃ next, perform place action data = .ok next ∧
      actions.foldlM (fun data action => perform place action data) next = .ok after := by
  rw [List.foldlM_cons] at acted
  cases first : perform place action data with
  | error fault =>
      rw [first] at acted
      cases acted
  | ok next =>
      rw [first] at acted
      exact ⟨next, rfl, acted⟩

theorem actions_keep {Inv : Data → Prop} {place : Nat} {admitted : Action → Prop}
    (kept : ∀ action data after, admitted action → Inv data →
      perform place action data = .ok after → Inv after)
    {actions : List Action} (all : ∀ action ∈ actions, admitted action) {data after : Data}
    (inv : Inv data)
    (acted : actions.foldlM (fun data action => perform place action data) data = .ok after) :
    Inv after := by
  induction actions generalizing data with
  | nil =>
      cases acted
      exact inv
  | cons action actions induction =>
      rcases actions_cons acted with ⟨next, first, rest⟩
      have good := kept action data next (all action List.mem_cons_self) inv first
      exact induction (fun other member => all other (List.mem_cons_of_mem _ member)) good rest

theorem run_keeps (Inv : Nat → Data → Prop)
    (moved : ∀ place data, Inv place data → Inv (place + 1) data)
    (kept : ∀ place action data after, Inv (place + 1) data →
      perform place action data = .ok after → Inv (place + 1) after)
    {place state : Nat} {text : List UInt8} {data after : Data} {last final : Nat}
    (inv : Inv place data)
    (ran : table.run stops perform place state text data = .ok (last, final, after)) :
    Inv last after := by
  induction text generalizing place state data with
  | nil =>
      cases ran
      exact inv
  | cons byte rest induction =>
      rcases run_cons_cases ran with ⟨_, stood, _, same⟩ | ⟨row, middle, _, acted, ends⟩
      · rw [stood, same]
        exact inv
      · have good := actions_keep (fun action data after _ => kept place action data after)
          (fun action (_ : action ∈ row.actions) => trivial) (moved place data inv) acted
        rcases ends with ⟨_, behind, _, same⟩ | ⟨_, goes⟩
        · rw [behind, same]
          exact good
        · exact induction good goes

theorem run_live_keeps (sound : table.Sound stops) (Inv : Data → Prop)
    (kept : ∀ place action data after, stops action = false → Inv data →
      perform place action data = .ok after → Inv after)
    {place state : Nat} {text : List UInt8} {data after : Data} {last final : Nat}
    (inv : Inv data) (live : table.Live final)
    (ran : table.run stops perform place state text data = .ok (last, final, after)) :
    Inv after := by
  induction text generalizing place state data with
  | nil =>
      cases ran
      exact inv
  | cons byte rest induction =>
      rcases run_cons_live sound live ran with ⟨row, middle, _, acted, goes, onto⟩
      have none : ∀ action ∈ row.actions, stops action = false := by
        simpa using goes
      exact induction (actions_keep (kept place) none inv acted) onto

/-- How far a run comes and where it ends is a matter of the text alone. -/
theorem run_control {Other : Type} {performOther : Nat → Action → Other → Except Error Other}
    {place state : Nat} {text : List UInt8} {data after : Data} {other otherAfter : Other}
    {last final otherLast otherFinal : Nat}
    (ran : table.run stops perform place state text data = .ok (last, final, after))
    (otherRan : table.run stops performOther place state text other =
      .ok (otherLast, otherFinal, otherAfter)) : otherLast = last ∧ otherFinal = final := by
  induction text generalizing place state data other with
  | nil =>
      cases ran
      cases otherRan
      exact ⟨rfl, rfl⟩
  | cons byte rest induction =>
      rcases run_cons_cases ran with ⟨stuck, stood, failed, _⟩ | ⟨row, _, found, _, ends⟩
      · rw [run_stuck stuck] at otherRan
        cases otherRan
        exact ⟨stood.symm, failed.symm⟩
      · rcases run_cons_cases otherRan with ⟨stuck, _⟩ | ⟨otherRow, _, otherFound, _, otherEnds⟩
        · rw [stuck] at found
          cases found
        · rw [found] at otherFound
          cases otherFound
          rcases ends with ⟨stopped, behind, target, _⟩ | ⟨goes, onto⟩
          · rcases otherEnds with ⟨_, otherBehind, otherTarget, _⟩ | ⟨otherGoes, _⟩
            · exact ⟨otherBehind.trans behind.symm, otherTarget.trans target.symm⟩
            · rw [stopped] at otherGoes
              cases otherGoes
          · rcases otherEnds with ⟨otherStopped, _⟩ | ⟨_, otherOnto⟩
            · rw [goes] at otherStopped
              cases otherStopped
            · exact induction onto otherOnto

theorem actions_view {View : Type} {view : Data → View} {effect : View → Action → View}
    {admitted : Action → Prop} {place : Nat}
    (seen : ∀ action data after, admitted action → perform place action data = .ok after →
      view after = effect (view data) action)
    {actions : List Action} (all : ∀ action ∈ actions, admitted action) {data after : Data}
    (acted : actions.foldlM (fun data action => perform place action data) data = .ok after) :
    view after = actions.foldl effect (view data) := by
  induction actions generalizing data with
  | nil =>
      cases acted
      rfl
  | cons action actions induction =>
      rcases actions_cons acted with ⟨next, first, rest⟩
      rw [List.foldl_cons, ← seen action data next (all action List.mem_cons_self) first]
      exact induction (fun other member => all other (List.mem_cons_of_mem _ member)) rest

/-- What the actions of a trace do to a part of the data that the rest of it does not matter to. -/
theorem run_views {View : Type} {view : Data → View} {effect : View → Action → View}
    {admitted : Action → Prop}
    (seen : ∀ place action data after, admitted action → perform place action data = .ok after →
      view after = effect (view data) action)
    {place state : Nat} {text : List UInt8} {data after : Data} {last final : Nat}
    (all : ∀ action ∈ (table.trace state text).flatten, admitted action)
    (ran : table.run stops perform place state text data = .ok (last, final, after))
    (whole : last = place + text.length) :
    view after = (table.trace state text).flatten.foldl effect (view data) := by
  induction text generalizing place state data with
  | nil =>
      cases ran
      rfl
  | cons byte rest induction =>
      rw [List.length_cons] at whole
      rcases run_cons_cases ran with ⟨_, stood, _, _⟩ | ⟨row, middle, found, acted, ends⟩
      · omega
      · rw [trace, found] at all ⊢
        change ∀ action ∈ row.actions ++ (table.trace row.target rest).flatten,
          admitted action at all
        change _ = (row.actions ++ (table.trace row.target rest).flatten).foldl effect (view data)
        have here := actions_view (seen place)
          (fun action member => all action (List.mem_append_left _ member)) acted
        rw [List.foldl_append, ← here]
        rcases ends with ⟨_, behind, _, same⟩ | ⟨_, goes⟩
        · have none : rest = [] := List.length_eq_zero_iff.mp (by omega)
          rw [none, same]
          rfl
        · exact induction (fun action member => all action (List.mem_append_right _ member)) goes
            (by omega)

section Parts

variable {Whole Part Known : Type} {offset : Nat}
  {performWhole : Nat → Action → Whole → Except Error Whole}
  {performPart : Nat → Action → Part → Except Error Part}
  {track : Known → Action → Option Known} {Rel : Nat → Known → Whole → Part → Prop}
  {At : Nat → UInt8 → Prop}

theorem actions_simulate {place : Nat} {admitted : Action → Prop}
    (step : ∀ action known further whole whole' part, admitted action →
      track known action = some further → Rel place known whole part →
      performWhole (offset + place) action whole = .ok whole' →
      ∃ part', performPart place action part = .ok part' ∧ Rel place further whole' part')
    {actions : List Action} (all : ∀ action ∈ actions, admitted action)
    {known further : Known} {whole whole' : Whole} {part : Part}
    (tracked : actions.foldlM track known = some further) (related : Rel place known whole part)
    (acted : actions.foldlM (fun data action => performWhole (offset + place) action data) whole =
      .ok whole') :
    ∃ part', actions.foldlM (fun data action => performPart place action data) part = .ok part' ∧
      Rel place further whole' part' := by
  induction actions generalizing known whole part with
  | nil =>
      cases tracked
      cases acted
      exact ⟨part, rfl, related⟩
  | cons action actions induction =>
      rw [List.foldlM_cons] at tracked
      cases followed : track known action with
      | none =>
          rw [followed] at tracked
          cases tracked
      | some middle =>
          rw [followed] at tracked
          rcases actions_cons acted with ⟨next, first, rest⟩
          rcases step action known middle whole next part (all action List.mem_cons_self)
            followed related first with ⟨between, performed, kept⟩
          rcases induction (fun other member => all other (List.mem_cons_of_mem _ member))
            tracked kept rest with ⟨part', performedRest, last⟩
          refine ⟨part', ?_, last⟩
          rw [List.foldlM_cons, performed]
          exact performedRest

/-- A run over a part goes as the run over the whole text does there. -/
theorem run_simulates
    (moved : ∀ place known whole part, Rel place known whole part →
      Rel (place + 1) known whole part)
    (step : ∀ (row : Row Action) place byte action known further whole whole' part,
      row ∈ table.rows → row.first ≤ byte → byte ≤ row.last → At place byte →
      action ∈ row.actions → track known action = some further → Rel place known whole part →
      performWhole (offset + place) action whole = .ok whole' →
      ∃ part', performPart place action part = .ok part' ∧ Rel place further whole' part')
    {place state : Nat} {text : List UInt8} {known further : Known} {whole whole' : Whole}
    {part : Part} {last final : Nat}
    (stands : ∀ index byte, text[index]? = some byte → At (place + index) byte)
    (tracked : (table.trace state text).flatten.foldlM track known = some further)
    (related : Rel place known whole part)
    (ran : table.run stops performWhole (offset + place) state text whole =
      .ok (last, final, whole')) :
    ∃ last' part' known', table.run stops performPart place state text part =
        .ok (last', final, part') ∧ last = offset + last' ∧ Rel last' known' whole' part' := by
  induction text generalizing place state known whole part with
  | nil =>
      cases ran
      exact ⟨place, part, known, rfl, rfl, related⟩
  | cons byte rest induction =>
      have here : At place byte := stands 0 byte rfl
      rcases run_cons_cases ran with
        ⟨stuck, stood, failed, same⟩ | ⟨row, middle, found, acted, ends⟩
      · rw [run_stuck stuck, failed, same]
        exact ⟨place, part, known, rfl, stood, related⟩
      · rw [trace, found] at tracked
        change (row.actions ++ (table.trace row.target rest).flatten).foldlM track known =
          some further at tracked
        rw [List.foldlM_append] at tracked
        rcases next_mem found with ⟨listed, lower, upper⟩
        cases followed : row.actions.foldlM track known with
        | none =>
            rw [followed] at tracked
            cases tracked
        | some between =>
            rw [followed] at tracked
            rcases actions_simulate (fun action known further whole whole' part member =>
                step row place byte action known further whole whole' part listed lower upper here
                  member) (fun _ member => member) followed related acted with
              ⟨part', performed, kept⟩
            have onward := moved place between middle part' kept
            rcases ends with ⟨stopped, behind, target, same⟩ | ⟨goes, onto⟩
            · rw [run_stops found performed stopped, behind, target, same]
              exact ⟨place + 1, part', between, rfl, rfl, onward⟩
            · rw [run_goes found performed goes]
              apply induction _ tracked onward onto
              intro index other there
              have later := stands (index + 1) other there
              rwa [Nat.add_comm index 1, ← Nat.add_assoc] at later

end Parts

end Table
end ScanTable
