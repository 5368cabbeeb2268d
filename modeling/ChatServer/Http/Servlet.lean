import ChatServer.Http.HttpRequest
import Mathlib.Data.List.Induction

/-!
# Which servlet a path is given to

`ServletDispatch` of `servlet.cc`. Servlets are registered and taken away while the server runs. A
pattern that is registered again leaves its place among the patterns and goes behind the others,
so what a path is given to depends on the whole history of the table.
-/

namespace ChatServer.Http

set_option autoImplicit false

open ChatServer.Http2 (cString)

variable {Servlet : Type}

/-- A creator is what its `get` returns. -/
structure ServletDispatch (Servlet : Type) where
  datas : Str → Option Servlet
  globs : List (Str × Servlet)
  default : Servlet

inductive ServletAction (Servlet : Type) where
  | addServlet (uri : Str) (slt : Servlet)
  | addGlobServlet (uri : Str) (slt : Servlet)
  | delServlet (uri : Str)
  | delGlobServlet (uri : Str)
  deriving DecidableEq

namespace ServletDispatch

def new (notFound : Servlet) : ServletDispatch Servlet := ⟨fun _ => none, [], notFound⟩

def eraseGlob (uri : Str) (globs : List (Str × Servlet)) : List (Str × Servlet) :=
  globs.eraseP fun entry => entry.1 = uri

def apply (self : ServletDispatch Servlet) : ServletAction Servlet → ServletDispatch Servlet
  | .addServlet uri slt =>
      { self with datas := fun key => if key = uri then some slt else self.datas key }
  | .addGlobServlet uri slt => { self with globs := eraseGlob uri self.globs ++ [(uri, slt)] }
  | .delServlet uri => { self with datas := fun key => if key = uri then none else self.datas key }
  | .delGlobServlet uri => { self with globs := eraseGlob uri self.globs }

def run (self : ServletDispatch Servlet) (actions : List (ServletAction Servlet)) :
    ServletDispatch Servlet :=
  actions.foldl apply self

/-- `fnmatch` says whether a pattern matches, both up to the first null character. -/
def getMatchedServlet (fnmatch : Str → Str → Bool) (self : ServletDispatch Servlet) (uri : Str) :
    Servlet :=
  match self.datas uri with
  | some slt => slt
  | none =>
      match self.globs.find? fun entry => fnmatch (cString entry.1) (cString uri) with
      | some entry => entry.2
      | none => self.default

end ServletDispatch

namespace ServletAction

def exactly (uri : Str) : ServletAction Servlet → Option (Option Servlet)
  | .addServlet key slt => if uri = key then some (some slt) else none
  | .delServlet key => if uri = key then some none else none
  | _ => none

/-- Whether an action registers the pattern or takes it away. -/
def concerns (uri : Str) : ServletAction Servlet → Bool
  | .addGlobServlet key _ | .delGlobServlet key => key = uri
  | _ => false

def exact (uri : Str) (history : List (ServletAction Servlet)) : Option Servlet :=
  (history.reverse.findSome? (exactly uri)).join

/-- The patterns whose registration nothing later replaces or takes away, the oldest first. -/
def standing : List (ServletAction Servlet) → List (Str × Servlet)
  | [] => []
  | .addGlobServlet uri slt :: later =>
      if later.any (concerns uri) then standing later else (uri, slt) :: standing later
  | _ :: later => standing later

/-- The servlet of a path after a history of registrations: the last one registered for the path
itself, or the oldest standing pattern that matches, or the default. -/
def servletOf (fnmatch : Str → Str → Bool) (notFound : Servlet)
    (history : List (ServletAction Servlet)) (uri : Str) : Servlet :=
  ((exact uri history).or
    (((standing history).find? fun entry => fnmatch (cString entry.1) (cString uri)).map
      Prod.snd)).getD notFound

variable {history : List (ServletAction Servlet)} {action : ServletAction Servlet}

theorem exact_snoc (uri : Str) (history : List (ServletAction Servlet))
    (action : ServletAction Servlet) :
    exact uri (history ++ [action]) =
      match exactly uri action with
      | some word => word
      | none => exact uri history := by
  rw [exact, List.reverse_append, List.reverse_singleton, List.singleton_append,
    List.findSome?_cons]
  cases exactly uri action with
  | none => rfl
  | some word => rfl

theorem standing_concerned {entry : Str × Servlet} (member : entry ∈ standing history) :
    history.any (concerns entry.1) = true := by
  induction history with
  | nil => cases member
  | cons action later induction =>
      rw [List.any_cons, Bool.or_eq_true]
      cases action with
      | addGlobServlet uri slt =>
          rw [standing] at member
          split at member
          · exact Or.inr (induction member)
          · rcases List.mem_cons.mp member with here | behind
            · left
              rw [here, concerns, decide_eq_true_eq]
            · exact Or.inr (induction behind)
      | addServlet uri slt => exact Or.inr (induction member)
      | delServlet uri => exact Or.inr (induction member)
      | delGlobServlet uri => exact Or.inr (induction member)

theorem standing_distinct (history : List (ServletAction Servlet)) :
    (standing history).Pairwise fun first second => first.1 ≠ second.1 := by
  induction history with
  | nil => exact List.Pairwise.nil
  | cons action later induction =>
      cases action with
      | addGlobServlet uri slt =>
          rw [standing]
          split
          · exact induction
          · rename_i unspoken
            apply List.Pairwise.cons _ induction
            intro entry member same
            have spoken := standing_concerned member
            rw [← same] at spoken
            exact unspoken spoken
      | addServlet uri slt => exact induction
      | delServlet uri => exact induction
      | delGlobServlet uri => exact induction

theorem standing_snoc (history : List (ServletAction Servlet)) (action : ServletAction Servlet) :
    standing (history ++ [action]) =
      (standing history).filter (fun entry => !concerns entry.1 action) ++ standing [action] := by
  induction history with
  | nil => rfl
  | cons first later induction =>
      cases first with
      | addGlobServlet uri slt =>
          rw [List.cons_append, standing, standing, List.any_append, List.any_cons, List.any_nil,
            Bool.or_false, induction]
          by_cases before : later.any (concerns uri) = true
          · rw [before, Bool.true_or, if_pos rfl, if_pos rfl]
          · rw [Bool.eq_false_iff.mpr before, Bool.false_or, if_neg Bool.false_ne_true,
              List.filter_cons]
            cases concerns uri action with
            | true => rw [if_pos rfl, Bool.not_true, if_neg Bool.false_ne_true]
            | false =>
                rw [if_neg Bool.false_ne_true, Bool.not_false, if_pos rfl, List.cons_append]
      | addServlet uri slt => exact induction
      | delServlet uri => exact induction
      | delGlobServlet uri => exact induction

end ServletAction

namespace ServletDispatch

open ServletAction

theorem erase_glob_filter {globs : List (Str × Servlet)}
    (distinct : globs.Pairwise fun first second => first.1 ≠ second.1) (uri : Str) :
    eraseGlob uri globs = globs.filter fun entry => !decide (uri = entry.1) := by
  induction globs with
  | nil => rfl
  | cons entry rest induction =>
      obtain ⟨apart, later⟩ := List.pairwise_cons.mp distinct
      rw [eraseGlob, List.eraseP_cons, List.filter_cons]
      by_cases here : entry.1 = uri
      · have kept : rest.filter (fun entry => !decide (uri = entry.1)) = rest := by
          apply List.filter_eq_self.mpr
          intro other member
          have differs : uri ≠ other.1 := here ▸ apart other member
          rw [decide_eq_false differs]
          rfl
        rw [decide_eq_true here, cond_true, decide_eq_true here.symm, Bool.not_true,
          if_neg Bool.false_ne_true, kept]
      · have differs : uri ≠ entry.1 := fun same => here same.symm
        rw [decide_eq_false here, cond_false, decide_eq_false differs, Bool.not_false, if_pos rfl]
        exact congrArg (entry :: ·) (induction later)

/-- The table after any history: the last word on each path, and the standing patterns in their
order. -/
theorem run_eq (notFound : Servlet) (history : List (ServletAction Servlet)) :
    (new notFound).run history =
      ⟨fun uri => exact uri history, standing history, notFound⟩ := by
  induction history using List.reverseRecOn with
  | nil => rfl
  | append_singleton history action induction =>
      rw [run] at induction ⊢
      rw [List.foldl_append, induction, List.foldl_cons, List.foldl_nil, standing_snoc]
      have distinct := standing_distinct history
      have unspoken (others : List (Str × Servlet)) : others.filter (fun _ => !false) = others :=
        List.filter_eq_self.mpr fun _ _ => rfl
      have last : (fun uri => exact uri (history ++ [action])) = fun uri =>
          match exactly uri action with
          | some word => word
          | none => exact uri history := funext fun uri => exact_snoc uri history action
      rw [last]
      cases action with
      | addServlet uri slt =>
          rw [apply]
          simp only [concerns, unspoken, standing, List.append_nil, exactly]
          congr 1
          funext key
          by_cases here : key = uri
          · rw [if_pos here, if_pos here]
          · rw [if_neg here, if_neg here]
      | delServlet uri =>
          rw [apply]
          simp only [concerns, unspoken, standing, List.append_nil, exactly]
          congr 1
          funext key
          by_cases here : key = uri
          · rw [if_pos here, if_pos here]
          · rw [if_neg here, if_neg here]
      | addGlobServlet uri slt =>
          rw [apply, erase_glob_filter distinct]
          rfl
      | delGlobServlet uri =>
          have none : standing [@delGlobServlet Servlet uri] = [] := rfl
          rw [apply, erase_glob_filter distinct, none, List.append_nil]
          rfl

/-- Whatever was registered and taken away before, a path is given to the servlet that was
registered last for it, else to the oldest standing pattern that matches, else to the default. -/
theorem matched_by_history (fnmatch : Str → Str → Bool) (notFound : Servlet)
    (history : List (ServletAction Servlet)) (uri : Str) :
    ((new notFound).run history).getMatchedServlet fnmatch uri =
      servletOf fnmatch notFound history uri := by
  rw [run_eq, getMatchedServlet, servletOf]
  dsimp only
  cases exact uri history with
  | some slt => rfl
  | none =>
      rw [Option.none_or]
      cases (standing history).find? fun entry => fnmatch (cString entry.1) (cString uri) with
      | none => rfl
      | some entry => rfl

end ServletDispatch
end ChatServer.Http
