import ChatServer.Http2.StreamNumbers
import ChatServer.Lib.Transition

/-!
# Responses and timeouts of reused numbers

Responses and timeouts stay with their requests through any number of reconnects, as long as no
number is used for a request once another one has been given it. Two runs show what happens
otherwise.
-/

namespace ChatServer.Http2.Http2Connection

set_option autoImplicit false

variable {Request : Type} [DecidableEq Request] {s after : State Request} {request : Request}

theorem inv_reaches (reaches : Transition.Reaches step State.Orderly start s) : Inv s :=
  Transition.invariant_of_reaches inv_start
    (fun _ _ _ inv orderly taken => inv_step inv orderly taken) reaches

/-- However requests, responses, timeouts and reconnects are interleaved: as long as no number
is used for a request after it has been given to another one, they keep to themselves. -/
theorem responses_and_timeouts_contained
    (reaches : Transition.Reaches step State.Orderly start s) : s.Contained :=
  (inv_reaches reaches).contained

instance (s : State Request) : Decidable s.Contained :=
  inferInstanceAs (Decidable (∀ effect ∈ s.effects, effect.Proper))

def connecting : List (Action Request) := [.reconnect, .proceed, .proceed]

def closing (requests : List Request) : List (Action Request) :=
  [.innerClose, .proceed, .proceed] ++ requests.map .fail ++ [.leave, .stopWrite]

/-- One request fails with the connection. The other one is made after the reconnect, gets the
same number and is answered. -/
def reused : List (Action Bool) :=
  connecting ++ List.replicate 7 (.call false) ++ closing [false] ++ connecting ++
    List.replicate 7 (.call true) ++ [.swapQueue, .doSend, .receive 1] ++
    List.replicate 4 .proceed

theorem responses_and_timeouts_contained_reused :
    ∃ last, Transition.Reaches step State.Orderly (start : State Bool) last ∧ last.Contained ∧
      .answers ⟨1, true, 2⟩ 2 true ∈ last.effects := by
  have ran : ∃ last, Transition.Reaches step State.Orderly (start : State Bool) last ∧
      .answers ⟨1, true, 2⟩ 2 true ∈ last.effects :=
    Transition.exists_of_run reused (by decide +kernel)
  rcases ran with ⟨last, reaches, answered⟩
  exact ⟨last, reaches, responses_and_timeouts_contained reaches, answered⟩

/-- The callback of a timer is taken out, the connection closes and comes back, and the callback
runs when the number is the other request's. -/
def lateCallback : List (Action Bool) :=
  connecting ++ List.replicate 7 (.call false) ++ [.expire false] ++ closing [false] ++
    connecting ++ List.replicate 7 (.call true) ++ List.replicate 4 (.callback false)

def lateContext : List (Action Bool) :=
  connecting ++ List.replicate 3 (.call false) ++ closing [] ++ connecting ++
    List.replicate 3 (.call true) ++ [.call false, .call true, .receive 1] ++
    List.replicate 4 .proceed

/-- The timeout of one request removes what another one waits with, and the response of one goes
to another. -/
theorem number_shared_by_requests :
    (∃ last, Transition.Reaches step (fun _ _ => True) (start : State Bool) last ∧
      (¬last.Contained ∧ .removesCtx false true ∈ last.effects ∧
        .removesStream false true ∈ last.effects)) ∧
    ∃ last, Transition.Reaches step (fun _ _ => True) (start : State Bool) last ∧
      (¬last.Contained ∧ .answers ⟨1, true, 2⟩ 2 false ∈ last.effects) :=
  ⟨Transition.exists_of_run lateCallback (by decide +kernel),
    Transition.exists_of_run lateContext (by decide +kernel)⟩

end ChatServer.Http2.Http2Connection
