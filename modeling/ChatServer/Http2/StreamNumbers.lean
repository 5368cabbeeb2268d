import ChatServer.Http2.Http2Connection

/-!
# What belongs to a stream number

What a request has registered is found by its number, and another request may have been given
that number since. In a connection where nothing is done by a number that is no longer the
request's own, whatever is found under a number belongs to the request that was given it last.
-/

namespace ChatServer.Http2.Http2Connection

set_option autoImplicit false

variable {Request : Type}

/-- The response came on the stream of the request and in the incarnation of the stream; a
request removes and closes nothing but its own. -/
def Effect.Proper : Effect Request → Prop
  | .answers stream incarnation request =>
      stream.owner = request ∧ stream.incarnation = incarnation
  | .removesCtx actor owner => actor = owner
  | .closesStream actor owner => actor = owner
  | .removesStream actor owner => actor = owner

instance [DecidableEq Request] (effect : Effect Request) : Decidable effect.Proper :=
  match effect with
  | .answers _ _ _ => inferInstanceAs (Decidable (_ ∧ _))
  | .removesCtx actor owner => inferInstanceAs (Decidable (actor = owner))
  | .closesStream actor owner => inferInstanceAs (Decidable (actor = owner))
  | .removesStream actor owner => inferInstanceAs (Decidable (actor = owner))

/-- The stream that the fiber is about to erase by its number, or whose context it is about to
take. -/
def Reader.ending : Reader Request → Option (Carrier Request)
  | .closing stream | .erasing stream | .taking stream => some stream
  | _ => none

namespace State

/-- Responses and timeouts have reached nothing but their own requests. -/
def Contained (s : State Request) : Prop := ∀ effect ∈ s.effects, effect.Proper

def HasNumber (s : State Request) (request : Request) : Prop :=
  s.holder (s.calls request).sn = some request

instance [DecidableEq Request] (s : State Request) (request : Request) :
    Decidable (s.HasNumber request) :=
  inferInstanceAs (Decidable (_ = _))

/-- A number is given while nothing waits under it; a request registers its stream and its
context, its timeout and the end of its stream erase them, only while the number is its own; a
frame closes only streams of the present incarnation. -/
def Orderly (s : State Request) : Action Request → Prop
  | .call request =>
      ((s.calls request).progress = .checked → s.ctxs.lookup (s.sn + 2) = none) ∧
        ((s.calls request).progress = .numbered ∨ (s.calls request).progress = .opened →
          s.HasNumber request)
  | .callback request => (s.calls request).timer ≠ .erased → s.HasNumber request
  | .receive id => ∀ stream ∈ s.streams id, stream.incarnation = s.incarnation
  | .proceed => ∀ stream ∈ s.reader.ending, s.holder stream.id = some stream.owner
  | _ => True

instance [DecidableEq Request] (s : State Request) (action : Action Request) :
    Decidable (s.Orderly action) :=
  match action with
  | .call _ => inferInstanceAs (Decidable ((_ → _) ∧ (_ → _)))
  | .callback _ => inferInstanceAs (Decidable (_ → _))
  | .receive id => inferInstanceAs (Decidable (∀ stream ∈ s.streams id, _))
  | .proceed => inferInstanceAs (Decidable (∀ stream ∈ s.reader.ending, _))
  | .expire _ | .innerClose | .fail _ | .leave | .reconnect | .swapQueue | .doSend | .stopWrite
  | .close => inferInstanceAs (Decidable True)

end State

def Reader.rests : Reader Request → Bool
  | .closing _ | .erasing _ | .taking _ | .answering _ _ => false
  | _ => true

def Progress.opens : Progress → Bool
  | .idle | .checked | .numbered => false
  | _ => true

def State.Opened (s : State Request) (stream : Carrier Request) : Prop :=
  (s.calls stream.owner).sn = stream.id ∧ (s.calls stream.owner).progress.opens = true

/-- Entries are found under the number of their request; the context under a number, and the
stream of a holder that has registered one, are the holder's. -/
structure Inv (s : State Request) : Prop where
  streams : ∀ id stream, s.streams id = some stream → stream.id = id ∧ s.Opened stream
  own : ∀ request stream, (s.calls request).progress.opens = true → s.HasNumber request →
    s.streams (s.calls request).sn = some stream → stream.owner = request
  ctxs : ∀ id request, (id, request) ∈ s.ctxs → s.holder id = some request ∧
    (s.calls request).sn = id ∧ (s.calls request).progress.opens = true
  timers : ∀ request, (s.calls request).timer ≠ .none → (s.calls request).progress.opens = true
  waiting : ∀ request, request ∈ s.queue ∨ request ∈ s.batch →
    (s.calls request).progress.opens = true
  ending : ∀ stream ∈ s.reader.ending, stream.incarnation = s.incarnation ∧ s.Opened stream
  answering : ∀ stream request, s.reader = .answering stream request →
    stream.owner = request ∧ stream.incarnation = s.incarnation
  contained : s.Contained

theorem inv_start : Inv (start : State Request) where
  streams _ _ found := by cases found
  own _ _ _ _ found := by cases found
  ctxs _ _ found := by cases found
  timers _ live := absurd rfl live
  waiting _ found := by rcases found with found | found <;> cases found
  ending _ found := by cases found
  answering _ _ found := by cases found
  contained _ found := by cases found

variable {s after : State Request} {request : Request}

/-- What is found under a number is logged for its owner. -/
theorem contained_found {α : Type} {found : Option α} {effect : α → Effect Request}
    (contained : s.Contained) (proper : ∀ value, found = some value → (effect value).Proper) :
    ∀ logged ∈ found.toList.map effect ++ s.effects, logged.Proper := by
  intro logged member
  rw [List.mem_append, List.mem_map] at member
  rcases member with ⟨value, there, same⟩ | old
  · rw [← same]
    exact proper value (Option.mem_toList.mp there)
  · exact contained logged old

theorem lookup_holder (inv : Inv s) {sn : UInt32} {owner : Request}
    (found : s.ctxs.lookup sn = some owner) : s.holder sn = some owner := by
  rcases List.lookup_eq_some_iff.mp found with ⟨before, rest, split, _⟩
  have member : (sn, owner) ∈ s.ctxs := by
    rw [split]
    exact List.mem_append_right before List.mem_cons_self
  exact (inv.ctxs sn owner member).1

theorem inv_erase_ctx (inv : Inv s) {actor : Request} {sn : UInt32}
    (has : s.holder sn = some actor) : Inv (s.eraseCtx actor sn) := by
  have contained : (s.eraseCtx actor sn).Contained := by
    apply contained_found inv.contained
    intro owner found
    rw [lookup_holder inv found, Option.some.injEq] at has
    exact has.symm
  have ctxs : ∀ id request, (id, request) ∈ (s.eraseCtx actor sn).ctxs →
      s.holder id = some request ∧ (s.calls request).sn = id ∧
        (s.calls request).progress.opens = true := by
    intro id request member
    exact inv.ctxs id request (List.mem_filter.mp member).1
  exact { inv with ctxs := ctxs, contained := contained }

theorem inv_close_stream (inv : Inv s) {actor : Request} {id : UInt32}
    (own : ∀ stream, s.streams id = some stream → stream.owner = actor) :
    Inv (s.closeStream actor id) := by
  have contained : (s.closeStream actor id).Contained := by
    apply contained_found inv.contained
    intro stream found
    exact (own stream found).symm
  exact { inv with contained := contained }

theorem inv_erase_stream (inv : Inv s) {actor : Request} {id : UInt32}
    (own : ∀ stream, s.streams id = some stream → stream.owner = actor) :
    Inv (s.eraseStream actor id) := by
  have contained : (s.eraseStream actor id).Contained := by
    apply contained_found inv.contained
    intro stream found
    exact (own stream found).symm
  have older {other : UInt32} {stream : Carrier Request}
      (found : (s.eraseStream actor id).streams other = some stream) :
      s.streams other = some stream := by
    by_cases same : other = id
    · rw [State.eraseStream, same] at found
      simp at found
    · simpa only [State.eraseStream, Function.update_of_ne same] using found
  have streams : ∀ other stream, (s.eraseStream actor id).streams other = some stream →
      stream.id = other ∧ s.Opened stream := by
    intro other stream found
    exact inv.streams other stream (older found)
  have owns : ∀ request stream, (s.calls request).progress.opens = true → s.HasNumber request →
      (s.eraseStream actor id).streams (s.calls request).sn = some stream →
      stream.owner = request := by
    intro request stream opens has found
    exact inv.own request stream opens has (older found)
  exact { inv with streams := streams, own := owns, contained := contained }

/-- The fiber goes on to a place where it holds no stream; the incarnation may change there. -/
theorem inv_goto (inv : Inv s) {reader : Reader Request} {incarnation : Nat}
    (rests : reader.rests = true) :
    Inv { s with incarnation := incarnation, reader := reader } := by
  have ending : ∀ stream ∈ reader.ending, stream.incarnation = incarnation ∧ s.Opened stream := by
    intro stream held
    cases reader <;> cases rests <;> cases held
  have answering : ∀ stream request, reader = .answering stream request →
      stream.owner = request ∧ stream.incarnation = incarnation := by
    intro stream request same
    rw [same] at rests
    cases rests
  exact { inv with ending := ending, answering := answering }

theorem inv_hold (inv : Inv s) {reader : Reader Request} {stream : Carrier Request}
    (holds : reader.ending = some stream) (current : stream.incarnation = s.incarnation)
    (opened : s.Opened stream) : Inv { s with reader := reader } := by
  have ending : ∀ other ∈ reader.ending, other.incarnation = s.incarnation ∧ s.Opened other := by
    intro other held
    rw [holds] at held
    rw [← Option.some.inj held]
    exact ⟨current, opened⟩
  have answering : ∀ other request, reader = .answering other request →
      other.owner = request ∧ other.incarnation = s.incarnation := by
    intro other request same
    rw [same] at holds
    cases holds
  exact { inv with ending := ending, answering := answering }

/-- A stream whose number is still its owner's is the one found under the number. -/
theorem own_of_opened (inv : Inv s) {stream : Carrier Request} (opened : s.Opened stream)
    (has : s.holder stream.id = some stream.owner) :
    ∀ other, s.streams stream.id = some other → other.owner = stream.owner := by
  intro other found
  rw [← opened.1] at has found
  exact inv.own stream.owner other opened.2 has found

theorem inv_take_ctx (inv : Inv s) {stream : Carrier Request}
    (current : stream.incarnation = s.incarnation)
    (has : s.holder stream.id = some stream.owner) : Inv (s.takeCtx stream) := by
  have erased : Inv (s.eraseCtx stream.owner stream.id) := inv_erase_ctx inv has
  unfold State.takeCtx
  cases found : s.ctxs.lookup stream.id with
  | none => exact inv_goto erased rfl
  | some request =>
      have own : stream.owner = request := by
        rw [lookup_holder inv found, Option.some.injEq] at has
        exact has.symm
      have ending : ∀ other ∈ (Reader.answering stream request).ending,
          other.incarnation = s.incarnation ∧ (s.eraseCtx stream.owner stream.id).Opened other := by
        intro other held
        cases held
      have answering : ∀ other answered,
          Reader.answering stream request = .answering other answered →
            other.owner = answered ∧ other.incarnation = s.incarnation := by
        intro other answered same
        cases same
        exact ⟨own, current⟩
      exact { erased with ending := ending, answering := answering }

theorem inv_receive (inv : Inv s) {id : UInt32} (orderly : s.Orderly (.receive id))
    (taken : s.receive id = some after) : Inv after := by
  have present : ∀ stream ∈ s.streams id, stream.incarnation = s.incarnation := orderly
  unfold State.receive at taken
  split at taken
  · rename_i stream reader found
    rw [← Option.some.inj taken]
    exact inv_hold inv rfl (present stream found) (inv.streams id stream found).2
  · cases taken

theorem inv_inner_close (inv : Inv s) (taken : s.innerClose = some after) : Inv after := by
  have moved : Inv { s with reader := .closed } := inv_goto inv rfl
  unfold State.innerClose at taken
  split at taken
  case h_6 => cases taken
  all_goals
    rw [← Option.some.inj taken]
    exact { moved with }

theorem inv_reconnect (inv : Inv s) (taken : s.reconnect = some after) : Inv after := by
  unfold State.reconnect at taken
  split at taken
  · split_ifs at taken
    rw [← Option.some.inj taken]
    have moved : Inv { s with incarnation := s.incarnation + 1, reader := .reconnected } :=
      inv_goto inv rfl
    exact { moved with }
  · cases taken

/-- Only requests that have waited before wait for the writing fiber. -/
theorem inv_queues (inv : Inv s) {queue batch : List Request} (fewer : ∀ request,
    request ∈ queue ∨ request ∈ batch → request ∈ s.queue ∨ request ∈ s.batch) :
    Inv { s with queue := queue, batch := batch } := by
  have waiting : ∀ request, request ∈ queue ∨ request ∈ batch →
      (s.calls request).progress.opens = true := by
    intro request member
    exact inv.waiting request (fewer request member)
  exact { inv with waiting := waiting }

theorem inv_swap_queue (inv : Inv s) (taken : s.swapQueue = some after) : Inv after := by
  unfold State.swapQueue at taken
  split_ifs at taken
  rw [← Option.some.inj taken]
  apply inv_queues inv
  intro request member
  rcases member with none | batch
  · cases none
  · exact .inl batch

theorem inv_do_send (inv : Inv s) (taken : s.doSend = some after) : Inv after := by
  unfold State.doSend at taken
  split at taken
  · rename_i request rest batch
    rw [← Option.some.inj taken]
    have sent : Inv { s with queue := s.queue, batch := rest } := by
      apply inv_queues inv
      intro other member
      rw [batch]
      exact member.imp_right (List.mem_cons_of_mem request)
    exact { sent with }
  · cases taken

theorem inv_stop_write (inv : Inv s) (taken : s.stopWrite = some after) : Inv after := by
  unfold State.stopWrite at taken
  split_ifs at taken
  rw [← Option.some.inj taken]
  have cleared : Inv { s with queue := [], batch := s.batch } := by
    apply inv_queues inv
    intro other member
    exact member.imp_left (fun none => by cases none)
  exact { cleared with }

variable [DecidableEq Request]

/-- A request moves on without touching its number or its stream. -/
theorem inv_set_ctx (inv : Inv s) {ctx : RequestCtx} (sn : ctx.sn = (s.calls request).sn)
    (opens : ctx.progress.opens = (s.calls request).progress.opens)
    (timer : ctx.timer ≠ .none → ctx.progress.opens = true) : Inv (s.setCtx request ctx) := by
  have calls (other : Request) : ((s.setCtx request ctx).calls other).sn = (s.calls other).sn ∧
      ((s.setCtx request ctx).calls other).progress.opens = (s.calls other).progress.opens := by
    by_cases same : other = request
    · rw [same, State.set_ctx_self]
      exact ⟨sn, opens⟩
    · rw [State.set_ctx_other s same]
      exact ⟨rfl, rfl⟩
  have opened {stream : Carrier Request} (before : s.Opened stream) :
      (s.setCtx request ctx).Opened stream := by
    unfold State.Opened
    rw [(calls stream.owner).1, (calls stream.owner).2]
    exact before
  constructor
  case streams =>
    intro id stream found
    have before := inv.streams id stream found
    exact ⟨before.1, opened before.2⟩
  case own =>
    intro other stream isOpen has found
    unfold State.HasNumber at has
    rw [(calls other).2] at isOpen
    rw [(calls other).1] at has found
    exact inv.own other stream isOpen has found
  case ctxs =>
    intro id other member
    rw [(calls other).1, (calls other).2]
    exact inv.ctxs id other member
  case timers =>
    intro other live
    by_cases same : other = request
    · rw [same, State.set_ctx_self] at live ⊢
      exact timer live
    · rw [State.set_ctx_other s same] at live ⊢
      exact inv.timers other live
  case waiting =>
    intro other member
    rw [(calls other).2]
    exact inv.waiting other member
  case ending =>
    intro stream handled
    have before := inv.ending stream handled
    exact ⟨before.1, opened before.2⟩
  case answering => exact inv.answering
  case contained => exact inv.contained

theorem inv_set_progress (inv : Inv s) {progress : Progress}
    (opens : progress.opens = (s.calls request).progress.opens) :
    Inv (s.setProgress request progress) := by
  apply inv_set_ctx inv
  · rfl
  · exact opens
  · intro live
    exact opens.trans (inv.timers request live)

theorem inv_set_timer (inv : Inv s) {timer : TimerState}
    (opens : (s.calls request).progress.opens = true) : Inv (s.setTimer request timer) :=
  inv_set_ctx inv rfl rfl fun _ => opens

theorem do_rsp_progress (ctx : RequestCtx) :
    ctx.doRsp.sn = ctx.sn ∧ ctx.doRsp.progress = ctx.progress := by
  unfold RequestCtx.doRsp
  split_ifs <;> exact ⟨rfl, rfl⟩

theorem do_rsp_timer {ctx : RequestCtx} (live : ctx.doRsp.timer ≠ .none) : ctx.timer ≠ .none := by
  intro none
  apply live
  unfold RequestCtx.doRsp
  rw [none]
  split_ifs with _ armed
  · cases armed.2
  · rfl
  · exact none

theorem inv_do_rsp (inv : Inv s) : Inv (s.doRsp request) := by
  have same := do_rsp_progress (s.calls request)
  apply inv_set_ctx inv same.1 (congrArg Progress.opens same.2)
  intro live
  rw [same.2]
  exact inv.timers request (do_rsp_timer live)

omit [DecidableEq Request] in
/-- Whoever has opened a stream is not the request that is about to get a number. -/
theorem ne_of_opens {other : Request} (opens : (s.calls other).progress.opens = true)
    (checked : (s.calls request).progress = .checked) : other ≠ request := by
  intro same
  rw [same, checked] at opens
  cases opens

theorem inv_take_number (inv : Inv s) (checked : (s.calls request).progress = .checked)
    (vacant : s.ctxs.lookup (s.sn + 2) = none) : Inv (s.takeNumber request) := by
  have calls {other : Request} (opens : (s.calls other).progress.opens = true) :
      (s.takeNumber request).calls other = s.calls other :=
    s.set_ctx_other (ne_of_opens opens checked) _
  have unopened : ((s.takeNumber request).calls request).progress.opens = false := by
    simp only [State.takeNumber, State.set_ctx_self]
    rfl
  have opened {other : Request}
      (after : ((s.takeNumber request).calls other).progress.opens = true) :
      (s.calls other).progress.opens = true := by
    by_cases same : other = request
    · rw [same, unopened] at after
      cases after
    · rw [State.takeNumber, State.set_ctx_other s same] at after
      exact after
  have kept {stream : Carrier Request} (before : s.Opened stream) :
      (s.takeNumber request).Opened stream := by
    unfold State.Opened
    rw [calls before.2]
    exact before
  constructor
  case streams =>
    intro id stream found
    have before := inv.streams id stream found
    exact ⟨before.1, kept before.2⟩
  case own =>
    intro other stream isOpen has found
    have before := opened isOpen
    unfold State.HasNumber at has
    rw [calls before] at has found
    by_cases given : (s.calls other).sn = s.sn + 2
    · rw [given, State.take_number_self] at has
      exact absurd (Option.some.inj has).symm (ne_of_opens before checked)
    · rw [State.take_number_other s request given] at has
      exact inv.own other stream before has found
  case ctxs =>
    intro id other member
    have before := inv.ctxs id other member
    have old : id ≠ s.sn + 2 := by
      intro same
      have absent := List.lookup_eq_none_iff.mp vacant (id, other) member
      rw [same] at absent
      simp at absent
    rw [calls before.2.2, State.take_number_other s request old]
    exact before
  case timers =>
    intro other live
    by_cases same : other = request
    · rw [same, State.takeNumber, State.set_ctx_self] at live
      exact absurd rfl (ne_of_opens (inv.timers request live) checked)
    · rw [State.takeNumber, State.set_ctx_other s same] at live ⊢
      exact inv.timers other live
  case waiting =>
    intro other member
    have before := inv.waiting other member
    rw [calls before]
    exact before
  case ending =>
    intro stream handled
    have before := inv.ending stream handled
    exact ⟨before.1, kept before.2⟩
  case answering => exact inv.answering
  case contained => exact inv.contained

theorem inv_add_stream (inv : Inv s) (has : s.HasNumber request) : Inv (s.addStream request) := by
  have self : ((s.addStream request).calls request).progress.opens = true := by
    simp only [State.addStream, State.setProgress, State.set_ctx_self]
    rfl
  have other_calls {other : Request} (different : other ≠ request) :
      (s.addStream request).calls other = s.calls other := s.set_ctx_other different _
  have sn (other : Request) : ((s.addStream request).calls other).sn = (s.calls other).sn :=
    s.set_progress_sn request other .opened
  have opens {other : Request} (before : (s.calls other).progress.opens = true) :
      ((s.addStream request).calls other).progress.opens = true := by
    by_cases same : other = request
    · rw [same]
      exact self
    · rw [other_calls same]
      exact before
  have kept {stream : Carrier Request} (before : s.Opened stream) :
      (s.addStream request).Opened stream := by
    unfold State.Opened
    rw [sn]
    exact ⟨before.1, opens before.2⟩
  constructor
  case streams =>
    intro id stream found
    by_cases same : id = (s.calls request).sn
    · rw [same, State.add_stream_self, Option.some.injEq] at found
      rw [← found]
      exact ⟨same.symm, sn request, self⟩
    · rw [State.add_stream_other s request same] at found
      have before := inv.streams id stream found
      exact ⟨before.1, kept before.2⟩
  case own =>
    intro other stream isOpen hasOther found
    unfold State.HasNumber at hasOther
    rw [sn] at hasOther found
    by_cases same : (s.calls other).sn = (s.calls request).sn
    · rw [same, State.add_stream_self, Option.some.injEq] at found
      have holder : some request = some other := by
        rw [← hasOther, same]
        exact has.symm
      rw [← found]
      exact Option.some.inj holder
    · rw [State.add_stream_other s request same] at found
      have different : other ≠ request := fun equal => same (by rw [equal])
      rw [other_calls different] at isOpen
      exact inv.own other stream isOpen hasOther found
  case ctxs =>
    intro id other member
    have before := inv.ctxs id other member
    rw [sn]
    exact ⟨before.1, before.2.1, opens before.2.2⟩
  case timers =>
    intro other live
    have same := s.set_progress_timer request other .opened
    exact opens (inv.timers other (fun none => live (same.trans none)))
  case waiting =>
    intro other member
    exact opens (inv.waiting other member)
  case ending =>
    intro stream handled
    have before := inv.ending stream handled
    exact ⟨before.1, kept before.2⟩
  case answering => exact inv.answering
  case contained => exact inv.contained

theorem inv_add_ctx (inv : Inv s) (opened : (s.calls request).progress = .opened)
    (has : s.HasNumber request) : Inv (s.addCtx request) := by
  have moved : Inv (s.setProgress request .registered) :=
    inv_set_progress inv (by rw [opened]; rfl)
  have entered : ∀ id other, (id, other) ∈ (s.addCtx request).ctxs →
      (id, other) = ((s.calls request).sn, request) ∨ (id, other) ∈ s.ctxs := by
    intro id other member
    unfold State.addCtx at member
    dsimp only at member
    split_ifs at member
    · exact .inr member
    · exact List.mem_cons.mp member
  have ctxs : ∀ id other, (id, other) ∈ (s.addCtx request).ctxs → s.holder id = some other ∧
      ((s.addCtx request).calls other).sn = id ∧
      ((s.addCtx request).calls other).progress.opens = true := by
    intro id other member
    rcases entered id other member with new | old
    · rw [Prod.mk.injEq] at new
      rw [new.1, new.2]
      have self : (s.addCtx request).calls request =
          { s.calls request with progress := .registered } := s.set_ctx_self request _
      rw [self]
      exact ⟨has, rfl, rfl⟩
    · exact moved.ctxs id other old
  exact { moved with ctxs := ctxs }

theorem inv_enqueue (inv : Inv s) (kept : (s.calls request).progress = .kept) :
    Inv (s.enqueue request) := by
  have moved : Inv (s.setProgress request .waiting) :=
    inv_set_progress inv (by rw [kept]; rfl)
  have waiting : ∀ other, other ∈ s.queue ++ [request] ∨ other ∈ s.batch →
      ((s.enqueue request).calls other).progress.opens = true := by
    intro other member
    rw [List.mem_append, List.mem_singleton] at member
    rcases member with (old | new) | batch
    · exact moved.waiting other (.inl old)
    · have self : (s.enqueue request).calls request =
          { s.calls request with progress := .waiting } := s.set_ctx_self request _
      rw [new, self]
      rfl
    · exact moved.waiting other (.inr batch)
  exact { moved with waiting := waiting }

theorem inv_call (inv : Inv s) (orderly : s.Orderly (.call request))
    (taken : s.call request = some after) : Inv after := by
  unfold State.call at taken
  cases progress : (s.calls request).progress with
  | idle =>
      simp only [progress] at taken
      by_cases connected : s.connected = true
      · rw [if_pos connected, Option.some.injEq] at taken
        rw [← taken]
        exact inv_set_progress inv (by rw [progress]; rfl)
      · rw [if_neg connected] at taken
        cases taken
  | checked =>
      simp only [progress, Option.some.injEq] at taken
      rw [← taken]
      exact inv_take_number inv progress (orderly.1 progress)
  | numbered =>
      simp only [progress, Option.some.injEq] at taken
      rw [← taken]
      exact inv_add_stream inv (orderly.2 (.inl progress))
  | opened =>
      simp only [progress, Option.some.injEq] at taken
      rw [← taken]
      exact inv_add_ctx inv progress (orderly.2 (.inr progress))
  | registered =>
      simp only [progress, Option.some.injEq] at taken
      rw [← taken]
      exact inv_set_ctx inv rfl (by rw [progress]; rfl) fun _ => rfl
  | armed =>
      simp only [progress, Option.some.injEq] at taken
      rw [← taken]
      exact inv_set_progress inv (by rw [progress]; rfl)
  | kept =>
      simp only [progress, Option.some.injEq] at taken
      rw [← taken]
      exact inv_enqueue inv progress
  | waiting =>
      simp only [progress] at taken
      cases taken

theorem inv_callback (inv : Inv s) (orderly : s.Orderly (.callback request))
    (taken : s.callback request = some after) : Inv after := by
  have opens : (s.calls request).timer ≠ .none → (s.calls request).progress.opens = true :=
    inv.timers request
  have own (live : (s.calls request).timer ≠ .none) (has : s.HasNumber request)
      (stream : Carrier Request) (found : s.streams (s.calls request).sn = some stream) :
      stream.owner = request := inv.own request stream (opens live) has found
  have has : (s.calls request).timer ≠ .erased → s.HasNumber request := orderly
  unfold State.callback at taken
  cases timer : (s.calls request).timer with
  | taken =>
      simp only [timer, Option.some.injEq] at taken
      rw [timer] at opens has
      rw [← taken]
      exact inv_set_timer (inv_erase_ctx inv (has (by decide))) (opens (by decide))
  | erased =>
      simp only [timer, Option.some.injEq] at taken
      rw [timer] at opens
      rw [← taken]
      apply inv_set_timer (inv_do_rsp inv)
      rw [State.doRsp, State.set_ctx_self, (do_rsp_progress (s.calls request)).2]
      exact opens (by decide)
  | answered =>
      simp only [timer, Option.some.injEq] at taken
      rw [timer] at opens has own
      rw [← taken]
      apply inv_set_timer (inv_close_stream inv (own (by decide) (has (by decide))))
      exact opens (by decide)
  | closed =>
      simp only [timer, Option.some.injEq] at taken
      rw [timer] at opens has own
      rw [← taken]
      apply inv_set_timer (inv_erase_stream inv (own (by decide) (has (by decide))))
      exact opens (by decide)
  | none | armed | done | cancelled =>
      simp only [timer] at taken
      cases taken

theorem inv_answer (inv : Inv s) {stream : Carrier Request} (own : stream.owner = request)
    (current : stream.incarnation = s.incarnation) : Inv (s.answer stream request) := by
  have resumed : Inv { s.doRsp request with reader := .reading } := inv_goto (inv_do_rsp inv) rfl
  have contained : (s.answer stream request).Contained := by
    intro effect member
    rcases List.mem_cons.mp member with new | old
    · rw [new]
      exact ⟨own, current⟩
    · exact inv.contained effect old
  exact { resumed with contained := contained }

theorem inv_proceed (inv : Inv s) (orderly : s.Orderly .proceed)
    (taken : s.proceed = some after) : Inv after := by
  have has : ∀ stream ∈ s.reader.ending, s.holder stream.id = some stream.owner := orderly
  have held := inv.ending
  unfold State.proceed at taken
  cases reader : s.reader with
  | closing stream =>
      rw [reader] at taken has held
      rcases held stream rfl with ⟨current, opened⟩
      rw [← Option.some.inj taken]
      have closed := inv_close_stream inv (own_of_opened inv opened (has stream rfl))
      exact inv_hold closed rfl current opened
  | erasing stream =>
      rw [reader] at taken has held
      rcases held stream rfl with ⟨current, opened⟩
      rw [← Option.some.inj taken]
      have erased := inv_erase_stream inv (own_of_opened inv opened (has stream rfl))
      exact inv_hold erased rfl current opened
  | taking stream =>
      rw [reader] at taken has held
      rw [← Option.some.inj taken]
      exact inv_take_ctx inv (held stream rfl).1 (has stream rfl)
  | answering stream request =>
      rw [reader] at taken
      have proper := inv.answering stream request reader
      rw [← Option.some.inj taken]
      exact inv_answer inv proper.1 proper.2
  | reconnected =>
      rw [reader] at taken
      rw [← Option.some.inj taken]
      have moved : Inv { s with reader := .ready } := inv_goto inv rfl
      exact { moved with }
  | ready =>
      rw [reader] at taken
      rw [← Option.some.inj taken]
      have moved : Inv { s with reader := .reading } := inv_goto inv rfl
      exact { moved with }
  | closed =>
      rw [reader] at taken
      rw [← Option.some.inj taken]
      have moved : Inv { s with reader := .swapped s.ctxs } := inv_goto inv rfl
      exact { moved with ctxs := fun _ _ member => by cases member }
  | swapped ctxs =>
      rw [reader] at taken
      rw [← Option.some.inj taken]
      have moved : Inv { s with reader := .failing (ctxs.map Prod.snd) } := inv_goto inv rfl
      have waiting : ∀ request, request ∈ ([] : List Request) ∨ request ∈ s.batch →
          (s.calls request).progress.opens = true := by
        intro request member
        rcases member with none | batch
        · cases none
        · exact inv.waiting request (.inr batch)
      exact { moved with waiting := waiting }
  | down | reading | failing _ =>
      rw [reader] at taken
      cases taken

theorem inv_fail (inv : Inv s) (taken : s.fail request = some after) : Inv after := by
  unfold State.fail at taken
  split at taken
  · split_ifs at taken
    rw [← Option.some.inj taken]
    exact inv_goto (inv_do_rsp inv) rfl
  · cases taken

theorem inv_step {action : Action Request} (inv : Inv s) (orderly : s.Orderly action)
    (taken : step s action = some after) : Inv after := by
  cases action with
  | call request => exact inv_call inv orderly taken
  | expire request =>
      simp only [step] at taken
      split_ifs at taken with armed
      rw [← Option.some.inj taken]
      exact inv_set_timer inv (inv.timers request (by rw [armed]; decide))
  | callback request => exact inv_callback inv orderly taken
  | receive id => exact inv_receive inv orderly taken
  | proceed => exact inv_proceed inv orderly taken
  | innerClose => exact inv_inner_close inv taken
  | fail request => exact inv_fail inv taken
  | leave =>
      simp only [step, State.leave] at taken
      split at taken
      · rw [← Option.some.inj taken]
        exact inv_goto inv rfl
      · cases taken
  | reconnect => exact inv_reconnect inv taken
  | swapQueue => exact inv_swap_queue inv taken
  | doSend => exact inv_do_send inv taken
  | stopWrite => exact inv_stop_write inv taken
  | close =>
      rw [← Option.some.inj taken]
      exact { inv with }

end ChatServer.Http2.Http2Connection
