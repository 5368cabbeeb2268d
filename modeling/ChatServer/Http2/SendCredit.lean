import ChatServer.Http2.ReceiveCredit

/-!
# What a connection may still send

The ledger notes what the frames of the peer grant and what `sendData` spends. `sendData` never
looks at a window, so only callers that stay within both windows keep the connection within what
it was granted.
-/

namespace ChatServer.Http2

set_option autoImplicit false

/-- A value that did not wrap below is not above the exact one. -/
theorem int32_le {value : Int} (lower : -2 ^ 31 ≤ value) : int32 value ≤ value := by
  obtain ⟨turns, wraps⟩ := int32_wraps value
  have upper := (int32_bounds value).2
  omega

theorem free_body {frame : Frame} (free : frame.counts .owner = false) : frame.body = [] := by
  unfold Frame.counts at free
  unfold Frame.body
  split at free <;> simp_all

theorem free_bodies {frames : List Frame} (free : ∀ frame ∈ frames, frame.counts .owner = false) :
    bodies frames = [] := by
  apply List.flatMap_eq_nil_iff.mpr
  intro frame member
  exact free_body (free frame member)

namespace Http2SocketStream

structure Ledger where
  granted : Nat → Int := fun _ => 0
  sent : Nat → Nat := fun _ => 0
  connection : Int := 65535

/-- What an action grants to a stream: an increment for it, or a change of the initial window
while it is in the map. -/
def grantTo (conn : Http2SocketStream) (ref : Nat) : Action → Int
  | .recv frame =>
      if conn.Mapped ref then
        match frame.settingsIn with
        | some items => latestWindow conn.owner.window items - conn.owner.window
        | none =>
            if frameType frame.header.type = some .windowUpdate then
              frame.increment (conn.heap ref).id
            else 0
      else 0
  | _ => 0

def grantToAll : Action → Nat
  | .recv frame =>
      if frameType frame.header.type = some .windowUpdate then frame.increment 0 else 0
  | _ => 0

def spent (conn after : Http2SocketStream) : Nat :=
  (bodies (after.emitted.drop conn.emitted.length)).length

/-- The entries of one step. A new stream is granted its initial send window, which the
constructor takes from `m_peer`. -/
def Ledger.enter (ledger : Ledger) (conn : Http2SocketStream) (action : Action) (bytes : Nat) :
    Ledger where
  granted := fun ref =>
    if ref < conn.allocated then ledger.granted ref + conn.grantTo ref action
    else conn.peer.window
  sent := fun ref =>
    if (conn.outgoing action).map Prod.fst = some ref then ledger.sent ref + bytes
    else ledger.sent ref
  connection := ledger.connection + grantToAll action

def audit (state : Http2SocketStream × Ledger) (action : Action) :
    Option (Http2SocketStream × Ledger) :=
  (state.1.step action).map fun after =>
    (after, state.2.enter state.1 action (spent state.1 after))

/-- The window of a stream is what is left of its grants, up to increments that were refused and
to wrapping above. Wrapping below is out of reach as long as no more is spent than the window
shows. -/
def Covered (conn : Http2SocketStream) (ledger : Ledger) (ref : Nat) : Prop :=
  ∃ exact, exact + ledger.sent ref ≤ ledger.granted ref ∧
    (conn.heap ref).sendWindow = int32 exact ∧ -2 ^ 31 ≤ exact ∧
    (conn.Mapped ref → conn.owner.window - maxWindow ≤ exact)

structure Solvent (conn : Http2SocketStream) (ledger : Ledger) : Prop where
  lower : 0 ≤ conn.sendWindow
  upper : conn.sendWindow ≤ maxWindow
  connection : conn.sendWindow + (bodies conn.emitted).length ≤ ledger.connection
  unsent : ∀ ref, conn.allocated ≤ ref → ledger.sent ref = 0
  streams : ∀ ref, ref < conn.allocated → Covered conn ledger ref

theorem steady_frames {conn after : Http2SocketStream} (steady : Steady .owner conn after) :
    spent conn after = 0 ∧ bodies after.emitted = bodies conn.emitted := by
  obtain ⟨extra, emitted, free⟩ := steady.emitted
  constructor
  · rw [spent, emitted, List.drop_left, free_bodies free]
    rfl
  · rw [emitted, bodies_append, free_bodies free, List.append_nil]

theorem steady_mapped {side : Side} {conn after : Http2SocketStream} (steady : Steady side conn after)
    {ref : Nat} (mapped : after.Mapped ref) : conn.Mapped ref := by
  have found := steady.streams _ _ mapped
  rwa [(steady.heap ref).1] at found

theorem covered_steady {conn after : Http2SocketStream} {ledger : Ledger} {ref : Nat}
    (covered : Covered conn ledger ref) (steady : Steady .owner conn after) :
    Covered after ledger ref := by
  obtain ⟨exact, within, window, lower, floor⟩ := covered
  have same : (after.heap ref).sendWindow = (conn.heap ref).sendWindow := (steady.heap ref).2
  have owner : after.owner = conn.owner := steady.settings
  refine ⟨exact, within, same.trans window, lower, ?_⟩
  intro mapped
  rw [owner]
  exact floor (steady_mapped steady mapped)

theorem solvent_steady {conn after : Http2SocketStream} {ledger : Ledger}
    (solvent : Solvent conn ledger) (steady : Steady .owner conn after) : Solvent after ledger := by
  have window : after.sendWindow = conn.sendWindow := steady.window
  constructor
  · rw [window]
    exact solvent.lower
  · rw [window]
    exact solvent.upper
  · rw [window, (steady_frames steady).2]
    exact solvent.connection
  · rw [steady.allocated]
    exact solvent.unsent
  · intro ref inside
    rw [steady.allocated] at inside
    exact covered_steady (solvent.streams ref inside) steady

theorem enter_sent (ledger : Ledger) (conn : Http2SocketStream) (action : Action) :
    (ledger.enter conn action 0).sent = ledger.sent := by
  funext ref
  simp [Ledger.enter]

theorem plain_grant (conn : Http2SocketStream) {action : Action} (plain : action.Plain) (ref : Nat) :
    conn.grantTo ref action = 0 := by
  cases action with
  | recv frame =>
      have own := plain frame (List.mem_singleton_self frame)
      simp [grantTo, own.1, own.2]
  | _ => rfl

theorem plain_grant_all {action : Action} (plain : action.Plain) : grantToAll action = 0 := by
  cases action with
  | recv frame =>
      have own := plain frame (List.mem_singleton_self frame)
      simp [grantToAll, own.1]
  | _ => rfl

theorem solvent_plain {conn : Http2SocketStream} {ledger : Ledger} {action : Action}
    (solvent : Solvent conn ledger) (plain : action.Plain) :
    Solvent conn (ledger.enter conn action 0) := by
  constructor
  · exact solvent.lower
  · exact solvent.upper
  · simpa [Ledger.enter, plain_grant_all plain] using solvent.connection
  · rw [enter_sent]
    exact solvent.unsent
  · intro ref inside
    have covered := solvent.streams ref inside
    unfold Covered at *
    rw [enter_sent]
    simpa [Ledger.enter, inside, plain_grant conn plain ref] using covered

theorem solvent_opened {conn : Http2SocketStream} {ledger : Ledger} {action : Action}
    (solvent : Solvent conn ledger) (plain : action.Plain) (sn id : UInt32) :
    Solvent ({ conn with sn }.addStream id) (ledger.enter conn action 0) := by
  have before := solvent_plain solvent plain
  constructor
  · exact before.lower
  · exact before.upper
  · exact before.connection
  · intro ref outside
    exact before.unsent ref (Nat.le_of_succ_le outside)
  · intro ref inside
    cases Nat.lt_succ_iff_lt_or_eq.mp inside with
    | inl earlier =>
        obtain ⟨exact, within, window, lower, floor⟩ := before.streams ref earlier
        have same := add_stream_heap conn sn id earlier
        refine ⟨exact, within, ?_, lower, ?_⟩
        · rw [same]
          exact window
        · intro mapped
          apply floor
          unfold Mapped at *
          rw [same] at mapped
          cases add_stream_found mapped with
          | inl own => exact absurd own.2 (Nat.ne_of_lt earlier)
          | inr before => exact before
    | inr last =>
        rw [last]
        have bounds := window_bounds conn.peer
        have top := (window_bounds conn.owner).2
        refine ⟨conn.peer.window, ?_, ?_, ?_, ?_⟩
        · rw [enter_sent, solvent.unsent conn.allocated (Nat.le_refl _)]
          simp [Ledger.enter]
        · simp only [addStream, Function.update_self]
          rfl
        · omega
        · intro _
          change conn.owner.window - maxWindow ≤ conn.peer.window
          omega

theorem increment_grant {conn : Http2SocketStream} {ledger : Ledger} {frame : Frame} {ref : Nat}
    (typed : frameType frame.header.type = some .windowUpdate) (inside : ref < conn.allocated) :
    (ledger.enter conn (.recv frame) 0).granted ref = ledger.granted ref +
      (if conn.Mapped ref then frame.increment (conn.heap ref).id else 0 : Nat) := by
  have none : frame.settingsIn = none := by simp [Frame.settingsIn, typed]
  simp only [Ledger.enter, inside, if_true, grantTo, none, typed]
  split_ifs <;> rfl

theorem covered_refused {conn : Http2SocketStream} {ledger : Ledger} {frame : Frame} {ref : Nat}
    (typed : frameType frame.header.type = some .windowUpdate) (inside : ref < conn.allocated)
    (covered : Covered conn ledger ref) : Covered conn (ledger.enter conn (.recv frame) 0) ref := by
  obtain ⟨exact, within, window, lower, floor⟩ := covered
  refine ⟨exact, ?_, window, lower, floor⟩
  rw [enter_sent, increment_grant typed inside]
  omega

/-- An increment that is refused still counts as granted. -/
theorem solvent_refused {conn : Http2SocketStream} {ledger : Ledger} {frame : Frame}
    (solvent : Solvent conn ledger) (typed : frameType frame.header.type = some .windowUpdate) :
    Solvent conn (ledger.enter conn (.recv frame) 0) := by
  constructor
  · exact solvent.lower
  · exact solvent.upper
  · have before := solvent.connection
    simp only [Ledger.enter]
    omega
  · rw [enter_sent]
    exact solvent.unsent
  · intro ref inside
    exact covered_refused typed inside (solvent.streams ref inside)

theorem solvent_stream_increment {conn : Http2SocketStream} {ledger : Ledger} {frame : Frame}
    {wuf : WindowUpdateFrame} {ref : Nat} (solvent : Solvent conn ledger) (sound : Sound conn)
    (typed : frameType frame.header.type = some .windowUpdate)
    (payload : frame.data = some (.windowUpdate wuf))
    (found : conn.streams frame.header.streamId = some ref) :
    Solvent (conn.modify ref (ManagedStream.updateSendWindowByDiff wuf.increment.toNat))
      (ledger.enter conn (.recv frame) 0) := by
  have refused := solvent_refused solvent typed
  have named := (sound.named _ ref found).2
  refine ⟨refused.lower, refused.upper, refused.connection, refused.unsent, ?_⟩
  intro other inside
  change other < conn.allocated at inside
  have mappedSame : (conn.modify ref
      (ManagedStream.updateSendWindowByDiff wuf.increment.toNat)).Mapped other ↔ conn.Mapped other := by
    unfold Mapped
    rw [modify_heap]
    split_ifs with same
    · rw [same]
      rfl
    · rfl
  by_cases same : other = ref
  · rw [same] at inside mappedSame ⊢
    obtain ⟨exact, within, window, lower, floor⟩ := solvent.streams ref inside
    have mapped : conn.Mapped ref := by rw [Mapped, named, found]
    have grant : frame.increment (conn.heap ref).id = wuf.increment.toNat := by
      rw [Frame.increment, payload, named]
      exact if_pos rfl
    refine ⟨exact + wuf.increment.toNat, ?_, ?_, ?_, ?_⟩
    · rw [enter_sent, increment_grant typed inside, if_pos mapped, grant]
      omega
    · rw [modify_heap, if_pos rfl]
      change int32 ((conn.heap ref).sendWindow + wuf.increment.toNat) = _
      rw [window, int32_int32_add]
    · omega
    · intro inMap
      have least := floor (mappedSame.mp inMap)
      change conn.owner.window - maxWindow ≤ _
      omega
  · obtain ⟨exact, within, window, lower, floor⟩ := refused.streams other inside
    refine ⟨exact, within, ?_, lower, ?_⟩
    · rw [modify_heap, if_neg same]
      exact window
    · intro inMap
      exact floor (mappedSame.mp inMap)

/-- What the peer grants may be refused, and is never taken for more. -/
theorem solvent_window_update {conn : Http2SocketStream} {ledger : Ledger} {frame : Frame}
    (solvent : Solvent conn ledger) (sound : Sound conn)
    (typed : frameType frame.header.type = some .windowUpdate) :
    Solvent (conn.handleWindowUpdate frame) (ledger.enter conn (.recv frame) 0) := by
  have refused := solvent_refused solvent typed
  have warned := solvent_steady refused (go_away_steady .owner conn conn.sn protocolError [])
  unfold handleWindowUpdate getStream
  split
  · rename_i wuf payload
    by_cases stream : frame.header.streamId ≠ 0
    · rw [if_pos stream]
      split
      · exact warned
      · rename_i ref found
        split_ifs
        · exact warned
        · exact solvent_stream_increment solvent sound typed payload found
    · rw [if_neg stream]
      split_ifs with high
      · exact warned
      · have zero := not_not.mp stream
        have lower := solvent.lower
        have exact : int32 (conn.sendWindow + wuf.increment.toNat) =
            conn.sendWindow + wuf.increment.toNat := by
          unfold maxWindow at high
          apply int32_eq <;> omega
        have grant : grantToAll (.recv frame) = wuf.increment.toNat := by
          simp [grantToAll, typed, Frame.increment, payload, zero]
        refine ⟨?_, ?_, ?_, refused.unsent, refused.streams⟩
        · change 0 ≤ int32 (conn.sendWindow + wuf.increment.toNat)
          rw [exact]
          omega
        · change int32 (conn.sendWindow + wuf.increment.toNat) ≤ maxWindow
          rw [exact]
          omega
        · change int32 (conn.sendWindow + wuf.increment.toNat) + (bodies conn.emitted).length ≤
            ledger.connection + grantToAll (.recv frame)
          have before := solvent.connection
          rw [exact, grant]
          omega
  · exact solvent_steady refused (inner_close_steady .owner conn)

/-- New settings shift the windows by what they grant. -/
theorem solvent_settings {conn : Http2SocketStream} {ledger : Ledger} {frame : Frame}
    {items : List SettingsItem} (solvent : Solvent conn ledger)
    (inForce : frame.settingsIn = some items) :
    Solvent (conn.updateSettings .owner items) (ledger.enter conn (.recv frame) 0) := by
  have settled := update_settings_settled .owner items conn
  have window : (conn.updateSettings .owner items).owner.window =
      latestWindow conn.owner.window items := update_settings_window .owner items conn
  obtain ⟨errors, emitted, goAway⟩ := settled.emitted
  have free : ∀ other ∈ errors, other.counts .owner = false :=
    fun other member => go_away_free (goAway other member)
  have typed : frameType frame.header.type ≠ some .windowUpdate := by
    intro other
    simp [Frame.settingsIn, other] at inForce
  constructor
  · rw [settled.sendWindow]
    exact solvent.lower
  · rw [settled.sendWindow]
    exact solvent.upper
  · rw [settled.sendWindow, emitted, bodies_append, free_bodies free, List.append_nil]
    simpa [Ledger.enter, grantToAll, typed] using solvent.connection
  · rw [settled.allocated, enter_sent]
    exact solvent.unsent
  · intro ref inside
    rw [settled.allocated] at inside
    obtain ⟨exact, within, current, lower, floor⟩ := solvent.streams ref inside
    unfold Covered
    rw [enter_sent, settled_mapped settled]
    by_cases mapped : conn.Mapped ref
    · have granted : (ledger.enter conn (.recv frame) 0).granted ref = ledger.granted ref +
          (latestWindow conn.owner.window items - conn.owner.window) := by
        simp [Ledger.enter, inside, grantTo, mapped, inForce]
      have least := floor mapped
      have bottom := (window_bounds (conn.updateSettings .owner items).owner).1
      rw [window] at bottom
      refine ⟨exact + (latestWindow conn.owner.window items - conn.owner.window), ?_, ?_, ?_, ?_⟩
      · rw [granted]
        omega
      · rw [settled.heap, if_pos mapped]
        change int32 ((conn.heap ref).sendWindow +
          ((conn.updateSettings .owner items).owner.window - conn.owner.window)) = _
        rw [window, current, int32_int32_add]
      · unfold maxWindow at least
        omega
      · intro _
        rw [window]
        omega
    · have granted : (ledger.enter conn (.recv frame) 0).granted ref = ledger.granted ref := by
        simp [Ledger.enter, inside, grantTo, mapped]
      refine ⟨exact, ?_, ?_, lower, ?_⟩
      · rw [granted]
        exact within
      · rw [settled.heap, if_neg mapped]
        exact current
      · intro inMap
        exact absurd inMap mapped

/-- The data an action hands to `sendData` fits into both windows. -/
def Affordable (conn : Http2SocketStream) (action : Action) : Prop :=
  ∀ sending ∈ conn.outgoing action, sending.2 = [] ∨
    (sending.2.length ≤ (conn.heap sending.1).sendWindow ∧ sending.2.length ≤ conn.sendWindow)

theorem posted_frames {conn after : Http2SocketStream} {ref : Nat} {data : Str}
    (posted : Posted conn ref data after) :
    ∃ frames before behind, Steady .owner conn before ∧ Sent before ref frames behind ∧
      Steady .owner behind after ∧ (bodies frames).length ≤ data.length ∧
      spent conn after = (bodies frames).length ∧
      bodies after.emitted = bodies conn.emitted ++ bodies frames := by
  obtain ⟨before, behind, earlier, ⟨frames, sent, inOrder, _⟩, later⟩ := posted
  obtain ⟨first, last, emitted, firstFree, lastFree⟩ := emitted_between earlier sent later
  have bytes : bodies (first ++ frames ++ last) = bodies frames := by
    rw [bodies_append, bodies_append, free_bodies firstFree, free_bodies lastFree, List.nil_append,
      List.append_nil]
  refine ⟨frames, before, behind, earlier, sent, later, inOrder.length_le, ?_, ?_⟩
  · rw [spent, emitted, List.drop_left, bytes]
  · rw [emitted, bodies_append, bytes]

theorem sent_mapped {conn after : Http2SocketStream} {ref : Nat} {frames : List Frame}
    (sent : Sent conn ref frames after) (other : Nat) : after.Mapped other ↔ conn.Mapped other := by
  have id : (after.heap other).id = (conn.heap other).id := by
    rw [sent.heap, Function.update_apply]
    split_ifs with same
    · rw [same]
      rfl
    · rfl
  rw [Mapped, Mapped, id, sent.streams]

theorem covered_visible {conn : Http2SocketStream} {ledger : Ledger} {ref : Nat}
    (covered : Covered conn ledger ref) :
    (conn.heap ref).sendWindow + ledger.sent ref ≤ ledger.granted ref := by
  obtain ⟨exact, within, window, bottom, _⟩ := covered
  have visible := int32_le bottom
  omega

theorem covered_paying {conn after : Http2SocketStream} {ledger next : Ledger} {ref : Nat}
    {frames : List Frame} (covered : Covered conn ledger ref) (sent : Sent conn ref frames after)
    (affordable : bodies frames = [] ∨ (bodies frames).length ≤ (conn.heap ref).sendWindow)
    (granted : next.granted ref = ledger.granted ref)
    (entered : next.sent ref = ledger.sent ref + (bodies frames).length) :
    Covered after next ref := by
  obtain ⟨exact, within, window, bottom, floor⟩ := covered
  have visible := int32_le bottom
  rw [← window] at visible
  have top := (window_bounds conn.owner).2
  unfold Covered
  rw [entered, granted, sent_mapped sent, sent.owner]
  refine ⟨exact - (bodies frames).length, ?_, ?_, ?_, ?_⟩
  · push_cast
    omega
  · rw [sent.heap, Function.update_self]
    change int32 ((conn.heap ref).sendWindow + -((bodies frames).length : Int)) = _
    rw [window, int32_int32_add, Int.sub_eq_add_neg]
  · cases affordable with
    | inl nothing =>
        rw [nothing]
        simpa using bottom
    | inr enough => omega
  · intro mapped
    have least := floor mapped
    cases affordable with
    | inl nothing =>
        rw [nothing]
        simpa using least
    | inr enough => omega

theorem solvent_sent {conn after : Http2SocketStream} {ledger next : Ledger} {ref : Nat}
    {frames : List Frame} (solvent : Solvent conn ledger) (sent : Sent conn ref frames after)
    (inside : ref < conn.allocated)
    (affordable : bodies frames = [] ∨ ((bodies frames).length ≤ (conn.heap ref).sendWindow ∧
      (bodies frames).length ≤ conn.sendWindow))
    (granted : ∀ other < conn.allocated, next.granted other = ledger.granted other)
    (entered : ∀ other, next.sent other =
      if ref = other then ledger.sent other + (bodies frames).length else ledger.sent other)
    (connection : next.connection = ledger.connection) :
    Solvent after next := by
  have lower := solvent.lower
  have upper := solvent.upper
  have fits : int32 conn.sendWindow = conn.sendWindow := by
    unfold maxWindow at upper
    apply int32_eq <;> omega
  have paid : (bodies frames).length ≤ conn.sendWindow := by
    cases affordable with
    | inl nothing =>
        rw [nothing]
        exact lower
    | inr enough => exact enough.2
  have left : after.sendWindow = conn.sendWindow - (bodies frames).length := by
    rw [sent.charged fits]
    unfold maxWindow at upper
    rw [Int.sub_eq_add_neg]
    apply int32_eq <;> omega
  constructor
  · omega
  · omega
  · have before := solvent.connection
    rw [left, sent.emitted, bodies_append, List.length_append, connection]
    push_cast
    omega
  · intro other outside
    rw [sent.allocated] at outside
    rw [entered, if_neg (by omega)]
    exact solvent.unsent other outside
  · intro other otherIn
    rw [sent.allocated] at otherIn
    by_cases same : ref = other
    · rw [← same]
      apply covered_paying (solvent.streams ref inside) sent
      · exact affordable.imp_right And.left
      · exact granted ref inside
      · rw [entered, if_pos rfl]
    · obtain ⟨exact, within, window, bottom, floor⟩ := solvent.streams other otherIn
      unfold Covered
      rw [entered, if_neg same, granted other otherIn, sent_mapped sent, sent.owner]
      refine ⟨exact, within, ?_, bottom, floor⟩
      rw [sent.heap, Function.update_of_ne (Ne.symm same)]
      exact window

/-- Bytes that a step has sent on a stream were granted, and do not bring its window below
zero. -/
def Paid (state after : Http2SocketStream × Ledger) : Prop :=
  ∀ ref, state.2.sent ref < after.2.sent ref →
    after.2.sent ref ≤ after.2.granted ref ∧ 0 ≤ (after.1.heap ref).sendWindow

theorem paid_nothing {conn after : Http2SocketStream} {ledger : Ledger} {action : Action}
    (nothing : spent conn after = 0) :
    Paid (conn, ledger) (after, ledger.enter conn action (spent conn after)) := by
  intro ref more
  rw [nothing, enter_sent] at more
  exact absurd more (Nat.lt_irrefl _)

theorem outgoing_inside {conn after : Http2SocketStream} {action : Action} {ref : Nat} {data : Str}
    (sound : Sound conn) (taken : conn.step action = some after)
    (hands : conn.outgoing action = some (ref, data)) : ref < conn.allocated := by
  cases step_cases taken with
  | task picked _ =>
      simp only [outgoing, picked] at hands
      split_ifs at hands
      cases hands
      exact (sound.queued _ (List.mem_of_getElem? picked)).1
  | unsent unknown => simp [outgoing, unknown] at hands
  | sendRequest found _ =>
      simp only [outgoing, found, Option.map_some, Option.some.injEq, Prod.mk.injEq] at hands
      rw [← hands.1]
      exact (sound.named _ _ found).1
  | sendData inside _ =>
      cases hands
      exact inside
  | _ => cases hands

theorem window_update_spent (conn : Http2SocketStream) (frame : Frame) :
    spent conn (conn.handleWindowUpdate frame) = 0 := by
  have warned := (steady_frames (go_away_steady .owner conn conn.sn protocolError [])).1
  have same : spent conn conn = 0 := (steady_frames (steady_refl .owner conn)).1
  unfold handleWindowUpdate
  split
  · split_ifs
    · split
      · exact warned
      · split_ifs
        · exact warned
        · exact same
    · exact warned
    · exact same
  · exact (steady_frames (inner_close_steady .owner conn)).1

theorem settings_spent {conn after : Http2SocketStream} {items : List SettingsItem}
    (steady : Steady .owner (conn.updateSettings .owner items) after) : spent conn after = 0 := by
  obtain ⟨errors, emitted, goAway⟩ := (update_settings_settled .owner items conn).emitted
  obtain ⟨extra, extraEq, extraFree⟩ := steady.emitted
  have errorsFree : ∀ other ∈ errors, other.counts .owner = false :=
    fun other member => go_away_free (goAway other member)
  rw [spent, extraEq, emitted, List.append_assoc, List.drop_left, bodies_append,
    free_bodies errorsFree, free_bodies extraFree]
  rfl

theorem solvent_posted {conn after : Http2SocketStream} {ledger : Ledger} {action : Action}
    {ref : Nat} {data : Str} (solvent : Solvent conn ledger) (inside : ref < conn.allocated)
    (plain : action.Plain) (hands : conn.outgoing action = some (ref, data))
    (affordable : conn.Affordable action) (posted : Posted conn ref data after) :
    Solvent after (ledger.enter conn action (spent conn after)) ∧
      Paid (conn, ledger) (after, ledger.enter conn action (spent conn after)) := by
  obtain ⟨frames, before, behind, earlier, sent, later, shorter, bytes, _⟩ := posted_frames posted
  let next := ledger.enter conn action (spent conn after)
  have granted {other : Nat} (otherIn : other < conn.allocated) :
      next.granted other = ledger.granted other := by
    change (if other < conn.allocated then _ else _) = _
    rw [if_pos otherIn, plain_grant conn plain, Int.add_zero]
  have entered (other : Nat) : next.sent other =
      if ref = other then ledger.sent other + (bodies frames).length else ledger.sent other := by
    change (if (conn.outgoing action).map Prod.fst = some other then _ else _) = _
    rw [hands, bytes]
    simp only [Option.map_some, Option.some.injEq]
  have connection : next.connection = ledger.connection := by
    change ledger.connection + grantToAll action = _
    rw [plain_grant_all plain]
    exact Int.add_zero _
  have window : (before.heap ref).sendWindow = (conn.heap ref).sendWindow := (earlier.heap ref).2
  have connectionWindow : before.sendWindow = conn.sendWindow := earlier.window
  have enough : bodies frames = [] ∨ ((bodies frames).length ≤ (before.heap ref).sendWindow ∧
      (bodies frames).length ≤ before.sendWindow) := by
    rw [window, connectionWindow]
    cases affordable (ref, data) hands with
    | inl empty =>
        rw [show data = [] from empty, List.length_nil] at shorter
        exact .inl (List.eq_nil_of_length_eq_zero (Nat.le_zero.mp shorter))
    | inr fits =>
        have first : (data.length : Int) ≤ (conn.heap ref).sendWindow := fits.1
        have second : (data.length : Int) ≤ conn.sendWindow := fits.2
        right
        constructor <;> omega
  have readied := solvent_steady solvent earlier
  have allocated := earlier.allocated
  constructor
  · apply solvent_steady (solvent_sent readied sent (by omega) enough _ entered connection) later
    intro other otherIn
    rw [allocated] at otherIn
    exact granted otherIn
  · intro other more
    change ledger.sent other < next.sent other at more
    change (next.sent other : Int) ≤ next.granted other ∧ _
    rw [entered] at more
    split_ifs at more with same
    · rw [← same] at more ⊢
      have spentSome : 0 < (bodies frames).length := by omega
      have fits : (bodies frames).length ≤ (before.heap ref).sendWindow := by
        cases enough with
        | inl nothing => simp [nothing] at spentSome
        | inr both => exact both.1
      have visible := covered_visible (readied.streams ref (by omega))
      have top := (int32_bounds (before.heap ref).sendWindow).2
      rw [(before.heap ref).sendFits] at top
      rw [entered, if_pos rfl, granted inside]
      constructor
      · push_cast
        omega
      · have last : (after.heap ref).sendWindow = (behind.heap ref).sendWindow := (later.heap ref).2
        rw [last, sent.heap, Function.update_self]
        change 0 ≤ int32 ((before.heap ref).sendWindow + -((bodies frames).length : Int))
        rw [int32_eq (by omega) (by omega)]
        omega
    · exact absurd more (Nat.lt_irrefl _)

theorem solvent_step {conn after : Http2SocketStream} {ledger : Ledger} {action : Action}
    (solvent : Solvent conn ledger) (sound : Sound conn) (affordable : conn.Affordable action)
    (taken : conn.step action = some after) :
    Solvent after (ledger.enter conn action (spent conn after)) ∧
      Paid (conn, ledger) (after, ledger.enter conn action (spent conn after)) := by
  cases step_sending sound.sized taken with
  | steady plain steady =>
      have nothing := (steady_frames steady).1
      refine ⟨?_, paid_nothing nothing⟩
      rw [nothing]
      exact solvent_steady (solvent_plain solvent plain) steady
  | opened plain steady =>
      have nothing : spent conn after = 0 := (steady_frames steady).1
      refine ⟨?_, paid_nothing nothing⟩
      rw [nothing]
      exact solvent_steady (solvent_opened solvent plain _ _) steady
  | @windowUpdate frame typed =>
      have nothing := window_update_spent conn frame
      refine ⟨?_, paid_nothing nothing⟩
      rw [nothing]
      exact solvent_window_update solvent sound typed
  | settings inForce steady =>
      have nothing := settings_spent steady
      refine ⟨?_, paid_nothing nothing⟩
      rw [nothing]
      exact solvent_steady (solvent_settings solvent inForce) steady
  | @posted _ ref data _ silent hands posted =>
      have plain : action.Plain := by
        intro frame member
        rw [silent] at member
        exact absurd member List.not_mem_nil
      exact solvent_posted solvent (outgoing_inside sound taken hands) plain hands affordable posted

theorem started_solvent {conn : Http2SocketStream} {greeting : List Frame}
    (started : Started conn greeting) : Solvent conn {} := by
  obtain ⟨isClient, writes, steady⟩ := started_owner started
  have settled := update_settings_settled .owner (greetingItems greeting)
    { new isClient with writes }
  generalize { new isClient with writes }.updateSettings .owner (greetingItems greeting) = greeted
    at steady settled
  apply solvent_steady _ steady
  have window : greeted.sendWindow = 65535 := settled.sendWindow
  have none : greeted.allocated = 0 := settled.allocated
  obtain ⟨errors, emitted, goAway⟩ := settled.emitted
  have silent : bodies greeted.emitted = [] := by
    rw [emitted]
    exact free_bodies fun other member => go_away_free (goAway other member)
  constructor
  · rw [window]
    decide
  · rw [window]
    decide
  · rw [window, silent]
    decide
  · intro ref _
    rfl
  · intro ref inside
    rw [none] at inside
    exact absurd inside (Nat.not_lt_zero ref)

instance (conn : Http2SocketStream) (action : Action) : Decidable (conn.Affordable action) :=
  inferInstanceAs (Decidable (∀ sending ∈ conn.outgoing action, _))

theorem audit_inv {state after : Http2SocketStream × Ledger} {action : Action}
    (taken : audit state action = some after) : state.1.step action = some after.1 ∧
      after = (after.1, state.2.enter state.1 action (spent state.1 after.1)) := by
  obtain ⟨next, stepped, same⟩ := Option.map_eq_some_iff.mp taken
  rw [← same]
  exact ⟨stepped, rfl⟩

def Audited (state : Http2SocketStream × Ledger) : Prop :=
  Sound state.1 ∧ Solvent state.1 state.2

theorem audited_step {state after : Http2SocketStream × Ledger} {action : Action}
    (audited : Audited state) (affordable : state.1.Affordable action)
    (taken : audit state action = some after) : Audited after ∧ Paid state after := by
  obtain ⟨stepped, entered⟩ := audit_inv taken
  have solvent := solvent_step audited.2 audited.1 affordable stepped
  rw [entered]
  exact ⟨⟨sound_step audited.1 stepped, solvent.1⟩, solvent.2⟩

/-- In every run whose messages fit into both windows, a stream is sent no more than it was
granted and all streams together no more than the connection was, and no window falls below
zero for it. -/
theorem sent_within_credit {start conn : Http2SocketStream} {greeting : List Frame}
    {ledger : Ledger} (started : Started start greeting)
    (reached : Transition.Reaches audit (fun state action => state.1.Affordable action)
      (start, {}) (conn, ledger)) :
    (bodies conn.emitted).length ≤ ledger.connection ∧ 0 ≤ conn.sendWindow ∧
      ∀ action after, conn.Affordable action → audit (conn, ledger) action = some after →
        Paid (conn, ledger) after := by
  have audited : Audited (conn, ledger) := by
    apply Transition.invariant_of_reaches _ _ reached
    · exact ⟨started_sound started, started_solvent started⟩
    · intro state action after before affordable taken
      exact (audited_step before affordable taken).1
  have covered := audited.2.connection
  have lower := audited.2.lower
  dsimp only at covered lower
  refine ⟨by omega, lower, ?_⟩
  intro action after affordable taken
  exact (audited_step audited affordable taken).2

/-- The peer leaves a stream a window of four bytes, and they are sent. -/
theorem sent_within_credit_four :
    ∃ conn ledger, Transition.Reaches audit (fun state action => state.1.Affordable action)
        (greeted, {}) (conn, ledger) ∧ ledger.sent 0 = 4 ∧ ledger.granted 0 = 4 ∧
      (bodies conn.emitted).length ≤ ledger.connection := by
  let opening := inFrame .data 0x0 1 1 (.data { data := [0x68] })
  let lowered := settingsFrame [⟨0x4, 4⟩]
  have reached : ∃ state, Transition.Reaches audit (fun state action => state.1.Affordable action)
      (greeted, {}) state ∧ state.2.sent 0 = 4 ∧ state.2.granted 0 = 4 :=
    Transition.exists_of_run
      [.recv opening, .recv lowered, .sendData 0 [0x70, 0x6f, 0x6e, 0x67] true true]
      (by decide +kernel)
  obtain ⟨⟨conn, ledger⟩, reached, sent, granted⟩ := reached
  exact ⟨conn, ledger, reached, sent, granted, (sent_within_credit greeted_started reached).1⟩

/-- A fifth byte goes out as well. -/
theorem sent_beyond_window :
    ∃ conn ledger, Transition.Reaches audit (fun _ _ => True) (greeted, {}) (conn, ledger) ∧
      ledger.sent 0 = 5 ∧ ledger.granted 0 = 4 ∧ (conn.heap 0).sendWindow = -1 := by
  let opening := inFrame .data 0x0 1 1 (.data { data := [0x68] })
  let lowered := settingsFrame [⟨0x4, 4⟩]
  have reached : ∃ state, Transition.Reaches audit (fun _ _ => True) (greeted, {}) state ∧
      state.2.sent 0 = 5 ∧ state.2.granted 0 = 4 ∧ (state.1.heap 0).sendWindow = -1 :=
    Transition.exists_of_run
      [.recv opening, .recv lowered, .sendData 0 [0x70, 0x6f, 0x6e, 0x67, 0x21] true true]
      (by decide +kernel)
  obtain ⟨⟨conn, ledger⟩, reached, sent, granted, window⟩ := reached
  exact ⟨conn, ledger, reached, sent, granted, window⟩

end Http2SocketStream
end ChatServer.Http2
