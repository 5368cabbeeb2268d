import ChatServer.Http2.SendCredit

/-!
# Settings and windows that are out of range

An item of a SETTINGS frame with an invalid value is answered with GOAWAY, and all but
INITIAL_WINDOW_SIZE are stored all the same. `updateWindowSizeByDiff` looks at the new window for
a log line only, so a window stays what was added to it as long as no caller lifts it over the
top or takes it below the bottom of an `int32_t`.
-/

namespace ChatServer.Http2

set_option autoImplicit false

def updateWindowSizeByDiff (window diff : Int) : Int × Int := (0, int32 (window + diff))

/-- The change to a window above the top is refused, with an error for the caller. -/
def Declines (window diff : Int) : Prop :=
  (updateWindowSizeByDiff window diff).2 = window ∧ (updateWindowSizeByDiff window diff).1 ≠ 0

theorem declines_iff (window diff : Int) :
    (maxWindow < window + diff → Declines window diff) ↔ window + diff ≤ maxWindow := by
  constructor
  · intro declines
    by_contra above
    exact (declines (Int.not_le.mp above)).2 rfl
  · intro inside above
    exact absurd inside (Int.not_le.mpr above)

/-- A value of `int32_t`. -/
def Fits (value : Int) : Prop := -2 ^ 31 ≤ value ∧ value ≤ maxWindow

instance (value : Int) : Decidable (Fits value) := inferInstanceAs (Decidable (_ ∧ _))

theorem fits_int32 {value : Int} (fits : Fits value) : int32 value = value := by
  have upper := fits.2
  unfold maxWindow at upper
  exact int32_eq fits.1 (by omega)

namespace Http2SocketStream

/-- The value is checked before it is stored, or what is stored is there already. -/
def Idle (sts : Http2Settings) (i : SettingsItem) : Prop :=
  match setting i.identifier with
  | some .enablePush => sts.enablePush = true
  | some .maxFrameSize => sts.maxFrameSize = i.value
  | _ => True

theorem enable_push_kept_iff (sts : Http2Settings) (flag : Bool) :
    { sts with enablePush := flag } = sts ↔ sts.enablePush = flag := by
  constructor
  · intro same
    exact (congrArg Http2Settings.enablePush same).symm
  · intro same
    rw [← same]

theorem max_frame_size_kept_iff (sts : Http2Settings) (value : UInt32) :
    { sts with maxFrameSize := value } = sts ↔ sts.maxFrameSize = value := by
  constructor
  · intro same
    exact (congrArg Http2Settings.maxFrameSize same).symm
  · intro same
    rw [← same]

theorem store_keeps_iff (side : Side) (conn : Http2SocketStream)
    (change : Http2Settings → Http2Settings) :
    (∀ against, (conn.store side change).settings against = conn.settings against) ↔
      change (conn.settings side) = conn.settings side := by
  constructor
  · intro kept
    have own := kept side
    rwa [store_other, if_pos rfl] at own
  · intro same against
    rw [store_other]
    by_cases own : against = side
    · rw [if_pos own, same, own]
    · rw [if_neg own]

/-- An item with an invalid value leaves both records as they were exactly when it is idle. -/
theorem invalid_keeps_iff (side : Side) (conn : Http2SocketStream) {i : SettingsItem}
    (invalid : i.valid = false) :
    (∀ against, (updateSetting side conn i).settings against = conn.settings against) ↔
      Idle (conn.settings side) i := by
  unfold SettingsItem.valid at invalid
  unfold updateSetting Idle
  cases kind : setting i.identifier with
  | none => simp [kind] at invalid
  | some named =>
      cases named with
      | headerTableSize => simp [kind] at invalid
      | maxConcurrentStreams => simp [kind] at invalid
      | maxHeaderListSize => simp [kind] at invalid
      | enablePush =>
          simp only [kind, decide_eq_false_iff_not] at invalid
          have nonzero : i.value ≠ 0 := by
            intro zero
            exact invalid (by rw [zero]; decide)
          have notOne : i.value ≠ 1 := by
            intro one
            exact invalid (by rw [one]; decide)
          have warned (against : Side) : (conn.sendGoAway conn.sn protocolError []).settings against =
              conn.settings against := go_away_settings against conn conn.sn protocolError []
          simp only [if_pos (And.intro nonzero notOne)]
          simp only [← warned]
          rw [store_keeps_iff, enable_push_kept_iff, decide_eq_true nonzero]
      | initialWindowSize =>
          simp only [kind, decide_eq_false_iff_not] at invalid
          simp only [dif_neg invalid, iff_true]
          intro against
          exact go_away_settings against conn conn.sn protocolError []
      | maxFrameSize =>
          simp only [kind, Bool.and_eq_false_iff, decide_eq_false_iff_not] at invalid
          have outside : i.value < defaultMaxFrameSize ∨ i.value > maxMaxFrameSize := by
            rcases invalid with low | high
            · exact Or.inl (UInt32.not_le.mp low)
            · exact Or.inr (UInt32.not_le.mp high)
          simp only [if_pos outside, go_away_settings]
          rw [store_keeps_iff, max_frame_size_kept_iff]

def settling (conn : Http2SocketStream) : Action → Option (Side × List SettingsItem)
  | .recv frame => frame.settingsIn.map fun items => (.owner, items)
  | .sendSettings items => if conn.connected then some (.peer, items) else none
  | _ => none

def moved (conn : Http2SocketStream) (side : Side) (items : List SettingsItem) : Int :=
  latestWindow (conn.settings side).window items - (conn.settings side).window

def settlement (conn : Http2SocketStream) (action : Action) (side : Side) (ref : Nat) : Int :=
  match conn.settling action with
  | some (shifted, items) => if shifted = side ∧ conn.Mapped ref then conn.moved side items else 0
  | none => 0

/-- The increment for a stream; one that lifts the window over the top is refused before. -/
def accepted (conn : Http2SocketStream) (ref : Nat) : Action → Nat
  | .recv frame =>
      if frameType frame.header.type = some .windowUpdate ∧ frame.header.streamId ≠ 0 ∧
          conn.streams frame.header.streamId = some ref ∧
          (conn.heap ref).sendWindow + frame.increment frame.header.streamId ≤ maxWindow then
        frame.increment frame.header.streamId
      else 0
  | _ => 0

def target (conn : Http2SocketStream) (frame : Frame) : Option Nat :=
  if frameType frame.header.type = some .windowUpdate ∨ frame.header.streamId = 0 then none
  else match conn.streams frame.header.streamId with
    | some ref => some ref
    | none =>
        if conn.isClient = false ∧ conn.sn < frame.header.streamId then some conn.allocated else none

/-- What the increments that were sent grant to the stream that takes in a frame, less the
frame. -/
def exchanged (conn after : Http2SocketStream) (ref : Nat) : Action → Int
  | .recv frame =>
      if conn.target frame = some ref then
        increments frame.header.streamId (after.emitted.drop conn.emitted.length) - frame.dataLength
      else 0
  | _ => 0

def added (conn after : Http2SocketStream) (action : Action) (ref : Nat) : Side → Int
  | .owner => conn.settlement action .owner ref + conn.accepted ref action -
      if (conn.outgoing action).map Prod.fst = some ref then (spent conn after : Int) else 0
  | .peer => conn.settlement action .peer ref + conn.exchanged after ref action

def startWindow (conn : Http2SocketStream) : Side → Int
  | .owner => conn.peer.window
  | .peer => conn.owner.window

def windowOf (conn : Http2SocketStream) (side : Side) (ref : Nat) : Int :=
  if ref < conn.allocated then (conn.heap ref).window side else conn.startWindow side

/-- Every change that a step makes to a window leaves it inside `int32_t`: each item of the
settings it puts in force, the data it sends, and the DATA it takes in, which is to fit into
the window because one below zero is refilled across the bottom. -/
def Contained (conn : Http2SocketStream) (action : Action) : Prop :=
  (∀ change ∈ conn.settling action, ∀ count ≤ change.2.length, ∀ ref < conn.allocated,
    conn.Mapped ref →
      Fits ((conn.heap ref).window change.1 + conn.moved change.1 (change.2.take count))) ∧
  (∀ sending ∈ conn.outgoing action,
    -2 ^ 31 ≤ (conn.heap sending.1).sendWindow - sending.2.length) ∧
  (∀ frame ∈ action.received, ∀ ref ∈ conn.target frame,
    frame.dataLength = 0 ∨ frame.dataLength ≤ conn.windowOf .peer ref)

instance (conn : Http2SocketStream) (action : Action) : Decidable (conn.Contained action) :=
  inferInstanceAs (Decidable ((∀ change ∈ conn.settling action, _) ∧
    (∀ sending ∈ conn.outgoing action, _) ∧ ∀ frame ∈ action.received, _))

/-- Items that keep a window inside `int32_t` shift it by what they move. -/
theorem settings_shift (conn : Http2SocketStream) (side : Side) (items : List SettingsItem)
    {ref : Nat} (mapped : conn.Mapped ref)
    (fits : Fits ((conn.heap ref).window side + conn.moved side items)) :
    ((conn.updateSettings side items).heap ref).window side =
      (conn.heap ref).window side + conn.moved side items := by
  have shifted := (update_settings_settled side items conn).heap ref
  have latest := update_settings_window side items conn
  rw [if_pos mapped, latest] at shifted
  rw [shifted]
  cases side with
  | owner => exact fits_int32 fits
  | peer => exact fits_int32 fits

theorem settings_unmapped (conn : Http2SocketStream) (side : Side) (items : List SettingsItem)
    {ref : Nat} (unmapped : ¬conn.Mapped ref) :
    (conn.updateSettings side items).heap ref = conn.heap ref := by
  rw [(update_settings_settled side items conn).heap ref, if_neg unmapped]

theorem settled_window {conn : Http2SocketStream} {action : Action} {side : Side}
    {items : List SettingsItem} (contained : conn.Contained action)
    (settles : conn.settling action = some (side, items)) {ref : Nat} (inside : ref < conn.allocated) :
    ((conn.updateSettings side items).heap ref).window side =
      (conn.heap ref).window side + conn.settlement action side ref := by
  simp only [settlement, settles]
  by_cases mapped : conn.Mapped ref
  · have fits := contained.1 (side, items) settles items.length (Nat.le_refl _) ref inside mapped
    rw [List.take_length] at fits
    rw [if_pos ⟨trivial, mapped⟩]
    exact settings_shift conn side items mapped fits
  · rw [if_neg (fun both => mapped both.2), settings_unmapped conn side items mapped, Int.add_zero]

theorem plain_settlement (conn : Http2SocketStream) {action : Action} (plain : action.Plain)
    (ref : Nat) : conn.settlement action .owner ref = 0 := by
  unfold settlement settling
  cases action with
  | recv frame => simp [(plain frame (List.mem_singleton_self frame)).2]
  | sendSettings items => by_cases connected : conn.connected = true <;> simp [connected]
  | _ => rfl

theorem plain_accepted (conn : Http2SocketStream) {action : Action} (plain : action.Plain)
    (ref : Nat) : conn.accepted ref action = 0 := by
  cases action with
  | recv frame => exact if_neg fun all => (plain frame (List.mem_singleton_self frame)).1 all.1
  | _ => rfl

theorem added_plain {conn after : Http2SocketStream} {action : Action} (plain : action.Plain)
    (nothing : spent conn after = 0) (ref : Nat) : conn.added after action ref .owner = 0 := by
  simp [added, plain_settlement conn plain, plain_accepted conn plain, nothing]

theorem accepted_eq_zero {conn : Http2SocketStream} {frame : Frame} {ref : Nat}
    (refused : conn.streams frame.header.streamId = some ref →
      frame.header.streamId ≠ 0 → maxWindow <
        (conn.heap ref).sendWindow + frame.increment frame.header.streamId) :
    conn.accepted ref (.recv frame) = 0 := by
  apply if_neg
  intro all
  exact absurd all.2.2.2 (Int.not_le.mpr (refused all.2.2.1 all.2.1))

theorem own_window_update {conn : Http2SocketStream} {frame : Frame} {ref : Nat}
    (typed : frameType frame.header.type = some .windowUpdate) (stream : frame.header.streamId ≠ 0)
    (found : conn.streams frame.header.streamId = some ref)
    (inside : (conn.heap ref).sendWindow + frame.increment frame.header.streamId ≤ maxWindow) :
    int32 ((conn.heap ref).sendWindow + frame.increment frame.header.streamId) =
      (conn.heap ref).sendWindow + conn.accepted ref (.recv frame) := by
  have lower := (int32_bounds (conn.heap ref).sendWindow).1
  rw [(conn.heap ref).sendFits] at lower
  have taken : conn.accepted ref (.recv frame) = frame.increment frame.header.streamId :=
    if_pos ⟨typed, stream, found, inside⟩
  rw [taken]
  exact fits_int32 ⟨by omega, inside⟩

theorem window_update_added {conn : Http2SocketStream} {frame : Frame}
    (typed : frameType frame.header.type = some .windowUpdate) (ref : Nat) :
    ((conn.handleWindowUpdate frame).heap ref).sendWindow =
      (conn.heap ref).sendWindow + conn.accepted ref (.recv frame) := by
  have warned : ((conn.sendGoAway conn.sn protocolError []).heap ref).sendWindow =
      (conn.heap ref).sendWindow := ((go_away_steady .owner conn conn.sn protocolError []).heap ref).2
  have unchanged {after : Http2SocketStream} (refused : conn.accepted ref (.recv frame) = 0)
      (same : (after.heap ref).sendWindow = (conn.heap ref).sendWindow) :
      (after.heap ref).sendWindow = (conn.heap ref).sendWindow + conn.accepted ref (.recv frame) := by
    rw [refused, same]
    exact (Int.add_zero _).symm
  unfold handleWindowUpdate getStream
  split
  · rename_i wuf payload
    have increment : frame.increment frame.header.streamId = wuf.increment.toNat := by
      rw [Frame.increment, payload]
      exact if_pos rfl
    by_cases stream : frame.header.streamId ≠ 0
    · rw [if_pos stream]
      cases found : conn.streams frame.header.streamId with
      | none =>
          apply unchanged _ warned
          apply accepted_eq_zero
          intro own
          cases found.symm.trans own
      | some other =>
          dsimp only
          rw [← increment]
          by_cases same : ref = other
          · rw [← same] at found ⊢
            by_cases high : (conn.heap ref).sendWindow + frame.increment frame.header.streamId >
                maxWindow
            · rw [if_pos high]
              exact unchanged (accepted_eq_zero fun _ _ => high) warned
            · rw [if_neg high, modify_heap, if_pos rfl]
              exact own_window_update typed stream found (Int.not_lt.mp high)
          · have refused : conn.accepted ref (.recv frame) = 0 :=
              accepted_eq_zero fun own => absurd (Option.some.inj (own.symm.trans found)) same
            split
            · exact unchanged refused warned
            · apply unchanged refused
              rw [modify_heap, if_neg same]
    · have refused : conn.accepted ref (.recv frame) = 0 :=
        accepted_eq_zero fun _ other => absurd other stream
      rw [if_neg stream]
      split
      · exact unchanged refused warned
      · exact unchanged refused rfl
  · rename_i other
    have nothing : frame.increment frame.header.streamId = 0 := by
      unfold Frame.increment
      split
      · rename_i wuf payload
        exact absurd payload (other wuf)
      · rfl
    have refused : conn.accepted ref (.recv frame) = 0 := by
      simp only [accepted, nothing]
      exact ite_self 0
    exact unchanged refused ((inner_close_steady .owner conn).heap ref).2

theorem add_stream_windows (conn : Http2SocketStream) (sn id : UInt32) :
    (({ conn with sn }.addStream id).heap conn.allocated).sendWindow = conn.peer.window ∧
      (({ conn with sn }.addStream id).heap conn.allocated).recvWindow = conn.owner.window := by
  simp only [addStream, Function.update_self]
  exact ⟨int32_window conn.peer, int32_window conn.owner⟩

theorem send_window_step {conn after : Http2SocketStream} {action : Action} (sound : Sound conn)
    (contained : conn.Contained action) (taken : conn.step action = some after) {ref : Nat}
    (inside : ref < after.allocated) :
    (after.heap ref).window .owner = conn.windowOf .owner ref + conn.added after action ref .owner := by
  cases step_sending sound.sized taken with
  | steady plain steady =>
      rw [steady.allocated] at inside
      rw [added_plain plain (steady_frames steady).1, (steady.heap ref).2, windowOf, if_pos inside,
        Int.add_zero]
  | @opened _ sn id _ plain steady =>
      have nothing : spent conn after = 0 := (steady_frames steady).1
      rw [steady.allocated] at inside
      rw [added_plain plain nothing, (steady.heap ref).2, windowOf, Int.add_zero]
      rcases Nat.lt_succ_iff_lt_or_eq.mp inside with earlier | last
      · rw [if_pos earlier, add_stream_heap conn sn id earlier]
      · rw [last, if_neg (Nat.lt_irrefl _)]
        exact (add_stream_windows conn sn id).1
  | @windowUpdate frame typed =>
      have none : frame.settingsIn = none := by simp [Frame.settingsIn, typed]
      have unsettled : conn.settlement (.recv frame) .owner ref = 0 := by
        simp [settlement, settling, none]
      rw [(handle_window_update_steady conn frame).allocated] at inside
      have plus : conn.added (conn.handleWindowUpdate frame) (.recv frame) ref .owner =
          conn.accepted ref (.recv frame) := by simp [added, unsettled, outgoing]
      rw [windowOf, if_pos inside, plus]
      exact window_update_added typed ref
  | @settings frame items _ inForce steady =>
      have typed : frameType frame.header.type ≠ some .windowUpdate := by
        intro other
        simp [Frame.settingsIn, other] at inForce
      have settles : conn.settling (.recv frame) = some (.owner, items) := by
        simp [settling, inForce]
      have unaccepted : conn.accepted ref (.recv frame) = 0 := if_neg fun all => typed all.1
      have settled := update_settings_settled .owner items conn
      rw [steady.allocated, settled.allocated] at inside
      rw [(steady.heap ref).2, settled_window contained settles inside, windowOf, if_pos inside, added,
        unaccepted]
      simp [outgoing]
  | @posted _ payer data _ silent hands posted =>
      have plain : action.Plain := by
        intro frame member
        rw [silent] at member
        exact absurd member List.not_mem_nil
      rcases posted_frames posted with ⟨frames, before, behind, earlier, sent, later, shorter, bytes, _⟩
      rw [later.allocated, sent.allocated, earlier.allocated] at inside
      have start : (before.heap ref).window .owner = (conn.heap ref).window .owner :=
        (earlier.heap ref).2
      rw [(later.heap ref).2, windowOf, if_pos inside, added, plain_settlement conn plain,
        plain_accepted conn plain, hands, bytes, sent.heap, Function.update_apply]
      simp only [Option.map_some, Option.some.injEq]
      by_cases own : ref = payer
      · have enough := contained.2.1 (payer, data) hands
        have upper := (int32_bounds (conn.heap ref).sendWindow).2
        rw [(conn.heap ref).sendFits] at upper
        dsimp only at enough
        rw [← own] at enough
        have fits : Fits ((conn.heap ref).sendWindow + -((bodies frames).length : Int)) := by
          unfold Fits maxWindow
          constructor <;> omega
        have paid := fits_int32 fits
        change (before.heap ref).sendWindow = (conn.heap ref).sendWindow at start
        rw [if_pos own, if_pos own.symm, ← own]
        change int32 ((before.heap ref).sendWindow + _) = (conn.heap ref).sendWindow + _
        rw [start, paid]
        omega
      · rw [if_neg own, if_neg (Ne.symm own), start]
        simp

theorem located_target {conn found : Http2SocketStream} {frame : Frame} {ref : Nat}
    (typed : frameType frame.header.type ≠ some .windowUpdate)
    (nonzero : frame.header.streamId ≠ 0) (located : Located conn frame (some ref) found) :
    conn.target frame = some ref := by
  unfold target
  rw [if_neg (not_or.mpr ⟨typed, nonzero⟩)]
  cases located with
  | known inMap => rw [inMap]
  | opened unknown server above =>
      rw [unknown]
      exact if_pos ⟨server, above⟩

theorem target_lands {conn : Http2SocketStream} {frame : Frame} {ref : Nat}
    (taken : conn.target frame = some ref) :
    frameType frame.header.type ≠ some .windowUpdate ∧ conn.Lands frame := by
  unfold target at taken
  by_cases other : frameType frame.header.type = some .windowUpdate ∨ frame.header.streamId = 0
  · rw [if_pos other] at taken
    cases taken
  · rw [if_neg other] at taken
    rcases not_or.mp other with ⟨typed, nonzero⟩
    refine ⟨typed, nonzero, ?_⟩
    cases found : conn.streams frame.header.streamId with
    | some known => exact Or.inl (by simp)
    | none =>
        right
        simp only [found] at taken
        by_contra old
        rw [if_neg old] at taken
        cases taken

theorem located_window {conn found : Http2SocketStream} {frame : Frame} {ref : Nat}
    (located : Located conn frame (some ref) found) {other : Nat} (inside : other < found.allocated) :
    (found.heap other).window .peer = conn.windowOf .peer other := by
  unfold windowOf
  cases located with
  | known inMap => rw [if_pos inside]
  | opened unknown server above =>
      rcases Nat.lt_succ_iff_lt_or_eq.mp inside with earlier | last
      · rw [if_pos earlier, add_stream_heap conn _ _ earlier]
      · rw [last, if_neg (Nat.lt_irrefl _)]
        exact (add_stream_windows conn _ _).2

theorem located_emitted {conn found : Http2SocketStream} {frame : Frame} {ref : Nat}
    (located : Located conn frame (some ref) found) :
    found.emitted = conn.emitted ∧ found.connected = conn.connected := by
  cases located <;> exact ⟨rfl, rfl⟩

/-- A DATA frame that fits is taken from the window of its stream and refilled with what the
increments say; other streams are as they were. -/
theorem accounted_window {conn after : Http2SocketStream} {frame : Frame} {ref : Nat}
    (nonzero : frame.header.streamId ≠ 0)
    (fits : frame.dataLength = 0 ∨ frame.dataLength ≤ (conn.heap ref).recvWindow)
    (accounted : Accounted conn ref frame after) :
    after.allocated = conn.allocated ∧ ∃ extra, after.emitted = conn.emitted ++ extra ∧
      ∀ other, (after.heap other).recvWindow = (conn.heap other).recvWindow +
        if other = ref then
          (increments frame.header.streamId extra : Int) - frame.dataLength else 0 := by
  cases accounted with
  | free nothing =>
      refine ⟨rfl, [], (List.append_nil _).symm, ?_⟩
      intro other
      simp [nothing]
  | @charged window stream grants more some forConnection forStream connectionPays streamPays =>
      have enough : frame.dataLength ≤ (conn.heap ref).recvWindow := by omega
      have paid := streamPays enough
      have unrelated := window_updates_increments forConnection (show (0 : UInt32).toNat < 2 ^ 31 by
        decide) nonzero.symm
      refine ⟨rfl, grants ++ more, List.append_assoc _ _ _, ?_⟩
      intro other
      change (Function.update conn.heap ref stream other).recvWindow = _
      rw [increments_append, unrelated, Nat.zero_add]
      by_cases own : other = ref
      · rw [if_pos own, own, Function.update_self, paid]
        omega
      · rw [if_neg own, Function.update_of_ne own, Int.add_zero]

theorem settlement_peer (conn : Http2SocketStream) {action : Action}
    (other : ∀ items, action ≠ .sendSettings items) (ref : Nat) :
    conn.settlement action .peer ref = 0 := by
  cases action with
  | recv frame => cases items : frame.settingsIn <;> simp [settlement, settling, items]
  | sendSettings items => exact absurd rfl (other items)
  | _ => rfl

theorem advertised_window_step {conn : Http2SocketStream} {items : List SettingsItem}
    (contained : conn.Contained (.sendSettings items)) {ref : Nat}
    (inside : ref < (conn.sendSettings items).allocated) :
    ((conn.sendSettings items).heap ref).window .peer =
      conn.windowOf .peer ref +
        conn.added (conn.sendSettings items) (.sendSettings items) ref .peer := by
  have plus : conn.added (conn.sendSettings items) (.sendSettings items) ref .peer =
      conn.settlement (.sendSettings items) .peer ref := Int.add_zero _
  rw [plus, send_settings_eq] at *
  by_cases connected : conn.connected = true
  · have settles : conn.settling (.sendSettings items) = some (.peer, items) := if_pos connected
    rw [if_pos connected, enqueue_eq, if_pos connected] at *
    have same := update_settings_settled .peer items
      { conn with emitted := conn.emitted ++ [settingsFrame items] }
    rw [same.allocated] at inside
    have start : conn.windowOf .peer ref = (conn.heap ref).window .peer := if_pos inside
    have shifted : ((conn.updateSettings .peer items).heap ref).window .peer =
        (conn.heap ref).window .peer + conn.settlement (.sendSettings items) .peer ref :=
      settled_window contained settles inside
    have alike : (({ conn with emitted := conn.emitted ++ [settingsFrame items] } :
        Http2SocketStream).updateSettings .peer items).heap ref =
          (conn.updateSettings .peer items).heap ref := by
      rw [same.heap, (update_settings_settled .peer items conn).heap]
      simp only [update_settings_window]
      rfl
    rw [alike, start]
    exact shifted
  · have idle : conn.settlement (.sendSettings items) .peer ref = 0 := by
      simp [settlement, settling, connected]
    rw [if_neg connected] at *
    rw [idle, Int.add_zero, windowOf, if_pos inside]

theorem recv_window_step {conn after : Http2SocketStream} {action : Action} (sound : Sound conn)
    (contained : conn.Contained action) (taken : conn.step action = some after) {ref : Nat}
    (inside : ref < after.allocated) :
    (after.heap ref).window .peer = conn.windowOf .peer ref + conn.added after action ref .peer := by
  cases step_receiving sound.sized taken with
  | steady silent steady =>
      cases action with
      | recv frame => cases silent
      | sendSettings items =>
          by_cases valid : items.all SettingsItem.valid = true
          · have sent : conn.sendSettings items = after := by simpa [step, valid] using taken
            rw [← sent] at inside ⊢
            exact advertised_window_step contained inside
          · simp [step, valid] at taken
      | _ =>
          rw [steady.allocated] at inside
          rw [(steady.heap ref).2, windowOf, if_pos inside]
          exact (Int.add_zero _).symm
  | opened _ steady =>
      rw [steady.allocated] at inside
      rw [(steady.heap ref).2, windowOf]
      rcases Nat.lt_succ_iff_lt_or_eq.mp inside with earlier | last
      · rw [if_pos earlier, add_stream_heap conn _ _ earlier]
        exact (Int.add_zero _).symm
      · rw [last, if_neg (Nat.lt_irrefl _)]
        exact (add_stream_windows conn _ _).2.trans (Int.add_zero _).symm
  | advertised _ => exact advertised_window_step contained inside
  | @passed frame _ missed steady =>
      have nobody : conn.target frame ≠ some ref := by
        intro lands
        rcases target_lands lands with ⟨typed, landed⟩
        rcases missed with windowUpdate | missed
        · exact typed windowUpdate
        · exact missed landed
      rw [steady.allocated] at inside
      have nothing : conn.added after (.recv frame) ref .peer = 0 := by
        rw [added, settlement_peer conn (by simp), exchanged, if_neg nobody]
        rfl
      rw [(steady.heap ref).2, windowOf, if_pos inside, nothing, Int.add_zero]
  | @landed frame reached found _ connected typed nonzero located steady =>
      rcases sound_located sound located with ⟨foundSound, inMap⟩
      rcases located_emitted located with ⟨sameFrames, sameConnected⟩
      have lands := located_target typed nonzero located
      have accounted := account_spec foundSound (sameConnected.trans connected) inMap nonzero
      have promised := contained.2.2 frame (List.mem_singleton_self frame) reached lands
      have known : (found.heap reached).recvWindow = conn.windowOf .peer reached :=
        located_window located (foundSound.named _ _ inMap).1
      rw [← known] at promised
      rcases accounted_window nonzero promised accounted with ⟨allocated, extra, emitted, windows⟩
      rcases steady.emitted with ⟨more, moreEq, moreFree⟩
      rw [steady.allocated, allocated] at inside
      have sent : after.emitted.drop conn.emitted.length = extra ++ more := by
        rw [moreEq, emitted, sameFrames, List.append_assoc, List.drop_left]
      have plus : conn.added after (.recv frame) ref .peer = if ref = reached then
          (increments frame.header.streamId extra : Int) - frame.dataLength else 0 := by
        simp only [added, settlement_peer conn (show ∀ items, Action.recv frame ≠ .sendSettings items
          by simp), exchanged, lands, Option.some.injEq, sent, increments_append,
          free_increments moreFree, Nat.add_zero, Int.zero_add, eq_comm (a := ref)]
      have start := located_window located inside
      change (found.heap ref).recvWindow = _ at start
      rw [(steady.heap ref).2, plus, ← start]
      exact windows ref

/-- A step, with the exact sum of what was added to each window so far. -/
def tally (state : Http2SocketStream × (Side → Nat → Int)) (action : Action) :
    Option (Http2SocketStream × (Side → Nat → Int)) :=
  (state.1.step action).map fun after => (after, fun side ref =>
    (if ref < state.1.allocated then state.2 side ref else state.1.startWindow side) +
      state.1.added after action ref side)

/-- No window has wrapped: each is the sum of what was added to it. -/
def Unwrapped (state : Http2SocketStream × (Side → Nat → Int)) : Prop :=
  ∀ side, ∀ ref < state.1.allocated, (state.1.heap ref).window side = state.2 side ref

theorem unwrapped_step {state after : Http2SocketStream × (Side → Nat → Int)} {action : Action}
    (sound : Sound state.1) (unwrapped : Unwrapped state) (contained : state.1.Contained action)
    (taken : tally state action = some after) : Sound after.1 ∧ Unwrapped after := by
  rcases Option.map_eq_some_iff.mp taken with ⟨next, stepped, same⟩
  rw [← same]
  refine ⟨sound_step sound stepped, ?_⟩
  intro side ref inside
  have moved : (next.heap ref).window side =
      state.1.windowOf side ref + state.1.added next action ref side := by
    cases side with
    | owner => exact send_window_step sound contained stepped inside
    | peer => exact recv_window_step sound contained stepped inside
  have start : state.1.windowOf side ref =
      if ref < state.1.allocated then state.2 side ref else state.1.startWindow side := by
    unfold windowOf
    by_cases known : ref < state.1.allocated
    · rw [if_pos known, if_pos known, unwrapped side ref known]
    · rw [if_neg known, if_neg known]
  dsimp only
  rw [moved, start]

theorem started_empty {conn : Http2SocketStream} {greeting : List Frame}
    (started : Started conn greeting) : conn.allocated = 0 := by
  rcases started_owner started with ⟨isClient, writes, steady⟩
  exact steady.allocated.trans (update_settings_settled .owner (greetingItems greeting)
    { new isClient with writes }).allocated

theorem unwrapped_run {start : Http2SocketStream} {greeting : List Frame}
    {state : Http2SocketStream × (Side → Nat → Int)} (started : Started start greeting)
    (reached : Transition.Reaches tally (fun state action => state.1.Contained action)
      (start, fun _ _ => 0) state) : Sound state.1 ∧ Unwrapped state := by
  apply Transition.invariant_of_reaches _ _ reached
  · refine ⟨started_sound started, ?_⟩
    intro side ref inside
    rw [started_empty started] at inside
    exact absurd inside (Nat.not_lt_zero ref)
  · intro before action after both contained taken
    exact unwrapped_step both.1 both.2 contained taken

/-- An invalid item leaves the records alone when it is checked first or changes nothing; a
window above the top is never refused; and no window wraps in a run, nor between two items of
a frame, as long as no change of a window takes it out of `int32_t`. -/
theorem out_of_range_changes (conn : Http2SocketStream) (side : Side) (i : SettingsItem)
    (window diff : Int) (start : Http2SocketStream) (greeting : List Frame)
    (state : Http2SocketStream × (Side → Nat → Int)) :
    (i.valid = false →
      ((∀ against, (updateSetting side conn i).settings against = conn.settings against) ↔
        Idle (conn.settings side) i)) ∧
    ((maxWindow < window + diff → Declines window diff) ↔ window + diff ≤ maxWindow) ∧
    (Started start greeting →
      Transition.Reaches tally (fun state action => state.1.Contained action)
        (start, fun _ _ => 0) state →
      Unwrapped state ∧ ∀ action, state.1.Contained action → ∀ change ∈ state.1.settling action,
        ∀ count ≤ change.2.length, ∀ ref < state.1.allocated, state.1.Mapped ref →
          ((state.1.updateSettings change.1 (change.2.take count)).heap ref).window change.1 =
            state.2 change.1 ref + state.1.moved change.1 (change.2.take count)) := by
  refine ⟨fun invalid => invalid_keeps_iff side conn invalid, declines_iff window diff, ?_⟩
  intro started reached
  have unwrapped := (unwrapped_run started reached).2
  refine ⟨unwrapped, ?_⟩
  intro action contained change settles count within ref inside mapped
  rw [← unwrapped change.1 ref inside]
  exact settings_shift state.1 change.1 _ mapped
    (contained.1 change settles count within ref inside mapped)

/-- A window size above the limit is not stored. A body of two bytes, for which
the peer raises the window by one, and an answer. -/
theorem out_of_range_changes_two_bytes :
    (∀ against, (updateSetting .owner greeted ⟨0x4, 0x80000000⟩).settings against =
      greeted.settings against) ∧
    ∃ state, Transition.Reaches tally (fun state action => state.1.Contained action)
      (greeted, fun _ _ => 0) state ∧ state.2 .owner 0 = 65532 ∧
        state.2 .peer 0 = maxWindow ∧ Unwrapped state := by
  have invalid := (out_of_range_changes greeted .owner ⟨0x4, 0x80000000⟩ 0 0 greeted [] (greeted,
    fun _ _ => 0)).1 (by decide)
  let raised := settingsFrame [⟨0x4, 65536⟩]
  let data := inFrame .data 0x0 1 2 (.data { data := [0x68, 0x69] })
  have reached : ∃ state, Transition.Reaches tally (fun state action => state.1.Contained action)
      (greeted, fun _ _ => 0) state ∧ state.2 .owner 0 = 65532 ∧ state.2 .peer 0 = maxWindow :=
    Transition.exists_of_run
      [.recv data, .recv raised, .sendData 0 [0x70, 0x6f, 0x6e, 0x67] true true]
      (by decide +kernel)
  rcases reached with ⟨state, reached, sent, received⟩
  exact ⟨invalid.mpr trivial, state, reached, sent, received,
    ((out_of_range_changes greeted .owner ⟨0x4, 0⟩ 0 0 greeted [settingsFrame []] state).2.2
      greeted_started reached).1⟩

/-- ENABLE_PUSH of 2 and MAX_FRAME_SIZE of 0 are stored. A window at the top is lifted by one,
which returns 0, and in a run it wraps: the peer raises the window of a stream to the top and
then the initial window by one. -/
theorem out_of_range_stored :
    (updateSetting .owner greeted ⟨0x2, 2⟩).owner.enablePush ≠ greeted.owner.enablePush ∧
    (updateSetting .owner greeted ⟨0x5, 0⟩).owner.maxFrameSize ≠ greeted.owner.maxFrameSize ∧
    updateWindowSizeByDiff maxWindow 1 = (0, -2 ^ 31) ∧
    ∃ state, Transition.Reaches tally (fun _ _ => True) (greeted, fun _ _ => 0) state ∧
      0 < state.1.allocated ∧ state.2 .owner 0 = 2 ^ 31 ∧
      (state.1.heap 0).window .owner = -2 ^ 31 := by
  let opening := inFrame .data 0x0 1 1 (.data { data := [0x68] })
  let lifted := inFrame .windowUpdate 0x0 1 4 (.windowUpdate { increment := 0x7FFF0000 })
  let raised := settingsFrame [⟨0x4, 65536⟩]
  refine ⟨by decide, by decide, by decide, ?_⟩
  have reached : ∃ state, Transition.Reaches tally (fun _ _ => True) (greeted, fun _ _ => 0) state ∧
      0 < state.1.allocated ∧ state.2 .owner 0 = 2 ^ 31 ∧
        (state.1.heap 0).window .owner = -2 ^ 31 :=
    Transition.exists_of_run [.recv opening, .recv lifted, .recv raised] (by decide +kernel)
  exact reached

end Http2SocketStream
end ChatServer.Http2
