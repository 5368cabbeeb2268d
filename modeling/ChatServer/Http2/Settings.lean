import ChatServer.Http2.Http2SocketStream

/-!
# What a SETTINGS frame does

`updateSettings` writes one of the two settings records and shifts a window of every stream in
the map by the change of INITIAL_WINDOW_SIZE. The received settings shift the send windows and
the sent ones the receive windows, while the constructor of a stream takes its send window
from the sent settings and its receive window from the received ones.
-/

namespace ChatServer.Http2

set_option autoImplicit false

def Http2Settings.window (sts : Http2Settings) : Int := sts.initialWindowSize.toNat

theorem window_bounds (sts : Http2Settings) : 0 ≤ sts.window ∧ sts.window ≤ maxWindow := by
  have le := UInt32.le_iff_toNat_le.mp sts.windowLe
  have limit : maxInitialWindowSize.toNat = 2 ^ 31 - 1 := rfl
  unfold Http2Settings.window maxWindow
  omega

theorem int32_window (sts : Http2Settings) : int32 sts.window = sts.window := by
  obtain ⟨lower, upper⟩ := window_bounds sts
  unfold maxWindow at upper
  apply int32_eq <;> omega

namespace ManagedStream

def shift (side : Side) (diff : Int) (stream : ManagedStream) : ManagedStream :=
  match side with
  | .owner => stream.updateSendWindowByDiff diff
  | .peer => stream.updateRecvWindowByDiff diff

theorem shift_id (side : Side) (diff : Int) (stream : ManagedStream) :
    (stream.shift side diff).id = stream.id := by cases side <;> rfl

theorem shift_zero (side : Side) (stream : ManagedStream) : stream.shift side 0 = stream := by
  cases side with
  | owner => simp [shift, updateSendWindowByDiff, stream.sendFits]
  | peer => simp [shift, updateRecvWindowByDiff, stream.recvFits]

theorem shift_shift (side : Side) (first second : Int) (stream : ManagedStream) :
    (stream.shift side first).shift side second = stream.shift side (first + second) := by
  cases side with
  | owner => simp [shift, updateSendWindowByDiff, Int.add_assoc]
  | peer => simp [shift, updateRecvWindowByDiff, Int.add_assoc]

theorem shift_int32 (side : Side) (diff : Int) (stream : ManagedStream) :
    stream.shift side (int32 diff) = stream.shift side diff := by
  cases side with
  | owner => simp [shift, updateSendWindowByDiff]
  | peer => simp [shift, updateRecvWindowByDiff]

end ManagedStream

def Frame.isGoAway (frame : Frame) : Bool :=
  match frameType frame.header.type, frame.data with
  | some .goaway, some (.goAway _) => true
  | _, _ => false

namespace Http2SocketStream

/-- The stream at this address is in the map. -/
def Mapped (conn : Http2SocketStream) (ref : Nat) : Prop :=
  conn.streams (conn.heap ref).id = some ref

instance (conn : Http2SocketStream) (ref : Nat) : Decidable (conn.Mapped ref) :=
  inferInstanceAs (Decidable (_ = _))

theorem foreach_heap (conn : Http2SocketStream) (change : ManagedStream → ManagedStream)
    (ref : Nat) : (conn.foreach change).heap ref =
      if conn.Mapped ref then change (conn.heap ref) else conn.heap ref := rfl

theorem enqueue_eq (conn : Http2SocketStream) (frame : Frame) :
    conn.enqueue frame = { conn with
      emitted := if conn.connected then conn.emitted ++ [frame] else conn.emitted } := by
  unfold enqueue sendFrame
  by_cases connected : conn.connected = true
  · rw [if_pos connected, if_pos connected]
    rfl
  · rw [if_neg connected, if_neg connected]

structure Settled (side : Side) (conn after : Http2SocketStream) : Prop where
  isClient : after.isClient = conn.isClient
  sn : after.sn = conn.sn
  allocated : after.allocated = conn.allocated
  streams : after.streams = conn.streams
  connected : after.connected = conn.connected
  sendWindow : after.sendWindow = conn.sendWindow
  recvWindow : after.recvWindow = conn.recvWindow
  scheduled : after.scheduled = conn.scheduled
  dispatched : after.dispatched = conn.dispatched
  other : ∀ against, against ≠ side → after.settings against = conn.settings against
  emitted : ∃ errors, after.emitted = conn.emitted ++ errors ∧
    ∀ frame ∈ errors, frame.isGoAway = true
  heap : ∀ ref, after.heap ref = if conn.Mapped ref then
    (conn.heap ref).shift side ((after.settings side).window - (conn.settings side).window)
    else conn.heap ref

theorem settled_mapped {side : Side} {conn after : Http2SocketStream}
    (settled : Settled side conn after) (ref : Nat) : after.Mapped ref ↔ conn.Mapped ref := by
  have sameId : (after.heap ref).id = (conn.heap ref).id := by
    rw [settled.heap]
    split_ifs
    · exact ManagedStream.shift_id _ _ _
    · rfl
  unfold Mapped
  rw [settled.streams, sameId]

theorem settled_refl (side : Side) (conn : Http2SocketStream) : Settled side conn conn where
  isClient := rfl
  sn := rfl
  allocated := rfl
  streams := rfl
  connected := rfl
  sendWindow := rfl
  recvWindow := rfl
  scheduled := rfl
  dispatched := rfl
  other := fun _ _ => rfl
  emitted := ⟨[], (List.append_nil _).symm, fun _ member => absurd member List.not_mem_nil⟩
  heap := by
    intro ref
    rw [Int.sub_self, ManagedStream.shift_zero, ite_self]

theorem settled_trans {side : Side} {conn middle after : Http2SocketStream}
    (first : Settled side conn middle) (second : Settled side middle after) :
    Settled side conn after where
  isClient := second.isClient.trans first.isClient
  sn := second.sn.trans first.sn
  allocated := second.allocated.trans first.allocated
  streams := second.streams.trans first.streams
  connected := second.connected.trans first.connected
  sendWindow := second.sendWindow.trans first.sendWindow
  recvWindow := second.recvWindow.trans first.recvWindow
  scheduled := second.scheduled.trans first.scheduled
  dispatched := second.dispatched.trans first.dispatched
  other := fun against different => (second.other against different).trans
    (first.other against different)
  emitted := by
    obtain ⟨early, firstEq, earlyGo⟩ := first.emitted
    obtain ⟨late, secondEq, lateGo⟩ := second.emitted
    refine ⟨early ++ late, by rw [secondEq, firstEq, List.append_assoc], ?_⟩
    intro frame member
    cases List.mem_append.mp member with
    | inl inEarly => exact earlyGo frame inEarly
    | inr inLate => exact lateGo frame inLate
  heap := by
    intro ref
    rw [second.heap]
    simp only [settled_mapped first ref, first.heap]
    by_cases mapped : conn.Mapped ref
    · simp only [if_pos mapped, ManagedStream.shift_shift]
      congr 1
      omega
    · simp only [if_neg mapped]

theorem go_away_settled (side : Side) (conn : Http2SocketStream) (lastStreamId error : UInt32)
    (debug : Str) :
    Settled side conn (conn.sendGoAway lastStreamId error debug) := by
  have same := settled_refl side conn
  rw [sendGoAway, enqueue_eq]
  refine ⟨rfl, rfl, rfl, rfl, rfl, rfl, rfl, rfl, rfl, ?_, ?_, ?_⟩
  · intro against different
    cases against <;> rfl
  · cases conn.connected with
    | true =>
        refine ⟨[_], rfl, ?_⟩
        intro frame member
        rw [List.mem_singleton.mp member]
        rfl
    | false => exact same.emitted
  · cases side <;> exact same.heap

theorem store_other (side against : Side) (conn : Http2SocketStream)
    (change : Http2Settings → Http2Settings) :
    (conn.store side change).settings against =
      if against = side then change (conn.settings side) else conn.settings against := by
  cases side <;> cases against <;> rfl

/-- Storing anything but the window size settles at once. -/
theorem store_settled (side : Side) (conn : Http2SocketStream)
    (change : Http2Settings → Http2Settings) (kept : ∀ sts, (change sts).window = sts.window) :
    Settled side conn (conn.store side change) := by
  have same := settled_refl side conn
  have other : ∀ against, against ≠ side →
      (conn.store side change).settings against = conn.settings against := by
    intro against different
    rw [store_other, if_neg different]
  have heap : ∀ ref, conn.heap ref = if conn.Mapped ref then
      (conn.heap ref).shift side (((conn.store side change).settings side).window -
        (conn.settings side).window) else conn.heap ref := by
    intro ref
    rw [store_other, if_pos rfl, kept]
    exact same.heap ref
  cases side with
  | owner => exact ⟨rfl, rfl, rfl, rfl, rfl, rfl, rfl, rfl, rfl, other, same.emitted, heap⟩
  | peer => exact ⟨rfl, rfl, rfl, rfl, rfl, rfl, rfl, rfl, rfl, other, same.emitted, heap⟩

theorem set_max_data_size_settled (side : Side) (conn : Http2SocketStream) (v : Int) :
    Settled side conn (conn.setMaxDataSize side v) := by
  have same := settled_refl side conn
  have sameSettings (against : Side) :
      (conn.setMaxDataSize side v).settings against = conn.settings against := by
    cases side <;> cases against <;> rfl
  cases side with
  | owner =>
      refine ⟨rfl, rfl, rfl, rfl, rfl, rfl, rfl, rfl, rfl, fun against _ => sameSettings against,
        same.emitted, ?_⟩
      rw [sameSettings]
      exact same.heap
  | peer =>
      refine ⟨rfl, rfl, rfl, rfl, rfl, rfl, rfl, rfl, rfl, fun against _ => sameSettings against,
        same.emitted, ?_⟩
      rw [sameSettings]
      exact same.heap

theorem window_settled (side : Side) (conn : Http2SocketStream) (value : UInt32)
    (windowLe : value ≤ maxInitialWindowSize) :
    Settled side conn
      ((conn.store side fun sts => { sts with initialWindowSize := value, windowLe }).updateWindowByDiff
        side (int32 ((value.toNat : Int) - (conn.settings side).initialWindowSize.toNat))) := by
  have same := settled_refl side conn
  have other : ∀ against, against ≠ side →
      (conn.store side fun sts => { sts with initialWindowSize := value, windowLe }).settings
        against = conn.settings against := by
    intro against different
    rw [store_other, if_neg different]
  cases side with
  | owner =>
      refine ⟨rfl, rfl, rfl, rfl, rfl, rfl, rfl, rfl, rfl, other, same.emitted, ?_⟩
      intro ref
      rw [← ManagedStream.shift_int32]
      exact foreach_heap _ _ ref
  | peer =>
      refine ⟨rfl, rfl, rfl, rfl, rfl, rfl, rfl, rfl, rfl, other, same.emitted, ?_⟩
      intro ref
      rw [← ManagedStream.shift_int32]
      exact foreach_heap _ _ ref

/-- One item, valid or not. -/
theorem update_setting_settled (side : Side) (conn : Http2SocketStream) (i : SettingsItem) :
    Settled side conn (updateSetting side conn i) := by
  unfold updateSetting
  split
  · have stored := store_settled side conn (fun sts => { sts with headerTableSize := i.value })
      (fun _ => rfl)
    exact settled_trans stored
      (set_max_data_size_settled side _ _)
  · dsimp only
    split_ifs
    · have warned := go_away_settled side conn conn.sn protocolError []
      exact settled_trans warned
        (store_settled side _ _ (fun _ => rfl))
    · exact store_settled side conn _ (fun _ => rfl)
  · exact store_settled side conn _ (fun _ => rfl)
  · split_ifs with windowLe
    · exact window_settled side conn i.value windowLe
    · exact go_away_settled side conn conn.sn protocolError []
  · have stored := store_settled side conn (fun sts => { sts with maxFrameSize := i.value })
      (fun _ => rfl)
    dsimp only
    split_ifs
    · exact settled_trans stored
        (go_away_settled side _ _ protocolError [])
    · exact stored
  · exact store_settled side conn _ (fun _ => rfl)
  · exact settled_refl side conn

theorem update_settings_settled (side : Side) (items : List SettingsItem) :
    ∀ conn : Http2SocketStream, Settled side conn (conn.updateSettings side items) := by
  induction items with
  | nil => exact fun conn => settled_refl side conn
  | cons i rest induction =>
      intro conn
      have first := update_setting_settled side conn i
      exact settled_trans first (induction _)

/-- The INITIAL_WINDOW_SIZE in force behind these items; a larger value than allowed is not
taken. -/
def latestWindow (window : Int) (items : List SettingsItem) : Int :=
  items.foldl (fun window i =>
    if setting i.identifier = some .initialWindowSize ∧ i.value ≤ maxInitialWindowSize
    then i.value.toNat else window) window

theorem store_window (side : Side) (conn : Http2SocketStream)
    (change : Http2Settings → Http2Settings) :
    (conn.store side change).settings side = change (conn.settings side) := by
  cases side <;> rfl

theorem go_away_settings (side : Side) (conn : Http2SocketStream) (lastStreamId error : UInt32)
    (debug : Str) :
    (conn.sendGoAway lastStreamId error debug).settings side = conn.settings side := by
  rw [sendGoAway, enqueue_eq]
  cases side <;> rfl

theorem set_max_data_size_settings (side : Side) (conn : Http2SocketStream) (v : Int) :
    (conn.setMaxDataSize side v).settings side = conn.settings side := by
  cases side <;> rfl

theorem update_window_by_diff_settings (side : Side) (conn : Http2SocketStream) (diff : Int) :
    (conn.updateWindowByDiff side diff).settings side = conn.settings side := by
  cases side <;> rfl

theorem update_setting_window (side : Side) (conn : Http2SocketStream) (i : SettingsItem) :
    ((updateSetting side conn i).settings side).window =
      latestWindow (conn.settings side).window [i] := by
  unfold updateSetting latestWindow
  cases kind : setting i.identifier with
  | none => simp [kind]
  | some named =>
      cases named with
      | headerTableSize =>
          simp [kind, set_max_data_size_settings, store_window, Http2Settings.window]
      | enablePush =>
          simp only [store_window, Http2Settings.window]
          split_ifs <;> simp [kind, go_away_settings]
      | maxConcurrentStreams => simp [kind, store_window, Http2Settings.window]
      | initialWindowSize =>
          by_cases windowLe : i.value ≤ maxInitialWindowSize
          · simp [kind, windowLe, update_window_by_diff_settings, store_window,
              Http2Settings.window]
          · simp [kind, windowLe, go_away_settings]
      | maxFrameSize =>
          dsimp only
          split_ifs <;> simp [kind, go_away_settings, store_window, Http2Settings.window]
      | maxHeaderListSize => simp [kind, store_window, Http2Settings.window]

theorem update_settings_window (side : Side) (items : List SettingsItem) :
    ∀ conn : Http2SocketStream, ((conn.updateSettings side items).settings side).window =
      latestWindow (conn.settings side).window items := by
  induction items with
  | nil => exact fun conn => rfl
  | cons i rest induction =>
      intro conn
      have first := update_setting_window side conn i
      have step := induction (updateSetting side conn i)
      rw [first] at step
      exact step

/-- SETTINGS frames in order: `handleRecvSetting` for `m_owner`, `handleSendSetting` for
`m_peer`. -/
def exchange (conn : Http2SocketStream) (frames : List (Side × List SettingsItem)) :
    Http2SocketStream :=
  frames.foldl (fun conn frame => conn.updateSettings frame.1 frame.2) conn

def itemsOf (side : Side) (frames : List (Side × List SettingsItem)) : List SettingsItem :=
  (frames.filter fun frame => frame.1 = side).flatMap Prod.snd

/-- How far the window size of one side moves. -/
def windowChange (side : Side) (conn : Http2SocketStream)
    (frames : List (Side × List SettingsItem)) : Int :=
  latestWindow (conn.settings side).window (itemsOf side frames) - (conn.settings side).window

structure Exchanged (conn : Http2SocketStream) (frames : List (Side × List SettingsItem))
    (after : Http2SocketStream) : Prop where
  sn : after.sn = conn.sn
  allocated : after.allocated = conn.allocated
  window : ∀ side, (after.settings side).window =
    (conn.settings side).window + windowChange side conn frames
  heap : ∀ ref, conn.Mapped ref → after.heap ref =
    ((conn.heap ref).shift .owner (windowChange .owner conn frames)).shift .peer
      (windowChange .peer conn frames)

theorem exchange_nil (conn : Http2SocketStream) : Exchanged conn [] conn where
  sn := rfl
  allocated := rfl
  window := by
    intro side
    simp [windowChange, itemsOf, latestWindow]
  heap := by
    intro ref mapped
    simp [windowChange, itemsOf, latestWindow, ManagedStream.shift_zero]

theorem window_change_cons (side kind : Side) (conn : Http2SocketStream)
    (items : List SettingsItem) (rest : List (Side × List SettingsItem)) :
    windowChange kind conn ((side, items) :: rest) =
      (((conn.updateSettings side items).settings kind).window - (conn.settings kind).window) +
        windowChange kind (conn.updateSettings side items) rest := by
  by_cases same : side = kind
  · subst same
    have first := update_settings_window side items conn
    simp only [windowChange, itemsOf, List.filter_cons, decide_true, if_true,
      List.flatMap_cons, first, latestWindow, List.foldl_append]
    omega
  · have kept := (update_settings_settled side items conn).other kind fun equal => same equal.symm
    simp [windowChange, itemsOf, same, kept]

theorem shift_peer_owner (stream : ManagedStream) (first second : Int) :
    (stream.shift .peer first).shift .owner second =
      (stream.shift .owner second).shift .peer first := rfl

theorem exchange_spec (frames : List (Side × List SettingsItem)) :
    ∀ conn : Http2SocketStream, Exchanged conn frames (conn.exchange frames) := by
  induction frames with
  | nil => exact exchange_nil
  | cons frame rest induction =>
      obtain ⟨side, items⟩ := frame
      intro conn
      have first := update_settings_settled side items conn
      have then_ := induction (conn.updateSettings side items)
      change Exchanged conn _ ((conn.updateSettings side items).exchange rest)
      refine ⟨then_.sn.trans first.sn, then_.allocated.trans first.allocated, ?_, ?_⟩
      · intro kind
        rw [then_.window, window_change_cons]
        omega
      · intro ref mapped
        rw [then_.heap ref ((settled_mapped first ref).mpr mapped), first.heap, if_pos mapped,
          window_change_cons side .owner, window_change_cons side .peer]
        cases side with
        | owner =>
            rw [first.other .peer (by decide), Int.sub_self, Int.zero_add,
              ManagedStream.shift_shift]
        | peer =>
            rw [first.other .owner (by decide), Int.sub_self, Int.zero_add, shift_peer_owner,
              ManagedStream.shift_shift]

/-- The two ways a stream is opened: a frame of the peer names a new one, or the application
asks for one. -/
inductive Opening where
  | accepted (id : UInt32)
  | requested
  deriving DecidableEq, Repr

def opened (conn : Http2SocketStream) : Opening → Option (Nat × Http2SocketStream)
  | .accepted id =>
      match conn.newStreamAt id with
      | (some ref, conn) => some (ref, conn)
      | (none, _) => none
  | .requested => some conn.newStream

def windows (conn : Http2SocketStream) (ref : Nat) : Int × Int :=
  ((conn.heap ref).sendWindow, (conn.heap ref).recvWindow)

/-- A stream starts with the window of the sent settings to send and with that of the received
ones to receive. -/
structure Opened (conn : Http2SocketStream) (ref : Nat) (after : Http2SocketStream) : Prop where
  address : ref = conn.allocated
  mapped : after.Mapped ref
  settings : ∀ side, after.settings side = conn.settings side
  sendWindow : (after.heap ref).sendWindow = (conn.settings .peer).window
  recvWindow : (after.heap ref).recvWindow = (conn.settings .owner).window

theorem add_stream_opened (conn : Http2SocketStream) (sn id : UInt32) :
    Opened conn conn.allocated ({ conn with sn }.addStream id) where
  address := rfl
  mapped := by simp [Mapped, addStream]
  settings := by
    intro side
    cases side <;> rfl
  sendWindow := by
    simp only [addStream, Function.update_self]
    exact int32_window conn.peer
  recvWindow := by
    simp only [addStream, Function.update_self]
    exact int32_window conn.owner

theorem opened_spec {conn after : Http2SocketStream} {opening : Opening} {ref : Nat}
    (done : conn.opened opening = some (ref, after)) : Opened conn ref after := by
  cases opening with
  | accepted id =>
      by_cases known : id ≤ conn.sn
      · simp [opened, newStreamAt, known] at done
      · simp only [opened, newStreamAt, if_neg known] at done
        cases done
        exact add_stream_opened conn id id
  | requested =>
      cases done
      exact add_stream_opened conn (conn.sn + 2) (conn.sn + 2)

/-- Whether a stream can be opened does not depend on the settings. -/
theorem opened_later {conn early later : Http2SocketStream} {opening : Opening} {ref : Nat}
    (sameSn : later.sn = conn.sn) (done : conn.opened opening = some (ref, early)) :
    ∃ lateRef late, later.opened opening = some (lateRef, late) := by
  cases opening with
  | accepted id =>
      by_cases known : id ≤ conn.sn
      · simp [opened, newStreamAt, known] at done
      · simp only [opened, newStreamAt, sameSn, if_neg known]
        exact ⟨_, _, rfl⟩
  | requested => exact ⟨_, _, rfl⟩

/-- Wrapping cannot make two windows equal that are not. -/
theorem shifted_window_eq_iff (start taken old late : Int) (startLe : 0 ≤ start ∧ start ≤ maxWindow)
    (takenLe : 0 ≤ taken ∧ taken ≤ maxWindow) (oldLe : 0 ≤ old ∧ old ≤ maxWindow)
    (lateLe : 0 ≤ late ∧ late ≤ maxWindow) :
    int32 (start + (taken - old)) = late ↔ taken - old = late - start := by
  obtain ⟨turns, wrapped⟩ := int32_wraps (start + (taken - old))
  have bounds := int32_bounds (start + (taken - old))
  unfold maxWindow at *
  constructor
  · intro same
    omega
  · intro same
    rw [show start + (taken - old) = late by omega]
    apply int32_eq <;> omega

/-- A stream opened before a sequence of SETTINGS frames and one opened behind it have the same
windows exactly when both sides' INITIAL_WINDOW_SIZE have moved by the same amount. -/
theorem opening_commutes_iff (conn : Http2SocketStream) (opening : Opening)
    (frames : List (Side × List SettingsItem)) (ref : Nat) (early : Http2SocketStream)
    (done : conn.opened opening = some (ref, early)) :
    ∃ lateRef late, (conn.exchange frames).opened opening = some (lateRef, late) ∧
      ((early.exchange frames).windows ref = late.windows lateRef ↔
        windowChange .owner conn frames = windowChange .peer conn frames) := by
  have exchanged := exchange_spec frames conn
  obtain ⟨lateRef, late, doneLate⟩ := opened_later exchanged.sn done
  refine ⟨lateRef, late, doneLate, ?_⟩
  have first := opened_spec done
  have second := opened_spec doneLate
  have shifted := (exchange_spec frames early).heap ref first.mapped
  have change (side : Side) : windowChange side early frames = windowChange side conn frames := by
    rw [windowChange, windowChange, first.settings]
  have ownerLe := window_bounds (conn.settings .owner)
  have peerLe := window_bounds (conn.settings .peer)
  have ownerLate := window_bounds ((conn.exchange frames).settings .owner)
  have peerLate := window_bounds ((conn.exchange frames).settings .peer)
  have send := shifted_window_eq_iff _ _ _ _ peerLe ownerLate ownerLe peerLate
  have recv := shifted_window_eq_iff _ _ _ _ ownerLe peerLate peerLe ownerLate
  have ownerMoved := exchanged.window .owner
  have peerMoved := exchanged.window .peer
  have sendEarly : ((early.exchange frames).heap ref).sendWindow =
      int32 ((conn.settings .peer).window + windowChange .owner conn frames) := by
    rw [shifted, change, change, ← first.sendWindow]
    rfl
  have recvEarly : ((early.exchange frames).heap ref).recvWindow =
      int32 ((conn.settings .owner).window + windowChange .peer conn frames) := by
    rw [shifted, change, change, ← first.recvWindow]
    rfl
  rw [windows, windows, Prod.mk.injEq, sendEarly, recvEarly, second.sendWindow, second.recvWindow]
  rw [show ((conn.exchange frames).settings .owner).window - (conn.settings .owner).window =
    windowChange .owner conn frames by omega] at send
  rw [show ((conn.exchange frames).settings .peer).window - (conn.settings .peer).window =
    windowChange .peer conn frames by omega] at recv
  rw [send, recv]
  constructor
  · intro both
    omega
  · intro same
    constructor <;> omega

/-- Both sides ask for windows of 100000 bytes. -/
theorem opening_commutes_same_change :
    ∃ ref early lateRef late,
      (new false).opened (.accepted 1) = some (ref, early) ∧
      ((new false).exchange [(.owner, [⟨0x4, 100000⟩]), (.peer, [⟨0x4, 100000⟩])]).opened
        (.accepted 1) = some (lateRef, late) ∧
      (early.exchange [(.owner, [⟨0x4, 100000⟩]), (.peer, [⟨0x4, 100000⟩])]).windows ref =
        late.windows lateRef := by
  obtain ⟨lateRef, late, opensLate, same⟩ := opening_commutes_iff (new false) (.accepted 1)
    [(.owner, [⟨0x4, 100000⟩]), (.peer, [⟨0x4, 100000⟩])] 0 _ rfl
  exact ⟨0, _, lateRef, late, rfl, opensLate, same.mpr (by decide)⟩

/-- The peer asks for windows of no bytes: a stream that was open may send nothing, one that is
opened later 65535 bytes. -/
theorem opening_does_not_commute :
    ∃ ref early lateRef late,
      (new false).opened (.accepted 1) = some (ref, early) ∧
      ((new false).exchange [(.owner, [⟨0x4, 0⟩])]).opened (.accepted 1) = some (lateRef, late) ∧
      (early.exchange [(.owner, [⟨0x4, 0⟩])]).windows ref = (0, 65535) ∧
      late.windows lateRef = (65535, 0) :=
  ⟨0, _, 0, _, rfl, rfl, by decide, by decide⟩

end Http2SocketStream
end ChatServer.Http2
