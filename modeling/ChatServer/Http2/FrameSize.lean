import ChatServer.Http2.SendCredit

/-!
# The size of DATA frames

The peer says how long a frame may be, and `updateSettings` stores that in `m_owner`. `sendData`
cuts its data by `m_peer`, which holds what this side has announced for the other direction.
-/

namespace ChatServer.Http2

set_option autoImplicit false

def latestFrameSize (size : UInt32) (items : List SettingsItem) : UInt32 :=
  items.foldl (fun size i =>
    if setting i.identifier = some .maxFrameSize then i.value else size) size

theorem latest_frame_size_append (size : UInt32) (first second : List SettingsItem) :
    latestFrameSize size (first ++ second) = latestFrameSize (latestFrameSize size first) second := by
  simp [latestFrameSize]

namespace Http2SocketStream

def itemsIn (frames : List Frame) : List SettingsItem :=
  frames.flatMap fun frame => frame.settingsIn.getD []

/-- The MAX_FRAME_SIZE most recently received, in the handshake or behind it. -/
def frameSizeLimit (greeting received : List Frame) : UInt32 :=
  latestFrameSize defaultMaxFrameSize (greetingItems greeting ++ itemsIn received)

theorem update_setting_frame_size (side : Side) (conn : Http2SocketStream) (i : SettingsItem) :
    ((updateSetting side conn i).settings side).maxFrameSize =
      latestFrameSize (conn.settings side).maxFrameSize [i] := by
  unfold updateSetting latestFrameSize
  cases kind : setting i.identifier with
  | none => simp [kind]
  | some named =>
      cases named with
      | headerTableSize => simp [kind, set_max_data_size_settings, store_window]
      | enablePush =>
          simp only [store_window]
          split_ifs <;> simp [kind, go_away_settings]
      | maxConcurrentStreams => simp [kind, store_window]
      | initialWindowSize =>
          by_cases windowLe : i.value ≤ maxInitialWindowSize
          · simp [kind, windowLe, update_window_by_diff_settings, store_window]
          · simp [kind, windowLe, go_away_settings]
      | maxFrameSize =>
          simp only
          split_ifs <;> simp [kind, go_away_settings, store_window]
      | maxHeaderListSize => simp [kind, store_window]

theorem update_settings_frame_size (side : Side) (items : List SettingsItem) :
    ∀ conn : Http2SocketStream, ((conn.updateSettings side items).settings side).maxFrameSize =
      latestFrameSize (conn.settings side).maxFrameSize items := by
  induction items with
  | nil => exact fun conn => rfl
  | cons i rest induction =>
      intro conn
      have first := update_setting_frame_size side conn i
      have step := induction (updateSetting side conn i)
      rw [first] at step
      exact step

theorem handle_window_update_owner (conn : Http2SocketStream) (frame : Frame) :
    (conn.handleWindowUpdate frame).owner = conn.owner := by
  have warned : (conn.sendGoAway conn.sn protocolError []).owner = conn.owner :=
    (go_away_steady .owner conn conn.sn protocolError []).settings
  unfold handleWindowUpdate
  split
  · split_ifs
    · split
      · exact warned
      · split_ifs
        · exact warned
        · rfl
    · exact warned
    · rfl
  · exact (inner_close_steady .owner conn).settings

theorem plain_items {action : Action} (plain : action.Plain) : itemsIn action.received = [] := by
  apply List.flatMap_eq_nil_iff.mpr
  intro frame member
  rw [(plain frame member).2]
  rfl

theorem sending_limit {conn after : Http2SocketStream} {action : Action}
    (sending : Sending conn action after) :
    after.owner.maxFrameSize = latestFrameSize conn.owner.maxFrameSize (itemsIn action.received) := by
  cases sending with
  | steady plain steady =>
      have owner : after.owner = conn.owner := steady.settings
      rw [owner, plain_items plain]
      rfl
  | opened plain steady =>
      have owner : after.owner = conn.owner := steady.settings
      rw [owner, plain_items plain]
      rfl
  | @windowUpdate frame typed =>
      have none : frame.settingsIn = none := by simp [Frame.settingsIn, typed]
      rw [handle_window_update_owner]
      simp [Action.received, itemsIn, none, latestFrameSize]
  | @settings frame items _ inForce steady =>
      have owner : after.owner = (conn.updateSettings .owner items).owner := steady.settings
      have stored : (conn.updateSettings .owner items).owner.maxFrameSize = _ :=
        update_settings_frame_size .owner items conn
      rw [owner, stored]
      simp [Action.received, itemsIn, inForce, settings]
  | posted silent hands posted =>
      obtain ⟨before, behind, earlier, ⟨frames, sent, _⟩, later⟩ := posted
      have first : before.owner = conn.owner := earlier.settings
      have last : after.owner = behind.owner := later.settings
      rw [last, sent.owner, first, silent]
      rfl

/-- The data is within the limit or cut into pieces that are. Data whose length is negative as
an `int` is not cut. -/
def Fitting (conn : Http2SocketStream) (action : Action) : Prop :=
  ∀ sending ∈ conn.outgoing action,
    (int32 sending.2.length < 0 → sending.2.length ≤ conn.owner.maxFrameSize.toNat) ∧
      (int32 sending.2.length ≤ conn.owner.maxFrameSize.toNat ∨
        conn.peer.maxFrameSize.toNat ≤ conn.owner.maxFrameSize.toNat + 9)

theorem largest_fitting {conn : Http2SocketStream} {action : Action} {ref : Nat} {data : Str}
    (sized : conn.Sized) (fitting : conn.Fitting action)
    (hands : conn.outgoing action = some (ref, data)) :
    largest conn.frameRoom data.length ≤ conn.owner.maxFrameSize.toNat := by
  have room := (frame_room sized).1
  obtain ⟨whole, cut⟩ := fitting (ref, data) hands
  dsimp only at whole cut
  unfold largest
  split_ifs with negative
  · exact Int.ofNat_le.mpr (whole negative)
  · omega

theorem unspent_bodies {conn after : Http2SocketStream} (nothing : spent conn after = 0) :
    ∀ frame ∈ after.emitted.drop conn.emitted.length, frame.body = [] := by
  have empty := List.eq_nil_of_length_eq_zero nothing
  exact List.flatMap_eq_nil_iff.mp empty

theorem sending_fits {conn after : Http2SocketStream} {action : Action} (sized : conn.Sized)
    (fitting : conn.Fitting action) (sending : Sending conn action after) :
    ∀ frame ∈ after.emitted.drop conn.emitted.length,
      frame.body.length ≤ conn.owner.maxFrameSize.toNat := by
  have silent (nothing : spent conn after = 0) : ∀ frame ∈ after.emitted.drop conn.emitted.length,
      frame.body.length ≤ conn.owner.maxFrameSize.toNat := by
    intro frame member
    rw [unspent_bodies nothing frame member]
    exact Nat.zero_le _
  cases sending with
  | steady _ steady => exact silent (steady_frames steady).1
  | opened _ steady => exact silent (steady_frames steady).1
  | windowUpdate _ => exact silent (window_update_spent conn _)
  | settings _ steady => exact silent (settings_spent steady)
  | posted _ hands posted =>
      obtain ⟨before, behind, earlier, ⟨frames, sent, _, bounded⟩, later⟩ := posted
      obtain ⟨first, last, emitted, firstFree, lastFree⟩ := emitted_between earlier sent later
      have room := largest_fitting sized fitting hands
      intro frame member
      rw [emitted, List.drop_left, List.mem_append, List.mem_append] at member
      rcases member with (inFirst | inFrames) | inLast
      · rw [free_body (firstFree frame inFirst)]
        exact Nat.zero_le _
      · have short := bounded frame inFrames
        omega
      · rw [free_body (lastFree frame inLast)]
        exact Nat.zero_le _

theorem started_limit {conn : Http2SocketStream} {greeting : List Frame}
    (started : Started conn greeting) : conn.owner.maxFrameSize = frameSizeLimit greeting [] := by
  obtain ⟨isClient, writes, steady⟩ := started_owner started
  have owner : conn.owner = _ := steady.settings
  have stored := update_settings_frame_size .owner (greetingItems greeting)
    { new isClient with writes }
  rw [owner, frameSizeLimit, itemsIn, List.flatMap_nil, List.append_nil]
  exact stored

instance (conn : Http2SocketStream) (action : Action) : Decidable (conn.Fitting action) :=
  inferInstanceAs (Decidable (∀ sending ∈ conn.outgoing action, _))

def Limited (greeting : List Frame) (state : Http2SocketStream × List Frame) : Prop :=
  Sound state.1 ∧ state.1.owner.maxFrameSize = frameSizeLimit greeting state.2

theorem limited_observe {greeting : List Frame} {state after : Http2SocketStream × List Frame}
    {action : Action} (limited : Limited greeting state) (taken : observe state action = some after) :
    Limited greeting after := by
  obtain ⟨stepped, log⟩ := observe_inv taken
  refine ⟨sound_step limited.1 stepped, ?_⟩
  rw [sending_limit (step_sending limited.1.sized stepped), limited.2, log]
  simp [frameSizeLimit, itemsIn, latest_frame_size_append]

/-- In every run whose messages are cut to the size of the peer, each step sends only DATA
frames within the MAX_FRAME_SIZE received last. -/
theorem data_within_frame_size {start conn after : Http2SocketStream}
    {greeting received : List Frame} {action : Action} (started : Started start greeting)
    (reached : Transition.Reaches observe (fun state action => state.1.Fitting action)
      (start, []) (conn, received))
    (fitting : conn.Fitting action) (taken : conn.step action = some after) :
    ∀ frame ∈ after.emitted.drop conn.emitted.length,
      frame.body.length ≤ (frameSizeLimit greeting received).toNat := by
  have limited : Limited greeting (conn, received) := by
    apply Transition.invariant_of_reaches _ _ reached
    · exact ⟨started_sound started, started_limit started⟩
    · intro state action after before _ taken
      exact limited_observe before taken
  have stored : conn.owner.maxFrameSize = frameSizeLimit greeting received := limited.2
  rw [← stored]
  exact sending_fits limited.1.sized fitting (step_sending limited.1.sized taken)

/-- This side has announced longer frames than the peer takes, and sends a short one. -/
theorem data_within_frame_size_short :
    ∃ conn received after, Transition.Reaches observe (fun state action => state.1.Fitting action)
        (greeted, []) (conn, received) ∧ conn.peer.maxFrameSize = 32768 ∧
      conn.step (.sendData 0 [0x68, 0x69] true true) = some after ∧
      ∀ frame ∈ after.emitted.drop conn.emitted.length,
        frame.body.length ≤ (frameSizeLimit [settingsFrame []] received).toNat := by
  let opening := inFrame .data 0x0 1 1 (.data { data := [0x68] })
  have reached : ∃ state, Transition.Reaches observe (fun state action => state.1.Fitting action)
      (greeted, []) state ∧ state.1.peer.maxFrameSize = 32768 ∧
        state.1.Fitting (.sendData 0 [0x68, 0x69] true true) ∧
        (state.1.step (.sendData 0 [0x68, 0x69] true true)).isSome = true :=
    Transition.exists_of_run [.recv opening, .sendSettings [⟨0x5, 32768⟩]] (by decide +kernel)
  obtain ⟨⟨conn, received⟩, reached, announced, fitting, taken⟩ := reached
  obtain ⟨after, taken⟩ := Option.isSome_iff_exists.mp taken
  exact ⟨conn, received, after, reached, announced, taken,
    data_within_frame_size greeted_started reached fitting taken⟩

theorem step_send_data_whole {conn : Http2SocketStream} {ref : Nat} {data : Str}
    (connected : conn.connected = true) (inside : ref < conn.allocated)
    (short : data.length ≤ conn.frameRoom) (endStream : Bool) :
    ∃ after, conn.step (.sendData ref data true endStream) = some after ∧
      after.emitted.drop conn.emitted.length =
        [dataFrame (conn.heap ref).id data true endStream] := by
  rw [step, if_pos inside, send_data_whole connected short]
  refine ⟨_, rfl, ?_⟩
  exact List.drop_left

/-- A longer one is not cut. -/
theorem data_beyond_frame_size :
    ∃ conn received after, Transition.Reaches observe (fun _ _ => True) (greeted, [])
        (conn, received) ∧
      conn.step (.sendData 0 (List.replicate 16385 0x61) true true) = some after ∧
      ∃ frame ∈ after.emitted.drop conn.emitted.length,
        (frameSizeLimit [settingsFrame []] received).toNat < frame.body.length := by
  let opening := inFrame .data 0x0 1 1 (.data { data := [0x68] })
  have reached : ∃ state, Transition.Reaches observe (fun _ _ => True) (greeted, []) state ∧
      state.1.connected = true ∧ 0 < state.1.allocated ∧ 16385 ≤ state.1.frameRoom ∧
        (frameSizeLimit [settingsFrame []] state.2).toNat = 16384 :=
    Transition.exists_of_run [.recv opening, .sendSettings [⟨0x5, 32768⟩]] (by decide +kernel)
  obtain ⟨⟨conn, received⟩, reached, connected, inside, room, limit⟩ := reached
  have length : (List.replicate 16385 (0x61 : UInt8)).length = 16385 := List.length_replicate
  have short : (List.replicate 16385 (0x61 : UInt8)).length ≤ conn.frameRoom := by
    rw [length]
    exact room
  obtain ⟨after, taken, sent⟩ := step_send_data_whole connected inside short true
  dsimp only at sent limit
  refine ⟨conn, received, after, reached, taken, ?_⟩
  rw [sent, limit]
  refine ⟨_, List.mem_singleton_self _, ?_⟩
  rw [body_data_frame, length]
  decide

end Http2SocketStream
end ChatServer.Http2
