import ChatServer.Http2.FlowControl

/-!
# What the peer may still send

A receiver grants credit with its settings and with WINDOW_UPDATE frames, and the DATA frames it
receives use it up. What is left is known from the frames alone, on both ends. The windows of
this program are meant to hold the same number: for the connection they do as long as every DATA
frame meets a stream, and for a stream as long as both ends have announced the same initial
window when it is opened.
-/

namespace ChatServer.Http2

set_option autoImplicit false

def Frame.increment (id : UInt32) (frame : Frame) : Nat :=
  match frame.data with
  | some (.windowUpdate wuf) => if frame.header.streamId = id then wuf.increment.toNat else 0
  | _ => 0

def increments (id : UInt32) (frames : List Frame) : Nat := (frames.map (Frame.increment id)).sum

def Frame.dataLength (frame : Frame) : Nat :=
  if frameType frame.header.type = some .data then frame.header.length.toNat else 0

def dataLength (frames : List Frame) : Nat := (frames.map Frame.dataLength).sum

@[simp] theorem increments_nil (id : UInt32) : increments id [] = 0 := rfl

@[simp] theorem increments_append (id : UInt32) (first second : List Frame) :
    increments id (first ++ second) = increments id first + increments id second := by
  simp [increments]

@[simp] theorem increments_singleton (id : UInt32) (frame : Frame) :
    increments id [frame] = frame.increment id := by simp [increments]

@[simp] theorem data_length_nil : dataLength [] = 0 := rfl

@[simp] theorem data_length_append (first second : List Frame) :
    dataLength (first ++ second) = dataLength first + dataLength second := by
  simp [dataLength]

@[simp] theorem data_length_singleton (frame : Frame) :
    dataLength [frame] = frame.dataLength := by simp [dataLength]

theorem free_increment {frame : Frame} (free : frame.counts .peer = false) (id : UInt32) :
    frame.increment id = 0 := by
  unfold Frame.counts at free
  unfold Frame.increment
  split at free <;> simp_all

theorem free_increments {frames : List Frame} (free : ∀ frame ∈ frames, frame.counts .peer = false)
    (id : UInt32) : increments id frames = 0 := by
  apply List.sum_eq_zero
  intro value member
  obtain ⟨frame, inside, same⟩ := List.mem_map.mp member
  rw [← same]
  exact free_increment (free frame inside) id

def windowUpdateFrame (streamId n : UInt32) : Frame :=
  outFrame .windowUpdate 0 streamId (some (.windowUpdate { increment := low31 n }))

theorem window_update_increment {streamId n : UInt32} (small : streamId.toNat < 2 ^ 31)
    (id : UInt32) :
    (windowUpdateFrame streamId n).increment id = if streamId = id then (low31 n).toNat else 0 := by
  unfold windowUpdateFrame Frame.increment
  rw [out_frame_stream_id small]
  rfl

theorem window_updates_increments {streamId : UInt32} {frames : List Frame}
    (made : ∀ frame ∈ frames, ∃ n, frame = windowUpdateFrame streamId n)
    (small : streamId.toNat < 2 ^ 31) {id : UInt32} (different : streamId ≠ id) :
    increments id frames = 0 := by
  apply List.sum_eq_zero
  intro value member
  obtain ⟨frame, inside, same⟩ := List.mem_map.mp member
  obtain ⟨n, own⟩ := made frame inside
  rw [← same, own, window_update_increment small, if_neg different]

namespace Http2SocketStream

theorem refill_spec {window : Int} (lower : 0 ≤ window) (upper : window ≤ maxWindow) :
    ((refill window).toNat : Int) = maxWindow - window ∧ (refill window).toNat < 2 ^ 31 := by
  have exact : ((refill window).toNat : Int) = maxWindow - window := by
    unfold maxWindow at *
    change ((BitVec.ofInt 32 (2 ^ 31 - 1 - window)).toNat : Int) = _
    rw [BitVec.toNat_ofInt]
    omega
  unfold maxWindow at *
  omega

theorem refill_top {window : Int} (lower : 0 ≤ window) (upper : window ≤ maxWindow) :
    int32 (window + (refill window).toNat) = maxWindow := by
  have sum : window + (maxWindow - window) = maxWindow := by omega
  rw [(refill_spec lower upper).1, sum]
  decide

theorem refill_increment {window : Int} {id : UInt32} (lower : 0 ≤ window)
    (upper : window ≤ maxWindow) (small : id.toNat < 2 ^ 31) :
    ((windowUpdateFrame id (refill window)).increment id : Int) = maxWindow - window := by
  have refilled := refill_spec lower upper
  rw [window_update_increment small, if_pos rfl, low31_to_nat refilled.2, refilled.1]

theorem refill_connection {conn : Http2SocketStream} (connected : conn.connected = true)
    (lower : 0 ≤ conn.recvWindow) (upper : conn.recvWindow ≤ maxWindow) :
    conn.sendWindowUpdate 0 (refill conn.recvWindow) =
        { conn with
          recvWindow := maxWindow
          emitted := conn.emitted ++ [windowUpdateFrame 0 (refill conn.recvWindow)] } ∧
      ((low31 (refill conn.recvWindow)).toNat : Int) = maxWindow - conn.recvWindow := by
  have refilled := refill_spec lower upper
  constructor
  · unfold sendWindowUpdate
    rw [if_pos rfl, enqueue_eq]
    simp only [connected, if_true, refill_top lower upper]
    rfl
  · rw [low31_to_nat refilled.2, refilled.1]

/-- The window of the connection after a DATA frame. One inside its credit is lowered, or
refilled up to the top. -/
theorem charge_connection_spec (conn : Http2SocketStream) (length : Nat)
    (connected : conn.connected = true) :
    ∃ window grants, conn.chargeConnection length =
        { conn with recvWindow := window, emitted := conn.emitted ++ grants } ∧
      (∀ frame ∈ grants, ∃ n, frame = windowUpdateFrame 0 n) ∧
      (length ≤ conn.recvWindow → conn.recvWindow ≤ maxWindow →
        window = conn.recvWindow - length + increments 0 grants ∧ 0 ≤ window ∧
          window ≤ maxWindow ∧ ∀ frame ∈ grants, 0 < frame.increment 0) := by
  let charged := { conn with recvWindow := int32 (conn.recvWindow - length) }
  have exact (credit : length ≤ conn.recvWindow) (upper : conn.recvWindow ≤ maxWindow) :
      charged.recvWindow = conn.recvWindow - length := by
    unfold maxWindow at upper
    apply int32_eq <;> omega
  unfold chargeConnection
  dsimp only
  by_cases low : charged.recvWindow < maxWindow / 4
  · rw [if_pos low]
    let n := refill charged.recvWindow
    refine ⟨int32 (charged.recvWindow + n.toNat), [windowUpdateFrame 0 n], ?_, ?_, ?_⟩
    · unfold sendWindowUpdate
      rw [if_pos rfl, enqueue_eq]
      simp only [connected, if_true]
      rfl
    · intro frame member
      exact ⟨n, List.mem_singleton.mp member⟩
    · intro credit upper
      have window := exact credit upper
      have lower : 0 ≤ charged.recvWindow := by omega
      have below : charged.recvWindow ≤ maxWindow := by omega
      have raised : ((windowUpdateFrame 0 n).increment 0 : Int) = maxWindow - charged.recvWindow :=
        refill_increment lower below (by decide)
      rw [refill_top lower below, increments_singleton, raised]
      refine ⟨?_, ?_, ?_, ?_⟩
      · omega
      · decide
      · exact Int.le_refl _
      · intro frame member
        rw [List.mem_singleton.mp member]
        unfold maxWindow at *
        omega
  · rw [if_neg low]
    refine ⟨charged.recvWindow, [], ?_, ?_, ?_⟩
    · rw [List.append_nil]
    · intro frame member
      exact absurd member List.not_mem_nil
    · intro credit upper
      rw [exact credit upper]
      refine ⟨?_, ?_, ?_, ?_⟩
      · simp
      · exact Int.sub_nonneg_of_le credit
      · omega
      · intro frame member
        exact absurd member List.not_mem_nil

/-- The same for the window of a stream in the map; one that is not inside its credit may wrap. -/
theorem charge_stream_spec (conn : Http2SocketStream) {id : UInt32} {ref : Nat} (length : Nat)
    (connected : conn.connected = true) (found : conn.streams id = some ref)
    (named : (conn.heap ref).id = id) (nonzero : id ≠ 0) :
    ∃ stream grants, conn.chargeStream ref length =
        { conn with
          heap := Function.update conn.heap ref stream
          emitted := conn.emitted ++ grants } ∧
      stream.id = id ∧ (∀ frame ∈ grants, ∃ n, frame = windowUpdateFrame id n) ∧
      (length ≤ (conn.heap ref).recvWindow → id.toNat < 2 ^ 31 →
        stream.recvWindow = (conn.heap ref).recvWindow - length + increments id grants) := by
  let charged : ManagedStream := { conn.heap ref with
    recvWindow := int32 ((conn.heap ref).recvWindow - length), recvFits := int32_int32 _ }
  have drawn : conn.modify ref (fun stream =>
      { stream with recvWindow := int32 (stream.recvWindow - length), recvFits := int32_int32 _ }) =
      { conn with heap := Function.update conn.heap ref charged } := rfl
  unfold chargeStream
  dsimp only
  rw [drawn]
  simp only [Function.update_self]
  have exact (credit : length ≤ (conn.heap ref).recvWindow) :
      charged.recvWindow = (conn.heap ref).recvWindow - length := by
    have upper := (int32_bounds (conn.heap ref).recvWindow).2
    rw [(conn.heap ref).recvFits] at upper
    apply int32_eq <;> omega
  by_cases low : charged.recvWindow < maxWindow / 4
  · rw [if_pos low]
    let n := refill charged.recvWindow
    refine ⟨charged.updateRecvWindowByDiff (int32 n.toNat), [windowUpdateFrame id n], ?_, named, ?_, ?_⟩
    · have own : charged.id = id := named
      rw [own]
      unfold sendWindowUpdate getStream
      rw [if_neg nonzero]
      dsimp only
      rw [found]
      dsimp only
      rw [enqueue_eq]
      simp only [modify, connected, if_true, Function.update_self, Function.update_idem]
      rfl
    · intro frame member
      exact ⟨n, List.mem_singleton.mp member⟩
    · intro credit small
      have window := exact credit
      have lower : 0 ≤ charged.recvWindow := by omega
      have below : charged.recvWindow ≤ maxWindow := by
        unfold maxWindow at *
        omega
      have top : (charged.updateRecvWindowByDiff (int32 n.toNat)).recvWindow = maxWindow := by
        change int32 (charged.recvWindow + int32 n.toNat) = maxWindow
        rw [int32_add_int32]
        exact refill_top lower below
      have raised := refill_increment lower below small
      rw [top, increments_singleton, raised]
      omega
  · rw [if_neg low]
    refine ⟨charged, [], ?_, named, ?_, ?_⟩
    · rw [List.append_nil]
    · intro frame member
      exact absurd member List.not_mem_nil
    · intro credit _
      simp [exact credit]

/-- What `handleRecvData` does with a frame of a stream in the map. -/
inductive Accounted (conn : Http2SocketStream) (ref : Nat) (frame : Frame) :
    Http2SocketStream → Prop where
  | free (nothing : frame.dataLength = 0) : Accounted conn ref frame conn
  | charged {window : Int} {stream : ManagedStream} {grants more : List Frame}
      (some : 0 < frame.dataLength)
      (forConnection : ∀ grant ∈ grants, ∃ n, grant = windowUpdateFrame 0 n)
      (forStream : ∀ grant ∈ more, ∃ n, grant = windowUpdateFrame frame.header.streamId n)
      (connectionPays : frame.dataLength ≤ conn.recvWindow → conn.recvWindow ≤ maxWindow →
        window = conn.recvWindow - frame.dataLength + increments 0 grants ∧ 0 ≤ window ∧
          window ≤ maxWindow ∧ ∀ grant ∈ grants, 0 < grant.increment 0)
      (streamPays : frame.dataLength ≤ (conn.heap ref).recvWindow →
        stream.recvWindow = (conn.heap ref).recvWindow - frame.dataLength +
          increments frame.header.streamId more) :
      Accounted conn ref frame { conn with
        recvWindow := window
        heap := Function.update conn.heap ref stream
        emitted := conn.emitted ++ grants ++ more }

theorem account_spec {conn : Http2SocketStream} {frame : Frame} {ref : Nat} (sound : Sound conn)
    (connected : conn.connected = true) (found : conn.streams frame.header.streamId = some ref)
    (nonzero : frame.header.streamId ≠ 0) : Accounted conn ref frame (conn.account ref frame) := by
  unfold account handleRecvData
  dsimp only
  by_cases typed : frameType frame.header.type = some .data
  · rw [if_pos typed]
    have exact : frame.dataLength = frame.header.length.toNat := if_pos typed
    by_cases empty : frame.header.length.toNat = 0
    · rw [if_neg (not_not.mpr empty)]
      exact .free (exact.trans empty)
    · rw [if_pos empty, ← exact]
      obtain ⟨window, grants, charged, forConnection, connectionPays⟩ :=
        charge_connection_spec conn frame.dataLength connected
      rw [charged]
      obtain ⟨stream, more, drawn, _, forStream, streamPays⟩ := charge_stream_spec
        { conn with recvWindow := window, emitted := conn.emitted ++ grants } frame.dataLength
        connected found (sound.named _ _ found).2 nonzero
      rw [drawn]
      exact .charged (by omega) forConnection forStream connectionPays
        fun inside => streamPays inside (stream_id_small frame.header)
  · rw [if_neg typed]
    exact .free (if_neg typed)

/-- The credit the peer still has on the connection: what it was granted less what it sent. -/
def connectionCredit (conn : Http2SocketStream) (received : List Frame) : Int :=
  65535 + increments 0 conn.emitted - dataLength received

/-- The receive window of the connection is the credit of the peer, and every increment is a
legal one. -/
structure Balanced (conn : Http2SocketStream) (received : List Frame) : Prop where
  agrees : conn.recvWindow = connectionCredit conn received
  lower : 0 ≤ conn.recvWindow
  upper : conn.recvWindow ≤ maxWindow
  legal : ∀ frame ∈ conn.emitted, ∀ wuf, frame.data = some (.windowUpdate wuf) →
    frame.header.streamId = 0 → 1 ≤ wuf.increment.toNat ∧ wuf.increment.toNat ≤ 2 ^ 31 - 1

theorem balanced_more {conn after : Http2SocketStream} {received more : List Frame}
    {grants : List Frame} (balanced : Balanced conn received)
    (emitted : after.emitted = conn.emitted ++ grants)
    (window : after.recvWindow = conn.recvWindow + increments 0 grants - dataLength more)
    (lower : 0 ≤ after.recvWindow) (upper : after.recvWindow ≤ maxWindow)
    (legal : ∀ frame ∈ grants, ∀ wuf, frame.data = some (.windowUpdate wuf) →
      frame.header.streamId = 0 → 0 < wuf.increment.toNat) :
    Balanced after (received ++ more) := by
  refine ⟨?_, lower, upper, ?_⟩
  · have agrees := balanced.agrees
    unfold connectionCredit at *
    rw [window, emitted, increments_append, data_length_append]
    push_cast
    omega
  · intro frame member wuf payload zero
    rw [emitted] at member
    cases List.mem_append.mp member with
    | inl earlier => exact balanced.legal frame earlier wuf payload zero
    | inr granted =>
        have bound := wuf.increment.isLt
        have positive := legal frame granted wuf payload zero
        omega

theorem free_legal {frame : Frame} (free : frame.counts .peer = false) (wuf : WindowUpdateFrame) :
    frame.data ≠ some (.windowUpdate wuf) := by
  intro payload
  simp [Frame.counts, payload] at free

theorem balanced_steady {conn after : Http2SocketStream} {received more : List Frame}
    (balanced : Balanced conn received) (steady : Steady .peer conn after)
    (nothing : dataLength more = 0) : Balanced after (received ++ more) := by
  obtain ⟨extra, emitted, free⟩ := steady.emitted
  have window : after.recvWindow = conn.recvWindow := steady.window
  apply balanced_more balanced emitted
  · rw [window, free_increments free, nothing]
    simp
  · rw [window]
    exact balanced.lower
  · rw [window]
    exact balanced.upper
  · intro frame member wuf payload
    exact absurd payload (free_legal (free frame member) wuf)

theorem balanced_opened {conn : Http2SocketStream} {received : List Frame}
    (balanced : Balanced conn received) (sn id : UInt32) :
    Balanced ({ conn with sn }.addStream id) received :=
  ⟨balanced.agrees, balanced.lower, balanced.upper, balanced.legal⟩

theorem balanced_located {conn next : Http2SocketStream} {received : List Frame} {frame : Frame}
    {ref : Nat} (balanced : Balanced conn received)
    (located : Located conn frame (some ref) next) :
    Balanced next received ∧ next.connected = conn.connected ∧
      connectionCredit next received = connectionCredit conn received := by
  cases located with
  | known found => exact ⟨balanced, rfl, rfl⟩
  | opened unknown server above => exact ⟨balanced_opened balanced _ _, rfl, rfl⟩

/-- A DATA frame that meets its stream is taken from the window of the connection. -/
theorem balanced_accounted {conn after : Http2SocketStream} {received : List Frame} {frame : Frame}
    {ref : Nat} (balanced : Balanced conn received) (nonzero : frame.header.streamId ≠ 0)
    (promised : frame.dataLength ≤ connectionCredit conn received)
    (accounted : Accounted conn ref frame after) : Balanced after (received ++ [frame]) := by
  cases accounted with
  | free nothing => exact balanced_steady balanced (steady_refl .peer conn) (by simp [nothing])
  | @charged window stream grants more _ forConnection forStream connectionPays streamPays =>
      rw [← balanced.agrees] at promised
      obtain ⟨sum, lower, upper, positive⟩ := connectionPays promised balanced.upper
      have small := stream_id_small frame.header
      have others := window_updates_increments forStream small nonzero
      apply balanced_more balanced (List.append_assoc conn.emitted grants more)
      · change window = _
        rw [increments_append, others, data_length_singleton, sum]
        push_cast
        omega
      · exact lower
      · exact upper
      · intro granted member wuf payload zero
        cases List.mem_append.mp member with
        | inl connection =>
            have raised := positive granted connection
            simpa [Frame.increment, payload, zero] using raised
        | inr streams =>
            obtain ⟨n, made⟩ := forStream granted streams
            rw [made, windowUpdateFrame, out_frame_stream_id small] at zero
            exact absurd zero nonzero

theorem send_settings_eq (conn : Http2SocketStream) (items : List SettingsItem) :
    conn.sendSettings items = if conn.connected then
      (conn.enqueue (settingsFrame items)).updateSettings .peer items
    else conn := by
  rw [enqueue_eq]
  unfold sendSettings sendFrame
  by_cases connected : conn.connected = true
  · simp only [connected, if_true]
    rfl
  · simp only [connected]
    rfl

/-- Frames other than WINDOW_UPDATE leave the books of the connection as they are. -/
theorem balanced_sent {conn next : Http2SocketStream} {received : List Frame} {frame : Frame}
    {async : Bool} {rt : Int} (balanced : Balanced conn received)
    (other : ∀ wuf, frame.data ≠ some (.windowUpdate wuf))
    (sent : conn.sendFrame frame async = (rt, next)) : Balanced next received := by
  obtain ⟨writes, same⟩ := send_frame_eq sent
  rw [same]
  split_ifs
  · have nothing : frame.increment 0 = 0 := by
      unfold Frame.increment
      split
      · rename_i wuf payload
        exact absurd payload (other wuf)
      · rfl
    have added : Balanced { conn with writes, emitted := conn.emitted ++ [frame] } (received ++ []) := by
      apply balanced_more balanced rfl
      · simp [nothing]
      · exact balanced.lower
      · exact balanced.upper
      · intro own member wuf payload
        rw [List.mem_singleton.mp member] at payload
        exact absurd payload (other wuf)
    rwa [List.append_nil] at added
  · exact ⟨balanced.agrees, balanced.lower, balanced.upper, balanced.legal⟩

theorem balanced_settled {conn after : Http2SocketStream} {received : List Frame}
    (balanced : Balanced conn received) (settled : Settled .peer conn after) :
    Balanced after received := by
  obtain ⟨errors, emitted, goAway⟩ := settled.emitted
  have free : ∀ frame ∈ errors, frame.counts .peer = false :=
    fun frame member => go_away_free (goAway frame member)
  rw [← List.append_nil received]
  apply balanced_more balanced emitted
  · rw [settled.recvWindow, free_increments free]
    simp
  · rw [settled.recvWindow]
    exact balanced.lower
  · rw [settled.recvWindow]
    exact balanced.upper
  · intro frame member wuf payload
    exact absurd payload (free_legal (free frame member) wuf)

theorem balanced_settings {conn : Http2SocketStream} {received : List Frame}
    (balanced : Balanced conn received) (items : List SettingsItem) :
    Balanced (conn.sendSettings items) received := by
  rw [send_settings_eq]
  split_ifs
  · apply balanced_settled _ (update_settings_settled .peer items _)
    exact balanced_sent balanced (by simp [settingsFrame, outFrame]) rfl
  · exact balanced

theorem balanced_refill {conn : Http2SocketStream} {received : List Frame}
    (balanced : Balanced conn received) (connected : conn.connected = true)
    (room : conn.recvWindow < maxWindow) :
    Balanced (conn.sendWindowUpdate 0 (refill conn.recvWindow)) received := by
  obtain ⟨refilled, raised⟩ := refill_connection connected balanced.lower balanced.upper
  rw [refilled, ← List.append_nil received]
  apply balanced_more balanced rfl
  · rw [increments_singleton, window_update_increment (by decide), if_pos rfl, raised]
    simp
  · change 0 ≤ maxWindow
    decide
  · exact Int.le_refl maxWindow
  · intro frame member wuf payload _
    rw [List.mem_singleton.mp member] at payload
    cases payload
    change 0 < (low31 (refill conn.recvWindow)).toNat
    omega

/-- The peer keeps to the credit of the connection. -/
def WithinCredit (state : Http2SocketStream × List Frame) : Action → Prop
  | .recv frame => frame.dataLength ≤ connectionCredit state.1 state.2
  | _ => True

instance (state : Http2SocketStream × List Frame) (action : Action) :
    Decidable (WithinCredit state action) :=
  match action with
  | .recv frame => inferInstanceAs (Decidable ((frame.dataLength : Int) ≤ _))
  | .hangUp | .task _ _ | .openStream _ | .sendRequest _ _ _ _ | .sendData _ _ _ _
  | .sendSettings _ | .onTimeOut _ => inferInstanceAs (Decidable True)

/-- Every DATA frame with a payload meets its stream, or opens it. -/
def DataLands (state : Http2SocketStream × List Frame) : Action → Prop
  | .recv frame => frame.dataLength = 0 ∨ state.1.Lands frame
  | _ => True

instance (state : Http2SocketStream × List Frame) (action : Action) :
    Decidable (DataLands state action) :=
  match action with
  | .recv frame => inferInstanceAs (Decidable (frame.dataLength = 0 ∨ state.1.Lands frame))
  | .hangUp | .task _ _ | .openStream _ | .sendRequest _ _ _ _ | .sendData _ _ _ _
  | .sendSettings _ | .onTimeOut _ => inferInstanceAs (Decidable True)

theorem balanced_receiving {conn after : Http2SocketStream} {received : List Frame} {action : Action}
    (balanced : Balanced conn received) (sound : Sound conn)
    (promised : WithinCredit (conn, received) action) (lands : DataLands (conn, received) action)
    (receiving : Receiving conn action after) : Balanced after (received ++ action.received) := by
  cases receiving with
  | steady silent steady =>
      apply balanced_steady balanced steady
      rw [silent, data_length_nil]
  | opened _ steady => exact balanced_steady (balanced_opened balanced _ _) steady rfl
  | advertised valid =>
      change Balanced _ (received ++ [])
      rw [List.append_nil]
      exact balanced_settings balanced _
  | passed missed steady =>
      apply balanced_steady balanced steady
      change dataLength [_] = 0
      rw [data_length_singleton]
      cases lands with
      | inl nothing => exact nothing
      | inr landed =>
          cases missed with
          | inl windowUpdate => exact if_neg (by simp [windowUpdate])
          | inr missed => exact absurd landed missed
  | landed connected _ nonzero located steady =>
      obtain ⟨before, stillConnected, credit⟩ := balanced_located balanced located
      obtain ⟨foundSound, inMap⟩ := sound_located sound located
      have accounted := account_spec foundSound (stillConnected.trans connected) inMap nonzero
      have charged := balanced_accounted before nonzero (credit ▸ promised) accounted
      have settled := balanced_steady charged steady data_length_nil
      rwa [List.append_nil] at settled

theorem new_balanced (isClient : Bool) (writes : Nat → Int) :
    Balanced { new isClient with writes } [] := by
  refine ⟨rfl, ?_, ?_, ?_⟩
  · change (0 : Int) ≤ 65535
    decide
  · change 65535 ≤ maxWindow
    decide
  · intro frame member
    exact absurd member List.not_mem_nil

theorem started_balanced {conn : Http2SocketStream} {received : List Frame}
    (started : Started conn received) : Balanced conn received := by
  cases started with
  | server writes frame shaken =>
      obtain ⟨sts, typed, _, same⟩ := shaken_server shaken
      rw [same]
      apply balanced_settings
      have nothing : dataLength [frame] = 0 := by simp [Frame.dataLength, typed]
      exact balanced_steady (new_balanced false writes) (greeting_steady writes sts.items) nothing
  | client writes shaken =>
      obtain ⟨rt, written, connected, _, sent, same⟩ := shaken_client shaken
      rw [same]
      have settled := update_settings_settled .peer clientSettings
        { new true with writes := fun call => writes (call + 1) }
      have announced := balanced_sent (balanced_settled (new_balanced true _) settled)
        (by simp [settingsFrame, outFrame]) sent
      obtain ⟨later, made⟩ := send_frame_eq sent
      apply balanced_refill announced
      · rw [made]
        exact settled.connected
      · have window : written.recvWindow = 65535 := by
          rw [made]
          exact settled.recvWindow
        rw [window]
        decide

def Booked (state : Http2SocketStream × List Frame) : Prop :=
  Sound state.1 ∧ Balanced state.1 state.2

theorem observe_inv {state after : Http2SocketStream × List Frame} {action : Action}
    (taken : observe state action = some after) :
    state.1.step action = some after.1 ∧ after.2 = state.2 ++ action.received := by
  obtain ⟨next, stepped, same⟩ := Option.map_eq_some_iff.mp taken
  rw [← same]
  exact ⟨stepped, rfl⟩

theorem booked_observe {state after : Http2SocketStream × List Frame} {action : Action}
    (booked : Booked state) (promised : WithinCredit state action) (lands : DataLands state action)
    (taken : observe state action = some after) : Booked after := by
  obtain ⟨stepped, log⟩ := observe_inv taken
  have receiving := step_receiving booked.1.sized stepped
  refine ⟨sound_step booked.1 stepped, ?_⟩
  rw [log]
  exact balanced_receiving booked.2 booked.1 promised lands receiving

/-- In every run in which the peer keeps to its credit and no DATA frame misses its stream, the
receive window of the connection is the credit of the peer. -/
theorem connection_credit_agrees {start conn : Http2SocketStream} {greeting received : List Frame}
    (started : Started start greeting)
    (reached : Transition.Reaches observe
      (fun state action => WithinCredit state action ∧ DataLands state action)
      (start, greeting) (conn, received)) : Balanced conn received := by
  have booked : Booked (conn, received) := by
    apply Transition.invariant_of_reaches _ _ reached
    · exact ⟨started_sound started, started_balanced started⟩
    · intro state action after before permitted taken
      exact booked_observe before permitted.1 permitted.2 taken
  exact booked.2

/-- A body of two bytes; the window is refilled at once. -/
theorem connection_credit_agrees_body :
    ∃ conn received, Transition.Reaches observe
        (fun state action => WithinCredit state action ∧ DataLands state action)
        (greeted, [settingsFrame []]) (conn, received) ∧
      dataLength received = 2 ∧ Balanced conn received := by
  let data := inFrame .data 0x1 1 2 (.data { data := [0x68, 0x69] })
  have reached : ∃ state, Transition.Reaches observe
      (fun state action => WithinCredit state action ∧ DataLands state action)
      (greeted, [settingsFrame []]) state ∧ dataLength state.2 = 2 :=
    Transition.exists_of_run [.recv data] (by decide +kernel)
  obtain ⟨⟨conn, received⟩, reached, length⟩ := reached
  exact ⟨conn, received, reached, length, connection_credit_agrees greeted_started reached⟩

/-- DATA that arrives behind the response is not counted. -/
theorem late_data_not_counted :
    ∃ conn received, Transition.Reaches observe WithinCredit (greeted, [settingsFrame []])
        (conn, received) ∧ conn.recvWindow ≠ connectionCredit conn received := by
  let data := inFrame .data 0x1 1 2 (.data { data := [0x68, 0x69] })
  have reached : ∃ state, Transition.Reaches observe WithinCredit (greeted, [settingsFrame []])
      state ∧ state.1.recvWindow ≠ connectionCredit state.1 state.2 :=
    Transition.exists_of_run [.recv data, .task 0 {}, .recv data] (by decide +kernel)
  obtain ⟨⟨conn, received⟩, reached, differs⟩ := reached
  exact ⟨conn, received, reached, differs⟩

end Http2SocketStream
end ChatServer.Http2
