import ChatServer.Http2.ReceiveCredit

/-!
# What the peer may still send on a stream

The credit of a stream starts with the INITIAL_WINDOW_SIZE that this side has advertised, moves
with every later value, grows with the increments sent for the stream and shrinks with the DATA
received on it. The constructor of a stream starts its window from the value that this side has
received instead, and a shift by new settings may wrap.
-/

namespace ChatServer.Http2

set_option autoImplicit false

def Frame.settingsItems (frame : Frame) : List SettingsItem :=
  match frame.data with
  | some (.settings sts) => sts.items
  | _ => []

namespace Http2SocketStream

def advertised (frames : List Frame) : Int :=
  latestWindow defaultInitialWindowSize.toNat (frames.flatMap Frame.settingsItems)

def dataOn (id : UInt32) (frames : List Frame) : Nat :=
  dataLength (frames.filter fun frame => frame.header.streamId = id)

theorem latest_window_append (window : Int) (first second : List SettingsItem) :
    latestWindow window (first ++ second) = latestWindow (latestWindow window first) second :=
  List.foldl_append

theorem free_items {frames : List Frame} (free : ∀ frame ∈ frames, frame.counts .peer = false) :
    frames.flatMap Frame.settingsItems = [] := by
  apply List.flatMap_eq_nil_iff.mpr
  intro frame member
  have uncounted := free frame member
  unfold Frame.counts at uncounted
  unfold Frame.settingsItems
  split at uncounted <;> simp_all

theorem advertised_free {frames extra : List Frame}
    (free : ∀ frame ∈ extra, frame.counts .peer = false) :
    advertised (frames ++ extra) = advertised frames := by
  rw [advertised, List.flatMap_append, free_items free, List.append_nil]
  rfl

theorem advertised_settings (frames : List Frame) (items : List SettingsItem) :
    advertised (frames ++ [settingsFrame items]) = latestWindow (advertised frames) items := by
  have own : (settingsFrame items).settingsItems = items := rfl
  rw [advertised, List.flatMap_append, List.flatMap_singleton, own, latest_window_append]
  rfl

@[simp] theorem data_on_append (id : UInt32) (first second : List Frame) :
    dataOn id (first ++ second) = dataOn id first + dataOn id second := by
  simp [dataOn]

theorem data_on_singleton (id : UInt32) (frame : Frame) :
    dataOn id [frame] = if frame.header.streamId = id then frame.dataLength else 0 := by
  unfold dataOn
  split_ifs with same <;> simp [same]

theorem data_on_le (id : UInt32) (frame : Frame) : dataOn id [frame] ≤ frame.dataLength := by
  rw [data_on_singleton]
  split_ifs <;> omega

def streamCredit (conn : Http2SocketStream) (received : List Frame) (id : UInt32) : Int :=
  advertised conn.emitted + increments id conn.emitted - dataOn id received

def nextId (conn : Http2SocketStream) : Nat := (conn.sn + 1).toNat

structure Numbered (conn : Http2SocketStream) : Prop where
  top : conn.nextId ≤ 2 ^ 31
  server : conn.isClient = false → conn.sn.toNat < 2 ^ 31
  below : ∀ id ref, conn.streams id = some ref → id ≠ 0 ∧ id.toNat < conn.nextId

/-- The receive windows of the streams in the map are the credits of the peer. -/
structure Credited (conn : Http2SocketStream) (received : List Frame) : Prop where
  numbered : Numbered conn
  fresh : ∀ id : UInt32, id ≠ 0 → conn.nextId ≤ id.toNat →
    increments id conn.emitted = 0 ∧ dataOn id received = 0
  announced : advertised conn.emitted = conn.peer.window
  agrees : ∀ id ref, conn.streams id = some ref →
    (conn.heap ref).recvWindow = streamCredit conn received id
  lower : ∀ id ref, conn.streams id = some ref →
    conn.peer.window - maxWindow ≤ (conn.heap ref).recvWindow

theorem numbered_same {conn after : Http2SocketStream} (numbered : Numbered conn)
    (isClient : after.isClient = conn.isClient) (sn : after.sn = conn.sn)
    (streams : ∀ id ref, after.streams id = some ref → conn.streams id = some ref) :
    Numbered after := by
  have next : after.nextId = conn.nextId := by rw [nextId, sn, nextId]
  constructor
  · rw [next]
    exact numbered.top
  · rw [isClient, sn]
    exact numbered.server
  · intro id ref found
    rw [next]
    exact numbered.below id ref (streams id ref found)

theorem steady_increments {conn after : Http2SocketStream} (steady : Steady .peer conn after)
    (id : UInt32) : increments id after.emitted = increments id conn.emitted := by
  obtain ⟨extra, emitted, free⟩ := steady.emitted
  rw [emitted, increments_append, free_increments free, Nat.add_zero]

theorem steady_advertised {conn after : Http2SocketStream} (steady : Steady .peer conn after) :
    advertised after.emitted = advertised conn.emitted := by
  obtain ⟨extra, emitted, free⟩ := steady.emitted
  rw [emitted, advertised_free free]

/-- Nothing was charged: a frame that uses up credit is for a stream that was used and is not in
the map any more. -/
theorem credited_steady {conn after : Http2SocketStream} {received more : List Frame}
    (credited : Credited conn received) (steady : Steady .peer conn after)
    (gone : ∀ id : UInt32, dataOn id more ≠ 0 → conn.streams id = none ∨ id = 0)
    (used : ∀ id : UInt32, id ≠ 0 → conn.nextId ≤ id.toNat → dataOn id more = 0) :
    Credited after (received ++ more) := by
  have peer : after.peer = conn.peer := steady.settings
  have next : after.nextId = conn.nextId := by rw [nextId, steady.sn, nextId]
  have same := steady_advertised steady
  have numbered := numbered_same credited.numbered steady.isClient steady.sn steady.streams
  refine ⟨numbered, ?_, ?_, ?_, ?_⟩
  · intro id nonzero unused
    rw [next] at unused
    have before := credited.fresh id nonzero unused
    rw [steady_increments steady, data_on_append, used id nonzero unused, before.1, before.2]
    simp
  · rw [same, peer]
    exact credited.announced
  · intro id ref found
    have inMap := steady.streams id ref found
    have window : (after.heap ref).recvWindow = (conn.heap ref).recvWindow := (steady.heap ref).2
    have nothing : dataOn id more = 0 := by
      by_contra charged
      cases gone id charged with
      | inl missing => simp [missing] at inMap
      | inr zero => exact (credited.numbered.below id ref inMap).1 zero
    rw [window, credited.agrees id ref inMap, streamCredit, streamCredit, steady_increments steady,
      same, data_on_append, nothing, Nat.add_zero]
  · intro id ref found
    have inMap := steady.streams id ref found
    have window : (after.heap ref).recvWindow = (conn.heap ref).recvWindow := (steady.heap ref).2
    rw [window, peer]
    exact credited.lower id ref inMap

theorem credited_unheard {conn after : Http2SocketStream} {received : List Frame}
    (credited : Credited conn received) (steady : Steady .peer conn after) :
    Credited after received := by
  rw [← List.append_nil received]
  apply credited_steady credited steady
  · intro id charged
    exact absurd rfl charged
  · intro id _ _
    rfl

theorem numbered_opened {conn : Http2SocketStream} (numbered : Numbered conn) {id : UInt32}
    (nonzero : id ≠ 0) (small : id.toNat < 2 ^ 31) (above : conn.nextId ≤ id.toNat) :
    Numbered ({ conn with sn := id }.addStream id) ∧
      ({ conn with sn := id }.addStream id).nextId = id.toNat + 1 := by
  have next : ({ conn with sn := id }.addStream id).nextId = id.toNat + 1 := by
    change (id + 1).toNat = id.toNat + 1
    rw [UInt32.toNat_add]
    apply Nat.mod_eq_of_lt
    change id.toNat + 1 < 2 ^ 32
    omega
  refine ⟨⟨?_, ?_, ?_⟩, next⟩
  · rw [next]
    omega
  · exact fun _ => small
  · intro other ref found
    rw [next]
    cases add_stream_found found with
    | inl own =>
        rw [own.1]
        exact ⟨nonzero, Nat.lt_succ_self _⟩
    | inr earlier =>
        have before := numbered.below other ref earlier
        exact ⟨before.1, by omega⟩

theorem credited_opened {conn : Http2SocketStream} {received : List Frame} {id : UInt32}
    (credited : Credited conn received) (sound : Sound conn) (nonzero : id ≠ 0)
    (small : id.toNat < 2 ^ 31) (above : conn.nextId ≤ id.toNat)
    (alike : conn.owner.window = conn.peer.window) :
    Credited ({ conn with sn := id }.addStream id) received := by
  obtain ⟨numbered, next⟩ := numbered_opened credited.numbered nonzero small above
  have opened : (({ conn with sn := id }.addStream id).heap conn.allocated).recvWindow =
      conn.peer.window := by
    simp only [addStream, Function.update_self]
    exact (int32_window conn.owner).trans alike
  refine ⟨numbered, ?_, credited.announced, ?_, ?_⟩
  · intro other nonzero unused
    rw [next] at unused
    exact credited.fresh other nonzero (by omega)
  · intro other ref found
    change _ = streamCredit conn received other
    cases add_stream_found found with
    | inl own =>
        have unused := credited.fresh id nonzero above
        rw [own.1, own.2, opened, streamCredit, unused.1, unused.2, credited.announced]
        simp
    | inr earlier =>
        rw [add_stream_heap conn id id (sound.named other ref earlier).1]
        exact credited.agrees other ref earlier
  · intro other ref found
    change conn.peer.window - maxWindow ≤ _
    cases add_stream_found found with
    | inl own =>
        rw [own.2, opened]
        unfold maxWindow
        omega
    | inr earlier =>
        rw [add_stream_heap conn id id (sound.named other ref earlier).1]
        exact credited.lower other ref earlier

theorem send_settings_increments (conn : Http2SocketStream) (items : List SettingsItem)
    (id : UInt32) : increments id (conn.sendSettings items).emitted = increments id conn.emitted := by
  rw [send_settings_eq]
  by_cases connected : conn.connected = true
  · rw [if_pos connected, enqueue_eq, if_pos connected]
    obtain ⟨errors, emitted, goAway⟩ := (update_settings_settled .peer items
      { conn with emitted := conn.emitted ++ [settingsFrame items] }).emitted
    rw [emitted, increments_append, increments_append,
      free_increments fun frame member => go_away_free (goAway frame member)]
    rfl
  · rw [if_neg connected]

/-- The window of a stream in the map moves with the advertised one as long as it does not wrap. -/
theorem shifted_window {conn : Http2SocketStream} (items : List SettingsItem) {ref : Nat}
    (mapped : conn.Mapped ref) (lower : conn.peer.window - maxWindow ≤ (conn.heap ref).recvWindow)
    (room : (conn.heap ref).recvWindow + (latestWindow conn.peer.window items - conn.peer.window) ≤
      maxWindow) :
    ((conn.updateSettings .peer items).heap ref).recvWindow = (conn.heap ref).recvWindow +
      (latestWindow conn.peer.window items - conn.peer.window) := by
  have window : (conn.updateSettings .peer items).peer.window =
      latestWindow conn.peer.window items := update_settings_window .peer items conn
  have floor := (window_bounds (conn.updateSettings .peer items).peer).1
  rw [window] at floor
  have moved := (update_settings_settled .peer items conn).heap ref
  rw [if_pos mapped] at moved
  rw [moved]
  change int32 ((conn.heap ref).recvWindow +
    ((conn.updateSettings .peer items).peer.window - conn.peer.window)) = _
  rw [window]
  unfold maxWindow at *
  apply int32_eq <;> omega

/-- New settings shift the windows without wrapping when no window is lifted above the top. -/
theorem credited_settings {conn : Http2SocketStream} {received : List Frame}
    {items : List SettingsItem} (credited : Credited conn received) (sound : Sound conn)
    (room : conn.connected = true → ∀ ref < conn.allocated, conn.Mapped ref →
      (conn.heap ref).recvWindow + (latestWindow conn.peer.window items - conn.peer.window) ≤
        maxWindow) :
    Credited (conn.sendSettings items) received := by
  rw [send_settings_eq]
  by_cases connected : conn.connected = true
  · rw [if_pos connected, enqueue_eq, if_pos connected]
    let before := { conn with emitted := conn.emitted ++ [settingsFrame items] }
    have settled := update_settings_settled .peer items before
    have window : (before.updateSettings .peer items).peer.window =
        latestWindow conn.peer.window items := update_settings_window .peer items before
    obtain ⟨errors, emitted, goAway⟩ := settled.emitted
    have free : ∀ frame ∈ errors, frame.counts .peer = false :=
      fun frame member => go_away_free (goAway frame member)
    have added (id : UInt32) : increments id (before.updateSettings .peer items).emitted =
        increments id conn.emitted := by
      rw [emitted, increments_append, increments_append, free_increments free]
      rfl
    have announced : advertised (before.updateSettings .peer items).emitted =
        latestWindow conn.peer.window items := by
      rw [emitted, advertised_free free, advertised_settings, credited.announced]
    have shifted {id : UInt32} {ref : Nat} (found : conn.streams id = some ref) :
        ((before.updateSettings .peer items).heap ref).recvWindow = (conn.heap ref).recvWindow +
          (latestWindow conn.peer.window items - conn.peer.window) := by
      have named := sound.named id ref found
      have mapped : conn.Mapped ref := by rw [Mapped, named.2, found]
      exact shifted_window items (show before.Mapped ref from mapped) (credited.lower id ref found)
        (room connected ref named.1 mapped)
    have kept (id : UInt32) (ref : Nat)
        (found : (before.updateSettings .peer items).streams id = some ref) :
        conn.streams id = some ref := by rwa [settled.streams] at found
    have numbered := numbered_same credited.numbered settled.isClient settled.sn kept
    refine ⟨numbered, ?_, announced.trans window.symm, ?_, ?_⟩
    · intro id nonzero unused
      rw [nextId, settled.sn] at unused
      rw [added]
      exact credited.fresh id nonzero unused
    · intro id ref found
      have inMap := kept id ref found
      rw [shifted inMap, streamCredit, added, announced, credited.agrees id ref inMap, streamCredit,
        credited.announced]
      omega
    · intro id ref found
      have inMap := kept id ref found
      have lower := credited.lower id ref inMap
      rw [shifted inMap, window]
      omega
  · rw [if_neg connected]
    exact credited

theorem advertised_updates {streamId : UInt32} {frames grants : List Frame}
    (made : ∀ grant ∈ grants, ∃ n, grant = windowUpdateFrame streamId n) :
    advertised (frames ++ grants) = advertised frames := by
  have nothing : grants.flatMap Frame.settingsItems = [] := by
    apply List.flatMap_eq_nil_iff.mpr
    intro grant member
    obtain ⟨n, own⟩ := made grant member
    rw [own]
    rfl
  rw [advertised, List.flatMap_append, nothing, List.append_nil]
  rfl

theorem drawn_increments {streamId id : UInt32} {frames grants more : List Frame}
    (forConnection : ∀ grant ∈ grants, ∃ n, grant = windowUpdateFrame 0 n)
    (forStream : ∀ grant ∈ more, ∃ n, grant = windowUpdateFrame streamId n)
    (small : streamId.toNat < 2 ^ 31) (nonzero : id ≠ 0) (different : streamId ≠ id) :
    increments id (frames ++ grants ++ more) = increments id frames := by
  rw [increments_append, increments_append,
    window_updates_increments forConnection (by decide) nonzero.symm,
    window_updates_increments forStream small different]
  rfl

/-- The stream of a DATA frame has paid for it, and other streams are as they were. -/
theorem credited_drawn {conn : Http2SocketStream} {received grants more : List Frame} {frame : Frame}
    {ref : Nat} {window : Int} {stream : ManagedStream} (credited : Credited conn received)
    (sound : Sound conn) (found : conn.streams frame.header.streamId = some ref)
    (forConnection : ∀ grant ∈ grants, ∃ n, grant = windowUpdateFrame 0 n)
    (forStream : ∀ grant ∈ more, ∃ n, grant = windowUpdateFrame frame.header.streamId n)
    (left : stream.recvWindow = (conn.heap ref).recvWindow - frame.dataLength +
      increments frame.header.streamId more)
    (inside : frame.dataLength ≤ (conn.heap ref).recvWindow) :
    Credited { conn with
      recvWindow := window
      heap := Function.update conn.heap ref stream
      emitted := conn.emitted ++ grants ++ more } (received ++ [frame]) := by
  have numbered := credited.numbered
  obtain ⟨nonzero, used⟩ := numbered.below _ ref found
  have small := stream_id_small frame.header
  have announced : advertised (conn.emitted ++ grants ++ more) = advertised conn.emitted := by
    rw [advertised_updates forStream, advertised_updates forConnection]
  have others {id : UInt32} (some : id ≠ 0) (different : frame.header.streamId ≠ id) :
      increments id (conn.emitted ++ grants ++ more) = increments id conn.emitted ∧
        dataOn id (received ++ [frame]) = dataOn id received := by
    rw [drawn_increments forConnection forStream small some different, data_on_append,
      data_on_singleton, if_neg different]
    exact ⟨rfl, rfl⟩
  refine ⟨⟨numbered.top, numbered.server, numbered.below⟩, ?_, announced.trans credited.announced,
    ?_, ?_⟩
  · intro id some unused
    change conn.nextId ≤ id.toNat at unused
    have different : frame.header.streamId ≠ id := by
      intro same
      rw [same] at used
      exact absurd used (Nat.not_lt.mpr unused)
    have kept := others some different
    rw [kept.2]
    change increments id (conn.emitted ++ grants ++ more) = 0 ∧ _
    rw [kept.1]
    exact credited.fresh id some unused
  · intro id other inMap
    change conn.streams id = some other at inMap
    change (Function.update conn.heap ref stream other).recvWindow =
      advertised (conn.emitted ++ grants ++ more) + increments id (conn.emitted ++ grants ++ more) -
        dataOn id (received ++ [frame])
    have before := credited.agrees id other inMap
    unfold streamCredit at before
    rw [announced]
    by_cases same : frame.header.streamId = id
    · rw [← same, found] at inMap
      rw [← Option.some.inj inMap] at before ⊢
      rw [same] at left
      rw [Function.update_self, left, before, increments_append, increments_append, data_on_append,
        data_on_singleton, if_pos same,
        window_updates_increments forConnection (by decide) (same ▸ nonzero.symm)]
      push_cast
      omega
    · have elsewhere : other ≠ ref := by
        intro equal
        have own := (sound.named id other inMap).2
        rw [equal, (sound.named _ ref found).2] at own
        exact same own
      have kept := others (numbered.below id other inMap).1 same
      rw [Function.update_of_ne elsewhere, kept.1, kept.2, before]
  · intro id other inMap
    change conn.streams id = some other at inMap
    change conn.peer.window - maxWindow ≤ (Function.update conn.heap ref stream other).recvWindow
    by_cases same : other = ref
    · have top := (window_bounds conn.peer).2
      rw [same, Function.update_self, left]
      omega
    · rw [Function.update_of_ne same]
      exact credited.lower id other inMap

theorem credited_accounted {conn after : Http2SocketStream} {received : List Frame} {frame : Frame}
    {ref : Nat} (credited : Credited conn received) (sound : Sound conn)
    (found : conn.streams frame.header.streamId = some ref)
    (promised : frame.dataLength = 0 ∨
      frame.dataLength ≤ streamCredit conn received frame.header.streamId)
    (accounted : Accounted conn ref frame after) : Credited after (received ++ [frame]) := by
  have unchanged (nothing : frame.dataLength = 0) : Credited conn (received ++ [frame]) := by
    have none (id : UInt32) : dataOn id [frame] = 0 :=
      Nat.le_zero.mp (nothing ▸ data_on_le id frame)
    apply credited_steady credited (steady_refl .peer conn)
    · intro id charged
      exact absurd (none id) charged
    · intro id _ _
      exact none id
  cases accounted with
  | free nothing => exact unchanged nothing
  | charged some forConnection forStream _ streamPays =>
      have inside : frame.dataLength ≤ (conn.heap ref).recvWindow := by
        rw [credited.agrees _ ref found]
        omega
      exact credited_drawn credited sound found forConnection forStream (streamPays inside) inside

/-- What the peer holds on a stream. Streams of a client are opened by the client, and before
that the peer holds nothing. -/
def heldCredit (conn : Http2SocketStream) (received : List Frame) (id : UInt32) : Int :=
  if conn.isClient = true ∧ conn.nextId ≤ id.toNat then 0 else streamCredit conn received id

/-- The peer keeps to the credit it holds on each stream. -/
def WithinStreamCredit (state : Http2SocketStream × List Frame) : Action → Prop
  | .recv frame => frame.dataLength = 0 ∨
      frame.dataLength ≤ heldCredit state.1 state.2 frame.header.streamId
  | _ => True

def Opens (conn : Http2SocketStream) (frame : Frame) : Prop :=
  frameType frame.header.type ≠ some .windowUpdate ∧ frame.header.streamId ≠ 0 ∧
    conn.streams frame.header.streamId = none ∧ conn.isClient = false ∧
    conn.sn < frame.header.streamId

/-- Streams are opened while both ends have announced the same window and ids are left, and no
settings lift a window above the top. -/
def Alike (conn : Http2SocketStream) : Action → Prop
  | .openStream _ => conn.owner.window = conn.peer.window ∧ conn.nextId + 1 < 2 ^ 31
  | .recv frame => conn.Opens frame → conn.owner.window = conn.peer.window
  | .sendSettings items => conn.connected = true → ∀ ref < conn.allocated, conn.Mapped ref →
      (conn.heap ref).recvWindow + (latestWindow conn.peer.window items - conn.peer.window) ≤
        maxWindow
  | _ => True

instance (state : Http2SocketStream × List Frame) (action : Action) :
    Decidable (WithinStreamCredit state action) :=
  match action with
  | .recv frame => inferInstanceAs (Decidable (frame.dataLength = 0 ∨ (frame.dataLength : Int) ≤ _))
  | .hangUp | .task _ _ | .openStream _ | .sendRequest _ _ _ _ | .sendData _ _ _ _
  | .sendSettings _ | .onTimeOut _ => inferInstanceAs (Decidable True)

instance (conn : Http2SocketStream) (frame : Frame) : Decidable (conn.Opens frame) :=
  inferInstanceAs (Decidable (_ ∧ _))

instance (conn : Http2SocketStream) (action : Action) : Decidable (conn.Alike action) :=
  match action with
  | .openStream _ => inferInstanceAs (Decidable (_ ∧ _))
  | .recv frame => inferInstanceAs (Decidable (conn.Opens frame → _))
  | .sendSettings items => inferInstanceAs (Decidable (conn.connected = true →
      ∀ ref < conn.allocated, conn.Mapped ref →
        (conn.heap ref).recvWindow + (latestWindow conn.peer.window items - conn.peer.window) ≤
          maxWindow))
  | .hangUp | .task _ _ | .sendRequest _ _ _ _ | .sendData _ _ _ _ | .onTimeOut _ =>
      inferInstanceAs (Decidable True)

theorem next_id_le {conn : Http2SocketStream} {id : UInt32} (above : conn.sn < id) :
    conn.nextId ≤ id.toNat := by
  have larger := UInt32.lt_iff_toNat_lt.mp above
  have wrapped : conn.nextId = (conn.sn.toNat + 1) % 2 ^ 32 := UInt32.toNat_add _ _
  have bound := Nat.mod_le (conn.sn.toNat + 1) (2 ^ 32)
  omega

theorem server_next_id {conn : Http2SocketStream} (numbered : Numbered conn)
    (server : conn.isClient = false) : conn.nextId = conn.sn.toNat + 1 := by
  have small := numbered.server server
  have wrapped : conn.nextId = (conn.sn.toNat + 1) % 2 ^ 32 := UInt32.toNat_add _ _
  rw [wrapped]
  apply Nat.mod_eq_of_lt
  omega

theorem credited_passed {conn after : Http2SocketStream} {received : List Frame} {frame : Frame}
    (credited : Credited conn received) (steady : Steady .peer conn after)
    (missed : frameType frame.header.type = some .windowUpdate ∨ ¬conn.Lands frame)
    (promised : frame.dataLength = 0 ∨
      frame.dataLength ≤ heldCredit conn received frame.header.streamId) :
    Credited after (received ++ [frame]) := by
  have charged {id : UInt32} (some : dataOn id [frame] ≠ 0) :
      frame.header.streamId = id ∧ 0 < frame.dataLength ∧ ¬conn.Lands frame := by
    rw [data_on_singleton] at some
    by_cases same : frame.header.streamId = id
    · rw [if_pos same] at some
      refine ⟨same, Nat.pos_of_ne_zero some, ?_⟩
      cases missed with
      | inl windowUpdate => exact absurd (if_neg (by simp [windowUpdate])) some
      | inr missed => exact missed
    · exact absurd (if_neg same) some
  apply credited_steady credited steady
  · intro id some
    obtain ⟨same, _, missed⟩ := charged some
    by_cases zero : id = 0
    · exact .inr zero
    · left
      by_contra known
      rw [← same] at known zero
      exact missed ⟨zero, .inl known⟩
  · intro id nonzero unused
    by_contra some
    obtain ⟨same, positive, missed⟩ := charged some
    cases client : conn.isClient with
    | true =>
        rw [heldCredit, same, if_pos ⟨client, unused⟩] at promised
        omega
    | false =>
        rw [server_next_id credited.numbered client] at unused
        have above : conn.sn < frame.header.streamId := by
          rw [same]
          exact UInt32.lt_iff_toNat_lt.mpr unused
        rw [← same] at nonzero
        exact missed ⟨nonzero, .inr ⟨client, above⟩⟩

theorem credited_landed {conn found : Http2SocketStream} {received : List Frame} {frame : Frame}
    {ref : Nat} (credited : Credited conn received) (sound : Sound conn)
    (connected : conn.connected = true)
    (typed : frameType frame.header.type ≠ some .windowUpdate)
    (nonzero : frame.header.streamId ≠ 0) (located : Located conn frame (some ref) found)
    (alike : conn.Opens frame → conn.owner.window = conn.peer.window)
    (promised : frame.dataLength = 0 ∨
      frame.dataLength ≤ heldCredit conn received frame.header.streamId) :
    Credited (found.account ref frame) (received ++ [frame]) := by
  cases located with
  | known inMap =>
      have used := (credited.numbered.below _ ref inMap).2
      have held : heldCredit conn received frame.header.streamId =
          streamCredit conn received frame.header.streamId := by
        apply if_neg
        intro idle
        exact absurd used (Nat.not_lt.mpr idle.2)
      rw [held] at promised
      have accounted := account_spec sound connected inMap nonzero
      exact credited_accounted credited sound inMap promised accounted
  | opened unknown server above =>
      have held : heldCredit conn received frame.header.streamId =
          streamCredit conn received frame.header.streamId := by
        apply if_neg
        simp [server]
      rw [held] at promised
      have opened := credited_opened credited sound nonzero (stream_id_small frame.header)
        (next_id_le above) (alike ⟨typed, nonzero, unknown, server, above⟩)
      have openedSound := sound_opened sound frame.header.streamId frame.header.streamId
      have inMap := Function.update_self frame.header.streamId (Option.some conn.allocated)
        conn.streams
      have accounted := account_spec openedSound connected inMap nonzero
      exact credited_accounted opened openedSound inMap promised accounted

theorem credited_receiving {conn after : Http2SocketStream} {received : List Frame} {action : Action}
    (credited : Credited conn received) (sound : Sound conn)
    (promised : WithinStreamCredit (conn, received) action) (alike : conn.Alike action)
    (receiving : Receiving conn action after) : Credited after (received ++ action.received) := by
  cases receiving with
  | steady silent steady =>
      rw [silent, List.append_nil]
      exact credited_unheard credited steady
  | opened _ steady =>
      have id : (conn.sn + 2).toNat = conn.nextId + 1 := by
        have split : conn.sn + 2 = conn.sn + 1 + 1 := by
          rw [UInt32.add_assoc]
          rfl
        rw [split, UInt32.toNat_add]
        apply Nat.mod_eq_of_lt
        have room := alike.2
        change conn.nextId + 1 < 2 ^ 32
        omega
      have room := alike.2
      have nonzero : conn.sn + 2 ≠ 0 := by
        intro zero
        rw [zero] at id
        exact absurd id (by simp)
      change Credited _ (received ++ [])
      rw [List.append_nil]
      apply credited_unheard _ steady
      apply credited_opened credited sound nonzero (by omega) (by omega) alike.1
  | advertised valid =>
      change Credited _ (received ++ [])
      rw [List.append_nil]
      exact credited_settings credited sound alike
  | passed missed steady => exact credited_passed credited steady missed promised
  | landed connected typed nonzero located steady =>
      have charged := credited_landed credited sound connected typed nonzero located alike promised
      exact credited_unheard charged steady

theorem credited_empty {conn : Http2SocketStream} (empty : ∀ id, conn.streams id = none)
    (top : conn.nextId ≤ 2 ^ 31) (server : conn.isClient = false → conn.sn.toNat < 2 ^ 31)
    (fresh : ∀ id : UInt32, id ≠ 0 → increments id conn.emitted = 0)
    (announced : advertised conn.emitted = conn.peer.window) : Credited conn [] := by
  have missing {id : UInt32} {ref : Nat} (found : conn.streams id = some ref) : False := by
    rw [empty] at found
    cases found
  refine ⟨⟨top, server, ?_⟩, ?_, announced, ?_, ?_⟩
  · intro id ref found
    exact (missing found).elim
  · intro id nonzero _
    exact ⟨fresh id nonzero, rfl⟩
  · intro id ref found
    exact (missing found).elim
  · intro id ref found
    exact (missing found).elim

theorem new_server_credited (writes : Nat → Int) : Credited { new false with writes } [] := by
  apply credited_empty
  · exact fun _ => rfl
  · change 1 ≤ 2 ^ 31
    omega
  · intro _
    change 0 < 2 ^ 31
    omega
  · exact fun _ _ => rfl
  · rfl

theorem written_credited {writes : Nat → Int} {written : Http2SocketStream} {rt : Int}
    (positive : 0 < rt)
    (sent : ({ new true with writes }.handleSendSetting clientSettings).sendFrame
      (settingsFrame clientSettings) false = (rt, written)) :
    Credited (written.sendWindowUpdate 0 (refill written.recvWindow)) [] := by
  have settled := update_settings_settled .peer clientSettings { new true with writes }
  have window := update_settings_window .peer clientSettings { new true with writes }
  obtain ⟨later, made⟩ := send_frame_eq sent
  obtain ⟨errors, emitted, goAway⟩ := settled.emitted
  have free : ∀ frame ∈ errors, frame.counts .peer = false :=
    fun frame member => go_away_free (goAway frame member)
  rw [if_pos positive] at made
  have connected : written.connected = true := by
    rw [made]
    exact settled.connected
  have start : written.recvWindow = 65535 := by
    rw [made]
    exact settled.recvWindow
  obtain ⟨refilled, _⟩ := refill_connection connected (by rw [start]; decide) (by rw [start]; decide)
  rw [refilled]
  have sentFrames : written.emitted = errors ++ [settingsFrame clientSettings] := by
    have own : _ = [] ++ errors := emitted
    rw [List.nil_append] at own
    rw [made, ← own]
    rfl
  apply credited_empty
  · intro id
    change written.streams id = none
    rw [made]
    exact congrFun settled.streams id
  · have sn : written.sn = 0xFFFFFFFF := by
      rw [made]
      exact settled.sn
    change (written.sn + 1).toNat ≤ 2 ^ 31
    rw [sn]
    decide
  · intro server
    have client : written.isClient = true := by
      rw [made]
      exact settled.isClient
    change written.isClient = false at server
    rw [client] at server
    cases server
  · intro id nonzero
    change increments id (written.emitted ++ [_]) = 0
    rw [increments_append, sentFrames, increments_append, free_increments free,
      increments_singleton, increments_singleton, window_update_increment (by decide),
      if_neg nonzero.symm]
    rfl
  · change advertised (written.emitted ++ [_]) = written.peer.window
    have peer : written.peer.window = latestWindow 65535 clientSettings := by
      rw [made]
      exact window
    rw [peer, advertised, sentFrames, List.flatMap_append, List.flatMap_append, free_items free]
    rfl

theorem started_credited {conn : Http2SocketStream} {received : List Frame}
    (started : Started conn received) : Credited conn received := by
  cases started with
  | server writes frame shaken =>
      obtain ⟨sts, typed, _, same⟩ := shaken_server shaken
      rw [same]
      have greeting := greeting_steady writes sts.items
      have nothing (id : UInt32) : dataOn id [frame] = 0 := by
        have bound := data_on_le id frame
        rw [Frame.dataLength, if_neg (by simp [typed])] at bound
        omega
      have greeted := credited_steady (new_server_credited writes) greeting
        (fun id charged => absurd (nothing id) charged) (fun id _ _ => nothing id)
      have quiet := quiet_trans (received_settings_quiet { new false with writes } sts.items)
        (enqueue_quiet _ (outFrame .settings flagAck 0 none))
      apply credited_settings greeted (sound_quiet (new_sound false writes) quiet)
      intro _ ref inside
      rw [greeting.allocated] at inside
      exact absurd inside (Nat.not_lt_zero ref)
  | client writes shaken =>
      obtain ⟨rt, written, connected, positive, sent, same⟩ := shaken_client shaken
      rw [same]
      exact written_credited positive sent

theorem accounted_grants {conn after : Http2SocketStream} {frame : Frame} {ref : Nat}
    (accounted : Accounted conn ref frame after) :
    after.streams = conn.streams ∧ ∀ id : UInt32, id ≠ 0 → frame.header.streamId ≠ id →
      increments id after.emitted = increments id conn.emitted := by
  cases accounted with
  | free _ => exact ⟨rfl, fun _ _ _ => rfl⟩
  | charged _ forConnection forStream _ _ =>
      refine ⟨rfl, ?_⟩
      intro id some different
      exact drawn_increments forConnection forStream (stream_id_small frame.header) some different

theorem steady_credit {conn after : Http2SocketStream} (steady : Steady .peer conn after)
    (received : List Frame) (id : UInt32) :
    streamCredit after received id = streamCredit conn received id := by
  rw [streamCredit, streamCredit, steady_increments steady, steady_advertised steady]

theorem agreed_in_range {conn : Http2SocketStream} {received : List Frame} {id : UInt32} {ref : Nat}
    (credited : Credited conn received) (found : conn.streams id = some ref) :
    streamCredit conn received id ≤ maxWindow := by
  have bound := (int32_bounds (conn.heap ref).recvWindow).2
  rw [(conn.heap ref).recvFits, credited.agrees id ref found] at bound
  unfold maxWindow
  omega

/-- For every stream, its receive window is what the peer may still send on it. -/
def StreamsAgree (conn : Http2SocketStream) (received : List Frame) : Prop :=
  ∀ id ref, conn.streams id = some ref →
    (conn.heap ref).recvWindow = streamCredit conn received id ∧
      streamCredit conn received id ≤ maxWindow

/-- The increments of a step leave the windows of the peer in range. -/
def GrantsInRange (state after : Http2SocketStream × List Frame) : Prop :=
  ∀ id : UInt32, id ≠ 0 → increments id state.1.emitted < increments id after.1.emitted →
    streamCredit after.1 after.2 id ≤ maxWindow

theorem receiving_in_range {conn after : Http2SocketStream} {received : List Frame} {action : Action}
    (credited : Credited conn received) (sound : Sound conn)
    (promised : WithinStreamCredit (conn, received) action) (alike : conn.Alike action)
    (receiving : Receiving conn action after) :
    GrantsInRange (conn, received) (after, received ++ action.received) := by
  intro id some raised
  change increments id conn.emitted < increments id after.emitted at raised
  have same (unchanged : increments id after.emitted = increments id conn.emitted) : False := by
    rw [unchanged] at raised
    exact absurd raised (Nat.lt_irrefl _)
  cases receiving with
  | steady _ steady => exact (same (steady_increments steady id)).elim
  | opened _ steady => exact (same (steady_increments steady id)).elim
  | advertised _ => exact (same (send_settings_increments conn _ id)).elim
  | passed _ steady => exact (same (steady_increments steady id)).elim
  | @landed frame ref found _ connected typed nonzero located steady =>
      change streamCredit after (received ++ [frame]) id ≤ maxWindow
      rw [steady_credit steady]
      have charged := credited_landed credited sound connected typed nonzero located alike promised
      obtain ⟨foundSound, inMap⟩ := sound_located sound located
      have untouched : found.emitted = conn.emitted ∧ found.connected = conn.connected := by
        cases located <;> exact ⟨rfl, rfl⟩
      obtain ⟨streams, others⟩ := accounted_grants
        (account_spec foundSound (untouched.2.trans connected) inMap nonzero)
      by_cases own : frame.header.streamId = id
      · rw [own, ← streams] at inMap
        exact agreed_in_range charged inMap
      · rw [steady_increments steady, others id some own, untouched.1] at raised
        exact absurd raised (Nat.lt_irrefl _)

def StreamsBooked (state : Http2SocketStream × List Frame) : Prop :=
  Sound state.1 ∧ Credited state.1 state.2

theorem streams_booked_observe {state after : Http2SocketStream × List Frame} {action : Action}
    (booked : StreamsBooked state) (promised : WithinStreamCredit state action)
    (alike : state.1.Alike action) (taken : observe state action = some after) :
    StreamsBooked after ∧ GrantsInRange state after := by
  obtain ⟨stepped, log⟩ := observe_inv taken
  have receiving := step_receiving booked.1.sized stepped
  have credited := credited_receiving booked.2 booked.1 promised alike receiving
  have inRange := receiving_in_range booked.2 booked.1 promised alike receiving
  rw [← log] at credited inRange
  exact ⟨⟨sound_step booked.1 stepped, credited⟩, inRange⟩

/-- In every run in which the peer keeps to its credits, streams are opened under equal windows
and no settings lift a window above the top, the receive window of every stream is the credit of
the peer, and no increment brings a credit above the top. -/
theorem stream_credit_agrees {start conn : Http2SocketStream} {greeting received : List Frame}
    (started : Started start greeting)
    (reached : Transition.Reaches observe
      (fun state action => WithinStreamCredit state action ∧ state.1.Alike action)
      (start, greeting) (conn, received)) :
    StreamsAgree conn received ∧ ∀ action after, WithinStreamCredit (conn, received) action →
      conn.Alike action → observe (conn, received) action = some after →
      GrantsInRange (conn, received) after := by
  have booked : StreamsBooked (conn, received) := by
    apply Transition.invariant_of_reaches _ _ reached
    · exact ⟨started_sound started, started_credited started⟩
    · intro state action after before permitted taken
      exact (streams_booked_observe before permitted.1 permitted.2 taken).1
  constructor
  · intro id ref found
    exact ⟨booked.2.agrees id ref found, agreed_in_range booked.2 found⟩
  · intro action after promised alike taken
    exact (streams_booked_observe booked promised alike taken).2

/-- Both ends have left the window at its default; a lower value is advertised while a body is
being received. -/
theorem stream_credit_agrees_default :
    ∃ conn received, Transition.Reaches observe
        (fun state action => WithinStreamCredit state action ∧ state.1.Alike action)
        (greeted, [settingsFrame []]) (conn, received) ∧
      conn.streams 1 = some 0 ∧ dataLength received = 2 ∧ StreamsAgree conn received := by
  let opening := inFrame .data 0x0 1 1 (.data { data := [0x68] })
  let data := inFrame .data 0x0 1 1 (.data { data := [0x69] })
  have reached : ∃ state : Http2SocketStream × List Frame, Transition.Reaches observe
      (fun state action => WithinStreamCredit state action ∧ state.1.Alike action)
      (greeted, [settingsFrame []]) state ∧ state.1.streams 1 = some 0 ∧
        dataLength state.2 = 2 :=
    Transition.exists_of_run [.recv opening, .sendSettings [⟨0x4, 100⟩], .recv data]
      (by decide +kernel)
  obtain ⟨⟨conn, received⟩, reached, found, length⟩ := reached
  exact ⟨conn, received, reached, found, length,
    (stream_credit_agrees greeted_started reached).1⟩

/-- A client advertises a window of 4194304 bytes and gives its streams one of 65535. The first
byte of a response makes it grant more than a window may hold. -/
theorem client_grants_too_much :
    ∃ conn received, Transition.Reaches observe WithinStreamCredit (dialled, []) (conn, received) ∧
      conn.streams 1 = some 0 ∧
      (conn.heap 0).recvWindow ≠ streamCredit conn received 1 ∧
      maxWindow < streamCredit conn received 1 := by
  let data := inFrame .data 0x0 1 1 (.data { data := [0x68] })
  have reached : ∃ state : Http2SocketStream × List Frame, Transition.Reaches observe
      WithinStreamCredit (dialled, []) state ∧ state.1.streams 1 = some 0 ∧
        (state.1.heap 0).recvWindow ≠ streamCredit state.1 state.2 1 ∧
        maxWindow < streamCredit state.1 state.2 1 :=
    Transition.exists_of_run [.openStream false, .recv data] (by decide +kernel)
  obtain ⟨⟨conn, received⟩, reached, found, differs, above⟩ := reached
  exact ⟨conn, received, reached, found, differs, above⟩

end Http2SocketStream
end ChatServer.Http2
