import ChatServer.Http2.Settings
import ChatServer.Http2.TableMirror
import ChatServer.Lib.Transition

/-!
# Table sizes on both ends of a connection

Two ends of a connection, joined by a channel in each direction. SETTINGS change the limit of the
receiving table when they are sent and of the sending table when they are received; the header
blocks that are on their way in between were packed under another limit. Blocks stand in the
channels as fields; `pack_bytes` and `parse_bytes` say which bytes `pack` and `parse(ba, length)` write
and read for them.
-/

namespace ChatServer.Http2

set_option autoImplicit false

open DynamicTable Transition

inductive End where
  | client
  | server
  deriving DecidableEq, Repr

def End.other : End → End
  | .client => .server
  | .server => .client

@[simp] theorem End.other_other (side : End) : side.other.other = side := by cases side <;> rfl

theorem End.other_ne (side : End) : side.other ≠ side := by cases side <;> decide

theorem End.forall_of {holds : End → Prop} (side : End) (here : holds side)
    (there : holds side.other) : ∀ sender, holds sender := by
  intro sender
  cases side <;> cases sender <;> assumption

/-- A header block. What it was packed from is not sent. -/
structure Block where
  fields : List HeaderField
  headers : List (Str × Str)
  table : DynamicTable

/-- A frame in the queue of the writing fiber. -/
inductive Unsent where
  | settings (items : List SettingsItem)
  | headers (kvs : List (Str × Str))

inductive Transit where
  | settings (items : List SettingsItem)
  | block (block : Block)

structure Pair where
  conn : End → Http2SocketStream
  queue : End → List Unsent
  /-- The SETTINGS that are in the queue and that `handleSendSetting` has not been called with. -/
  sending : End → List (List SettingsItem)
  /-- The frames that the end has written and the other one not received. -/
  channel : End → List Transit
  /-- The header lists that the end has packed. -/
  packed : End → List (List (Str × Str))
  /-- The header lists that the end has parsed. -/
  parsed : End → List (List (Str × Str))

inductive PairAction where
  /-- `sendSettings`: the frame is in the queue. -/
  | sendSettings (side : End) (items : List SettingsItem)
  /-- What `sendSettings` does behind that. -/
  | handleSendSetting (side : End) (items : List SettingsItem)
  /-- `sendHeaders`, `sendRequest` or `sendResponse`. -/
  | sendHeaders (side : End) (kvs : List (Str × Str))
  /-- The writing fiber takes a frame; headers are packed here. -/
  | doWrite (side : End)
  | doRecv (side : End)

namespace Pair

def initial : Pair where
  conn := fun side => .new (side = .client)
  queue := fun _ => []
  sending := fun _ => []
  channel := fun _ => []
  packed := fun _ => []
  parsed := fun _ => []

def setConn (s : Pair) (side : End) (conn : Http2SocketStream) : Pair :=
  { s with conn := Function.update s.conn side conn }

def enqueue (s : Pair) (side : End) (frame : Unsent) : Pair :=
  { s with queue := Function.update s.queue side (s.queue side ++ [frame]) }

def transmit (s : Pair) (side : End) (frame : Transit) (rest : List Unsent) : Pair :=
  { s with
    queue := Function.update s.queue side rest
    channel := Function.update s.channel side (s.channel side ++ [frame]) }

/-- The headers are packed with the table as it is now. -/
def pack (s : Pair) (side : End) (kvs : List (Str × Str)) (rest : List Unsent) : Option Pair :=
  match chooseAll (s.conn side).sendTable kvs with
  | .error _ => none
  | .ok (fields, table) =>
      let s := { s with packed := Function.update s.packed side (s.packed side ++ [kvs]) }
      some ((s.transmit side (.block ⟨fields, kvs, (s.conn side).sendTable⟩) rest).setConn side
        { s.conn side with sendTable := table })

def parse (s : Pair) (side : End) (block : Block) : Pair :=
  let resolved := resolveAll (s.conn side).recvTable (block.fields.map received)
  { s with parsed := Function.update s.parsed side (s.parsed side ++ [resolved.1]) }.setConn side
    { s.conn side with recvTable := resolved.2 }

def step (s : Pair) : PairAction → Option Pair
  | .sendSettings side items =>
      some { s.enqueue side (.settings items) with
        sending := Function.update s.sending side (s.sending side ++ [items]) }
  | .handleSendSetting side items =>
      if items ∈ s.sending side then
        some { s.setConn side ((s.conn side).handleSendSetting items) with
          sending := Function.update s.sending side ((s.sending side).erase items) }
      else none
  | .sendHeaders side kvs => some (s.enqueue side (.headers kvs))
  | .doWrite side =>
      match s.queue side with
      | [] => none
      | .settings items :: rest => some (s.transmit side (.settings items) rest)
      | .headers kvs :: rest => s.pack side kvs rest
  | .doRecv side =>
      match s.channel side.other with
      | [] => none
      | frame :: rest =>
          let s := { s with channel := Function.update s.channel side.other rest }
          match frame with
          | .settings items =>
              some (s.setConn side ((s.conn side).updateSettings .owner items).sendSettingsAck)
          | .block block => some (s.parse side block)

end Pair

variable {s after : Pair} {side : End}

/-- `pack` writes the bytes of the block that it sends, and leaves its table behind. -/
theorem pack_bytes {kvs : List (Str × Str)} {rest : List Unsent} {hp : HPack}
    (fresh : Nat → Nat → UInt8) (packed : s.pack side kvs rest = some after)
    (own : hp.table = (s.conn side).sendTable) :
    ∃ fields, after.channel side =
        s.channel side ++ [.block ⟨fields, kvs, (s.conn side).sendTable⟩] ∧
      ((∀ h ∈ fields, Sendable h) → (blockBytes fields).length < 2 ^ 31 →
        packString fresh hp kvs = .ok (((blockBytes fields).length : Int), blockBytes fields,
          ⟨hp.headers ++ fields, (after.conn side).sendTable⟩)) := by
  unfold Pair.pack at packed
  rw [← own] at packed ⊢
  cases chosen : chooseAll hp.table kvs with
  | error fault =>
      rw [chosen] at packed
      cases packed
  | ok result =>
      rw [chosen] at packed
      rw [← Option.some.inj packed]
      apply Exists.intro result.1
      constructor
      · simp [Pair.setConn, Pair.transmit, own]
      · intro sendable small
        have written := pack_string_spec fresh hp chosen sendable small
        simpa [Pair.setConn] using written

/-- `parse` makes of those bytes what the block says, in whatever buffer they stand. -/
theorem parse_bytes {block : Block} {hp : HPack} (sendable : ∀ h ∈ block.fields, Sendable h)
    (small : (blockBytes block.fields).length < 2 ^ 31)
    (own : hp.table = (s.conn side).recvTable) :
    ∃ got, (s.parse side block).parsed side =
        s.parsed side ++ [got.map fun h => (h.name, h.value)] ∧
      ParsesTo hp (blockBytes block.fields)
        ⟨hp.headers ++ got, ((s.parse side block).conn side).recvTable⟩ := by
  rcases parse_spec hp sendable small with ⟨got, names, parsed⟩
  rw [own] at parsed names
  refine ⟨got, ?_, ?_⟩
  · simp [Pair.parse, Pair.setConn, names]
  · intro ba rest reachable front
    simpa [Pair.parse, Pair.setConn] using parsed ba rest (ByteArray.reachable_inv reachable) front

/-- The entries are the same; the limits may differ. -/
structure SameEntries (table after : DynamicTable) : Prop where
  datas : after.datas = table.datas
  dataSize : after.dataSize = table.dataSize

theorem same_entries_refl (table : DynamicTable) : SameEntries table table := ⟨rfl, rfl⟩

theorem same_entries_trans {table middle after : DynamicTable} (first : SameEntries table middle)
    (second : SameEntries middle after) : SameEntries table after :=
  ⟨second.datas.trans first.datas, second.dataSize.trans first.dataSize⟩

structure Relimited (conn after : Http2SocketStream) : Prop where
  send : SameEntries conn.sendTable after.sendTable
  recv : SameEntries conn.recvTable after.recvTable

theorem relimited_of_tables {conn after : Http2SocketStream}
    (send : after.sendTable = conn.sendTable) (recv : after.recvTable = conn.recvTable) :
    Relimited conn after := by
  constructor
  · rw [send]
    exact same_entries_refl _
  · rw [recv]
    exact same_entries_refl _

theorem store_relimited (side : Side) (conn : Http2SocketStream)
    (change : Http2Settings → Http2Settings) : Relimited conn (conn.store side change) := by
  cases side <;> exact relimited_of_tables rfl rfl

theorem set_max_data_size_relimited (side : Side) (conn : Http2SocketStream) (v : Int) :
    Relimited conn (conn.setMaxDataSize side v) := by
  cases side with
  | owner => exact ⟨⟨rfl, rfl⟩, same_entries_refl _⟩
  | peer => exact ⟨same_entries_refl _, ⟨rfl, rfl⟩⟩

theorem enqueue_relimited (conn : Http2SocketStream) (frame : Frame) :
    Relimited conn (conn.enqueue frame) := by
  rw [Http2SocketStream.enqueue_eq]
  exact relimited_of_tables rfl rfl

theorem relimited_trans {conn middle after : Http2SocketStream} (first : Relimited conn middle)
    (second : Relimited middle after) : Relimited conn after :=
  ⟨same_entries_trans first.send second.send, same_entries_trans first.recv second.recv⟩

theorem update_setting_relimited (side : Side) (conn : Http2SocketStream) (i : SettingsItem) :
    Relimited conn (Http2SocketStream.updateSetting side conn i) := by
  unfold Http2SocketStream.updateSetting
  split
  · exact relimited_trans (store_relimited side conn _) (set_max_data_size_relimited side _ _)
  · apply relimited_trans _ (store_relimited side _ _)
    split_ifs
    · exact enqueue_relimited conn _
    · exact relimited_of_tables rfl rfl
  · exact store_relimited side conn _
  · split_ifs
    · cases side <;> exact relimited_of_tables rfl rfl
    · exact enqueue_relimited conn _
  · dsimp only
    split_ifs
    · exact relimited_trans (store_relimited side conn _) (enqueue_relimited _ _)
    · exact store_relimited side conn _
  · exact store_relimited side conn _
  · exact relimited_of_tables rfl rfl

theorem update_settings_relimited (side : Side) (items : List SettingsItem) :
    ∀ conn : Http2SocketStream, Relimited conn (conn.updateSettings side items) := by
  induction items with
  | nil => exact fun conn => relimited_of_tables rfl rfl
  | cons item rest induction =>
      intro conn
      exact relimited_trans (update_setting_relimited side conn item) (induction _)

def blocks (channel : List Transit) : List Block :=
  channel.filterMap fun
    | .block block => some block
    | .settings _ => none

/-- Each block was packed from the entries that the one before it has left. -/
def Chain : DynamicTable → List Block → DynamicTable → Prop
  | start, [], last => SameEntries start last
  | start, block :: rest, last => SameEntries start block.table ∧
      ∃ next, chooseAll block.table block.headers = .ok (block.fields, next) ∧ Chain next rest last

theorem chain_relimited {last after : DynamicTable} (same : SameEntries last after)
    (flight : List Block) :
    ∀ {start : DynamicTable}, Chain start flight last → Chain start flight after := by
  induction flight with
  | nil => exact fun chain => same_entries_trans chain same
  | cons block rest induction =>
      intro start chain
      rcases chain with ⟨first, next, chosen, later⟩
      exact ⟨first, next, chosen, induction later⟩

theorem chain_concat {last next : DynamicTable} {headers : List (Str × Str)}
    {fields : List HeaderField} (chosen : chooseAll last headers = .ok (fields, next))
    (flight : List Block) : ∀ {start : DynamicTable}, Chain start flight last →
      Chain start (flight ++ [⟨fields, headers, last⟩]) next := by
  induction flight with
  | nil => exact fun same => ⟨same, next, chosen, same_entries_refl _⟩
  | cons block rest induction =>
      intro start chain
      rcases chain with ⟨first, middle, packed, later⟩
      exact ⟨first, middle, packed, induction later⟩

/-- One direction: the parsing table holds what the next block was packed from, and every list
that was packed has been parsed or is on its way. -/
structure Linked (sendTable recvTable : DynamicTable) (flight : List Block)
    (packed parsed : List (List (Str × Str))) : Prop where
  mirror : ∃ start, Mirrors start recvTable ∧ Chain start flight sendTable
  lists : packed = parsed ++ flight.map Block.headers

theorem new_linked : Linked .new .new [] [] [] := by
  constructor
  · refine ⟨.new, ⟨List.suffix_refl _, rfl, rfl⟩, same_entries_refl _⟩
  · rfl

variable {sendTable recvTable after : DynamicTable} {flight : List Block}
  {packed parsed : List (List (Str × Str))}

theorem linked_relimit_send (linked : Linked sendTable recvTable flight packed parsed)
    (same : SameEntries sendTable after) : Linked after recvTable flight packed parsed := by
  rcases linked.mirror with ⟨start, mirrors, chain⟩
  exact ⟨⟨start, mirrors, chain_relimited same flight chain⟩, linked.lists⟩

theorem linked_relimit_recv (linked : Linked sendTable recvTable flight packed parsed)
    (same : SameEntries recvTable after) : Linked sendTable after flight packed parsed := by
  rcases linked.mirror with ⟨start, mirrors, chain⟩
  refine ⟨⟨start, ⟨?_, mirrors.packerTallied, ?_⟩, chain⟩, linked.lists⟩
  · rw [same.datas]
    exact mirrors.suffix
  · rw [Tallied, same.datas, same.dataSize]
    exact mirrors.parserTallied

theorem linked_pack (linked : Linked sendTable recvTable flight packed parsed)
    {headers : List (Str × Str)} {fields : List HeaderField}
    (chosen : chooseAll sendTable headers = .ok (fields, after)) :
    Linked after recvTable (flight ++ [⟨fields, headers, sendTable⟩]) (packed ++ [headers])
      parsed := by
  rcases linked.mirror with ⟨start, mirrors, chain⟩
  refine ⟨⟨start, mirrors, chain_concat chosen flight chain⟩, ?_⟩
  rw [linked.lists, List.map_append, List.append_assoc]
  rfl

theorem linked_parse {block : Block}
    (linked : Linked sendTable recvTable (block :: flight) packed parsed)
    (roomy : Roomy block.table recvTable block.headers) :
    Linked sendTable (resolveAll recvTable (block.fields.map received)).2 flight packed
      (parsed ++ [(resolveAll recvTable (block.fields.map received)).1]) := by
  rcases linked.mirror with ⟨start, mirrors, same, next, chosen, later⟩
  have behind : Mirrors block.table recvTable := by
    refine ⟨?_, ?_, mirrors.parserTallied⟩
    · rw [same.datas]
      exact mirrors.suffix
    · rw [Tallied, same.datas, same.dataSize]
      exact mirrors.packerTallied
  rcases resolve_all_mirrors behind roomy chosen with ⟨headers, nextMirrors⟩
  refine ⟨⟨next, nextMirrors, later⟩, ?_⟩
  rw [linked.lists, headers, List.map_cons, List.append_assoc]
  rfl

namespace Pair

/-- The table has room for the block that is received next. -/
def FrontFits (recvTable : DynamicTable) : List Transit → Prop
  | .block block :: _ => Roomy block.table recvTable block.headers
  | _ => True

instance (recvTable : DynamicTable) : ∀ channel, Decidable (FrontFits recvTable channel)
  | .block block :: _ => decidableRoomy block.table recvTable block.headers
  | .settings _ :: _ => instDecidableTrue
  | [] => instDecidableTrue

/-- The condition on a step. -/
def Orderly (s : Pair) : PairAction → Prop
  | .doRecv side => FrontFits (s.conn side).recvTable (s.channel side.other)
  | _ => True

instance (s : Pair) : ∀ action, Decidable (s.Orderly action)
  | .doRecv side => inferInstanceAs (Decidable (FrontFits _ (s.channel side.other)))
  | .sendSettings _ _ => instDecidableTrue
  | .handleSendSetting _ _ => instDecidableTrue
  | .sendHeaders _ _ => instDecidableTrue
  | .doWrite _ => instDecidableTrue

def LinkedFrom (s : Pair) (side : End) : Prop :=
  Linked (s.conn side).sendTable (s.conn side.other).recvTable (blocks (s.channel side))
    (s.packed side) (s.parsed side.other)

/-- What an end does with its settings reaches the tables of both directions. -/
theorem linked_set_conn {s : Pair} (linked : ∀ side, s.LinkedFrom side) (side : End)
    {conn : Http2SocketStream} (relimited : Relimited (s.conn side) conn) :
    ∀ sender, (s.setConn side conn).LinkedFrom sender := by
  have here := linked side
  have there := linked side.other
  have apart := side.other_ne
  unfold LinkedFrom at here there
  rw [End.other_other] at there
  refine End.forall_of side ?_ ?_
  · simp only [LinkedFrom, setConn, Function.update_self, Function.update_of_ne apart]
    exact linked_relimit_send here relimited.send
  · simp only [LinkedFrom, setConn, Function.update_of_ne apart, End.other_other,
      Function.update_self]
    exact linked_relimit_recv there relimited.recv

theorem blocks_concat (channel : List Transit) (frame : Transit) :
    blocks (channel ++ [frame]) = blocks channel ++ blocks [frame] := List.filterMap_append

theorem linked_transmit {s : Pair} (linked : ∀ side, s.LinkedFrom side) {side : End}
    {items : List SettingsItem} (rest : List Unsent) :
    ∀ sender, (s.transmit side (.settings items) rest).LinkedFrom sender := by
  have here := linked side
  have there := linked side.other
  unfold LinkedFrom at here there
  refine End.forall_of side ?_ ?_
  · simp only [LinkedFrom, transmit, Function.update_self, blocks_concat]
    simpa [blocks] using here
  · simp only [LinkedFrom, transmit, Function.update_of_ne side.other_ne]
    exact there

theorem linked_pack {s after : Pair} (linked : ∀ side, s.LinkedFrom side) {side : End}
    {kvs : List (Str × Str)} {rest : List Unsent} (taken : s.pack side kvs rest = some after) :
    ∀ sender, after.LinkedFrom sender := by
  have here := linked side
  have there := linked side.other
  have apart := side.other_ne
  unfold LinkedFrom at here there
  rw [End.other_other] at there
  unfold pack at taken
  split at taken
  next => cases taken
  next fields table chosen =>
    cases taken
    refine End.forall_of side ?_ ?_
    · simp only [LinkedFrom, setConn, transmit, Function.update_self, Function.update_of_ne apart,
        blocks_concat]
      exact ChatServer.Http2.linked_pack here chosen
    · simp only [LinkedFrom, setConn, transmit, Function.update_of_ne apart, End.other_other,
        Function.update_self]
      exact there

theorem linked_receive {s : Pair} (linked : ∀ side, s.LinkedFrom side) {side : End}
    {items : List SettingsItem} {rest : List Transit}
    (front : s.channel side.other = .settings items :: rest) :
    ∀ sender,
      { s with channel := Function.update s.channel side.other rest }.LinkedFrom sender := by
  have here := linked side
  have there := linked side.other
  unfold LinkedFrom at here there
  rw [front] at there
  refine End.forall_of side ?_ ?_
  · simp only [LinkedFrom, Function.update_of_ne side.other_ne.symm]
    exact here
  · simp only [LinkedFrom, Function.update_self]
    exact there

theorem linked_parse {s : Pair} (linked : ∀ side, s.LinkedFrom side) {side : End} {block : Block}
    {rest : List Transit} (front : s.channel side.other = .block block :: rest)
    (roomy : Roomy block.table (s.conn side).recvTable block.headers) :
    ∀ sender, ({ s with channel := Function.update s.channel side.other rest }.parse side
      block).LinkedFrom sender := by
  have here := linked side
  have there := linked side.other
  have apart := side.other_ne
  unfold LinkedFrom at here there
  rw [front, End.other_other] at there
  refine End.forall_of side ?_ ?_
  · simp only [LinkedFrom, parse, setConn, Function.update_self, Function.update_of_ne apart,
      Function.update_of_ne apart.symm]
    exact here
  · simp only [LinkedFrom, parse, setConn, End.other_other, Function.update_self,
      Function.update_of_ne apart]
    exact ChatServer.Http2.linked_parse there roomy

theorem step_linked {s after : Pair} {action : PairAction} (linked : ∀ side, s.LinkedFrom side)
    (orderly : s.Orderly action) (taken : s.step action = some after) :
    ∀ side, after.LinkedFrom side := by
  cases action with
  | sendSettings side items =>
      cases taken
      exact linked
  | handleSendSetting side items =>
      simp only [step] at taken
      split_ifs at taken
      cases taken
      exact linked_set_conn linked side (update_settings_relimited .peer items _)
  | sendHeaders side kvs =>
      cases taken
      exact linked
  | doWrite side =>
      simp only [step] at taken
      split at taken
      · cases taken
      · cases taken
        exact linked_transmit linked _
      · exact linked_pack linked taken
  | doRecv side =>
      simp only [step] at taken
      split at taken
      · cases taken
      next frame rest front =>
        cases frame with
        | settings items =>
            cases taken
            apply linked_set_conn (linked_receive linked front)
            exact relimited_trans (update_settings_relimited .owner items _) (enqueue_relimited _ _)
        | block block =>
            cases taken
            rw [Orderly, front] at orderly
            exact linked_parse linked front orderly

/-- In runs in which the receiving tables have room for the blocks, every header list is parsed as
it was packed, in order. -/
theorem headers_parsed_as_packed (s : Pair) (reached : Reaches step Orderly initial s)
    (side : End) :
    s.parsed side.other <+: s.packed side := by
  have linked : ∀ sender, s.LinkedFrom sender := by
    apply invariant_of_reaches _ _ reached
    · exact fun sender => new_linked
    · intro state action after linked orderly taken
      exact step_linked linked orderly taken
  rw [(linked side).lists]
  exact List.prefix_append _ _

/-- The client lowers the limit to 100 while a block is on its way, and again below a block that
the server packs when it knows the limit. -/
theorem headers_parsed_as_packed_lower :
    ∃ s, Reaches step Orderly initial s ∧
      s.parsed .client =
        [[(ascii "a", ascii "1"), (ascii "b", ascii "2")], [(ascii "a", ascii "1")]] ∧
      s.parsed .client <+: s.packed .server := by
  have reached : ∃ s, Reaches step Orderly initial s ∧
      s.parsed .client = [[(ascii "a", ascii "1"), (ascii "b", ascii "2")],
        [(ascii "a", ascii "1")]] :=
    exists_of_run [.sendHeaders .server [(ascii "a", ascii "1"), (ascii "b", ascii "2")],
      .doWrite .server, .sendSettings .client [⟨1, 100⟩], .handleSendSetting .client [⟨1, 100⟩],
      .doRecv .client, .doWrite .client, .doRecv .server,
      .sendHeaders .server [(ascii "a", ascii "1")], .doWrite .server, .doRecv .client]
      (by decide +kernel)
  rcases reached with ⟨s, reached, parsed⟩
  exact ⟨s, reached, parsed, headers_parsed_as_packed s reached .server⟩

/-- The client has set the limit to 0 when it receives two blocks that were packed before: it
keeps the newest entry only, and the index of the second block leads behind it. -/
theorem headers_not_parsed_as_packed :
    ∃ s, Reaches step (fun _ _ => True) initial s ∧
      s.packed .server = [[(ascii "a", ascii "1"), (ascii "b", ascii "2")],
        [(ascii "a", ascii "1")]] ∧
      s.parsed .client = [[(ascii "a", ascii "1"), (ascii "b", ascii "2")], [([], [])]] ∧
      ¬s.parsed .client <+: s.packed .server := by
  have reached : ∃ s, Reaches step (fun _ _ => True) initial s ∧
      (s.packed .server = [[(ascii "a", ascii "1"), (ascii "b", ascii "2")],
          [(ascii "a", ascii "1")]] ∧
        s.parsed .client = [[(ascii "a", ascii "1"), (ascii "b", ascii "2")], [([], [])]]) :=
    exists_of_run [.sendHeaders .server [(ascii "a", ascii "1"), (ascii "b", ascii "2")],
      .doWrite .server, .sendHeaders .server [(ascii "a", ascii "1")], .doWrite .server,
      .sendSettings .client [⟨1, 0⟩], .handleSendSetting .client [⟨1, 0⟩], .doRecv .client,
      .doRecv .client] (by decide +kernel)
  rcases reached with ⟨s, reached, packed, parsed⟩
  refine ⟨s, reached, packed, parsed, ?_⟩
  rw [packed, parsed]
  decide

end Pair

end ChatServer.Http2
