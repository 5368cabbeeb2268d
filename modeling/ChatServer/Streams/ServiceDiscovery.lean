import ChatServer.Lib.TaskPool
import ChatServer.Streams.Membership
import ChatServer.Streams.ServiceItem
import ChatServer.Util.Split

/-!
# Discovery over ZooKeeper

`ZKServiceDiscovery` of `service_discovery.cc` as a client of ZooKeeper. A service is read with a
watch on the node of its providers; a watch fires once, when the children of its node change, and
what fires arrives some time later. Calls that read run beside each other: the one of the
connection or of the timer reads all services, the one of a watch reads one. Between the read and
the store, and between the store and the callback, others go on.
-/

namespace ChatServer.Streams

set_option autoImplicit false

open ChatServer.Http2 (ascii)
open ChatServer.Util (split)

def getProvidersPath (domain service : Str) : Str :=
  ascii "/chat/" ++ domain ++ ascii "/" ++ service ++ ascii "/providers"

def getDomainPath (domain : Str) : Str := ascii "/chat/" ++ domain

def parseDomainService (path : Str) : Option (Str × Str) :=
  match split path 0x2F (UInt64.ofNat (2 ^ 64 - 1)) with
  | .ok [_, _, domain, service, _] => some (domain, service)
  | _ => none

/-- One round of the loop of `getChildren` over the names of the children. -/
def addChild (inetAton : Str → Option UInt32) (infos : Snapshot) (val : Str) : Snapshot :=
  match ServiceItem.create inetAton val [] with
  | none => infos
  | some info => infos.insert info.id info.toServiceItemInfo

def readChildren (inetAton : Str → Option UInt32) (vals : List Str) : Snapshot :=
  vals.foldl (addChild inetAton) ∅

/-- A call in progress, with the services that it reads behind this one. -/
inductive SdTask where
  | loop (queries : List (Str × Str))
  /-- `getChildren(path)` begins. -/
  | visiting (path : Str) (later : List (Str × Str))
  /-- The service is one that is asked for. -/
  | reading (path domain service : Str) (later : List (Str × Str))
  /-- The children are read, the lock is not held yet. -/
  | storing (path domain service : Str) (infos : Snapshot) (later : List (Str × Str))
  /-- The lock is given back, the callback is not called yet. -/
  | telling (path domain service : Str) (old new : Snapshot) (later : List (Str × Str))
  deriving DecidableEq

inductive SdAction where
  /-- `queryServer`. -/
  | query (domain service : Str)
  /-- Some client makes a node or changes its children. -/
  | change (path : Str) (names : List Str)
  | remove (path : Str)
  /-- The session is there: `onZKConnect`. -/
  | connect
  | timer
  /-- The session has expired, and its watches are gone. -/
  | expire
  /-- What a watch has fired arrives: `onZKChild`. -/
  | child (path : Str)
  /-- A call goes on. Requests to ZooKeeper may be left without an answer. -/
  | proceed (place : Nat) (answer : Bool)
  deriving DecidableEq

structure ZkDiscovery where
  /-- The nodes, with the names of their children. -/
  children : Str → Option (List Str)
  connected : Bool
  watched : Str → Bool
  events : List Str
  queryInfos : List (Str × Str)
  datas : Str → Str → Snapshot
  balance : SDLoadBalance
  tasks : List SdTask
  /-- The last read of the node in this session was answered, and the node is still there. -/
  answered : Str → Bool

/-- What is not under `src`: how addresses are read, and which streams can be created. -/
structure SdWorld where
  inetAton : Str → Option UInt32
  created : Str → Str → UInt64 → Bool

namespace ZkDiscovery

/-- `value` at one path. -/
def mark (marks : Str → Bool) (path : Str) (value : Bool) : Str → Bool :=
  fun other => if other = path then value else marks other

def start (type : Str) (types : Str → Option (Str → Option BalanceType))
    (defaultType : BalanceType) (children : Str → Option (List Str)) : ZkDiscovery :=
  ⟨children, false, fun _ => false, [], [], fun _ _ => ∅,
    (Discovery.start type types defaultType).balance, [], fun _ => false⟩

/-- The test of `m_queryInfos` in `getChildren`. -/
def queried (self : ZkDiscovery) (domain service : Str) : Bool :=
  (domain, service) ∈ self.queryInfos || (domain, SDLoadBalance.all) ∈ self.queryInfos

def proceed (world : SdWorld) (self : ZkDiscovery) (place : Nat) (answer : Bool) :
    SdTask → ZkDiscovery
  | .loop [] => { self with tasks := TaskPool.replace self.tasks place [] }
  | .loop ((domain, service) :: later) =>
      if service = SDLoadBalance.all then
        let names :=
          if answer && self.connected then (self.children (getDomainPath domain)).getD [] else []
        { self with
          tasks := TaskPool.replace self.tasks place
            [.loop (names.map (fun name => (domain, name)) ++ later)] }
      else
        { self with
          tasks := TaskPool.replace self.tasks place
            [.visiting (getProvidersPath domain service) later] }
  | .visiting path later =>
      match parseDomainService path with
      | none => { self with tasks := TaskPool.replace self.tasks place [.loop later] }
      | some (domain, service) =>
          { self with
            tasks := TaskPool.replace self.tasks place
              [if self.queried domain service then .reading path domain service later
                else .loop later] }
  | .reading path domain service later =>
      match if answer && self.connected then self.children path else none with
      | none =>
          { self with
            answered := mark self.answered path false
            tasks := TaskPool.replace self.tasks place [.loop later] }
      | some vals =>
          { self with
            watched := mark self.watched path true
            answered := mark self.answered path true
            tasks := TaskPool.replace self.tasks place
              [.storing path domain service (readChildren world.inetAton vals) later] }
  | .storing path domain service infos later =>
      { self with
        datas := setAt self.datas domain service infos
        tasks := TaskPool.replace self.tasks place
          [.telling path domain service (self.datas domain service) infos later] }
  | .telling _ domain service old new later =>
      { self with
        balance :=
          self.balance.onServiceChange domain service old new (world.created domain service)
        tasks := TaskPool.replace self.tasks place [.loop later] }

def step (world : SdWorld) (self : ZkDiscovery) : SdAction → Option ZkDiscovery
  | .query domain service =>
      some { self with queryInfos := (domain, service) :: self.queryInfos }
  | .change path names =>
      some { self with
        children := fun other => if other = path then some names else self.children other
        watched := mark self.watched path false
        events := if self.watched path then self.events ++ [path] else self.events }
  | .remove path =>
      some { self with
        children := fun other => if other = path then none else self.children other
        watched := mark self.watched path false
        answered := mark self.answered path false }
  | .connect =>
      some { self with connected := true, tasks := self.tasks ++ [.loop self.queryInfos] }
  | .timer => some { self with tasks := self.tasks ++ [.loop self.queryInfos] }
  | .expire =>
      some { self with connected := false, watched := fun _ => false, answered := fun _ => false }
  | .child path =>
      if self.events.contains path then
        some { self with
          events := self.events.erase path, tasks := self.tasks ++ [.visiting path []] }
      else none
  | .proceed place answer => (self.tasks[place]?).map (self.proceed world place answer)

end ZkDiscovery

end ChatServer.Streams
