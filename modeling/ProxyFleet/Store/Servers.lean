import ProxyFleet.Inbound.Record
import ProxyFleet.Store.Hosts

/-!
# Servers in the store

A server is a proxy node that an agent host serves. Its listeners are held as
records; what does not look like one when they are read is passed over.
-/

namespace ProxyFleet

/-- A proxy node. -/
structure ServerNode where
  id : String
  hostId : String
  groupId : Option String
  name : String
  inbounds : List Value
  createdAt : String
  updatedAt : String
  deriving Repr

/-- The server a row tells of. -/
def ServerRow.toServer (r : ServerRow) : ServerNode where
  id := r.id
  hostId := r.hostId
  groupId := r.groupId
  name := r.name
  inbounds := Value.arrayOfText Value.isInbound r.inboundsText
  createdAt := r.createdAt
  updatedAt := r.updatedAt

/-- A server as a record. -/
def ServerNode.toValue (n : ServerNode) : Value :=
  .ofFields [
    ("id", .str n.id),
    ("agentHostId", .str n.hostId),
    ("groupId", .ofOption .str n.groupId),
    ("name", .str n.name),
    ("inbounds", .arr n.inbounds),
    ("createdAt", .str n.createdAt),
    ("updatedAt", .str n.updatedAt)]

/-- What is told of a new server. -/
structure NewServer where
  hostId : String
  groupId : Option String
  name : String
  inbounds : List Value
  deriving Repr

namespace Store

/-- Puts a server in. -/
def createServer (s : Store) (id : String) (now : Instant) (new : NewServer) :
    Except StoreError (ServerNode × Store) := do
  let time := now.text
  let s ← s.addServer {
    id := id
    hostId := new.hostId
    groupId := new.groupId
    name := new.name
    inboundsText := (Value.arr new.inbounds).tightText
    createdAt := time
    updatedAt := time
  }
  pure (⟨id, new.hostId, new.groupId, new.name, new.inbounds, time, time⟩, s)

/-- The server of an id. -/
def server? (s : Store) (id : String) : Option ServerNode :=
  (s.servers.find? (·.id == id)).map ServerRow.toServer

/-- The servers of a host, by name, and by age among those of one name. -/
def serversOf (s : Store) (hostId : String) : List ServerNode :=
  (sortBy (fun a b => textPairLe (a.name, a.createdAt) (b.name, b.createdAt))
    (s.servers.filter (·.hostId == hostId))).map ServerRow.toServer

/-- Gives a server other listeners. -/
def updateInbounds (s : Store) (id : String) (now : Instant) (inbounds : List Value) :
    Except StoreError (Option ServerNode × Store) := do
  let r ← s.changeServer id fun n => { n with
    inboundsText := (Value.arr inbounds).tightText
    updatedAt := now.text }
  pure (if r.2 then r.1.server? id else none, r.1)

end Store

end ProxyFleet
