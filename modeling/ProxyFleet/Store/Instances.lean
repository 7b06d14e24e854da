import ProxyFleet.Store.Hosts

/-!
# Instances in the store

An instance is a core that was started on an agent host, under a name of its own
on that host.
-/

namespace ProxyFleet

/-- A core that was started. -/
structure CoreInstance where
  id : String
  hostId : String
  instanceId : String
  coreType : String
  status : InstanceStatus
  templateId : Option String
  configHash : String
  listenPorts : List Number
  lastHeartbeatAt : Option String
  errorMessage : String
  createdAt : String
  updatedAt : String
  deriving DecidableEq, Repr

/-- A list of numbers as a data text. -/
def numbersText (ns : List Number) : String := (Value.arr (ns.map .num)).tightText

/-- The whole numbers a data text lists; whatever else it lists is passed over. -/
def wholesOfText (s : String) : List Number :=
  (Value.arrayOfText Value.isWhole s).filterMap Value.number?

/-- The instance a row tells of. -/
def InstanceRow.toInstance (r : InstanceRow) : CoreInstance where
  id := r.id
  hostId := r.hostId
  instanceId := r.instanceId
  coreType := r.coreType
  status := r.status
  templateId := r.templateId
  configHash := r.configHash
  listenPorts := wholesOfText r.listenPortsText
  lastHeartbeatAt := r.lastHeartbeatAt
  errorMessage := r.errorMessage
  createdAt := r.createdAt
  updatedAt := r.updatedAt

/-- An instance as a record. -/
def CoreInstance.toValue (i : CoreInstance) : Value :=
  .ofFields [
    ("id", .str i.id),
    ("agentHostId", .str i.hostId),
    ("instanceId", .str i.instanceId),
    ("coreType", .str i.coreType),
    ("status", .str i.status.name),
    ("configTemplateId", .ofOption .str i.templateId),
    ("configHash", .str i.configHash),
    ("listenPorts", .arr (i.listenPorts.map .num)),
    ("lastHeartbeatAt", .ofOption .str i.lastHeartbeatAt),
    ("errorMessage", .str i.errorMessage),
    ("createdAt", .str i.createdAt),
    ("updatedAt", .str i.updatedAt)]

/-- What is told of a new instance; its status is a word. -/
structure NewInstance where
  hostId : String
  instanceId : String
  coreType : String
  status : String
  templateId : Option String
  configHash : String
  listenPorts : List Number
  lastHeartbeatAt : Option String
  errorMessage : String
  deriving DecidableEq, Repr

/-- What is to change of an instance. -/
structure InstanceChange where
  status : Option String
  errorMessage : Option String
  lastHeartbeatAt : Option String
  listenPorts : Option (List Number)
  deriving DecidableEq, Repr

namespace Store

/-- The status a word stands for, refused if there is none. -/
def instanceStatus (word : String) : Except StoreError InstanceStatus :=
  match InstanceStatus.ofName? word with
  | some status => .ok status
  | none => .error .badInstanceStatus

/-- Puts an instance in. -/
def createInstance (s : Store) (id : String) (now : Instant) (new : NewInstance) :
    Except StoreError (CoreInstance × Store) := do
  let time := now.text
  let row : Except StoreError InstanceRow := do
    pure {
      id := id
      hostId := new.hostId
      instanceId := new.instanceId
      coreType := new.coreType
      status := ← instanceStatus new.status
      templateId := new.templateId
      configHash := new.configHash
      listenPortsText := numbersText new.listenPorts
      lastHeartbeatAt := new.lastHeartbeatAt
      errorMessage := new.errorMessage
      createdAt := time
      updatedAt := time
    }
  let s ← s.addInstance new.status row
  pure ({
    id := id
    hostId := new.hostId
    instanceId := new.instanceId
    coreType := new.coreType
    status := (InstanceStatus.ofName? new.status).getD .running
    templateId := new.templateId
    configHash := new.configHash
    listenPorts := new.listenPorts
    lastHeartbeatAt := new.lastHeartbeatAt
    errorMessage := new.errorMessage
    createdAt := time
    updatedAt := time
  }, s)

/-- The instance of an id. -/
def instance? (s : Store) (id : String) : Option CoreInstance :=
  (s.instances.find? (·.id == id)).map InstanceRow.toInstance

/-- The instance of a name on a host. -/
def instanceNamed? (s : Store) (hostId instanceId : String) : Option CoreInstance :=
  (s.instances.find? fun r => r.hostId == hostId && r.instanceId == instanceId).map
    InstanceRow.toInstance

/-- The instances of a host, the oldest first, and by name among those of one age. -/
def instancesOf (s : Store) (hostId : String) : List CoreInstance :=
  (sortBy (fun a b => textPairLe (a.createdAt, a.instanceId) (b.createdAt, b.instanceId))
    (s.instances.filter (·.hostId == hostId))).map InstanceRow.toInstance

/-- Changes an instance. -/
def updateInstance (s : Store) (id : String) (now : Instant) (change : InstanceChange) :
    Except StoreError (Option CoreInstance × Store) := do
  let r ← s.changeInstance id fun i => do
    let status ← match change.status with
      | none => pure i.status
      | some word => instanceStatus word
    pure { i with
      status := status
      errorMessage := change.errorMessage.getD i.errorMessage
      lastHeartbeatAt := change.lastHeartbeatAt.or i.lastHeartbeatAt
      listenPortsText := (change.listenPorts.map numbersText).getD i.listenPortsText
      updatedAt := now.text }
  pure (if r.2 then r.1.instance? id else none, r.1)

end Store

end ProxyFleet
