import ProxyFleet.Engine
import ProxyFleet.Number
import ProxyFleet.SwitchLog.Status

/-!
# Tables and their rows

The tables of the store with their names, and what a table holds of each thing.
Lists are held as data texts, times as their texts; a row is found by its `id`.
-/

namespace ProxyFleet

/-- A table of the store. -/
inductive Table where
  | templates
  | hosts
  | servers
  | users
  | instances
  | switchLogs
  deriving DecidableEq, Repr

namespace Table

/-- The name of a table. -/
def name : Table → String
  | .templates => "config_templates"
  | .hosts => "agent_hosts"
  | .servers => "servers"
  | .users => "node_users"
  | .instances => "agent_core_instances"
  | .switchLogs => "agent_core_switch_logs"

/-- All tables. -/
def all : List Table := [.templates, .hosts, .servers, .users, .instances, .switchLogs]

/-- The table of a name. -/
def ofName? (s : String) : Option Table := all.find? (·.name == s)

end Table

/-! ## Rows -/

/-- Whether an instance runs. -/
inductive InstanceStatus where
  | running
  | stopped
  deriving DecidableEq, Repr

namespace InstanceStatus

/-- The word for a status. -/
def name : InstanceStatus → String
  | .running => "running"
  | .stopped => "stopped"

/-- The status a word stands for. -/
def ofName? (s : String) : Option InstanceStatus := [running, stopped].find? (·.name == s)

end InstanceStatus

/-- A row of the configuration templates. -/
structure TemplateRow where
  id : String
  name : String
  type : Engine
  content : String
  description : String
  minVersion : String
  capabilitiesText : String
  schemaVersion : Number
  isValid : Bool
  validationError : String
  createdAt : String
  updatedAt : String
  deriving DecidableEq, Repr

/-- A row of the agent hosts. -/
structure HostRow where
  id : String
  name : String
  host : String
  token : String
  coreType : String
  coreVersion : String
  capabilitiesText : String
  buildTagsText : String
  templateId : Option String
  createdAt : String
  updatedAt : String
  deriving DecidableEq, Repr

/-- A row of the servers. -/
structure ServerRow where
  id : String
  hostId : String
  groupId : Option String
  name : String
  inboundsText : String
  createdAt : String
  updatedAt : String
  deriving DecidableEq, Repr

/-- A row of the users. -/
structure UserRow where
  id : String
  uuid : String
  email : String
  groupId : Option String
  enabled : Bool
  expiresAt : Option String
  createdAt : String
  deriving DecidableEq, Repr

/-- A row of the instances. -/
structure InstanceRow where
  id : String
  hostId : String
  instanceId : String
  coreType : String
  status : InstanceStatus
  templateId : Option String
  configHash : String
  listenPortsText : String
  lastHeartbeatAt : Option String
  errorMessage : String
  createdAt : String
  updatedAt : String
  deriving DecidableEq, Repr

/-- A row of the switch logs. -/
structure SwitchLogRow where
  id : String
  hostId : String
  switchId : String
  fromInstanceId : Option String
  toInstanceId : Option String
  fromCoreType : Option String
  toCoreType : String
  status : SwitchStatus
  message : String
  operatorId : Option String
  createdAt : String
  completedAt : Option String
  deriving DecidableEq, Repr

end ProxyFleet
