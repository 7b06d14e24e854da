import ProxyFleet.Proofs.Store.Admitted
import ProxyFleet.Proofs.Store.Ledger
import ProxyFleet.Proofs.Store.View
import ProxyFleet.Proofs.Text.Sorted
import ProxyFleet.Store.Edit

/-!
# Repositories

Each table has its own rows, its own way to put one in and its own questions, but there is
one pattern to all six: a row tells of an entity, an entity is found by its id, and a
listing has those that are asked for. Tables index the types here, so that what holds of
each of them can be said once.
-/

namespace ProxyFleet

namespace Table

def Row : Table → Type
  | .templates => TemplateRow
  | .hosts => HostRow
  | .servers => ServerRow
  | .users => UserRow
  | .instances => InstanceRow
  | .switchLogs => SwitchLogRow

/-- What a row of a table tells of. -/
def Entity : Table → Type
  | .templates => ConfigTemplate
  | .hosts => AgentHost
  | .servers => ServerNode
  | .users => NodeUser
  | .instances => CoreInstance
  | .switchLogs => SwitchLog

/-- What is told of a new one. -/
def New : Table → Type
  | .templates => NewTemplate
  | .hosts => NewHost
  | .servers => NewServer
  | .users => NewUser
  | .instances => NewInstance
  | .switchLogs => NewSwitchLog

def rowId : (t : Table) → t.Row → String
  | .templates => TemplateRow.id
  | .hosts => HostRow.id
  | .servers => ServerRow.id
  | .users => UserRow.id
  | .instances => InstanceRow.id
  | .switchLogs => SwitchLogRow.id

def idOf : (t : Table) → t.Entity → String
  | .templates => ConfigTemplate.id
  | .hosts => AgentHost.id
  | .servers => ServerNode.id
  | .users => NodeUser.id
  | .instances => CoreInstance.id
  | .switchLogs => SwitchLog.id

def tell : (t : Table) → t.Row → t.Entity
  | .templates => TemplateRow.toTemplate
  | .hosts => HostRow.toHost
  | .servers => ServerRow.toServer
  | .users => UserRow.toUser
  | .instances => InstanceRow.toInstance
  | .switchLogs => SwitchLogRow.toLog

@[simp] theorem idOf_tell (t : Table) (r : t.Row) : t.idOf (t.tell r) = t.rowId r := by
  cases t <;> rfl

/-- The host that an entity belongs to. -/
def hostOf : (t : Table) → t.Entity → Option String
  | .servers => fun n => some (ServerNode.hostId n)
  | .instances => fun i => some (CoreInstance.hostId i)
  | .switchLogs => fun l => some (SwitchLog.hostId l)
  | .templates | .hosts | .users => fun _ => none

/-- The template that an entity refers to. -/
def templateOf : (t : Table) → t.Entity → Option String
  | .hosts => AgentHost.templateId
  | .instances => CoreInstance.templateId
  | .templates | .servers | .users | .switchLogs => fun _ => none

/-! ## Lists in columns -/

/-- The columns of a row that hold lists, and which items they can have. -/
def columns : (t : Table) → t.Row → List ((Value → Prop) × String)
  | .templates => fun r => [(Value.IsText, TemplateRow.capabilitiesText r)]
  | .hosts => fun r => [(Value.IsText, HostRow.capabilitiesText r),
      (Value.IsText, HostRow.buildTagsText r)]
  | .servers => fun r => [(Value.IsListener, ServerRow.inboundsText r)]
  | .instances => fun r => [(Value.IsWholeNumber, InstanceRow.listenPortsText r)]
  | .users | .switchLogs => fun _ => []

end Table

/-- What can be asked of a table, but for a single row by its id. -/
inductive Query : Table → Type
  | allTemplates (type : Option String) : Query .templates
  | allHosts : Query .hosts
  | serversOf (host : String) : Query .servers
  | activeUsers (groups : List String) (now : String) : Query .users
  | instancesOf (host : String) : Query .instances
  | instanceNamed (host name : String) : Query .instances
  | logs (f : LogFilter) (limit offset : Option Number) : Query .switchLogs

namespace Query

/-- Whether an entity is asked for; times are compared as texts. -/
def AsksFor : {t : Table} → Query t → t.Entity → Prop
  | _, .allTemplates type => fun (x : ConfigTemplate) => ∀ word ∈ type, x.type.name = word
  | _, .allHosts => fun _ => True
  | _, .serversOf host => fun (n : ServerNode) => n.hostId = host
  | _, .activeUsers groups now => fun (u : NodeUser) =>
    u.enabled = true ∧ (∃ g ∈ u.groupId, g ∈ groups) ∧ ∀ time ∈ u.expiresAt, now < time
  | _, .instancesOf host => fun (i : CoreInstance) => i.hostId = host
  | _, .instanceNamed host name => fun (i : CoreInstance) => i.hostId = host ∧ i.instanceId = name
  | _, .logs f _ _ => fun (l : SwitchLog) =>
    l.hostId = f.hostId ∧ (∀ status ∈ f.status, l.status.name = status) ∧
      (∀ time ∈ f.startAt, time ≤ l.createdAt) ∧ ∀ time ∈ f.endAt, l.createdAt ≤ time

/-- A question for all that is asked for, and not for a page of it. -/
def IsWhole : {t : Table} → Query t → Prop
  | _, .logs _ limit offset => limit = none ∧ offset = none
  | _, .allTemplates _ | _, .allHosts | _, .serversOf _ | _, .activeUsers .. | _, .instancesOf _
  | _, .instanceNamed .. => True

end Query

namespace Store

variable {s : Store} {t : Table}

def rows (s : Store) : (t : Table) → List t.Row
  | .templates => s.templates
  | .hosts => s.hosts
  | .servers => s.servers
  | .users => s.users
  | .instances => s.instances
  | .switchLogs => s.logs

def create (s : Store) :
    (t : Table) → t.New → String → Instant → Except StoreError (t.Entity × Store)
  | .templates => fun new id now => s.createTemplate id now new
  | .hosts => fun new id now => s.createHost id now new
  | .servers => fun new id now => s.createServer id now new
  | .users => fun new id now => s.createUser id now new
  | .instances => fun new id now => s.createInstance id now new
  | .switchLogs => fun new id now => s.createLog id now new

def answer (s : Store) : {t : Table} → Query t → List t.Entity
  | _, .allTemplates type => s.allTemplates type
  | _, .allHosts => s.allHosts
  | _, .serversOf host => s.serversOf host
  | _, .activeUsers groups now => s.activeUsers groups now
  | _, .instancesOf host => s.instancesOf host
  | _, .instanceNamed host name => (s.instanceNamed? host name).toList
  | _, .logs f limit offset => s.findLogs f limit offset

/-! ## By id -/

end Store

end ProxyFleet
