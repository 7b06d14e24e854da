import ProxyFleet.Number.Decimal
import ProxyFleet.Store.Templates

/-!
# Single cells

One cell of a row can be written over by hand, past everything that keeps the
cells of a row in step with each other. The rules of the store still hold
afterwards.
-/

namespace ProxyFleet

/-- What is written into a cell. -/
inductive Cell where
  | text (s : String)
  | number (n : Number)
  | empty
  deriving DecidableEq, Repr

namespace Cell

/-- The text of a number in a column of texts; a whole number has a fraction of zero there. -/
def numberText (n : Number) : String :=
  let s := n.text
  if s.toList.all fun c => c.isDigit || c = '-' then s ++ ".0" else s

/-- What a column of texts holds, if it need not hold anything. -/
def optionalText : Cell → Option String
  | .text s => some s
  | .number n => some (numberText n)
  | .empty => none

/-- The number in a column of numbers, if it is one. -/
def toNumber? : Cell → Option Number
  | .text s => Number.ofLexeme? s.toList
  | .number n => some n
  | .empty => none

/-- What a column of texts holds that must hold something. -/
def toText (c : Cell) (t : Table) (column : String) : Except StoreError String :=
  match c.optionalText with
  | some s => .ok s
  | none => .error (.missing t column)

/-- What a column of yes and no holds: one is yes. -/
def toFlag (c : Cell) (t : Table) (column : String) : Except StoreError Bool :=
  match c with
  | .empty => .error (.missing t column)
  | c => .ok (c.toNumber? == some 1)

end Cell

/-- Writes a cell of a template; columns that are not there stay as they are. -/
def TemplateRow.set (r : TemplateRow) (column : String) (c : Cell) :
    Except StoreError TemplateRow := do
  let text := c.toText .templates column
  match column with
  | "id" => pure { r with id := ← text }
  | "name" => pure { r with name := ← text }
  | "type" => match Engine.ofWord? (← text) with
    | some type => pure { r with type := type }
    | none => throw StoreError.badType
  | "content" => pure { r with content := ← text }
  | "description" => pure { r with description := ← text }
  | "min_version" => pure { r with minVersion := ← text }
  | "capabilities_json" => pure { r with capabilitiesText := ← text }
  | "schema_version" => match c with
    | .empty => throw (StoreError.missing .templates column)
    | c => pure { r with schemaVersion := c.toNumber?.getD r.schemaVersion }
  | "is_valid" => pure { r with isValid := ← c.toFlag .templates column }
  | "validation_error" => pure { r with validationError := ← text }
  | "created_at" => pure { r with createdAt := ← text }
  | "updated_at" => pure { r with updatedAt := ← text }
  | _ => pure r

/-- Writes a cell of a host; columns that are not there stay as they are. -/
def HostRow.set (r : HostRow) (column : String) (c : Cell) : Except StoreError HostRow := do
  let text := c.toText .hosts column
  match column with
  | "id" => pure { r with id := ← text }
  | "name" => pure { r with name := ← text }
  | "host" => pure { r with host := ← text }
  | "token" => pure { r with token := ← text }
  | "core_type" => pure { r with coreType := ← text }
  | "core_version" => pure { r with coreVersion := ← text }
  | "capabilities_json" => pure { r with capabilitiesText := ← text }
  | "build_tags_json" => pure { r with buildTagsText := ← text }
  | "template_id" => pure { r with templateId := c.optionalText }
  | "created_at" => pure { r with createdAt := ← text }
  | "updated_at" => pure { r with updatedAt := ← text }
  | _ => pure r

/-- Writes a cell of a server; columns that are not there stay as they are. -/
def ServerRow.set (r : ServerRow) (column : String) (c : Cell) :
    Except StoreError ServerRow := do
  let text := c.toText .servers column
  match column with
  | "id" => pure { r with id := ← text }
  | "agent_host_id" => pure { r with hostId := ← text }
  | "group_id" => pure { r with groupId := c.optionalText }
  | "name" => pure { r with name := ← text }
  | "inbounds_json" => pure { r with inboundsText := ← text }
  | "created_at" => pure { r with createdAt := ← text }
  | "updated_at" => pure { r with updatedAt := ← text }
  | _ => pure r

/-- Writes a cell of a user; columns that are not there stay as they are. -/
def UserRow.set (r : UserRow) (column : String) (c : Cell) : Except StoreError UserRow := do
  let text := c.toText .users column
  match column with
  | "id" => pure { r with id := ← text }
  | "uuid" => pure { r with uuid := ← text }
  | "email" => pure { r with email := ← text }
  | "group_id" => pure { r with groupId := c.optionalText }
  | "enabled" => pure { r with enabled := ← c.toFlag .users column }
  | "expires_at" => pure { r with expiresAt := c.optionalText }
  | "created_at" => pure { r with createdAt := ← text }
  | _ => pure r

/-- Writes a cell of an instance; columns that are not there stay as they are. -/
def InstanceRow.set (r : InstanceRow) (column : String) (c : Cell) :
    Except StoreError InstanceRow := do
  let text := c.toText .instances column
  match column with
  | "id" => pure { r with id := ← text }
  | "agent_host_id" => pure { r with hostId := ← text }
  | "instance_id" => pure { r with instanceId := ← text }
  | "core_type" => pure { r with coreType := ← text }
  | "status" => match InstanceStatus.ofName? (← text) with
    | some status => pure { r with status := status }
    | none => throw StoreError.badInstanceStatus
  | "config_template_id" => pure { r with templateId := c.optionalText }
  | "config_hash" => pure { r with configHash := ← text }
  | "listen_ports_json" => pure { r with listenPortsText := ← text }
  | "last_heartbeat_at" => pure { r with lastHeartbeatAt := c.optionalText }
  | "error_message" => pure { r with errorMessage := ← text }
  | "created_at" => pure { r with createdAt := ← text }
  | "updated_at" => pure { r with updatedAt := ← text }
  | _ => pure r

/-- Writes a cell of a switch log; columns that are not there stay as they are. -/
def SwitchLogRow.set (r : SwitchLogRow) (column : String) (c : Cell) :
    Except StoreError SwitchLogRow := do
  let text := c.toText .switchLogs column
  match column with
  | "id" => pure { r with id := ← text }
  | "agent_host_id" => pure { r with hostId := ← text }
  | "switch_id" => pure { r with switchId := ← text }
  | "from_instance_id" => pure { r with fromInstanceId := c.optionalText }
  | "to_instance_id" => pure { r with toInstanceId := c.optionalText }
  | "from_core_type" => pure { r with fromCoreType := c.optionalText }
  | "to_core_type" => pure { r with toCoreType := ← text }
  | "status" => match SwitchStatus.ofName? (← text) with
    | some status => pure { r with status := status }
    | none => throw StoreError.badSwitchStatus
  | "message" => pure { r with message := ← text }
  | "operator_id" => pure { r with operatorId := c.optionalText }
  | "created_at" => pure { r with createdAt := ← text }
  | "completed_at" => pure { r with completedAt := c.optionalText }
  | _ => pure r

namespace Store

/-- The status a row comes to have when one of its cells is written over. -/
def statusAfter (status column : String) (c : Cell) : Option String :=
  if column = "status" then c.optionalText else some status

/-- Writes over the rows of an id in a table, if there are any. -/
def overwriteRows {α : Type} (s : Store) (t : Table) (id : String) (idOf : α → String)
    (status : α → Option String) (set : α → Except StoreError α) (rows : List α)
    (put : List α → Store) : Except StoreError (Store × Bool) :=
  match rows.find? fun r => idOf r == id with
  | none => .ok (s, false)
  | some old => s.write t .update (status old) do
      let new ← set old
      pure (put (mapRow idOf id (fun _ => new) rows))

/-- Writes over one cell of the row of an id; tells whether there was such a row. -/
def overwrite (s : Store) (t : Table) (id column : String) (c : Cell) :
    Except StoreError (Store × Bool) :=
  match t with
  | .templates => s.overwriteRows t id TemplateRow.id (fun _ => none) (·.set column c) s.templates
      fun rows => { s with templates := rows }
  | .hosts => s.overwriteRows t id HostRow.id (fun _ => none) (·.set column c) s.hosts
      fun rows => { s with hosts := rows }
  | .servers => s.overwriteRows t id ServerRow.id (fun _ => none) (·.set column c) s.servers
      fun rows => { s with servers := rows }
  | .users => s.overwriteRows t id UserRow.id (fun _ => none) (·.set column c) s.users
      fun rows => { s with users := rows }
  | .instances => s.overwriteRows t id InstanceRow.id
      (fun r => statusAfter r.status.name column c) (·.set column c) s.instances
      fun rows => { s with instances := rows }
  | .switchLogs => s.overwriteRows t id SwitchLogRow.id
      (fun r => statusAfter r.status.name column c) (·.set column c) s.logs
      fun rows => { s with logs := rows }

end Store

end ProxyFleet
