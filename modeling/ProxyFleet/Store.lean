import ProxyFleet.Store.Row

/-!
# The store

Six tables, each a list of rows in the order they were put in. Whatever is
written, the store afterwards keeps its rules: no two rows of a table have the
same id, no two users the same uuid, no host two instances of the same name, and
every reference leads to a row (`Store.broken?`). A write that would break a
rule is refused and changes nothing.

When a host goes, its servers, instances and switch logs go with it; when a
template goes, references to it are cleared.

A store can be told to let writes fail: a kind of write to a table then breaks
off with a message, or is passed over without a word. This is how one sees that
the rest copes with a disk that is full.
-/

namespace ProxyFleet

/-! ## Writes that go wrong -/

/-- What is done to a row. -/
inductive RowEvent where
  | insert
  | update
  | delete
  deriving DecidableEq, Repr

namespace RowEvent

/-- The word for an event. -/
def name : RowEvent → String
  | .insert => "INSERT"
  | .update => "UPDATE"
  | .delete => "DELETE"

/-- The event a word stands for. -/
def ofName? (s : String) : Option RowEvent := [insert, update, delete].find? (·.name == s)

end RowEvent

/-- Writes that fail: an event on a table, if need be only for rows that come to have a status.
With a message they break off, without one they are passed over. -/
structure Fault where
  table : Table
  event : RowEvent
  status : Option String
  message : Option String
  deriving DecidableEq, Repr

/-- Rows put into a table get this status at once. -/
structure Preset where
  table : Table
  status : String
  deriving DecidableEq, Repr

/-- What becomes of a write. -/
inductive Permit where
  | go
  | skip
  | fail (message : String)
  deriving DecidableEq, Repr

/-- Whether a fault covers an event on a table; `status` is that of the row as it comes to be. -/
def Fault.covers (f : Fault) (t : Table) (e : RowEvent) (status : Option String) : Bool :=
  f.table = t && f.event = e && match f.status with
    | none => true
    | some word => status == some word

/-- What the first fault that covers a write makes of it. -/
def permit (faults : List Fault) (t : Table) (e : RowEvent) (status : Option String) : Permit :=
  match faults.find? (·.covers t e status) with
  | none => .go
  | some f => match f.message with
    | some message => .fail message
    | none => .skip

/-! ## Writes that are refused -/

/-- Why a write was refused. -/
inductive StoreError where
  /-- The write was made to fail. -/
  | raised (message : String)
  /-- A column holds a word it may not hold. -/
  | condition (text : String)
  /-- A column may not be empty. -/
  | missing (table : Table) (column : String)
  /-- Two rows have the same id. -/
  | repeatedId (table : Table)
  /-- Two rows are alike in columns where they must differ. -/
  | repeated (table : Table) (columns : List String)
  /-- A reference leads nowhere. -/
  | reference
  deriving DecidableEq, Repr

namespace StoreError

/-- The message of a refused write. -/
def message : StoreError → String
  | .raised message => message
  | .condition text => "CHECK constraint failed: " ++ text
  | .missing table column => "NOT NULL constraint failed: " ++ table.name ++ "." ++ column
  | .repeatedId table => "UNIQUE constraint failed: " ++ table.name ++ ".id"
  | .repeated table columns =>
    "UNIQUE constraint failed: " ++ ", ".intercalate (columns.map (table.name ++ "." ++ ·))
  | .reference => "FOREIGN KEY constraint failed"

/-- The code of a refused write. -/
def code : StoreError → String
  | .raised _ => "SQLITE_CONSTRAINT_TRIGGER"
  | .condition _ => "SQLITE_CONSTRAINT_CHECK"
  | .missing .. => "SQLITE_CONSTRAINT_NOTNULL"
  | .repeatedId _ => "SQLITE_CONSTRAINT_PRIMARYKEY"
  | .repeated .. => "SQLITE_CONSTRAINT_UNIQUE"
  | .reference => "SQLITE_CONSTRAINT_FOREIGNKEY"

/-- A type that is not an engine. -/
def badType : StoreError := .condition "type IN ('sing-box', 'xray')"

/-- A status no instance has. -/
def badInstanceStatus : StoreError := .condition "status IN ('running', 'stopped')"

/-- A status no switch has. -/
def badSwitchStatus : StoreError :=
  .condition "status IN ('pending', 'in_progress', 'completed', 'failed')"

end StoreError

/-- The tables, and what goes wrong with writing to them; the latest fault counts first. -/
structure Store where
  templates : List TemplateRow
  hosts : List HostRow
  servers : List ServerRow
  users : List UserRow
  instances : List InstanceRow
  logs : List SwitchLogRow
  faults : List Fault
  presets : List Preset
  deriving DecidableEq, Repr

/-- Whether an item occurs twice. -/
def hasRepeat {α : Type} [BEq α] : List α → Bool
  | [] => false
  | a :: as => as.contains a || hasRepeat as

namespace Store

/-- No rows, and nothing goes wrong. -/
def empty : Store := ⟨[], [], [], [], [], [], [], []⟩

/-! ## The rules -/

/-- Whether there is a host of an id. -/
def hasHost (s : Store) (id : String) : Bool := s.hosts.any (·.id == id)

/-- Whether there is a template of an id; no id asks for none. -/
def hasTemplate (s : Store) : Option String → Bool
  | none => true
  | some id => s.templates.any (·.id == id)

/-- Every reference leads to a row. -/
def referencesHold (s : Store) : Bool :=
  s.hosts.all (s.hasTemplate ·.templateId)
    && s.servers.all (s.hasHost ·.hostId)
    && s.instances.all (fun r => s.hasHost r.hostId && s.hasTemplate r.templateId)
    && s.logs.all (s.hasHost ·.hostId)

/-- The first rule a store breaks. -/
def broken? (s : Store) : Option StoreError :=
  if hasRepeat (s.templates.map (·.id)) then some (.repeatedId .templates)
  else if hasRepeat (s.hosts.map (·.id)) then some (.repeatedId .hosts)
  else if hasRepeat (s.servers.map (·.id)) then some (.repeatedId .servers)
  else if hasRepeat (s.users.map (·.id)) then some (.repeatedId .users)
  else if hasRepeat (s.users.map (·.uuid)) then some (.repeated .users ["uuid"])
  else if hasRepeat (s.instances.map (·.id)) then some (.repeatedId .instances)
  else if hasRepeat (s.instances.map fun r => (r.hostId, r.instanceId)) then
    some (.repeated .instances ["agent_host_id", "instance_id"])
  else if hasRepeat (s.logs.map (·.id)) then some (.repeatedId .switchLogs)
  else if !s.referencesHold then some .reference
  else none

/-- The store, if it keeps the rules. -/
def checked (s : Store) : Except StoreError Store :=
  match s.broken? with
  | some e => .error e
  | none => .ok s

/-! ## Writing -/

/-- A write that would give `target`: the store afterwards, and whether it was written. -/
def write (s : Store) (t : Table) (e : RowEvent) (status : Option String)
    (target : Except StoreError Store) : Except StoreError (Store × Bool) :=
  match permit s.faults t e status with
  | .fail message => .error (.raised message)
  | .skip => .ok (s, false)
  | .go => do
    let s ← (← target).checked
    pure (s, true)

/-- Changes the row of an id. -/
def mapRow {α : Type} (idOf : α → String) (id : String) (f : α → α) (rows : List α) : List α :=
  rows.map fun r => if idOf r == id then f r else r

/-- Changes the template of an id. -/
def changeTemplate (s : Store) (id : String) (f : TemplateRow → Except StoreError TemplateRow) :
    Except StoreError (Store × Bool) :=
  match s.templates.find? (·.id == id) with
  | none => .ok (s, false)
  | some r => s.write .templates .update none do
      let r ← f r
      pure { s with templates := mapRow TemplateRow.id id (fun _ => r) s.templates }

/-- Changes the host of an id. -/
def changeHost (s : Store) (id : String) (f : HostRow → HostRow) :
    Except StoreError (Store × Bool) :=
  if s.hasHost id then
    s.write .hosts .update none (.ok { s with hosts := mapRow HostRow.id id f s.hosts })
  else .ok (s, false)

/-- Changes the server of an id. -/
def changeServer (s : Store) (id : String) (f : ServerRow → ServerRow) :
    Except StoreError (Store × Bool) :=
  if s.servers.any (·.id == id) then
    s.write .servers .update none (.ok { s with servers := mapRow ServerRow.id id f s.servers })
  else .ok (s, false)

/-- Changes the user of an id. -/
def changeUser (s : Store) (id : String) (f : UserRow → UserRow) :
    Except StoreError (Store × Bool) :=
  if s.users.any (·.id == id) then
    s.write .users .update none (.ok { s with users := mapRow UserRow.id id f s.users })
  else .ok (s, false)

/-- Changes the instance of an id. -/
def changeInstance (s : Store) (id : String) (f : InstanceRow → Except StoreError InstanceRow) :
    Except StoreError (Store × Bool) :=
  match s.instances.find? (·.id == id) with
  | none => .ok (s, false)
  | some old =>
    let new := f old
    let status := match new with
      | .ok r => r.status
      | .error _ => old.status
    s.write .instances .update (some status.name) do
      let r ← new
      pure { s with instances := mapRow InstanceRow.id id (fun _ => r) s.instances }

/-- Changes the switch log of an id, if its status is one of some. -/
def changeLog (s : Store) (id : String) (sources : List SwitchStatus)
    (f : SwitchLogRow → SwitchLogRow) : Except StoreError (Store × Bool) :=
  match s.logs.find? (·.id == id) with
  | none => .ok (s, false)
  | some old =>
    if sources.contains old.status then
      s.write .switchLogs .update (some (f old).status.name)
        (.ok { s with logs := mapRow SwitchLogRow.id id f s.logs })
    else .ok (s, false)

/-! ## Putting rows in -/

/-- Puts a template in. -/
def addTemplate (s : Store) (row : Except StoreError TemplateRow) : Except StoreError Store := do
  let (s, _) ← s.write .templates .insert none do
    pure { s with templates := s.templates ++ [← row] }
  pure s

/-- Puts a host in. -/
def addHost (s : Store) (r : HostRow) : Except StoreError Store := do
  let (s, _) ← s.write .hosts .insert none (.ok { s with hosts := s.hosts ++ [r] })
  pure s

/-- Puts a server in. -/
def addServer (s : Store) (r : ServerRow) : Except StoreError Store := do
  let (s, _) ← s.write .servers .insert none (.ok { s with servers := s.servers ++ [r] })
  pure s

/-- Puts a user in. -/
def addUser (s : Store) (r : UserRow) : Except StoreError Store := do
  let (s, _) ← s.write .users .insert none (.ok { s with users := s.users ++ [r] })
  pure s

/-- Gives a new instance the statuses set for its table. -/
def presetInstance (id : String) (s : Store) (p : Preset) : Except StoreError Store := do
  if p.table = .instances then
    let (s, _) ← s.changeInstance id fun r =>
      match InstanceStatus.ofName? p.status with
      | some status => .ok { r with status := status }
      | none => .error .badInstanceStatus
    pure s
  else pure s

/-- Puts an instance in. -/
def addInstance (s : Store) (status : String) (row : Except StoreError InstanceRow) :
    Except StoreError Store := do
  let (after, written) ← s.write .instances .insert (some status) do
    pure { s with instances := s.instances ++ [← row] }
  match row with
  | .ok r => if written then s.presets.foldlM (presetInstance r.id) after else pure after
  | .error _ => pure after

/-- Gives a new switch log the statuses set for its table. -/
def presetLog (id : String) (s : Store) (p : Preset) : Except StoreError Store := do
  if p.table = .switchLogs then
    match SwitchStatus.ofName? p.status with
    | some status =>
      let (s, _) ← s.changeLog id SwitchStatus.all fun r => { r with status := status }
      pure s
    | none => throw .badSwitchStatus
  else pure s

/-- Puts a switch log in. -/
def addLog (s : Store) (r : SwitchLogRow) : Except StoreError Store := do
  let (after, written) ← s.write .switchLogs .insert (some r.status.name)
    (.ok { s with logs := s.logs ++ [r] })
  if written then s.presets.foldlM (presetLog r.id) after else pure after

/-! ## Taking rows out -/

/-- Takes rows of a table out together with what they belong to. Rows whose removal is passed
over stay, and their references then lead nowhere. -/
def dropRows {α : Type} (s : Store) (t : Table) (chosen : α → Bool) (rows : List α) :
    Except StoreError (List α) :=
  if rows.any chosen then
    match permit s.faults t .delete none with
    | .fail message => .error (.raised message)
    | .skip => .ok rows
    | .go => .ok (rows.filter (!chosen ·))
  else .ok rows

/-- Clears references in rows of a table. Rows whose change is passed over keep theirs. -/
def clearRows {α : Type} (s : Store) (t : Table) (chosen : α → Bool) (status : α → Option String)
    (clear : α → α) (rows : List α) : Except StoreError (List α) :=
  rows.mapM fun r =>
    if chosen r then
      match permit s.faults t .update (status r) with
      | .fail message => .error (.raised message)
      | .skip => .ok r
      | .go => .ok (clear r)
    else .ok r

/-- Takes a host out, with all that belongs to it. -/
def removeHost (s : Store) (id : String) : Except StoreError (Store × Bool) :=
  if s.hasHost id then
    s.write .hosts .delete none do
      let logs ← s.dropRows .switchLogs (fun r => r.hostId == id) s.logs
      let instances ← s.dropRows .instances (fun r => r.hostId == id) s.instances
      let servers ← s.dropRows .servers (fun r => r.hostId == id) s.servers
      pure { s with
        hosts := s.hosts.filter (·.id != id)
        logs := logs
        instances := instances
        servers := servers }
  else .ok (s, false)

/-- Takes a template out and clears the references to it. -/
def removeTemplate (s : Store) (id : String) : Except StoreError (Store × Bool) :=
  if s.templates.any (·.id == id) then
    s.write .templates .delete none do
      let instances ← s.clearRows .instances (fun r => r.templateId == some id)
        (fun r => some r.status.name) (fun r => { r with templateId := none }) s.instances
      let hosts ← s.clearRows .hosts (fun r => r.templateId == some id)
        (fun _ => none) (fun r => { r with templateId := none }) s.hosts
      pure { s with
        templates := s.templates.filter (·.id != id)
        instances := instances
        hosts := hosts }
  else .ok (s, false)

/-- Takes a server out. -/
def removeServer (s : Store) (id : String) : Except StoreError (Store × Bool) :=
  if s.servers.any (·.id == id) then
    s.write .servers .delete none (.ok { s with servers := s.servers.filter (·.id != id) })
  else .ok (s, false)

/-- Takes a user out. -/
def removeUser (s : Store) (id : String) : Except StoreError (Store × Bool) :=
  if s.users.any (·.id == id) then
    s.write .users .delete none (.ok { s with users := s.users.filter (·.id != id) })
  else .ok (s, false)

/-- Takes an instance out. -/
def removeInstance (s : Store) (id : String) : Except StoreError (Store × Bool) :=
  if s.instances.any (·.id == id) then
    s.write .instances .delete none
      (.ok { s with instances := s.instances.filter (·.id != id) })
  else .ok (s, false)

end Store

end ProxyFleet
