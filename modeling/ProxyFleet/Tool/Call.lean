import ProxyFleet.Site.Templates
import ProxyFleet.Site.Traffic
import ProxyFleet.Tool

/-!
# Calling a tool

A tool answers with a text. What goes wrong is an answer too, marked as an
error; a failure is given in words with its code.
-/

namespace ProxyFleet

/-- What the agent of a host will do if it is asked for its cores, or for a switch. -/
structure AgentSide where
  cores : Except Problem (List Value)
  switch : CallEnd

/-- The answer of a tool. -/
structure ToolAnswer where
  text : String
  isError : Bool
  deriving DecidableEq, Repr

namespace ToolAnswer

/-- The answer if a tool is not there, or its arguments are not what it asks for. -/
def rejected : ToolAnswer := ⟨"MCP error -32602", true⟩

/-- A problem as an answer. -/
def ofProblem : Problem → ToolAnswer
  | .failure f => ⟨f.describe, true⟩
  | p => ⟨p.message, true⟩

/-- The answer that the outcome of a call is. -/
def ofResult : Except Problem String → ToolAnswer
  | .ok text => ⟨text, false⟩
  | .error p => ofProblem p

end ToolAnswer

/-- A compatibility as a record. -/
def Compatibility.toValue (c : Compatibility) : Value :=
  .obj [("compatible", .bool c.compatible), ("warnings", .texts c.warnings),
    ("errors", .texts c.errors)]

/-- A verdict as a record. -/
def Verdict.toValue (v : Verdict) : Value :=
  .obj [("valid", .bool v.valid), ("errors", .texts v.errors), ("warnings", .texts v.warnings)]

namespace Tool

/-- An argument that is a text. -/
def textArgument (a : Fields) (name : String) : String := (Fields.get a name).asText

/-- An argument that may be a text. -/
def textArgument? (a : Fields) (name : String) : Option String := (Fields.get a name).text?

/-- An argument that may be a list of texts. -/
def textsArgument? (a : Fields) (name : String) : Option (List String) :=
  match Fields.get a name with
  | .absent => none
  | v => some v.textList

/-- An argument that may be a number. -/
def numberArgument? (a : Fields) (name : String) : Option Number := (Fields.get a name).number?

/-- Where the configuration of a call comes from. -/
def sourceArgument (a : Fields) : ConfigSource :=
  ⟨textArgument? a "configTemplateId", textArgument? a "configJson"⟩

/-- A host to be registered. -/
def hostRequest (a : Fields) : HostRequest :=
  ⟨textArgument a "name", textArgument a "host", textArgument? a "token"⟩

/-- What an agent reports. -/
def agentReport (a : Fields) : AgentReport where
  coreType := textArgument? a "coreType"
  coreVersion := textArgument? a "coreVersion"
  capabilities := textsArgument? a "capabilities"
  buildTags := textsArgument? a "buildTags"

/-- A template to be written. -/
def templateRequest (a : Fields) : TemplateRequest where
  name := textArgument a "name"
  type := textArgument a "type"
  content := textArgument? a "content"
  description := textArgument? a "description"
  minVersion := textArgument? a "minVersion"
  capabilities := textsArgument? a "capabilities"

/-- Changes of a template. -/
def templateEdit (a : Fields) : TemplateEdit where
  name := textArgument? a "name"
  type := textArgument? a "type"
  content := textArgument? a "content"
  description := textArgument? a "description"
  minVersion := textArgument? a "minVersion"
  capabilities := textsArgument? a "capabilities"

/-- An instance to be started. -/
def startRequest (a : Fields) : StartRequest where
  hostId := textArgument a "agentHostId"
  coreType := textArgument a "coreType"
  instanceId := textArgument a "instanceId"
  source := sourceArgument a
  operatorId := textArgument? a "operatorId"

/-- A core to be replaced. -/
def replaceRequest (a : Fields) : ReplaceRequest where
  hostId := textArgument a "agentHostId"
  fromInstanceId := textArgument a "fromInstanceId"
  toCoreType := textArgument a "toCoreType"
  source := sourceArgument a
  switchId := textArgument? a "switchId"
  listenPorts := ((Fields.get a "listenPorts").items?.getD []).filterMap Value.number?
  zeroDowntime := (Fields.get a "zeroDowntime").isTruthy
  operatorId := textArgument? a "operatorId"

/-- A page of switch logs. -/
def logsRequest (a : Fields) : LogsRequest where
  filter := ⟨textArgument a "agentHostId", textArgument? a "status", textArgument? a "startAt",
    textArgument? a "endAt"⟩
  limit := numberArgument? a "limit"
  offset := numberArgument? a "offset"

/-- What is said of a host without a template. -/
def noTemplateText : String :=
  "No template assigned; the agent keeps its local configuration."

/-- What is asked for when no file name is given. -/
def fileArgument (a : Fields) : String := (textArgument? a "filename").getD defaultFile

/-- The text of a record that a tool answers with. -/
def recordText (v : Value) : String := v.spreadText

/-- The text of a list of records. -/
def listText {α : Type} (f : α → Value) (as : List α) : String := recordText (.arr (as.map f))

/-- Calls a tool with arguments it admits. -/
def perform (t : Tool) (a : Fields) (agent : AgentSide) : Work String :=
  let text := textArgument a
  match t with
  | .createAgentHost => do return recordText (← Work.createHost (hostRequest a)).toValue
  | .listAgentHosts => do return listText AgentHost.toValue (← Work.ask (·.allHosts))
  | .reportCapabilities => do
    return recordText (← Work.reportCapabilities (text "agentHostId") (agentReport a)).toValue
  | .assignTemplate => do
    return recordText (← Work.assignTemplate (text "agentHostId") (text "templateId")).toValue
  | .checkCompatibility => do
    return recordText (← Work.checkCompatibility (text "agentHostId") (text "templateId")).toValue
  | .generateConfig => do
    return (← Work.generateConfig (text "agentHostId")).getD noTemplateText
  | .createTemplate => do return recordText (← Work.createTemplate (templateRequest a)).toValue
  | .updateTemplate => do
    return recordText (← Work.updateTemplate (text "id") (templateEdit a)).toValue
  | .deleteTemplate => do
    Work.deleteTemplate (text "id")
    return "Deleted template " ++ text "id"
  | .getTemplate => do return recordText (← Work.requireTemplate (text "id")).toValue
  | .listTemplates => do
    return listText ConfigTemplate.toValue (← Work.listTemplates (textArgument? a "type"))
  | .validateTemplate => return recordText (Template.check (text "content") (text "type")).toValue
  | .previewTemplate => Work.previewTemplate (text "content")
  | .getDefaultTemplate => do return (← Work.defaultTemplate (text "type")).2
  | .getCores => do return listText id (← Work.getCores (text "agentHostId") agent.cores)
  | .getInstances => do
    return listText CoreInstance.toValue (← Work.getInstances (text "agentHostId"))
  | .createInstance => do
    return recordText (← Work.perform (.start (startRequest a)) agent.switch).toValue
  | .deleteInstance => do
    Work.deleteInstance (text "agentHostId") (text "instanceId")
    return "Deleted instance " ++ text "instanceId"
  | .switchCore => do
    return recordText (← Work.perform (.replace (replaceRequest a)) agent.switch).toValue
  | .getSwitchLogs => do return recordText (← Work.getSwitchLogs (logsRequest a)).toValue
  | .convertConfig => do
    let r ← Work.convert (text "sourceEngine") (text "targetEngine") (text "rawConfig")
    return recordText (.obj [("config", .str r.value), ("warnings", .texts r.notes)])
  | .parseConfig => do
    let (engine, found) ← Work.ofResult (parseAny (fileArgument a) (text "rawConfig"))
    return recordText (.obj [("engine", .str engine.name),
      ("inbounds", .arr (found.value.map Inbound.toValue)), ("warnings", .texts found.notes)])

end Tool

/-- Calls the tool of a name with arguments from outside. -/
def callTool (t : Traffic) (name : String) (arguments : Value) (agent : AgentSide) :
    ToolAnswer × Traffic :=
  match Tool.ofName? name, arguments with
  | some tool, .obj a =>
    if tool.admits a then
      let (result, t) := t.run (tool.perform a agent)
      (.ofResult result, t)
    else (.rejected, t)
  | _, _ => (.rejected, t)

end ProxyFleet
