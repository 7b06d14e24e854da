import ProxyFleet.SwitchLog.Status
import ProxyFleet.Text.Order
import ProxyFleet.Value
import ProxyFleet.Engine

/-!
# Tools

What can be asked of the program from outside: each tool has a name and
parameters, and arguments are only let in if they are what the parameters say.
Arguments that no parameter names are passed over.
-/

namespace ProxyFleet

/-- What an argument must be. -/
inductive ArgumentKind where
  | text
  | texts
  | whole
  | wholes
  | flag
  | oneOf (words : List String)
  deriving DecidableEq, Repr

/-- Whether a value is of a kind. -/
def ArgumentKind.admits : ArgumentKind → Value → Bool
  | .text, .str _ => true
  | .texts, v => v.isTextArray
  | .whole, v => v.isWhole
  | .wholes, .arr vs => vs.all Value.isWhole
  | .flag, .bool _ => true
  | .oneOf words, .str s => words.contains s
  | _, _ => false

/-- A parameter of a tool. -/
structure Parameter where
  name : String
  kind : ArgumentKind
  required : Bool
  deriving DecidableEq, Repr

namespace Parameter

/-- A text that must be given. -/
def text (name : String) : Parameter := ⟨name, .text, true⟩

/-- A text that may be given. -/
def textIfAny (name : String) : Parameter := ⟨name, .text, false⟩

/-- A list of texts that may be given. -/
def textsIfAny (name : String) : Parameter := ⟨name, .texts, false⟩

/-- A whole number that may be given. -/
def wholeIfAny (name : String) : Parameter := ⟨name, .whole, false⟩

/-- Whether arguments give a parameter what it asks for. -/
def admits (p : Parameter) (arguments : Fields) : Bool :=
  match Fields.get arguments p.name with
  | .absent => !p.required
  | v => p.kind.admits v

end Parameter

/-- The tools. -/
inductive Tool where
  | createAgentHost
  | listAgentHosts
  | reportCapabilities
  | assignTemplate
  | checkCompatibility
  | generateConfig
  | createTemplate
  | updateTemplate
  | deleteTemplate
  | getTemplate
  | listTemplates
  | validateTemplate
  | previewTemplate
  | getDefaultTemplate
  | getCores
  | getInstances
  | createInstance
  | deleteInstance
  | switchCore
  | getSwitchLogs
  | convertConfig
  | parseConfig
  deriving DecidableEq, Repr

namespace Tool

/-- All tools. -/
def all : List Tool :=
  [.createAgentHost, .listAgentHosts, .reportCapabilities, .assignTemplate, .checkCompatibility,
    .generateConfig, .createTemplate, .updateTemplate, .deleteTemplate, .getTemplate,
    .listTemplates, .validateTemplate, .previewTemplate, .getDefaultTemplate, .getCores,
    .getInstances, .createInstance, .deleteInstance, .switchCore, .getSwitchLogs, .convertConfig,
    .parseConfig]

/-- The name of a tool. -/
def name : Tool → String
  | .createAgentHost => "create_agent_host"
  | .listAgentHosts => "list_agent_hosts"
  | .reportCapabilities => "report_capabilities"
  | .assignTemplate => "assign_template"
  | .checkCompatibility => "check_template_compatibility"
  | .generateConfig => "generate_config"
  | .createTemplate => "create_template"
  | .updateTemplate => "update_template"
  | .deleteTemplate => "delete_template"
  | .getTemplate => "get_template"
  | .listTemplates => "list_templates"
  | .validateTemplate => "validate_template"
  | .previewTemplate => "preview_template"
  | .getDefaultTemplate => "get_default_template"
  | .getCores => "get_cores"
  | .getInstances => "get_instances"
  | .createInstance => "create_instance"
  | .deleteInstance => "delete_instance"
  | .switchCore => "switch_core"
  | .getSwitchLogs => "get_switch_logs"
  | .convertConfig => "convert_config"
  | .parseConfig => "parse_config"

/-- The tool of a name. -/
def ofName? (s : String) : Option Tool := all.find? (·.name == s)

/-- An engine by its very name. -/
def engineWord : ArgumentKind := .oneOf (Engine.all.map Engine.name)

/-- The host a tool is about. -/
def hostId : Parameter := .text "agentHostId"

/-- What the tools that send a configuration have in common. -/
def sourceParameters : List Parameter :=
  [.textIfAny "configTemplateId", .textIfAny "configJson", .textIfAny "operatorId"]

/-- The parameters of a tool. -/
def parameters : Tool → List Parameter
  | .createAgentHost => [.text "name", .text "host", .textIfAny "token"]
  | .listAgentHosts => []
  | .reportCapabilities => [hostId, .textIfAny "coreType", .textIfAny "coreVersion",
      .textsIfAny "capabilities", .textsIfAny "buildTags"]
  | .assignTemplate | .checkCompatibility => [hostId, .text "templateId"]
  | .generateConfig | .getCores | .getInstances => [hostId]
  | .createTemplate => [.text "name", .text "type", .textIfAny "content",
      .textIfAny "description", .textIfAny "minVersion", .textsIfAny "capabilities"]
  | .updateTemplate => [.text "id", .textIfAny "name", .textIfAny "type", .textIfAny "content",
      .textIfAny "description", .textIfAny "minVersion", .textsIfAny "capabilities"]
  | .deleteTemplate | .getTemplate => [.text "id"]
  | .listTemplates => [⟨"type", engineWord, false⟩]
  | .validateTemplate => [.text "content", .text "type"]
  | .previewTemplate => [.text "content"]
  | .getDefaultTemplate => [⟨"type", engineWord, true⟩]
  | .createInstance => [hostId, .text "coreType", .text "instanceId"] ++ sourceParameters
  | .deleteInstance => [hostId, .text "instanceId"]
  | .switchCore => [hostId, .text "fromInstanceId", .text "toCoreType", .textIfAny "switchId",
      ⟨"listenPorts", .wholes, false⟩, ⟨"zeroDowntime", .flag, false⟩] ++ sourceParameters
  | .getSwitchLogs => [hostId, ⟨"status", .oneOf (SwitchStatus.all.map SwitchStatus.name), false⟩,
      .textIfAny "startAt", .textIfAny "endAt", .wholeIfAny "limit", .wholeIfAny "offset"]
  | .convertConfig => [.text "sourceEngine", .text "targetEngine", .text "rawConfig"]
  | .parseConfig => [.textIfAny "filename", .text "rawConfig"]

/-- Whether a tool can be called with some arguments. -/
def admits (t : Tool) (arguments : Fields) : Bool := t.parameters.all (·.admits arguments)

/-- A tool as it is listed: its name, its parameters and those that must be given. -/
def toValue (t : Tool) : Value :=
  .obj [("name", .str t.name),
    ("properties", .texts (sortTexts (t.parameters.map (·.name)))),
    ("required", .texts (sortTexts ((t.parameters.filter (·.required)).map (·.name))))]

/-- The list of all tools, by name. -/
def listing : Value := .arr ((sortBy (fun a b => textLe a.name b.name) all).map toValue)

end Tool

end ProxyFleet
