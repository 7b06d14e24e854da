/-!
# Failures

Why an operation was refused or broke off. Each family of failures has its
causes, one message for each cause, and one code and status for the family.
-/

namespace ProxyFleet

/-- What is wrong with what a caller gave. -/
inductive Invalid where
  | nameRequired
  | hostRequired
  | contentRequired
  | nameEmptied
  | contentEmptied
  | sourceEngineRequired
  | targetEngineRequired
  | configRequired
  | unknownEngine (name : String)
  | unknownCoreType (name : String)
  | badMinVersion (text : String)
  | hostIdRequired
  | instanceIdRequired
  | fromInstanceIdRequired
  | noConfigSource
  | badConfigText (why : String)
  | badGeneratedConfig (errors : List String)
  | inWords (message : String)
  deriving DecidableEq, Repr

/-- What was asked for and is not there. -/
inductive Missing where
  | agentHost (id : String)
  | template (id : String)
  | instance (id : String)
  | inWords (message : String)
  deriving DecidableEq, Repr

/-- What stands in the way. -/
inductive Conflict where
  | instanceExists (instanceId host : String)
  | instanceBusy (instanceId host : String)
  | switchRunning (instanceId host : String)
  | inWords (message : String)
  deriving DecidableEq, Repr

/-- Why a configuration file cannot be read. -/
inductive Unreadable where
  | badText (engine file why : String)
  | inboundsNotArray (engine file : String)
  | notContainer (engine file : String)
  | formatUnknown (file : String)
  | inWords (message : String)
  deriving DecidableEq, Repr

/-- The stage of rendering a template at which it failed. -/
inductive Stage where
  | reading
  | running
  | output
  deriving DecidableEq, Repr

/-- Failures that are neither the caller's nor the agent's. -/
inductive Internal where
  | notRecorded (instanceId why : String)
  | schemaTooNew (version : Int)
  | schemaForeign
  | inWords (message : String)
  deriving DecidableEq, Repr

/-- The version of the database schema this library works on. -/
def schemaVersion : Int := 1

/-- Why an operation failed. A failure of the agent names the audit row it was recorded in, if
there is one. -/
inductive Failure where
  | invalid (why : Invalid)
  | missing (what : Missing)
  | conflict (why : Conflict)
  | incompatible (message : String) (reasons : List String)
  | unreadable (why : Unreadable)
  | template (stage : Stage) (message : String)
  | agent (message : String) (log : Option String)
  | internal (why : Internal) (status : Int) (code : Option String)
  deriving DecidableEq, Repr

/-- The text of a caller's mistake. -/
def Invalid.message : Invalid → String
  | .nameRequired => "name is required"
  | .hostRequired => "host is required"
  | .contentRequired => "content is required"
  | .nameEmptied => "name must not be empty"
  | .contentEmptied => "content must not be empty"
  | .sourceEngineRequired => "source engine is required"
  | .targetEngineRequired => "target engine is required"
  | .configRequired => "config is required"
  | .unknownEngine name =>
    "unknown core engine: '" ++ name ++ "' (expected one of sing-box, xray)"
  | .unknownCoreType name => "unknown core type: " ++ name
  | .badMinVersion text => "invalid minVersion: " ++ text
  | .hostIdRequired => "agentHostId is required"
  | .instanceIdRequired => "instanceId is required"
  | .fromInstanceIdRequired => "fromInstanceId is required"
  | .noConfigSource => "configJson or configTemplateId is required"
  | .badConfigText why => "config json is invalid: " ++ why
  | .badGeneratedConfig errors =>
    "generated config validation failed: " ++ "; ".intercalate errors
  | .inWords message => message

/-- The text of a missing thing. -/
def Missing.message : Missing → String
  | .agentHost id => "agent host not found: " ++ id
  | .template id => "config template not found: " ++ id
  | .instance id => "instance not found: " ++ id
  | .inWords message => message

/-- The text of a conflict. -/
def Conflict.message : Conflict → String
  | .instanceExists i h => "instance " ++ i ++ " already exists on agent host " ++ h
  | .instanceBusy i h => "instance " ++ i ++ " on agent host " ++ h ++ " is busy"
  | .switchRunning i h =>
    "a switch is already running for instance " ++ i ++ " on agent host " ++ h
  | .inWords message => message

/-- The text of an unreadable file. -/
def Unreadable.message : Unreadable → String
  | .badText engine file why => engine ++ ": invalid JSON in " ++ file ++ ": " ++ why
  | .inboundsNotArray engine file => engine ++ ": \"inbounds\" in " ++ file ++ " is not an array"
  | .notContainer engine file =>
    engine ++ ": " ++ file ++ " must be an object or an array of inbounds"
  | .formatUnknown file => file ++ ": could not detect configuration format"
  | .inWords message => message

/-- The text of an internal failure. -/
def Internal.message : Internal → String
  | .notRecorded i why => "instance " ++ i ++ " started on agent but was not recorded: " ++ why
  | .schemaTooNew version =>
    "database schema version " ++ toString version ++ " is newer than this build supports ("
      ++ toString schemaVersion ++ ")"
  | .schemaForeign => "database has tables but no schema version; refusing to modify it"
  | .inWords message => message

/-- The word for a stage of rendering. -/
def Stage.name : Stage → String
  | .reading => "syntax"
  | .running => "execution"
  | .output => "invalid_json"

namespace Failure

/-- The message of a failure. -/
def message : Failure → String
  | .invalid why => why.message
  | .missing what => what.message
  | .conflict why => why.message
  | .incompatible message _ => message
  | .unreadable why => why.message
  | .template _ message => message
  | .agent message _ => message
  | .internal why _ _ => why.message

/-- The code of a failure, by family. -/
def code : Failure → Option String
  | .invalid _ => some "VALIDATION_ERROR"
  | .missing _ => some "NOT_FOUND"
  | .conflict _ => some "CONFLICT"
  | .incompatible .. => some "INCOMPATIBLE"
  | .unreadable _ => some "CODEC_ERROR"
  | .template .. => some "TEMPLATE_ERROR"
  | .agent .. => some "AGENT_RPC_ERROR"
  | .internal _ _ code => code

/-- The status of a failure, by family. -/
def status : Failure → Int
  | .invalid _ => 400
  | .missing _ => 404
  | .conflict _ => 409
  | .incompatible .. => 422
  | .unreadable _ => 400
  | .template .. => 400
  | .agent .. => 502
  | .internal _ status _ => status

/-- A failure in words: code and message, the reasons of an incompatibility one a line, and the
audit row of an agent's failure. -/
def describe (f : Failure) : String :=
  let head := f.code.getD "ERROR" ++ ": " ++ f.message
  match f with
  | .incompatible _ (r :: rs) => head ++ "\n- " ++ "\n- ".intercalate (r :: rs)
  | .agent _ (some log) => head ++ " (switch log " ++ log ++ ")"
  | _ => head

end Failure

/-- What the reader of data texts says of every text that is not one. -/
def badTextReason : String := "invalid JSON"

end ProxyFleet
