import ProxyFleet.Engine
import ProxyFleet.Number.Decimal
import ProxyFleet.Value.Printer
import ProxyFleet.Value.Reader

/-!
# Checking configurations

What a configuration must have before it is sent to an agent. Errors make it
unusable, warnings do not; a configuration is valid if it has no errors.
-/

namespace ProxyFleet

/-- What is wrong with a configuration, and what is unusual. -/
structure Verdict where
  errors : List String
  warnings : List String
  deriving DecidableEq, Repr

namespace Verdict

/-- Nothing is wrong. -/
def clear : Verdict := ⟨[], []⟩

/-- A verdict without errors. -/
def valid (v : Verdict) : Bool := v.errors.isEmpty

/-- Two verdicts together. -/
def and (v w : Verdict) : Verdict := ⟨v.errors ++ w.errors, v.warnings ++ w.warnings⟩

/-- Many verdicts together, in order. -/
def all (vs : List Verdict) : Verdict := ⟨vs.flatMap (·.errors), vs.flatMap (·.warnings)⟩

/-- An error, if a condition holds. -/
def errorIf (b : Bool) (text : String) : Verdict := if b then ⟨[text], []⟩ else clear

/-- A warning, if a condition holds. -/
def warningIf (b : Bool) (text : String) : Verdict := if b then ⟨[], [text]⟩ else clear

/-- The first error, empty if there is none. -/
def firstError (v : Verdict) : String := v.errors.headD ""

end Verdict

namespace ConfigCheck

open Verdict

/-- A number that no port has. -/
def badPort? : Value → Option Number
  | .num n => if Number.lt 0 n && n.le 65535 then none else some n
  | _ => none

/-- A field that must be there. -/
def required (fs : Fields) (place name : String) : Verdict :=
  errorIf (!Fields.has fs name) (place ++ ": missing '" ++ name ++ "' field")

/-- The port of a listener. -/
def port (fs : Fields) (place name : String) : Verdict :=
  match badPort? (Fields.get fs name) with
  | some n => errorIf true (place ++ ": invalid port " ++ n.text)
  | none => clear

/-- What is unusual for the protocol of a sing-box listener. -/
def singBoxProtocol (fs : Fields) (place : String) : Verdict :=
  let type := typeOf fs
  if type = "vless" || type = "vmess" || type = "trojan" then
    warningIf (!Fields.has fs "users") (place ++ " (" ++ type
      ++ "): no 'users' defined - ensure users are injected")
  else if type = "shadowsocks" then
    let hasUsers := match Fields.get fs "users" with
      | .arr xs => !xs.isEmpty
      | _ => false
    warningIf (!Fields.has fs "method" && !hasUsers)
      (place ++ " (shadowsocks): consider specifying 'method' for cipher")
  else if type = "hysteria2" || type = "tuic" then
    warningIf (!Fields.has fs "tls") (place ++ " (" ++ type
      ++ "): typically requires 'tls' configuration")
  else clear
where
  /-- The type of a listener. -/
  typeOf (fs : Fields) : String := (Fields.get fs "type").asText

/-- A sing-box listener. -/
def singBoxInbound (index : Nat) (v : Value) : Verdict :=
  let place := "Inbound " ++ toString index
  match v with
  | .obj fs => all [required fs place "type", required fs place "tag", singBoxProtocol fs place,
      port fs place "listen_port"]
  | _ => errorIf true (place ++ ": must be a JSON object")

/-- A sing-box outbound. -/
def singBoxOutbound (index : Nat) (v : Value) : Verdict :=
  let place := "Outbound " ++ toString index
  match v with
  | .obj fs => all [required fs place "type", required fs place "tag"]
  | _ => errorIf true (place ++ ": must be a JSON object")

/-- An Xray listener. -/
def xrayInbound (index : Nat) (v : Value) : Verdict :=
  let place := "Inbound " ++ toString index
  match v with
  | .obj fs => all [required fs place "protocol", required fs place "tag",
      warningIf (!Fields.has fs "settings")
        (place ++ ": missing 'settings' - ensure it's injected or defined"),
      port fs place "port"]
  | _ => errorIf true (place ++ ": must be a JSON object")

/-- The items of a section, which must be an array if it is there. -/
def checkSection (fs : Fields) (name : String) (item : Nat → Value → Verdict) : Verdict :=
  match Fields.get fs name with
  | .absent => clear
  | .arr xs => all (xs.zipIdx.map fun (x, i) => item i x)
  | _ => errorIf true ("'" ++ name ++ "' must be an array")

/-- A section that should be there. -/
def expected (fs : Fields) (name advice : String) : Verdict :=
  warningIf (!Fields.has fs name) ("Missing '" ++ name ++ "' section - " ++ advice)

/-- What a missing section of listeners means. -/
def inboundsAdvice : String := "will be injected by system if using dynamic mode"

/-- A sing-box configuration. -/
def singBox (fs : Fields) : Verdict :=
  all [expected fs "inbounds" inboundsAdvice,
    expected fs "outbounds" "recommend adding at least 'direct' and 'block'",
    expected fs "log" "recommend adding for debugging",
    checkSection fs "inbounds" singBoxInbound, checkSection fs "outbounds" singBoxOutbound]

/-- An Xray configuration. -/
def xray (fs : Fields) : Verdict :=
  all [expected fs "inbounds" inboundsAdvice,
    expected fs "outbounds" "recommend adding at least 'freedom' and 'blackhole'",
    checkSection fs "inbounds" xrayInbound]

/-- The configuration of an engine must be a record. -/
def record (check : Fields → Verdict) : Value → Verdict
  | .obj fs => check fs
  | _ => errorIf true "Config must be a JSON object"

/-- A configuration of a type; `kind` is the word for it in the note that a type is unknown. -/
def checkStructure (kind type : String) (v : Value) : Verdict :=
  match Engine.ofName? type with
  | some .singBox => record singBox v
  | some .xray => record xray v
  | none => warningIf true ("Unknown " ++ kind ++ " type '" ++ type
      ++ "', skipping type-specific validation")

end ConfigCheck

/-- Checks the text of a configuration before it is sent. -/
def checkConfig (text type : String) : Verdict :=
  match Value.ofText? text with
  | some v => ConfigCheck.checkStructure "config" type v
  | none => ⟨["Invalid JSON: " ++ badTextReason], []⟩

end ProxyFleet
