import ProxyFleet.Settings
import ProxyFleet.Value

/-!
# What is said between this side and an agent

An agent tells which cores it has, and starts one core in place of another when
asked to.
-/

namespace ProxyFleet

/-- How one agent is reached. -/
structure Connection where
  address : String
  token : String
  scheme : Scheme
  timeout : Number
  keepAlive : Number
  caFile : Option String
  certFile : Option String
  keyFile : Option String
  insecureSkipVerify : Bool
  deriving DecidableEq, Repr

/-- A connection as a record. -/
def Connection.toValue (c : Connection) : Value :=
  .ofFields [
    ("address", .str c.address),
    ("token", .str c.token),
    ("scheme", .str c.scheme.name),
    ("timeoutMs", .num c.timeout),
    ("keepAliveMs", .num c.keepAlive),
    ("tls", .ofFields [
      ("caFile", .ofOption .str c.caFile),
      ("certFile", .ofOption .str c.certFile),
      ("keyFile", .ofOption .str c.keyFile),
      ("insecureSkipVerify", .bool c.insecureSkipVerify)])]

/-- A core an agent knows of. -/
structure CoreInfo where
  type : String
  version : String
  installed : Bool
  capabilities : List String
  deriving DecidableEq, Repr

/-- A core as a record. -/
def CoreInfo.toValue (c : CoreInfo) : Value :=
  .ofFields [
    ("type", .str c.type),
    ("version", .str c.version),
    ("installed", .bool c.installed),
    ("capabilities", .texts c.capabilities)]

/-- Asks an agent to start a core; `fromInstanceId` is empty if it replaces none. -/
structure SwitchRequest where
  fromInstanceId : String
  toCoreType : String
  configText : String
  switchId : String
  listenPorts : List Number
  zeroDowntime : Bool
  deriving DecidableEq, Repr

/-- A request as a record. -/
def SwitchRequest.toValue (r : SwitchRequest) : Value :=
  .ofFields [
    ("fromInstanceId", .str r.fromInstanceId),
    ("toCoreType", .str r.toCoreType),
    ("configJson", .str r.configText),
    ("switchId", .str r.switchId),
    ("listenPorts", .arr (r.listenPorts.map .num)),
    ("zeroDowntime", .bool r.zeroDowntime)]

/-- What an agent says of a switch it was asked for. -/
structure SwitchReply where
  success : Bool
  newInstanceId : String
  message : String
  error : String
  deriving DecidableEq, Repr

/-- A reply as a record. -/
def SwitchReply.toValue (r : SwitchReply) : Value :=
  .ofFields [
    ("success", .bool r.success),
    ("newInstanceId", .str r.newInstanceId),
    ("message", .str r.message),
    ("error", .str r.error)]

end ProxyFleet
