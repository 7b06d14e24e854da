import ProxyFleet.Capability
import ProxyFleet.Value

/-!
# Inbounds

One listener of a proxy core, in the form both engines are read into and written
from. What a listener needs from the core is computed from its parts
(`Inbound.requirements`) and is no field of its own.
-/

namespace ProxyFleet

/-- How a listener's streams are carried. -/
structure Transport where
  type : String
  path : String
  host : String
  serviceName : String
  headers : List (String × String)
  deriving DecidableEq, Repr

/-- The server a Reality listener hands unknown visitors to. -/
structure Handshake where
  server : String
  serverPort : Number
  deriving DecidableEq, Repr

/-- Reality; further server names beside the first stand in `alternateServerNames`. -/
structure Reality where
  enabled : Bool
  shortIds : List String
  serverName : String
  alternateServerNames : List String
  fingerprint : String
  publicKey : String
  privateKey : String
  handshake : Option Handshake
  deriving DecidableEq, Repr

/-- Transport security. -/
structure Tls where
  enabled : Bool
  serverName : String
  alpn : List String
  certificatePath : String
  keyPath : String
  reality : Option Reality
  deriving DecidableEq, Repr

/-- A fixed sending rate. -/
structure Brutal where
  enabled : Bool
  upMbps : Number
  downMbps : Number
  deriving DecidableEq, Repr

/-- Many streams over one connection. -/
structure Multiplex where
  enabled : Bool
  padding : Bool
  brutal : Option Brutal
  deriving DecidableEq, Repr

/-- A client of a listener; what a protocol has no use for is empty. -/
structure User where
  uuid : String
  email : String
  password : String
  flow : String
  method : String
  deriving DecidableEq, Repr

/-- A client without any data. -/
def User.empty : User := ⟨"", "", "", "", ""⟩

/-- A listener. `options` are the protocol's own settings that have no place elsewhere. -/
structure Inbound where
  type : String
  tag : String
  listen : String
  listenPort : Number
  transport : Option Transport
  tls : Option Tls
  multiplex : Option Multiplex
  users : List User
  options : Fields
  deriving Repr

/-- A transport of a type, all else empty. -/
def Transport.ofType (type : String) : Transport := ⟨type, "", "", "", []⟩

/-- Security that is switched off, all else empty. -/
def Tls.off : Tls := ⟨false, "", [], "", "", none⟩

/-- Reality that is switched off, all else empty. -/
def Reality.off : Reality := ⟨false, [], "", [], "", "", "", none⟩

namespace Inbound

/-- Whether Reality is there and switched on. -/
def realityOn (i : Inbound) : Bool := i.tls.any fun t => t.reality.any (·.enabled)

/-- Whether multiplexing is there and switched on. -/
def multiplexOn (i : Inbound) : Bool := i.multiplex.any (·.enabled)

/-- Whether a fixed rate is there and switched on. -/
def brutalOn (i : Inbound) : Bool := i.multiplex.any fun m => m.brutal.any (·.enabled)

/-- What the parts of a listener that are switched on need from the core. -/
def requirements (i : Inbound) : List Capability :=
  (if i.realityOn then [.reality] else [])
    ++ (if i.multiplexOn then [.multiplex] else [])
    ++ (if i.brutalOn then [.brutal] else [])

/-- How notes name a listener: by its tag, or by its place. -/
def label (tag : String) (index : Nat) : String :=
  if tag = "" then "inbound #" ++ toString index else "inbound '" ++ tag ++ "'"

end Inbound

/-! ## Inbounds as values -/

/-- Header fields as a value. -/
def headersValue (hs : List (String × String)) : Value := .obj (hs.map fun h => (h.1, .str h.2))

/-- A transport as a value. -/
def Transport.toValue (t : Transport) : Value :=
  .obj [("type", .str t.type), ("path", .str t.path), ("host", .str t.host),
    ("serviceName", .str t.serviceName), ("headers", headersValue t.headers)]

/-- A handshake as a value. -/
def Handshake.toValue (h : Handshake) : Value :=
  .obj [("server", .str h.server), ("serverPort", .num h.serverPort)]

/-- Reality as a value. -/
def Reality.toValue (r : Reality) : Value :=
  .obj ([("enabled", .bool r.enabled), ("shortIds", .texts r.shortIds),
    ("serverName", .str r.serverName),
    ("alternateServerNames", .texts r.alternateServerNames),
    ("fingerprint", .str r.fingerprint), ("publicKey", .str r.publicKey),
    ("privateKey", .str r.privateKey)]
    ++ r.handshake.toList.map fun h => ("handshake", h.toValue))

/-- Security as a value. -/
def Tls.toValue (t : Tls) : Value :=
  .obj ([("enabled", .bool t.enabled), ("serverName", .str t.serverName), ("alpn", .texts t.alpn),
    ("certificatePath", .str t.certificatePath), ("keyPath", .str t.keyPath)]
    ++ t.reality.toList.map fun r => ("reality", r.toValue))

/-- A fixed rate as a value. -/
def Brutal.toValue (b : Brutal) : Value :=
  .obj [("enabled", .bool b.enabled), ("upMbps", .num b.upMbps), ("downMbps", .num b.downMbps)]

/-- Multiplexing as a value. -/
def Multiplex.toValue (m : Multiplex) : Value :=
  .obj ([("enabled", .bool m.enabled), ("padding", .bool m.padding)]
    ++ m.brutal.toList.map fun b => ("brutal", b.toValue))

/-- A client as a value. -/
def User.toValue (u : User) : Value :=
  .obj [("uuid", .str u.uuid), ("email", .str u.email), ("password", .str u.password),
    ("flow", .str u.flow), ("method", .str u.method)]

/-- A listener as a value, what it needs included. -/
def Inbound.toValue (i : Inbound) : Value :=
  .obj ([("type", .str i.type), ("tag", .str i.tag), ("listen", .str i.listen),
      ("listenPort", .num i.listenPort)]
    ++ (i.transport.toList.map fun t => ("transport", t.toValue))
    ++ (i.tls.toList.map fun t => ("tls", t.toValue))
    ++ (i.multiplex.toList.map fun m => ("multiplex", m.toValue))
    ++ [("users", .arr (i.users.map User.toValue)), ("options", .obj i.options),
      ("requiredCapabilities", .texts (i.requirements.map Capability.name))])

end ProxyFleet
