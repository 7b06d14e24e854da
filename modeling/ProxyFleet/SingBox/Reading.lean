import ProxyFleet.Inbound.File
import ProxyFleet.Inbound.Rules
import ProxyFleet.Noted

/-!
# Reading sing-box listeners

Every part of a listener that has the wrong shape is left out with a note; only
a listener that is no record, or has no type, is dropped as a whole.
-/

namespace ProxyFleet

namespace SingBox

/-- The settings of a listener that are kept as they are. -/
def optionNames : List String :=
  ["method", "password", "network", "version", "detour", "handshake", "congestion_control",
    "zero_rtt_handshake", "ignore_client_bandwidth", "up_mbps", "down_mbps", "obfs", "masquerade"]

/-- A field that should be a record. Absent, null and empty ones are passed over in silence,
other values with a note. -/
def recordOr (v : Value) (note : String) : Noted (Option Fields) :=
  match v with
  | .absent | .null | .obj [] => pure none
  | .obj fs => pure (some fs)
  | _ => do Noted.note note; pure none

/-- One client of a listener. -/
def readUser (type : String) (fs : Fields) : User where
  uuid := textOf fs "uuid"
  email := firstText (textOf fs "name") (textOf fs "username")
  password := textOf fs "password"
  flow := if type = "vless" then textOf fs "flow" else ""
  method := ""

/-- The clients of a listener. -/
def readUsers (type : String) (v : Value) (place : String) : Noted (List User) :=
  match v with
  | .absent | .null => pure []
  | .arr us => Noted.filterMap (fun i u =>
      match u with
      | .obj fs => pure (some (readUser type fs))
      | _ => do
        Noted.note (place ++ ": user #" ++ toString i ++ " is not an object; skipped")
        pure none) us
  | _ => do Noted.note (place ++ ": \"users\" is not an array; users skipped"); pure []

/-- The server a Reality listener hands visitors to. -/
def readHandshake (v : Value) (place : String) : Noted (Option Handshake) :=
  match v with
  | .absent => pure none
  | .obj fs => pure (some ⟨textOf fs "server", (Fields.get fs "server_port").asInt⟩)
  | _ => do
    Noted.note (place ++ ": \"tls.reality.handshake\" is not an object; handshake skipped")
    pure none

/-- Reality; it takes its server name from the security around it. -/
def readReality (v : Value) (serverName place : String) : Noted (Option Reality) := do
  match ← recordOr v (place ++ ": \"tls.reality\" is not an object; Reality skipped") with
  | none => pure none
  | some fs =>
    let handshake ← readHandshake (Fields.get fs "handshake") place
    pure (some {
      enabled := (Fields.get fs "enabled").asBool
      shortIds := (Fields.get fs "short_id").textList
      serverName := serverName
      alternateServerNames := []
      fingerprint := ""
      publicKey := ""
      privateKey := textOf fs "private_key"
      handshake := handshake })

/-- Transport security. -/
def readTls (v : Value) (place : String) : Noted (Option Tls) := do
  match ← recordOr v (place ++ ": \"tls\" is not an object; TLS skipped") with
  | none => pure none
  | some fs =>
    let serverName := textOf fs "server_name"
    let reality ← readReality (Fields.get fs "reality") serverName place
    pure (some {
      enabled := (Fields.get fs "enabled").asBool
      serverName := serverName
      alpn := (Fields.get fs "alpn").textList
      certificatePath := textOf fs "certificate_path"
      keyPath := textOf fs "key_path"
      reality := reality })

/-- A fixed sending rate. -/
def readBrutal (v : Value) (place : String) : Noted (Option Brutal) :=
  match v with
  | .absent => pure none
  | .obj fs => pure (some ⟨(Fields.get fs "enabled").asBool, (Fields.get fs "up_mbps").asInt,
      (Fields.get fs "down_mbps").asInt⟩)
  | _ => do
    Noted.note (place ++ ": \"multiplex.brutal\" is not an object; brutal skipped")
    pure none

/-- Multiplexing. -/
def readMultiplex (v : Value) (place : String) : Noted (Option Multiplex) := do
  match ← recordOr v (place ++ ": \"multiplex\" is not an object; multiplex skipped") with
  | none => pure none
  | some fs =>
    let brutal ← readBrutal (Fields.get fs "brutal") place
    pure (some ⟨(Fields.get fs "enabled").asBool, (Fields.get fs "padding").asBool, brutal⟩)

/-- The transport; one without a type is left out. -/
def readTransport (v : Value) (place : String) : Noted (Option Transport) := do
  match ← recordOr v (place ++ ": \"transport\" is not an object; transport skipped") with
  | none => pure none
  | some fs =>
    let type := textOf fs "type"
    if type = "" then
      Noted.note (place ++ ": \"transport.type\" is missing; transport skipped")
      pure none
    else
      let (host, headers) := Transport.hostAndHeaders fs
      pure (some ⟨type, textOf fs "path", host,
        textOf fs "service_name", headers⟩)

/-- The settings of a listener that are kept as they are. -/
def readOptions (el : Fields) : Fields :=
  optionNames.filterMap fun name => ((Fields.get el name).data?).map (name, ·)

/-- The clients and settings of a shadowsocks listener. A password without clients is a single
client; every client has the listener's method. -/
def shadowsocksUsers (users : List User) (options : Fields) : List User × Fields :=
  let method := (Fields.get options "method").asText
  let (users, options) := match users, Fields.get options "password" with
    | [], .str password =>
      ([{ User.empty with password := password }], Fields.erase options "password")
    | us, _ => (us, options)
  (users.map fun u => { u with method := method }, options)

/-- One listener. -/
def readInbound (el : Fields) (index : Nat) : Noted (Option Inbound) := do
  let type := textOf el "type"
  let tag := textOf el "tag"
  let place := Inbound.label tag index
  if type = "" then
    Noted.note (place ++ ": missing \"type\"; skipped")
    pure none
  else
    let found ← readUsers type (Fields.get el "users") place
    let (users, options) :=
      if type = "shadowsocks" then shadowsocksUsers found (readOptions el)
      else (found, readOptions el)
    let tls ← readTls (Fields.get el "tls") place
    let multiplex ← readMultiplex (Fields.get el "multiplex") place
    let transport ← readTransport (Fields.get el "transport") place
    pure (some {
      type, tag, transport, tls, multiplex, users, options
      listen := textOf el "listen"
      listenPort := (Fields.get el "listen_port").asInt })

/-- The listeners of an array. -/
def readElements (els : List Value) : Noted (List Inbound) :=
  Noted.filterMap (fun i el =>
    match el with
    | .obj fs => readInbound fs i
    | _ => do
      Noted.note ("inbound #" ++ toString i ++ ": not an object; skipped")
      pure none) els

/-- The listeners of a file. -/
def read (file text : String) : Except Failure (Noted (List Inbound)) :=
  (ConfigFile.elements .singBox file text).map readElements

end SingBox

end ProxyFleet
