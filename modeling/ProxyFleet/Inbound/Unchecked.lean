import ProxyFleet.Conversion
import ProxyFleet.Inbound.Record
import ProxyFleet.Value.Display

/-!
# Writing unchecked records

A record whose parts have any shape is written as far as its shape allows: what
is missing is left out, what is there is written as it is, and a part that is
null where fields are asked of it is a fault. A record that is a well-shaped
listener is written by the engine (`Engine.writeRecord`).
-/

namespace ProxyFleet

namespace Unchecked

/-- Writing that may hit a fault and collects notes. -/
abbrev Write := StateT (List String) (Except ShapeFault)

/-- One note. -/
def note (text : String) : Write Unit := modify (· ++ [text])

/-- How notes name a record. -/
def label (tag : Value) (index : Nat) : Write String := do
  if tag.isEmptyText then pure (Inbound.label "" index)
  else pure ("inbound '" ++ (← tag.display) ++ "'")

/-- Reality is there and switched on. -/
def realityOn (v : Value) : Bool := ((v.get "tls").get "reality").isEnabled

/-- Whether a value is a certain text. -/
def isText (v : Value) (s : String) : Bool := v.text? == some s

/-- Whether a value is one of some texts. -/
def isOneOf (v : Value) (ss : List String) : Bool := v.text?.any (ss.contains ·)

/-- Fields of a value under new names. -/
def select (v : Value) (names : List (String × String)) : Write Fields := do
  pure (Fields.compact (← names.mapM fun (out, name) => do pure (out, ← v.field name)))

/-- The method of a shadowsocks record: its own, else that of the first client with one. -/
def shadowsocksMethod (options : Value) (users : List Value) : Write Value := do
  let own ← options.field "method"
  if own.asText != "" then pure (.str own.asText)
  else
    let found ← users.foldlM (fun (acc : Option Value) u => match acc with
      | some m => pure (some m)
      | none => do
        let m ← u.field "method"
        pure (if m.isEmptyText then none else some m)) none
    pure ((found.getD .absent).or (.str defaultMethod))

/-- The header fields of a web socket, the host among them. -/
def headerFields (t : Value) : Write Fields := do
  let headers := (← t.field "headers").parts
  let host ← t.field "host"
  pure (if host.isEmptyText then headers else Fields.put headers "Host" host)

/-- A host as a list of one. -/
def hostList (host : Value) : Value := if host.isEmptyText then .absent else .arr [host]

/-- A part under its name, if it is there. -/
def partField (name : String) (write : Value → Write Value) (part : Value) : Write Fields :=
  match part with
  | .absent => pure []
  | p => do pure [(name, ← write p)]

/-! ## sing-box -/

/-- One client for sing-box. -/
def singBoxUser (type : Value) (realityOn : Bool) (u : Value) : Write Value := do
  if isText type "vless" then
    let head ← select u [("name", "email"), ("uuid", "uuid")]
    let own ← u.field "flow"
    let flow := if realityOn then own.or (.str visionFlow) else .str ""
    pure (.obj (head ++ Fields.compact [("flow", flow)]))
  else if isText type "vmess" then
    pure (.obj ((← select u [("name", "email"), ("uuid", "uuid")]) ++ [("alterId", .int 0)]))
  else if isOneOf type ["trojan", "hysteria2", "shadowsocks"] then
    pure (.obj (← select u [("name", "email"), ("password", "password")]))
  else if isOneOf type ["naive", "socks", "http", "mixed"] then
    pure (.obj (← select u [("username", "email"), ("password", "password")]))
  else
    pure (.obj (← select u [("name", "email"), ("uuid", "uuid"), ("password", "password")]))

/-- Whether a value counts as more than zero. Texts count as the number they read as, and so do
arrays and records by how they read inside running text. -/
def isPositive (v : Value) : Except ShapeFault Bool :=
  match v with
  | .absent | .null => .ok false
  | .bool b => .ok b
  | .num n => .ok (Number.lt 0 n)
  | v => do
    let text ← v.display
    pure ((Number.ofLiteral? (trimChars text.toList)).any (Number.lt 0 ·))

/-- Whether more than nothing is listed. -/
def hasItems (v : Value) : Except ShapeFault Bool :=
  match v with
  | .absent | .null => .error (.noFields "length")
  | .arr xs => .ok !xs.isEmpty
  | .str s => .ok (s != "")
  | .obj fs => isPositive (Fields.get fs "length")
  | _ => .ok false

/-- The server that Reality hands visitors to, for sing-box. -/
def singBoxHandshake (h : Value) : Write Value := do
  pure (.obj [("server", ← h.field "server"), ("server_port", ← h.field "serverPort")])

/-- Notes the further server names, for which sing-box has no place. -/
def tellNames (others : Value) (place : String) : Write Unit := do
  if ← hasItems others then
    let names ← others.itemsOrFault
    let shown ← names.mapM fun n => liftM n.displayOrEmpty
    note (place ++ ": Reality server names " ++ joinTexts ", " shown
      ++ " dropped (sing-box accepts a single server_name)")

/-- Notes what Reality has for clients, for which sing-box has no place either. -/
def tellClientKeys (r : Value) (place : String) : Write Unit := do
  if !(← r.field "fingerprint").isEmptyText || !(← r.field "publicKey").isEmptyText then
    note (place
      ++ ": Reality client fingerprint/public key dropped (no sing-box inbound equivalent)")

/-- Reality for sing-box. -/
def singBoxReality (r : Value) (place : String) : Write Value := do
  let head ← select r [("enabled", "enabled"), ("private_key", "privateKey"),
    ("short_id", "shortIds")]
  let handshake ← partField "handshake" singBoxHandshake (← r.field "handshake")
  tellNames (← r.field "alternateServerNames") place
  tellClientKeys r place
  pure (.obj (head ++ handshake))

/-- Security for sing-box. -/
def singBoxTls (t : Value) (place : String) : Write Value := do
  let reality ← t.field "reality"
  let inner := reality.get "serverName"
  let serverName ← if reality.isEnabled && !inner.isEmptyText then pure inner
    else t.field "serverName"
  let head := Fields.compact [("enabled", ← t.field "enabled"), ("server_name", serverName),
    ("alpn", ← t.field "alpn"), ("certificate_path", ← t.field "certificatePath"),
    ("key_path", ← t.field "keyPath")]
  pure (.obj (head ++ (← partField "reality" (singBoxReality · place) reality)))

/-- A fixed rate for sing-box. -/
def singBoxBrutal (b : Value) : Write Value := do
  pure (.obj [("enabled", ← b.field "enabled"), ("up_mbps", ← b.field "upMbps"),
    ("down_mbps", ← b.field "downMbps")])

/-- Multiplexing for sing-box. -/
def singBoxMultiplex (m : Value) : Write Value := do
  let head := [("enabled", ← m.field "enabled"), ("padding", ← m.field "padding")]
  pure (.obj (head ++ (← partField "brutal" singBoxBrutal (← m.field "brutal"))))

/-- The transport for sing-box. -/
def singBoxTransport (t : Value) (place : String) : Write (Option Value) := do
  let type ← t.field "type"
  if !isOneOf type SingBox.transportNames then
    note (place ++ ": transport '" ++ (← type.display) ++ "' has no sing-box equivalent; dropped")
    pure none
  else if isText type "ws" then
    let headers ← headerFields t
    pure (some (.obj (("type", type) :: (← select t [("path", "path")])
      ++ recordField "headers" headers)))
  else if isText type "grpc" then
    pure (some (.obj (("type", type) :: (← select t [("service_name", "serviceName")]))))
  else if isText type "http" then
    pure (some (.obj (("type", type) :: (← select t [("path", "path")])
      ++ Fields.compact [("host", hostList (← t.field "host"))])))
  else if isText type "httpupgrade" then
    pure (some (.obj (("type", type) :: (← select t [("path", "path"), ("host", "host")]))))
  else pure (some (.obj [("type", type)]))

/-- The method, passwords and clients of a shadowsocks record for sing-box. The method is looked
for before the clients are written. -/
def singBoxShadowsocks (options : Value) (users : List Value) (writeUser : Value → Write Value) :
    Write Fields := do
  let method ← shadowsocksMethod options users
  let password := (options.get "password").asText
  let written ← users.mapM writeUser
  let secret ←
    if password != "" then pure (("password", Value.str password) :: itemsField "users" written)
    else match users with
      | [u] => do pure [("password", ← u.field "password")]
      | _ => pure (itemsField "users" written)
  pure (("method", method) :: secret)

/-- The clients of a record for sing-box. -/
def singBoxClients (type options : Value) (realityOn : Bool) (users : List Value) :
    Write Fields := do
  if isText type "shadowsocks" then
    singBoxShadowsocks options users (singBoxUser type realityOn)
  else pure (itemsField "users" (← users.mapM (singBoxUser type realityOn)))

/-- The options of a record behind other fields for sing-box, one after the other. -/
def singBoxOptions (type : Value) (place : String) (options head : Fields) : Write Fields :=
  let handled := if isText type "shadowsocks" then ["method", "password"] else []
  options.foldlM (fun out f => do
    let r := SingBox.writeOption handled place out f.1 f.2
    modify (· ++ r.notes)
    pure r.value) head

/-- Security, multiplexing and transport of a record for sing-box, those that are there. -/
def singBoxParts (v : Value) (place : String) : Write Fields := do
  let tls ← partField "tls" (singBoxTls · place) (v.get "tls")
  let multiplex ← partField "multiplex" singBoxMultiplex (v.get "multiplex")
  let parts := tls ++ multiplex
  match v.get "transport" with
  | .absent => pure parts
  | t => do
    let transport ← singBoxTransport t place
    pure (parts ++ transport.toList.map fun t => ("transport", t))

/-- A record for sing-box. -/
def singBox (v : Value) (index : Nat) : Write Fields := do
  let place ← label (← v.field "tag") index
  let type := v.get "type"
  let users ← (v.get "users").itemsOrFault
  let options := v.get "options"
  let clients ← singBoxClients type options (realityOn v) users
  let head : Fields := [("type", type), ("tag", v.get "tag"),
    ("listen", (v.get "listen").or (.str "::")), ("listen_port", v.get "listenPort")] ++ clients
  let body ← singBoxOptions type place (options.fields?.getD []) head
  pure (body ++ (← singBoxParts v place))

/-! ## Xray -/

/-- The settings of a shadowsocks record for Xray. -/
def xrayShadowsocks (options : Value) (users : List Value) : Write Fields := do
  let method ← shadowsocksMethod options users
  let network := firstText (options.get "network").asText "tcp,udp"
  let password := (options.get "password").asText
  let listed : Write Fields := do
    let clients ← users.mapM fun u => do
      pure (Value.obj (← select u [("password", "password"), ("email", "email")]))
    pure (Fields.compact [("method", method), ("password", .str password),
      ("clients", .arr clients), ("network", .str network)])
  match users with
  | [u] =>
    if password = "" then
      pure (Fields.compact [("method", method), ("password", ← u.field "password"),
        ("email", ← u.field "email"), ("network", .str network)])
    else listed
  | _ => listed

/-- The settings of a record for Xray. -/
def xraySettings (v type : Value) : Write Fields := do
  let users ← (v.get "users").itemsOrFault
  if isText type "vless" then
    let clients ← users.mapM fun u => do
      let head ← select u [("id", "uuid"), ("email", "email")]
      let flow ← u.field "flow"
      let flow := if realityOn v then flow.or (.str visionFlow) else flow
      pure (Value.obj (head ++ Fields.compact [("level", .int 0), ("flow", flow)]))
    pure [("clients", .arr clients), ("decryption", .str "none")]
  else if isText type "vmess" then
    let clients ← users.mapM fun u => do
      pure (Value.obj ((← select u [("id", "uuid"), ("email", "email")])
        ++ [("level", .int 0), ("alterId", .int 0)]))
    pure [("clients", .arr clients)]
  else if isText type "trojan" then
    let clients ← users.mapM fun u => do
      pure (Value.obj ((← select u [("password", "password"), ("email", "email")])
        ++ [("level", .int 0)]))
    pure [("clients", .arr clients)]
  else if isText type "shadowsocks" then xrayShadowsocks (v.get "options") users
  else if isOneOf type ["socks", "http"] then
    let accounts ← users.mapM fun u => do
      pure (Value.obj [("user", ← u.field "email"), ("pass", ← u.field "password")])
    pure (itemsField "accounts" accounts)
  else
    let clients ← users.mapM fun u => do
      pure (Value.obj (← select u [("id", "uuid"), ("email", "email"), ("password", "password")]))
    pure (itemsField "clients" clients)

/-- The settings of a transport for Xray. -/
def xrayTransport (t type : Value) : Write Fields := do
  if isText type "ws" then
    let headers ← headerFields t
    pure ((← select t [("path", "path")]) ++ recordField "headers" headers)
  else if isText type "grpc" then select t [("serviceName", "serviceName")]
  else if isText type "http" then
    pure ((← select t [("path", "path")])
      ++ Fields.compact [("host", hostList (← t.field "host"))])
  else select t [("path", "path"), ("host", "host")]

/-- Where Reality hands visitors to, for Xray: the server of a handshake, else the server name. -/
def xrayDestination (handshake serverName : Value) : Write String :=
  match handshake with
  | .absent => do pure ((← serverName.display) ++ ":" ++ Xray.defaultPort.text)
  | h => do
    let server ← (← h.field "server").display
    pure (server ++ ":" ++ (← (← h.field "serverPort").display))

/-- The settings of a transport under the name that its type gives them. -/
def xrayTransportField (t type : Value) : Write Fields := do
  if isText type "quic" then pure []
  else pure [((← type.display) ++ "Settings", .obj (← xrayTransport t type))]

/-- The settings of Reality for Xray. -/
def xrayReality (r t : Value) : Write Value := do
  let serverName := (← r.field "serverName").or (← t.field "serverName")
  let dest ← xrayDestination (← r.field "handshake") serverName
  let others ← (← r.field "alternateServerNames").spread
  let names := (serverName :: others).filter fun n => !n.isEmptyText
  pure (.obj (Fields.compact [("show", .bool false), ("dest", .str dest), ("xver", .int 0),
    ("serverNames", .arr names), ("privateKey", ← r.field "privateKey"),
    ("shortIds", ← r.field "shortIds"), ("fingerprint", ← r.field "fingerprint"),
    ("publicKey", ← r.field "publicKey")]))

/-- Whether a part is there and counts as switched on. -/
def switchedOn (part : Value) : Write Bool :=
  match part with
  | .absent => pure false
  | p => do pure (← p.field "enabled").isTruthy

/-- The settings of plain security for Xray. -/
def xrayTls (t : Value) : Write Value := do
  let paths ← select t [("certificateFile", "certificatePath"), ("keyFile", "keyPath")]
  let certificates := if (← t.field "certificatePath").isEmptyText
      && (← t.field "keyPath").isEmptyText then .absent else .arr [.obj paths]
  pure (.obj (Fields.compact [("serverName", ← t.field "serverName"), ("alpn", ← t.field "alpn"),
    ("certificates", certificates)]))

/-- The security of a stream for Xray, if there is any. -/
def xraySecurity (tls : Value) : Write Fields :=
  match tls with
  | .absent => pure [("security", .str "none")]
  | t => do
    let reality ← t.field "reality"
    if ← switchedOn reality then
      pure [("security", .str "reality"), ("realitySettings", ← xrayReality reality t)]
    else if (← t.field "enabled").isTruthy then
      pure [("security", .str "tls"), ("tlsSettings", ← xrayTls t)]
    else pure [("security", .str "none")]

/-- The stream of a record for Xray. -/
def xrayStream (v : Value) : Write (Option Value) := do
  let tls := v.get "tls"
  match v.get "transport" with
  | .absent => do
    if ← switchedOn tls then
      pure (some (.obj (Fields.putAll [("network", .str "tcp")] (← xraySecurity tls))))
    else pure none
  | t => do
    let type ← t.field "type"
    let settings ← xrayTransportField t type
    pure (some (.obj (Fields.putAll [("network", type)] (settings ++ (← xraySecurity tls)))))

/-- Notes multiplexing, for which Xray has no place. -/
def tellMultiplex (multiplex : Value) (place : String) : Write Unit :=
  match multiplex with
  | .absent => pure ()
  | m => do
    let what := if (← m.field "brutal").isAbsent then "multiplex" else "multiplex/brutal"
    note (place ++ ": " ++ what ++ " dropped (Xray has no server-side multiplex settings)")

/-- Notes the options for which Xray has no place. -/
def tellOptions (type : Value) (options : Fields) (place : String) : Write Unit :=
  options.forM fun f =>
    if (Xray.writtenOptions type.asText).contains f.1 then pure ()
    else note (place ++ ": option '" ++ f.1 ++ "' has no Xray equivalent; dropped")

/-- A record for Xray, if Xray can serve it. -/
def xray (v : Value) (index : Nat) : Write (Option Fields) := do
  let place ← label (← v.field "tag") index
  let type := v.get "type"
  if isOneOf type Xray.unservable then
    note (place ++ ": protocol '" ++ (← type.display)
      ++ "' is not supported by Xray; inbound skipped")
    pure none
  else
    let settings ← xraySettings v type
    let stream ← xrayStream v
    tellMultiplex (v.get "multiplex") place
    tellOptions type ((v.get "options").fields?.getD []) place
    pure (some ([("protocol", type), ("tag", v.get "tag"),
        ("listen", (v.get "listen").or (.str "0.0.0.0")), ("port", v.get "listenPort"),
        ("settings", .obj settings)]
      ++ stream.toList.map fun s => ("streamSettings", s)))

/-- A record for an engine, if the engine can serve it. -/
def write (e : Engine) (v : Value) (index : Nat) : Write (Option Fields) :=
  match e with
  | .singBox => do pure (some (← singBox v index))
  | .xray => xray v index

end Unchecked

/-- A record as an engine writes it, if the engine can serve it. -/
def Engine.writeRecord (e : Engine) (v : Value) (index : Nat) :
    Except ShapeFault (Noted (Option Fields)) :=
  match Inbound.ofValue? v with
  | some i => .ok (e.writeInbound i index)
  | none => (Unchecked.write e v index [] ).map fun r => ⟨r.1, r.2⟩

/-- Records as an engine writes them, in order. -/
def Engine.writeRecords (e : Engine) : Nat → List Value → Except ShapeFault (Noted (List Value))
  | _, [] => .ok (pure [])
  | n, v :: vs => do
    let one ← e.writeRecord v n
    let rest ← e.writeRecords (n + 1) vs
    pure (do pure ((← one).toList.map .obj ++ (← rest)))

end ProxyFleet
