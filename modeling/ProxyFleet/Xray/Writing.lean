import ProxyFleet.Xray.Reading

/-!
# Writing Xray listeners

Listeners of protocols that Xray cannot serve are dropped with a note; of the
others, what Xray has no place for is left out with a note.
-/

namespace ProxyFleet

namespace Xray

/-- The protocols that Xray cannot serve. -/
def unservable : List String :=
  ["hysteria", "hysteria2", "tuic", "naive", "shadowtls", "anytls", "mixed", "tun", "redirect",
    "tproxy"]

/-- The settings of a shadowsocks listener. A single client without a password of the listener
itself gives its password to the listener. -/
def shadowsocksSettings (i : Inbound) : Value :=
  let method := i.shadowsocksMethod
  let network := firstText (textOf i.options "network") "tcp,udp"
  let password := (textOf i.options "password")
  let listed : Value := .obj (Fields.compact [("method", .str method),
    ("password", .str password),
    ("clients", .arr (i.users.map fun u =>
      .obj (Fields.compact [("password", .str u.password), ("email", .str u.email)]))),
    ("network", .str network)])
  match i.users with
  | [u] =>
    if password = "" then
      .obj (Fields.compact [("method", .str method), ("password", .str u.password),
        ("email", .str u.email), ("network", .str network)])
    else listed
  | _ => listed

/-- What is written of a client, under the names that its protocol has. -/
def clientFields (type : String) (realityOn : Bool) (u : User) : Fields :=
  if type = "vless" then
    [("id", .str u.uuid), ("email", .str u.email), ("level", .int 0),
      ("flow", .str (if realityOn then firstText u.flow visionFlow else u.flow))]
  else if type = "vmess" then
    [("id", .str u.uuid), ("email", .str u.email), ("level", .int 0), ("alterId", .int 0)]
  else if type = "trojan" then
    [("password", .str u.password), ("email", .str u.email), ("level", .int 0)]
  else [("id", .str u.uuid), ("email", .str u.email), ("password", .str u.password)]

/-- The settings of a listener. -/
def writeSettings (i : Inbound) : Value :=
  let clients : List Value := i.users.map fun u =>
    .obj (Fields.compact (clientFields i.type i.realityOn u))
  if i.type = "vless" then .obj [("clients", .arr clients), ("decryption", .str "none")]
  else if i.type = "vmess" || i.type = "trojan" then .obj [("clients", .arr clients)]
  else if i.type = "shadowsocks" then shadowsocksSettings i
  else if i.type = "socks" || i.type = "http" then
    .obj (itemsField "accounts" (i.users.map fun u =>
      .obj [("user", .str u.email), ("pass", .str u.password)]))
  else .obj (itemsField "clients" clients)

/-- The settings of a transport. -/
def writeTransportSettings (t : Transport) : Value :=
  .obj (
    if t.type = "ws" then
      Fields.compact [("path", .str t.path)] ++ recordField "headers" t.headerFields
    else if t.type = "grpc" then Fields.compact [("serviceName", .str t.serviceName)]
    else if t.type = "http" then
      Fields.compact [("path", .str t.path),
        ("host", .texts (if t.host = "" then [] else [t.host]))]
    else Fields.compact [("path", .str t.path), ("host", .str t.host)])

/-- The settings of Reality. Without a server to hand visitors to, they go to the server name. -/
def writeReality (r : Reality) (t : Tls) : Value :=
  let serverName := firstText r.serverName t.serverName
  let dest := match r.handshake with
    | some h => h.server ++ ":" ++ h.serverPort.text
    | none => serverName ++ ":" ++ defaultPort.text
  .obj (Fields.compact [("show", .bool false), ("dest", .str dest), ("xver", .int 0),
    ("serverNames", .texts ((serverName :: r.alternateServerNames).filter (· != ""))),
    ("privateKey", .str r.privateKey), ("shortIds", .texts r.shortIds),
    ("fingerprint", .str r.fingerprint), ("publicKey", .str r.publicKey)])

/-- The settings of plain security. -/
def writeTls (t : Tls) : Value :=
  let certificate := Fields.compact [("certificateFile", .str t.certificatePath),
    ("keyFile", .str t.keyPath)]
  .obj (Fields.compact [("serverName", .str t.serverName), ("alpn", .texts t.alpn),
    ("certificates", .arr (if certificate.isEmpty then [] else [.obj certificate]))])

/-- The security of a stream and its settings, which are set among the fields of the stream. -/
def writeSecurity (tls : Option Tls) : Fields :=
  match tls with
  | none => [("security", .str "none")]
  | some t =>
    match t.reality.filter (·.enabled) with
    | some r => [("security", .str "reality"), ("realitySettings", writeReality r t)]
    | none =>
      if t.enabled then [("security", .str "tls"), ("tlsSettings", writeTls t)]
      else [("security", .str "none")]

/-- The stream of a listener; none for plain TCP without security. -/
def writeStream (i : Inbound) : Option Value :=
  let secured := i.tls.any (·.enabled)
  match i.transport with
  | none =>
    if secured then
      some (.obj (Fields.putAll [("network", .str "tcp")] (writeSecurity i.tls)))
    else none
  | some t =>
    let settings : Fields :=
      if t.type = "quic" then [] else [(t.type ++ "Settings", writeTransportSettings t)]
    some (.obj (Fields.putAll [("network", .str t.type)] (settings ++ writeSecurity i.tls)))

/-- The options that have a place in the settings. -/
def writtenOptions (type : String) : List String :=
  if type = "shadowsocks" then ["method", "password", "network"] else []

/-- What is lost of a listener. -/
def lossNotes (i : Inbound) (place : String) : List String :=
  (i.multiplex.toList.map fun m => place ++ ": "
    ++ (if m.brutal.isSome then "multiplex/brutal" else "multiplex")
    ++ " dropped (Xray has no server-side multiplex settings)")
  ++ ((i.options.filter fun f => !(writtenOptions i.type).contains f.1).map fun f =>
    place ++ ": option '" ++ f.1 ++ "' has no Xray equivalent; dropped")

/-- One listener, if Xray can serve it; `index` is its place, for notes. -/
def writeInbound (i : Inbound) (index : Nat) : Noted (Option Fields) :=
  let place := Inbound.label i.tag index
  if unservable.contains i.type then
    ⟨none, [place ++ ": protocol '" ++ i.type
      ++ "' is not supported by Xray; inbound skipped"]⟩
  else
    ⟨some ([("protocol", .str i.type), ("tag", .str i.tag),
        ("listen", .str (firstText i.listen "0.0.0.0")), ("port", .num i.listenPort),
        ("settings", writeSettings i)]
      ++ (writeStream i).toList.map fun s => ("streamSettings", s)),
      lossNotes i place⟩

/-- The listeners that Xray can serve. -/
def write (is : List Inbound) : Noted (List Value) :=
  Noted.filterMap (fun n i => do pure ((← writeInbound i n).map .obj)) is

end Xray

end ProxyFleet
