import ProxyFleet.SingBox.Reading
import ProxyFleet.Text.Units
import ProxyFleet.Text.Case
import ProxyFleet.Value.Printer

/-!
# Writing sing-box listeners

Every listener can be written. What sing-box has no place for is left out with a
note.
-/

namespace ProxyFleet

namespace SingBox

/-- The transports sing-box has. -/
def transportNames : List String := ["ws", "grpc", "http", "httpupgrade", "quic"]

/-- What is written of a client, under the names that its protocol has. -/
def userFields (type : String) (realityOn : Bool) (u : User) : Fields :=
  if type = "vless" then
    [("name", .str u.email), ("uuid", .str u.uuid),
      ("flow", .str (if realityOn then firstText u.flow visionFlow else ""))]
  else if type = "vmess" then
    [("name", .str u.email), ("uuid", .str u.uuid), ("alterId", .int 0)]
  else if type = "trojan" || type = "hysteria2" || type = "shadowsocks" then
    [("name", .str u.email), ("password", .str u.password)]
  else if type = "naive" || type = "socks" || type = "http" || type = "mixed" then
    [("username", .str u.email), ("password", .str u.password)]
  else [("name", .str u.email), ("uuid", .str u.uuid), ("password", .str u.password)]

/-- One client of a listener. -/
def writeUser (type : String) (realityOn : Bool) (u : User) : Value :=
  .obj (Fields.compact (userFields type realityOn u))

/-- The clients of a listener. -/
def writeUsers (i : Inbound) : List Value := i.users.map (writeUser i.type i.realityOn)

/-- The method, passwords and clients of a shadowsocks listener. With a password of the listener
itself, or more clients than one, the clients are listed; a single client gives its password to
the listener. -/
def shadowsocksFields (i : Inbound) : Fields :=
  let password := textOf i.options "password"
  let secret : Fields :=
    if password != "" then ("password", .str password) :: itemsField "users" (writeUsers i)
    else match i.users with
      | [u] => [("password", .str u.password)]
      | _ => itemsField "users" (writeUsers i)
  ("method", .str i.shadowsocksMethod) :: secret

/-- How sing-box writes the networks of a listener: one of them by its name, both by an empty
text, and nothing for values that name others. -/
def networkName? (v : Value) : Option String :=
  match v with
  | .str s =>
    let parts := (cutAt [','] s.toList).map fun p => lower (String.ofList (trimChars p))
    let parts := parts.filter (· != "")
    if parts.any fun p => p != "tcp" && p != "udp" then none
    else match parts.eraseDups with
      | [p] => some p
      | _ => some ""
  | _ => none

/-- The text of an option in a note. -/
def shown (v : Value) : String :=
  match v with
  | .str s => s
  | v => v.tightText

/-- One option of a listener, set among the fields written so far. -/
def writeOption (handled : List String) (place : String) (out : Fields) (name : String)
    (v : Value) : Noted Fields :=
  if handled.contains name then pure out
  else if name = "network" then
    match networkName? v with
    | none => do
      Noted.note (place ++ ": network '" ++ shown v ++ "' has no sing-box equivalent; dropped")
      pure out
    | some n => pure (if n = "" then out else Fields.put out "network" (.str n))
  else if optionNames.contains name then pure (Fields.put out name v)
  else do
    Noted.note (place ++ ": option '" ++ name ++ "' has no sing-box equivalent; dropped")
    pure out

/-- Reality. -/
def writeReality (r : Reality) : Value :=
  .obj (Fields.compact [("enabled", .bool r.enabled), ("private_key", .str r.privateKey),
      ("short_id", .texts r.shortIds)]
    ++ r.handshake.toList.map fun h =>
      ("handshake", .obj [("server", .str h.server), ("server_port", .num h.serverPort)]))

/-- What is lost of Reality. -/
def realityNotes (r : Reality) (place : String) : Noted Unit := do
  if !r.alternateServerNames.isEmpty then
    Noted.note (place ++ ": Reality server names " ++ joinTexts ", " r.alternateServerNames
      ++ " dropped (sing-box accepts a single server_name)")
  if r.fingerprint != "" || r.publicKey != "" then
    Noted.note (place
      ++ ": Reality client fingerprint/public key dropped (no sing-box inbound equivalent)")

/-- The server name in force: that of Reality if it is on and has one. -/
def serverNameInForce (t : Tls) : String :=
  match t.reality with
  | some r => if r.enabled then firstText r.serverName t.serverName else t.serverName
  | none => t.serverName

/-- Transport security. -/
def writeTls (t : Tls) (place : String) : Noted Value := do
  match t.reality with
  | some r => realityNotes r place
  | none => pure ()
  pure (.obj (Fields.compact [("enabled", .bool t.enabled),
      ("server_name", .str (serverNameInForce t)), ("alpn", .texts t.alpn),
      ("certificate_path", .str t.certificatePath), ("key_path", .str t.keyPath)]
    ++ t.reality.toList.map fun r => ("reality", writeReality r)))

/-- Multiplexing. -/
def writeMultiplex (m : Multiplex) : Value :=
  .obj ([("enabled", .bool m.enabled), ("padding", .bool m.padding)]
    ++ m.brutal.toList.map fun b => ("brutal", .obj [("enabled", .bool b.enabled),
      ("up_mbps", .num b.upMbps), ("down_mbps", .num b.downMbps)]))

/-- The transport, if sing-box has one of that type. -/
def writeTransport (t : Transport) (place : String) : Noted (Option Value) :=
  if t.type = "ws" then
    pure (some (.obj (Fields.compact [("type", .str "ws"), ("path", .str t.path)]
      ++ recordField "headers" t.headerFields)))
  else if t.type = "grpc" then
    pure (some (.obj (Fields.compact [("type", .str "grpc"),
      ("service_name", .str t.serviceName)])))
  else if t.type = "http" then
    pure (some (.obj (Fields.compact [("type", .str "http"), ("path", .str t.path),
      ("host", .texts (if t.host = "" then [] else [t.host]))])))
  else if t.type = "httpupgrade" then
    pure (some (.obj (Fields.compact [("type", .str "httpupgrade"), ("path", .str t.path),
      ("host", .str t.host)])))
  else if transportNames.contains t.type then pure (some (.obj [("type", .str t.type)]))
  else do
    Noted.note (place ++ ": transport '" ++ t.type ++ "' has no sing-box equivalent; dropped")
    pure none

/-- The fields that every listener begins with. -/
def headFields (i : Inbound) : Fields :=
  [("type", .str i.type), ("tag", .str i.tag), ("listen", .str (firstText i.listen "::")),
    ("listen_port", .num i.listenPort)]

/-- The clients of a listener, and the options that are written with them. -/
def clientFields (i : Inbound) : Fields × List String :=
  if i.type = "shadowsocks" then (shadowsocksFields i, ["method", "password"])
  else (itemsField "users" (writeUsers i), [])

/-- One listener; `index` is its place, for notes. -/
def writeInbound (i : Inbound) (index : Nat) : Noted Fields := do
  let place := Inbound.label i.tag index
  let (clients, handled) := clientFields i
  let body ← i.options.foldlM (fun out f => writeOption handled place out f.1 f.2)
    (headFields i ++ clients)
  let tls ← match i.tls with
    | some t => do pure [("tls", ← writeTls t place)]
    | none => pure []
  let multiplex : Fields := i.multiplex.toList.map fun m => ("multiplex", writeMultiplex m)
  let transport ← match i.transport with
    | some t => writeTransport t place
    | none => pure none
  pure (body ++ tls ++ multiplex ++ transport.toList.map fun t => ("transport", t))

/-- All listeners. -/
def write (is : List Inbound) : Noted (List Value) :=
  Noted.filterMap (fun n i => do pure (some (.obj (← writeInbound i n)))) is

end SingBox

end ProxyFleet
