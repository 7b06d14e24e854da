import ProxyFleet.Inbound.File
import ProxyFleet.Inbound.Rules
import ProxyFleet.Noted
import ProxyFleet.Xray.Destination

/-!
# Reading Xray listeners

A listener has its clients under `settings` and its transport and security under
`streamSettings`. As for sing-box, parts of the wrong shape are left out with a
note.
-/

namespace ProxyFleet

namespace Xray

/-- The fields of a record, none for other values. -/
def fieldsOf : Value → Fields
  | .obj fs => fs
  | _ => []

/-- The records that a setting lists. -/
def readRecords (settings : Fields) (name place : String) : Noted (List Fields) :=
  match Fields.get settings name with
  | .absent | .null => pure []
  | .arr xs => Noted.filterMap (fun i x =>
      match x with
      | .obj fs => pure (some fs)
      | _ => do
        Noted.note (place ++ ": settings." ++ name ++ "[" ++ toString i
          ++ "] is not an object; skipped")
        pure none) xs
  | _ => do
    Noted.note (place ++ ": \"settings." ++ name ++ "\" is not an array; users skipped")
    pure []

/-- The clients and options of a shadowsocks listener. A password without clients is a single
client; clients without a method have the listener's. -/
def readShadowsocks (settings : Fields) (place : String) : Noted (List User × Fields) := do
  let method := textOf settings "method"
  let kept : Fields := (if method = "" then [] else [("method", .str method)])
    ++ match Fields.get settings "network" with
      | .str n => [("network", .str n)]
      | _ => []
  let clients ← readRecords settings "clients" place
  let password := textOf settings "password"
  let users := clients.map fun c => { User.empty with
    password := textOf c "password"
    email := textOf c "email"
    method := firstText (textOf c "method") method }
  pure (
    if password = "" then (users, kept)
    else if users.isEmpty then
      ([⟨"", textOf settings "email", password, "", method⟩], kept)
    else (users, kept ++ [("password", .str password)]))

/-- One client of a listener. -/
def readClient (protocol : String) (c : Fields) : User :=
  if protocol = "vless" || protocol = "vmess" then
    ⟨textOf c "id", textOf c "email", "", textOf c "flow", ""⟩
  else if protocol = "trojan" then
    ⟨"", textOf c "email", textOf c "password", "", ""⟩
  else ⟨textOf c "id", textOf c "email", textOf c "password", "", ""⟩

/-- The clients and options of a listener. -/
def readSettings (protocol : String) (settings : Fields) (place : String) :
    Noted (List User × Fields) := do
  if protocol = "shadowsocks" then readShadowsocks settings place
  else if protocol = "socks" || protocol = "http" then
    let accounts ← readRecords settings "accounts" place
    pure (accounts.map fun a => { User.empty with
      email := textOf a "user"
      password := textOf a "pass" }, [])
  else
    let clients ← readRecords settings "clients" place
    pure (clients.map (readClient protocol), [])

/-- The transport of a stream; plain TCP is none. -/
def readTransport (stream : Fields) (network place : String) : Noted (Option Transport) :=
  if network = "" || network = "tcp" || network = "raw" then pure none
  else
    let type := if network = "h2" then "http" else network
    let name := type ++ "Settings"
    match Fields.get stream name with
    | .absent | .null => pure (some (Transport.ofType type))
    | .obj fs =>
      let (host, headers) := Transport.hostAndHeaders fs
      pure (some ⟨type, textOf fs "path", host, textOf fs "serviceName", headers⟩)
    | _ => do
      Noted.note (place ++ ": \"streamSettings." ++ name ++ "\" is not an object; using defaults")
      pure (some (Transport.ofType type))

/-- The first certificate that is a record. -/
def firstCertificate (settings : Fields) : Fields :=
  match Fields.get settings "certificates" with
  | .arr cs => (cs.filterMap Value.fields?).head?.getD []
  | _ => []

/-- The destination of a Reality listener: a text under `dest` or `target`, or a number under
`dest`. -/
def destinationOf (fs : Fields) : String :=
  firstText (textOf fs "dest") (firstText (textOf fs "target")
    (match Fields.get fs "dest" with
      | .num n => n.text
      | _ => ""))

/-- Reality. -/
def readReality (fs : Fields) : Tls :=
  let names := (Fields.get fs "serverNames").textList
  let serverName := names.head?.getD ""
  let dest := destinationOf fs
  { Tls.off with
    enabled := true
    serverName := serverName
    reality := some {
      enabled := true
      shortIds := (Fields.get fs "shortIds").textList
      serverName := serverName
      alternateServerNames := names.drop 1
      fingerprint := textOf fs "fingerprint"
      publicKey := textOf fs "publicKey"
      privateKey := textOf fs "privateKey"
      handshake := if dest = "" then none else some (splitDestination dest) } }

/-- The security of a stream. -/
def readSecurity (stream : Fields) (security place : String) : Noted (Option Tls) :=
  if security = "" || security = "none" then pure none
  else if security = "tls" then do
    let settings := Fields.get stream "tlsSettings"
    if !settings.isAbsent && !settings.isRecord then
      Noted.note (place
        ++ ": \"streamSettings.tlsSettings\" is not an object; TLS settings skipped")
    let fs := fieldsOf settings
    let certificate := firstCertificate fs
    pure (some {
      enabled := true
      serverName := textOf fs "serverName"
      alpn := (Fields.get fs "alpn").textList
      certificatePath := textOf certificate "certificateFile"
      keyPath := textOf certificate "keyFile"
      reality := none })
  else if security = "reality" then
    match Fields.get stream "realitySettings" with
    | .obj fs => pure (some (readReality fs))
    | _ => do
      Noted.note (place
        ++ ": \"streamSettings.realitySettings\" is missing or not an object; Reality skipped")
      pure none
  else do
    Noted.note (place ++ ": unknown security '" ++ security ++ "'; TLS skipped")
    pure none

/-- The transport and the security of a listener. -/
def readStream (v : Value) (place : String) : Noted (Option Transport × Option Tls) :=
  match v with
  | .obj stream => do
    let transport ← readTransport stream (textOf stream "network") place
    let tls ← readSecurity stream (textOf stream "security") place
    pure (transport, tls)
  | .absent | .null => pure (none, none)
  | _ => do
    Noted.note (place ++ ": \"streamSettings\" is not an object; transport and TLS skipped")
    pure (none, none)

/-- One listener. -/
def readInbound (el : Fields) (index : Nat) : Noted (Option Inbound) := do
  let protocol := textOf el "protocol"
  let tag := textOf el "tag"
  let place := Inbound.label tag index
  if protocol = "" then
    Noted.note (place ++ ": missing \"protocol\"; skipped")
    pure none
  else
    let settings := Fields.get el "settings"
    if !settings.isRecord && !settings.isNothing then
      Noted.note (place ++ ": \"settings\" is not an object; settings skipped")
    let (users, options) ← readSettings protocol (fieldsOf settings) place
    let (transport, tls) ← readStream (Fields.get el "streamSettings") place
    pure (some {
      type := protocol
      tag, transport, tls, users, options
      multiplex := none
      listen := textOf el "listen"
      listenPort := (Fields.get el "port").asInt })

/-- The listeners of an array. -/
def readElements (els : List Value) : Noted (List Inbound) :=
  Noted.filterMap (fun i el =>
    match el with
    | .obj fs => readInbound fs i
    | _ => do
      Noted.note ("inbound #" ++ toString i ++ ": not an object; skipped")
      pure none) els

/-- The listeners of a file. -/
def read (file text : String) : Except Failure (Noted (List Inbound)) :=
  (ConfigFile.elements .xray file text).map readElements

end Xray

end ProxyFleet
