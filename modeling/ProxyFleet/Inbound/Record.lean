import ProxyFleet.Inbound
import ProxyFleet.Value.Shape

/-!
# Listeners as records

A listener that was stored or passed in is a record. `Value.isInbound` checks its
top alone; `Inbound.ofValue?` reads records whose parts are all well shaped.
-/

namespace ProxyFleet

/-- A record whose top has the fields of a listener. -/
def Value.isInbound : Value → Bool
  | .obj fs =>
    (Fields.get fs "type").text?.isSome && (Fields.get fs "tag").text?.isSome
      && (Fields.get fs "listen").text?.isSome
      && (match Fields.get fs "listenPort" with | .num _ => true | _ => false)
      && (Fields.get fs "users").items?.isSome && (Fields.get fs "options").isRecord
      && (Fields.get fs "requiredCapabilities").items?.isSome
  | _ => false

/-- Whether a part of a record is there and has `enabled` set. -/
def Value.isEnabled (v : Value) : Bool :=
  match v.get "enabled" with
  | .bool b => b
  | _ => false

/-- What the parts of a record that are switched on need from the core. -/
def Value.requirements (v : Value) : List Capability :=
  (if ((v.get "tls").get "reality").isEnabled then [.reality] else [])
    ++ (if (v.get "multiplex").isEnabled then [.multiplex] else [])
    ++ (if ((v.get "multiplex").get "brutal").isEnabled then [.brutal] else [])

/-- The record with what it needs from the core computed again. -/
def Fields.withRequirements (fs : Fields) : Fields :=
  Fields.put fs "requiredCapabilities"
    (.texts ((Value.obj fs).requirements.map Capability.name))

/-- The texts of an array of nothing but texts. -/
def Value.texts? (v : Value) : Option (List String) := v.items?.bind (·.mapM Value.text?)

/-- A part that need not be there; if it is, it must be well shaped. -/
def optionalPart {α : Type} (read : Value → Option α) : Value → Option (Option α)
  | .absent => some none
  | v => (read v).map some

/-- A transport with all its fields. -/
def Transport.ofValue? (v : Value) : Option Transport := do
  let headers ← (v.get "headers").fields?
  pure ⟨← (v.get "type").text?, ← (v.get "path").text?, ← (v.get "host").text?,
    ← (v.get "serviceName").text?, ← headers.mapM fun h => h.2.text?.map (h.1, ·)⟩

/-- A handshake with all its fields. -/
def Handshake.ofValue? (v : Value) : Option Handshake := do
  pure ⟨← (v.get "server").text?, ← (v.get "serverPort").number?⟩

/-- Reality with all its fields. -/
def Reality.ofValue? (v : Value) : Option Reality := do
  pure ⟨← (v.get "enabled").bool?, ← (v.get "shortIds").texts?, ← (v.get "serverName").text?,
    ← (v.get "alternateServerNames").texts?, ← (v.get "fingerprint").text?,
    ← (v.get "publicKey").text?, ← (v.get "privateKey").text?,
    ← optionalPart Handshake.ofValue? (v.get "handshake")⟩

/-- Security with all its fields. -/
def Tls.ofValue? (v : Value) : Option Tls := do
  pure ⟨← (v.get "enabled").bool?, ← (v.get "serverName").text?, ← (v.get "alpn").texts?,
    ← (v.get "certificatePath").text?, ← (v.get "keyPath").text?,
    ← optionalPart Reality.ofValue? (v.get "reality")⟩

/-- A fixed rate with all its fields. -/
def Brutal.ofValue? (v : Value) : Option Brutal := do
  pure ⟨← (v.get "enabled").bool?, ← (v.get "upMbps").number?, ← (v.get "downMbps").number?⟩

/-- Multiplexing with all its fields. -/
def Multiplex.ofValue? (v : Value) : Option Multiplex := do
  pure ⟨← (v.get "enabled").bool?, ← (v.get "padding").bool?,
    ← optionalPart Brutal.ofValue? (v.get "brutal")⟩

/-- A client with all its fields. -/
def User.ofValue? (v : Value) : Option User := do
  pure ⟨← (v.get "uuid").text?, ← (v.get "email").text?, ← (v.get "password").text?,
    ← (v.get "flow").text?, ← (v.get "method").text?⟩

/-- The listener a record stands for, if all its parts are well shaped. -/
def Inbound.ofValue? (v : Value) : Option Inbound := do
  let users ← (v.get "users").items?
  pure ⟨← (v.get "type").text?, ← (v.get "tag").text?, ← (v.get "listen").text?,
    ← (v.get "listenPort").number?, ← optionalPart Transport.ofValue? (v.get "transport"),
    ← optionalPart Tls.ofValue? (v.get "tls"),
    ← optionalPart Multiplex.ofValue? (v.get "multiplex"),
    ← users.mapM User.ofValue?, ← (v.get "options").fields?⟩

end ProxyFleet
