import ProxyFleet.Inbound.Record
import ProxyFleet.Inbound.Unchecked

/-!
# Subscribers in listeners

A template puts the subscribers of a host into its listeners. Each protocol
authenticates with another field; where it is a password, the identity of the
subscriber serves as one. Subscribers that are not enabled are left out.
-/

namespace ProxyFleet

/-- A subscriber as templates see it. -/
structure Subscriber where
  uuid : String
  email : String
  enabled : Bool
  deriving DecidableEq, Repr

namespace Subscriber

/-- The subscriber a record stands for, if its three fields are there. -/
def ofValue? (v : Value) : Option Subscriber :=
  if v.isRecord then do
    pure ⟨← (v.get "uuid").text?, ← (v.get "email").text?, ← (v.get "enabled").bool?⟩
  else none

/-- The subscribers of an array. -/
def listOf (v : Value) : List Subscriber := (v.items?.getD []).filterMap ofValue?

/-- What a subscriber authenticates with under a protocol. -/
structure Account where
  name : String
  uuid : Option String
  password : Option String
  flow : Option String
  deriving DecidableEq, Repr

/-- The account of a subscriber under a protocol. -/
def account (protocol : String) (s : Subscriber) : Account :=
  if protocol = "shadowsocks" then ⟨s.email, none, some s.uuid, none⟩
  else if protocol = "trojan" || protocol = "hysteria2" || protocol = "tuic" then
    ⟨s.email, some s.uuid, some s.uuid, none⟩
  else if protocol = "vless" then ⟨s.email, some s.uuid, none, some visionFlow⟩
  else ⟨s.email, some s.uuid, none, none⟩

/-- The accounts of the enabled subscribers. -/
def accounts (protocol : String) (ss : List Subscriber) : List Account :=
  (ss.filter (·.enabled)).map (account protocol)

/-- An account as a value. -/
def Account.toValue (a : Account) : Value :=
  Value.ofFields [("name", .str a.name), ("uuid", .ofOption .str a.uuid),
    ("password", .ofOption .str a.password), ("flow", .ofOption .str a.flow)]

/-- An account as a client of a listener. -/
def Account.toUser (a : Account) : User :=
  ⟨a.uuid.getD "", a.name, a.password.getD "", a.flow.getD "", ""⟩

/-- The addresses that statistics are kept for. -/
def statistics (ss : List Subscriber) : List String :=
  (ss.filter fun s => s.enabled && s.email != "").map (·.email)

end Subscriber

/-- A listener with the subscribers for its clients. -/
def Fields.withSubscribers (ss : List Subscriber) (inbound : Fields) : Fields :=
  Fields.put inbound "users"
    (.arr ((Subscriber.accounts (textOf inbound "type") ss).map fun a => a.toUser.toValue))

/-- A listener as an engine writes it, with the subscribers for its clients if any are given. A
value that is no listener is written as null, and so is a listener the engine cannot serve. -/
def Engine.writeFor (e : Engine) (inbound : Value) (users : Value) :
    Except ShapeFault (Noted Value) :=
  match inbound with
  | .obj fs =>
    if !inbound.isInbound then .ok (pure .null)
    else
      let fs := if users.isAbsent then fs else Fields.withSubscribers (Subscriber.listOf users) fs
      (e.writeRecord (.obj fs) 0).map fun r => do
        pure (match ← r with
          | some native => .obj native
          | none => .null)
  | _ => .ok (pure .null)

end ProxyFleet
