import ProxyFleet.Store.Hosts

/-!
# Users in the store

A user is a subscriber's account. It counts while it is enabled and its time has
not run out, on the servers of its group.
-/

namespace ProxyFleet

/-- A subscriber's account. -/
structure NodeUser where
  id : String
  uuid : String
  email : String
  groupId : Option String
  enabled : Bool
  expiresAt : Option String
  createdAt : String
  deriving DecidableEq, Repr

/-- The user a row tells of. -/
def UserRow.toUser (r : UserRow) : NodeUser where
  id := r.id
  uuid := r.uuid
  email := r.email
  groupId := r.groupId
  enabled := r.enabled
  expiresAt := r.expiresAt
  createdAt := r.createdAt

/-- A user as a record. -/
def NodeUser.toValue (u : NodeUser) : Value :=
  .ofFields [
    ("id", .str u.id),
    ("uuid", .str u.uuid),
    ("email", .str u.email),
    ("groupId", .ofOption .str u.groupId),
    ("enabled", .bool u.enabled),
    ("expiresAt", .ofOption .str u.expiresAt),
    ("createdAt", .str u.createdAt)]

/-- What is told of a new user. -/
structure NewUser where
  uuid : String
  email : String
  groupId : Option String
  enabled : Bool
  expiresAt : Option String
  deriving DecidableEq, Repr

namespace Store

/-- Puts a user in. -/
def createUser (s : Store) (id : String) (now : Instant) (new : NewUser) :
    Except StoreError (NodeUser × Store) := do
  let time := now.text
  let s ← s.addUser ⟨id, new.uuid, new.email, new.groupId, new.enabled, new.expiresAt, time⟩
  pure (⟨id, new.uuid, new.email, new.groupId, new.enabled, new.expiresAt, time⟩, s)

/-- The user of an id. -/
def user? (s : Store) (id : String) : Option NodeUser :=
  (s.users.find? (·.id == id)).map UserRow.toUser

/-- Whether a user counts at a time: enabled, and not run out. -/
def isActive (now : String) (r : UserRow) : Bool :=
  r.enabled && match r.expiresAt with
    | none => true
    | some time => !textLe time now

/-- Whether a user is in one of some groups. -/
def isInGroup (groups : List String) (r : UserRow) : Bool :=
  match r.groupId with
  | none => false
  | some g => groups.contains g

/-- The users of some groups that count at a time, by address, and by age among those of one
address. -/
def activeUsers (s : Store) (groups : List String) (now : String) : List NodeUser :=
  (sortBy (fun a b => textPairLe (a.email, a.createdAt) (b.email, b.createdAt))
    (s.users.filter fun r => isActive now r && isInGroup groups r)).map UserRow.toUser

/-- Enables a user, or disables it. -/
def setEnabled (s : Store) (id : String) (enabled : Bool) :
    Except StoreError (Option NodeUser × Store) := do
  let r ← s.changeUser id fun u => { u with enabled := enabled }
  pure (if r.2 then r.1.user? id else none, r.1)

end Store

end ProxyFleet
