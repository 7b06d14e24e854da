import ProxyFleet.Instant
import ProxyFleet.Store
import ProxyFleet.Text.Order
import ProxyFleet.Value.Printer
import ProxyFleet.Value.Reader

/-!
# Agent hosts in the store

A host is a machine an agent runs on: where it is, how to prove oneself to it,
what its agent last reported, and the template assigned to it.
-/

namespace ProxyFleet

/-- A machine an agent runs on. -/
structure AgentHost where
  id : String
  name : String
  host : String
  token : String
  coreType : String
  coreVersion : String
  capabilities : List String
  buildTags : List String
  templateId : Option String
  createdAt : String
  updatedAt : String
  deriving DecidableEq, Repr

/-- A list of texts as a data text. -/
def textsText (ts : List String) : String := (Value.texts ts).tightText

/-- The texts a data text lists; whatever else it lists is passed over. -/
def textsOfText (s : String) : List String :=
  (Value.arrayOfText (·.text?.isSome) s).filterMap Value.text?

/-- The host a row tells of. -/
def HostRow.toHost (r : HostRow) : AgentHost where
  id := r.id
  name := r.name
  host := r.host
  token := r.token
  coreType := r.coreType
  coreVersion := r.coreVersion
  capabilities := textsOfText r.capabilitiesText
  buildTags := textsOfText r.buildTagsText
  templateId := r.templateId
  createdAt := r.createdAt
  updatedAt := r.updatedAt

/-- A host as a record. -/
def AgentHost.toValue (h : AgentHost) : Value :=
  .ofFields [
    ("id", .str h.id),
    ("name", .str h.name),
    ("host", .str h.host),
    ("token", .str h.token),
    ("coreType", .str h.coreType),
    ("coreVersion", .str h.coreVersion),
    ("capabilities", .texts h.capabilities),
    ("buildTags", .texts h.buildTags),
    ("templateId", .ofOption .str h.templateId),
    ("createdAt", .str h.createdAt),
    ("updatedAt", .str h.updatedAt)]

/-- What is told of a new host. -/
structure NewHost where
  name : String
  host : String
  token : String
  coreType : String
  coreVersion : String
  capabilities : List String
  buildTags : List String
  templateId : Option String
  deriving DecidableEq, Repr

/-- What an agent reports of its core. -/
structure CoreReport where
  coreType : String
  coreVersion : String
  capabilities : List String
  buildTags : List String
  deriving DecidableEq, Repr

namespace Store

/-- Puts a host in. -/
def createHost (s : Store) (id : String) (now : Instant) (new : NewHost) :
    Except StoreError (AgentHost × Store) := do
  let time := now.text
  let s ← s.addHost {
    id := id
    name := new.name
    host := new.host
    token := new.token
    coreType := new.coreType
    coreVersion := new.coreVersion
    capabilitiesText := textsText new.capabilities
    buildTagsText := textsText new.buildTags
    templateId := new.templateId
    createdAt := time
    updatedAt := time
  }
  pure ({
    id := id
    name := new.name
    host := new.host
    token := new.token
    coreType := new.coreType
    coreVersion := new.coreVersion
    capabilities := new.capabilities
    buildTags := new.buildTags
    templateId := new.templateId
    createdAt := time
    updatedAt := time
  }, s)

/-- The host of an id. -/
def host? (s : Store) (id : String) : Option AgentHost :=
  (s.hosts.find? (·.id == id)).map HostRow.toHost

/-- All hosts, by name, and by age among those of one name. -/
def allHosts (s : Store) : List AgentHost :=
  (sortBy (fun a b => textPairLe (a.name, a.createdAt) (b.name, b.createdAt)) s.hosts).map
    HostRow.toHost

/-- The host as it is after a change, if it was written. -/
def changedHost (id : String) (r : Store × Bool) : Option AgentHost × Store :=
  (if r.2 then r.1.host? id else none, r.1)

/-- Writes down what an agent reports of its core. -/
def reportHost (s : Store) (id : String) (now : Instant) (report : CoreReport) :
    Except StoreError (Option AgentHost × Store) := do
  let r ← s.changeHost id fun h => { h with
    coreType := report.coreType
    coreVersion := report.coreVersion
    capabilitiesText := textsText report.capabilities
    buildTagsText := textsText report.buildTags
    updatedAt := now.text }
  pure (changedHost id r)

/-- Assigns a template to a host, or none. -/
def assignTemplate (s : Store) (id : String) (now : Instant) (templateId : Option String) :
    Except StoreError (Option AgentHost × Store) := do
  let r ← s.changeHost id fun h => { h with templateId := templateId, updatedAt := now.text }
  pure (changedHost id r)

end Store

end ProxyFleet
