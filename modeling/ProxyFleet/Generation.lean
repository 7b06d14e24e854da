import ProxyFleet.ConfigCheck
import ProxyFleet.Context.Filter
import ProxyFleet.Log
import ProxyFleet.Problem
import ProxyFleet.Store.Hosts
import ProxyFleet.Store.Servers
import ProxyFleet.Store.Templates
import ProxyFleet.Store.Users
import ProxyFleet.Template.Render

/-!
# Configurations for hosts

The configuration of a host comes from a template and from what is stored about
the host: the listeners of its servers and the users of their groups. It is cut
down to what the host's core can do, rendered, and checked.

Nothing is written on the way, so all of this are functions of the store.
-/

namespace ProxyFleet

/-- The core of a host as its agent reports it. The type of a template stands in for a core type
that was never reported. -/
def AgentHost.agent (h : AgentHost) (t : ConfigTemplate) : Agent :=
  Agent.resolve (if h.coreType = "" then t.type.name else h.coreType) h.coreVersion
    h.capabilities h.buildTags

/-- Whether a host may use a template. One that did not pass its check may never be used. -/
def AgentHost.compatibility (h : AgentHost) (t : ConfigTemplate) : Compatibility :=
  if t.isValid then (h.agent t).compatibility t.minVersion t.capabilities
  else ⟨false, [], ["Template has validation errors: " ++ t.validationError]⟩

/-- The groups whose users a list of servers serves: those of servers with listeners. -/
def servedGroups (servers : List ServerNode) : List String :=
  servers.filterMap fun n => if n.inbounds.isEmpty then none else n.groupId

/-- A user as templates see it. -/
def NodeUser.toTemplateUser (u : NodeUser) : Value :=
  .obj [("id", .str u.id), ("uuid", .str u.uuid), ("email", .str u.email),
    ("enabled", .bool u.enabled)]

namespace Store

/-- The context that a template is rendered with for a host, before it is cut down. -/
def contextFor (s : Store) (now : Instant) (h : AgentHost) (t : ConfigTemplate) : Fields :=
  let servers := s.serversOf h.id
  let users := s.activeUsers (servedGroups servers) now.text
  Context.make (servers.flatMap (·.inbounds)) (users.map NodeUser.toTemplateUser)
    (.obj [("id", .str h.id), ("name", .str h.name), ("coreType", .str t.type.name),
      ("coreVersion", .str h.coreVersion), ("capabilities", .texts h.capabilities),
      ("buildTags", .texts h.buildTags)])

end Store

/-- What came of making a configuration, and what there was to tell on the way. -/
structure Generation where
  result : Except Problem String
  entries : List LogEntry

namespace Generation

/-- The warnings of one stage of making a configuration. -/
def warnings (h : AgentHost) (t : ConfigTemplate) (message : String) (notes : List String) :
    List LogEntry :=
  notes.map fun note =>
    LogEntry.within [("agentHostId", .str h.id), ("templateId", .str t.id)]
      ⟨.warn, message, [("warning", .str note)]⟩

/-- The failure of a template that a host may not use. -/
def incompatible (c : Compatibility) : Failure :=
  .incompatible "template incompatible with agent" (c.errors ++ c.warnings)

/-- A rendered configuration, if it passes its check. -/
def ofRendered (h : AgentHost) (t : ConfigTemplate) (text : String) (told : List LogEntry) :
    Generation :=
  let v := checkConfig text t.type.name
  if v.valid then ⟨.ok text, told ++ warnings h t "Config validation warning" v.warnings⟩
  else ⟨.error (.failure (.invalid (.badGeneratedConfig v.errors))), told⟩

/-- The configuration that a template gives for a context that fits the agent. -/
def ofFitted (h : AgentHost) (t : ConfigTemplate) (context : Fields) (told : List LogEntry) :
    Generation :=
  let c := (h.agent t).compatibility t.minVersion t.capabilities
  if c.compatible then
    let told := told ++ warnings h t "Template compatibility warning" c.warnings
    let r := Template.render t.content (.obj context)
    match r.result with
    | .error f => ⟨.error (.failure f), told⟩
    | .ok text => ofRendered h t text (told ++ warnings h t "Config generation warning" r.notes)
  else ⟨.error (.failure (incompatible c)), told⟩

end Generation

/-- The configuration that a template gives for a host. -/
def Store.generate (s : Store) (now : Instant) (h : AgentHost) (t : ConfigTemplate) :
    Generation :=
  match Context.fit (h.agent t) (s.contextFor now h t) with
  | .error f => ⟨.error (.misshapen f), []⟩
  | .ok fitted => .ofFitted h t fitted.value
      (Generation.warnings h t "Config generation warning" fitted.notes)

end ProxyFleet
