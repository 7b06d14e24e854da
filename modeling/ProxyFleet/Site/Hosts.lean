import ProxyFleet.Site

/-!
# Work on agent hosts

Hosts are registered, their agents report what they run, templates are assigned
to them, and configurations are made for them. An assignment that does not fit is
told to the operator and made all the same.
-/

namespace ProxyFleet

/-- Asks for a host to be registered. -/
structure HostRequest where
  name : String
  host : String
  token : Option String
  deriving DecidableEq, Repr

/-- What an agent reports; what it leaves out counts as empty. -/
structure AgentReport where
  coreType : Option String
  coreVersion : Option String
  capabilities : Option (List String)
  buildTags : Option (List String)
  deriving DecidableEq, Repr

namespace AgentReport

/-- The reported version, empty if there is none. -/
def version (r : AgentReport) : String := trim (r.coreVersion.getD "")

/-- Nothing is reported. -/
def isEmpty (r : AgentReport) : Bool :=
  r.version = "" && (r.capabilities.getD []).isEmpty && (r.buildTags.getD []).isEmpty
    && r.coreType.isNone

/-- The core type of a host after a report. -/
def coreTypeAfter (r : AgentReport) (old : String) : Except Failure String :=
  match r.coreType with
  | none => .ok old
  | some word => match Engine.ofName? word with
    | some e => .ok e.name
    | none => .error (.invalid (.unknownCoreType word))

end AgentReport

namespace Work

/-- Registers a host. -/
def createHost (r : HostRequest) : Work AgentHost := do
  let name := trim r.name
  let host := trim r.host
  if name = "" then refuse (.invalid .nameRequired)
  if host = "" then refuse (.invalid .hostRequired)
  let token := r.token.getD (← get).spareToken
  create fun s id now => s.createHost id now ⟨name, host, token, "", "", [], [], none⟩

/-- A host that was changed, and must have been there. -/
def changedHost (id : String) : Option AgentHost → Work AgentHost
  | some h => pure h
  | none => refuse (.missing (.agentHost id))

/-- Takes down what an agent reports. An empty report changes nothing. -/
def reportCapabilities (hostId : String) (r : AgentReport) : Work AgentHost := do
  let host ← requireHost hostId
  if r.isEmpty then return host
  let coreType ← ofResult (r.coreTypeAfter host.coreType)
  let report : CoreReport :=
    ⟨coreType, r.version, r.capabilities.getD [], r.buildTags.getD []⟩
  changedHost hostId (← write fun s now => s.reportHost hostId now report)

/-- Whether a host may use a template. -/
def checkCompatibility (hostId templateId : String) : Work Compatibility := do
  let host ← requireHost hostId
  let template ← requireTemplate templateId
  pure (host.compatibility template)

/-- Tells what speaks against an assignment. -/
def tellUnfit (hostId templateId warning : String) : Work Unit :=
  tell .warn "Template compatibility warning"
    [("agentHostId", .str hostId), ("templateId", .str templateId), ("warning", .str warning)]

/-- Assigns a template to a host; a blank id assigns none. -/
def assignTemplate (hostId templateId : String) : Work AgentHost := do
  let _ ← requireHost hostId
  if isAllBlank templateId then
    changedHost hostId (← write fun s now => s.assignTemplate hostId now none)
  else
    let c ← checkCompatibility hostId templateId
    (c.errors ++ c.warnings).forM (tellUnfit hostId templateId)
    changedHost hostId (← write fun s now => s.assignTemplate hostId now (some templateId))

/-- Makes the configuration that a template gives for a host. -/
def generate (h : AgentHost) (t : ConfigTemplate) : Work String := do
  let site ← get
  let g := site.store.generate site.now h t
  set { site with entries := site.entries ++ g.entries }
  match g.result with
  | .ok text => pure text
  | .error p => throw p

/-- Makes the configuration that a template gives for a host, assigned to it or not. -/
def renderFor (hostId templateId : String) : Work String := do
  let host ← requireHost hostId
  let template ← requireTemplate templateId
  generate host template

/-- Makes the configuration of a host from the template assigned to it, if there is one. -/
def generateConfig (hostId : String) : Work (Option String) := do
  let host ← requireHost hostId
  match host.templateId with
  | none => pure none
  | some templateId => do
    let template ← requireTemplate templateId
    return some (← generate host template)

/-- The context that a template is rendered with for a host, before it is cut down. -/
def templateContext (hostId templateId : String) : Work Fields := do
  let host ← requireHost hostId
  let template ← requireTemplate templateId
  let time ← now
  ask (·.contextFor time host template)

end Work

end ProxyFleet
