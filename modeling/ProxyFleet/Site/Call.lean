import ProxyFleet.Digest
import ProxyFleet.Site.Hosts

/-!
# Calls to agents

A call that starts a core runs in two halves. Opening it takes the lock of the
instance, connects, writes a pending log and sends the request; then the agent
has the word, and other work goes on meanwhile. Settling it writes how it ended,
closes the connection and gives the lock back.

Between the halves a call is plain data (`OpenCall`). Once the log is written,
trouble with writing it further is no reason to stop: it is told to the operator
and noted with the result.
-/

namespace ProxyFleet

/-- Where the configuration of a call comes from: its text, which goes first, or a template. -/
structure ConfigSource where
  templateId : Option String
  text : Option String
  deriving DecidableEq, Repr

/-- A text that is not blank. -/
def nonBlank? : Option String → Option String
  | some s => if isAllBlank s then none else some s
  | none => none

/-- A configuration as it is sent. -/
structure SentConfig where
  text : String
  digest : String
  templateId : Option String
  deriving DecidableEq, Repr

/-- A call whose input was found good: the host it goes to, the instance it keeps busy, the engine
to be started and the configuration to be sent. -/
structure CheckedCall where
  host : AgentHost
  instanceId : String
  engine : Engine
  config : SentConfig
  deriving DecidableEq, Repr

/-- A call that its agent has not answered yet. -/
structure OpenCall where
  host : AgentHost
  claim : Claim
  client : Nat
  log : SwitchLog
  config : SentConfig
  request : SwitchRequest
  warnings : List String
  deriving DecidableEq, Repr

/-- The instance that a call brings up, as it is put on record under a name. -/
def OpenCall.broughtUp (c : OpenCall) (name : String) (ports : List Number) : NewInstance where
  hostId := c.host.id
  instanceId := name
  coreType := c.request.toCoreType
  status := InstanceStatus.running.name
  templateId := c.config.templateId
  configHash := c.config.digest
  listenPorts := ports
  lastHeartbeatAt := none
  errorMessage := ""

/-- How the agent's part in a call ends: with a reply, with an error, or because the caller gave
the call up. -/
inductive CallEnd where
  | replied (r : SwitchReply)
  | failed (reason : String)
  | givenUp (reason : String)
  deriving DecidableEq, Repr

/-- The reply of a call, or why there is none. -/
def CallEnd.result : CallEnd → Except String SwitchReply
  | .replied r => .ok r
  | .failed reason => .error reason
  | .givenUp reason => .error ("switch cancelled: " ++ reason)

/-- Why a switch did not come about, as the agent has it. -/
def SwitchReply.reason (r : SwitchReply) : String := firstText r.error r.message

/-- What writing the end of a log came to: when it ended, if that could be written, and else a
warning. -/
structure LogEnd where
  completedAt : Option String
  warnings : List String
  deriving DecidableEq, Repr

/-- What is known wherever a log is spoken of. -/
def SwitchLog.scope (l : SwitchLog) : Fields :=
  [("agentHostId", .str l.hostId), ("switchLogId", .str l.id)]

namespace Work

variable {α : Type}

/-- The host a call goes to. -/
def callHost (id : String) : Work AgentHost := do
  if isAllBlank id then refuse (.invalid .hostIdRequired)
  requireHost id

/-- The configuration of a call. -/
def resolveConfig (h : AgentHost) (source : ConfigSource) : Work SentConfig := do
  let (text, templateId) ← match nonBlank? source.text, nonBlank? source.templateId with
    | some text, _ => pure (text, none)
    | none, some templateId => do pure (← renderFor h.id templateId, some templateId)
    | none, none => refuse (.invalid .noConfigSource)
  if (Value.ofText? text).isNone then refuse (.invalid (.badConfigText badTextReason))
  pure ⟨text, digestOf text, templateId⟩

/-- Checks what a caller asks for, before anything is done about it. -/
def checkCall (instanceId coreType hostId : String) (source : ConfigSource) (unnamed : Invalid) :
    Work CheckedCall := do
  let name := trim instanceId
  if name = "" then refuse (.invalid unnamed)
  let engine ← ofResult (Engine.ofName coreType)
  let host ← callHost hostId
  let config ← resolveConfig host source
  pure ⟨host, name, engine, config⟩

/-- Work that tidies up if it breaks off. -/
def orTidy (tidy : Work Unit) (w : Work α) : Work α :=
  tryCatch w fun p => do
    tidy
    throw p

/-- Work that tidies up at its end, however it ends. -/
def thenTidy (tidy : Work Unit) (w : Work α) : Work α := do
  let a ← orTidy tidy w
  tidy
  pure a

/-- Marks a log as in progress; trouble with it comes back as warnings. -/
def markInProgress (l : SwitchLog) : Work (List String) := do
  match ← attempt (write fun s now => s.moveLog l.id now .inProgress ⟨none, none, none⟩) with
  | .ok true => pure []
  | .ok false =>
    tell .warn "switch log not moved to in_progress" l.scope
    pure ["switch log " ++ l.id ++ " could not be moved to in_progress"]
  | .error p =>
    tell .error "failed to update switch log status" (l.scope ++ [("error", .str p.message)])
    pure ["failed to mark switch log in_progress: " ++ p.message]

/-- Writes the end of a log. -/
def finishLog (l : SwitchLog) (status : SwitchStatus) (message : String)
    (toInstanceId : Option String) : Work LogEnd := do
  let time := (← now).text
  let scope := l.scope ++ [("status", .str status.name)]
  match ← attempt (write fun s now =>
      s.moveLog l.id now status ⟨some message, toInstanceId, some time⟩) with
  | .ok true => pure ⟨some time, []⟩
  | .ok false =>
    tell .warn "switch log already terminal" scope
    pure ⟨none, ["switch log " ++ l.id ++ " is already terminal; " ++ status.name
      ++ " was not recorded"]⟩
  | .error p =>
    tell .error "failed to update switch log status" (scope ++ [("error", .str p.message)])
    pure ⟨none, ["failed to mark switch log " ++ status.name ++ ": " ++ p.message]⟩

/-- Opens a call that keeps an instance busy. -/
def openCall (h : AgentHost) (busyId : String) (taken : Conflict) (config : SentConfig)
    (new : NewSwitchLog) (request : SwitchRequest) : Work OpenCall := do
  let claim ← takeLock (instanceKey h.id busyId) taken
  orTidy (giveBack claim) do
    let client ← connect h
    orTidy (signal (.close client)) do
      let log ← create fun s id now => s.createLog id now new
      let warnings ← markInProgress log
      signal (.switchCore client request)
      pure ⟨h, claim, client, log, config, request, warnings⟩

/-- Closes the client of a call and gives its lock back. -/
def hangUp (c : OpenCall) : Work Unit := do
  signal (.close c.client)
  giveBack c.claim

end Work

end ProxyFleet
