import ProxyFleet.Site.Call

/-!
# Switching cores

A running core is replaced by another one. Once the log of the switch is
written, nothing that goes wrong is a failure: the outcome says whether the agent
switched, and which records could not be kept.
-/

namespace ProxyFleet

/-- Asks for a core to be replaced. -/
structure ReplaceRequest where
  hostId : String
  fromInstanceId : String
  toCoreType : String
  source : ConfigSource
  switchId : Option String
  listenPorts : List Number
  zeroDowntime : Bool
  operatorId : Option String
  deriving DecidableEq, Repr

/-- What came of a switch. The time it ended is there only if it could be written into its log. -/
structure SwitchOutcome where
  success : Bool
  newInstanceId : String
  message : String
  error : String
  logId : String
  fromInstanceId : String
  toCoreType : String
  warnings : List String
  completedAt : Option String
  deriving DecidableEq, Repr

/-- An outcome as a record. -/
def SwitchOutcome.toValue (o : SwitchOutcome) : Value :=
  .ofFields [
    ("success", .bool o.success),
    ("newInstanceId", .str o.newInstanceId),
    ("message", .str o.message),
    ("error", .str o.error),
    ("switchLogId", .str o.logId),
    ("fromInstanceId", .str o.fromInstanceId),
    ("toCoreType", .str o.toCoreType),
    ("reconciliationWarnings", .texts o.warnings),
    ("completedAt", .ofOption .str o.completedAt)]

/-- The outcome of a call, from what its agent replied and from what became of its log. -/
def OpenCall.outcome (c : OpenCall) (reply : SwitchReply) (l : LogEnd) (others : List String) :
    SwitchOutcome where
  success := reply.success
  newInstanceId := reply.newInstanceId
  message := reply.message
  error := reply.error
  logId := c.log.id
  fromInstanceId := c.request.fromInstanceId
  toCoreType := c.request.toCoreType
  warnings := c.warnings ++ l.warnings ++ others
  completedAt := l.completedAt

/-- What stands for the reply of an agent that gave none. -/
def SwitchReply.none (reason : String) : SwitchReply := ⟨false, "", "", reason⟩

/-- The id of a switch that was given none: its host and the time. -/
def switchIdAt (hostId : String) (t : Instant) : String :=
  "switch-" ++ hostId ++ "-" ++ toString t.milliseconds

namespace Work

/-- Checks what is asked for. -/
def checkSwitch (r : ReplaceRequest) : Work CheckedCall :=
  checkCall r.fromInstanceId r.toCoreType r.hostId r.source .fromInstanceIdRequired

/-- Opens the call that replaces a core; gives also the instance on record that it replaces. -/
def openSwitch (r : ReplaceRequest) : Work (OpenCall × Option CoreInstance) := do
  let k ← checkSwitch r
  let previous ← ask (·.instanceNamed? k.host.id k.instanceId)
  let switchId := firstText (trim (r.switchId.getD "")) (switchIdAt k.host.id (← now))
  let call ← openCall k.host k.instanceId (.switchRunning k.instanceId k.host.id) k.config
    ⟨k.host.id, switchId, some k.instanceId, none, previous.map (·.coreType), k.engine.name, "",
      r.operatorId⟩
    ⟨k.instanceId, k.engine.name, k.config.text, switchId,
      r.listenPorts.filter (Number.lt 0 ·), r.zeroDowntime⟩
  pure (call, previous)

/-- Marks the instance that was replaced as stopped. -/
def stopPrevious (c : OpenCall) (i : CoreInstance) : Work (List String) := do
  let change : InstanceChange := ⟨some InstanceStatus.stopped.name, some "", none, none⟩
  match ← attempt (write fun s now => s.updateInstance i.id now change) with
  | .ok _ => pure []
  | .error p =>
    tell .error "failed to stop previous instance after switch"
      (c.log.scope ++ [("error", .str p.message)])
    pure ["failed to mark instance " ++ i.instanceId ++ " stopped: " ++ p.message]

/-- Records the instance that took over. -/
def recordNew (c : OpenCall) (newInstanceId : String) : Work (List String) := do
  let new := c.broughtUp newInstanceId c.request.listenPorts
  match ← attempt (create fun s id now => s.createInstance id now new) with
  | .ok _ => pure []
  | .error p =>
    tell .error "failed to record new instance after switch"
      (c.log.scope ++ [("error", .str p.message)])
    pure ["failed to record instance " ++ newInstanceId ++ ": " ++ p.message]

/-- Brings the records in line with a switch that took place. -/
def reconcile (c : OpenCall) (previous : Option CoreInstance) (newInstanceId : String) :
    Work (List String) := do
  let stopping ← match previous with
    | some i => stopPrevious c i
    | none => pure []
  let recording ← if newInstanceId = "" then pure [] else recordNew c newInstanceId
  pure (stopping ++ recording)

/-- Settles the call that replaces a core. -/
def settleSwitch (c : OpenCall) (previous : Option CoreInstance) (e : CallEnd) :
    Work SwitchOutcome :=
  thenTidy (hangUp c) do
    match e.result with
    | .error reason =>
      let l ← finishLog c.log .failed reason none
      pure (c.outcome (.none reason) l [])
    | .ok reply =>
      if reply.success then
        let l ← finishLog c.log .completed reply.message
          (if reply.newInstanceId = "" then none else some reply.newInstanceId)
        let others ← reconcile c previous reply.newInstanceId
        pure (c.outcome reply l others)
      else
        let l ← finishLog c.log .failed reply.reason none
        pure (c.outcome reply l [])

end Work

end ProxyFleet
