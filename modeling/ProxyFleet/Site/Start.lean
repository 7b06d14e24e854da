import ProxyFleet.Site.Call

/-!
# Starting the first instance

A core is started on a host that runs none of that name yet. If the agent does
not start it, that is a failure; the log of the call says so too.
-/

namespace ProxyFleet

/-- Asks for an instance to be started. -/
structure StartRequest where
  hostId : String
  coreType : String
  instanceId : String
  source : ConfigSource
  operatorId : Option String
  deriving DecidableEq, Repr

/-- The request an agent gets to start a first instance: it replaces nothing. -/
def SwitchRequest.first (toCoreType : Engine) (configText switchId : String) : SwitchRequest where
  fromInstanceId := ""
  toCoreType := toCoreType.name
  configText := configText
  switchId := switchId
  listenPorts := []
  zeroDowntime := false

namespace Work

/-- Checks what is asked for. -/
def checkStart (r : StartRequest) : Work CheckedCall :=
  checkCall r.instanceId r.coreType r.hostId r.source .instanceIdRequired

/-- Opens the call that starts an instance. -/
def openStart (r : StartRequest) : Work OpenCall := do
  let k ← checkStart r
  if (← ask (·.instanceNamed? k.host.id k.instanceId)).isSome then
    refuse (.conflict (.instanceExists k.instanceId k.host.id))
  let switchId := "create-" ++ k.host.id ++ "-" ++ k.instanceId
  openCall k.host k.instanceId (.instanceBusy k.instanceId k.host.id) k.config
    ⟨k.host.id, switchId, none, some k.instanceId, none, k.engine.name, "", r.operatorId⟩
    (.first k.engine k.config.text switchId)

/-- Writes the log of a start that came to nothing, and fails. -/
def startFailed (c : OpenCall) (reason : String) : Work CoreInstance := do
  let _ ← finishLog c.log .failed reason none
  refuse (.agent ("create instance failed: " ++ reason) (some c.log.id))

/-- Records an instance that was started. That it runs already is no help if it cannot be
recorded. -/
def recordStarted (c : OpenCall) (instanceId : String) : Work CoreInstance := do
  match ← attempt (create fun s id now => s.createInstance id now (c.broughtUp instanceId [])) with
  | .ok i => pure i
  | .error p =>
    tell .error "instance started on agent but not recorded"
      (c.log.scope ++ [("error", .str p.message)])
    refuse (.internal (.notRecorded instanceId p.message) 500 none)

/-- Settles the call that starts an instance. -/
def settleStart (c : OpenCall) (instanceId : String) (e : CallEnd) : Work CoreInstance :=
  thenTidy (hangUp c) do
    match e.result with
    | .error reason => startFailed c reason
    | .ok reply =>
      if reply.success then
        let _ ← finishLog c.log .completed reply.message none
        recordStarted c instanceId
      else startFailed c reply.reason

end Work

end ProxyFleet
