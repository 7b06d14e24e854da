import ProxyFleet.Proofs.Store.Orderly
import ProxyFleet.Proofs.Work.Writes

/-!
# What services write

Every service but the calls to agents is work away from the desk, and none of
them takes a host out. Each proof below follows the text of its service line by
line; the only lines with anything in them are those that write.

Checking what a caller asks for writes nothing at all.

A call to an agent speaks to the agent and keeps a lock, so it is not work away
from the desk; but its bookkeeping is, and what it writes is edits like those of
every other service. Along the tools all work there is comes together here.
-/

namespace ProxyFleet

/-- An edit that takes no host out. -/
def Edit.KeepsHosts (e : Edit) : Prop := ∀ id, e ≠ .removeHost id

namespace Work.Within

variable {α : Type} {P : Edit → Prop}

/-! ## Reading -/

theorem generate (h : AgentHost) (t : ConfigTemplate) : Writes P (Work.generate h t) := by
  intro a
  simp only [Work.generate, runAt_bind, runAt_get, runAt_set]
  cases (a.store.generate a.now h t).result with
  | error p => exact ⟨.of_eq rfl rfl rfl, rfl, rfl, rfl⟩
  | ok text => exact ⟨.of_eq rfl rfl rfl, rfl, rfl, rfl⟩

theorem renderFor (hostId templateId : String) : Writes P (Work.renderFor hostId templateId) :=
  bind (requireHost hostId) fun h => bind (requireTemplate templateId) fun t => generate h t

theorem generateConfig (hostId : String) : Writes P (Work.generateConfig hostId) := by
  refine bind (requireHost hostId) fun h => ?_
  cases h.templateId with
  | none => exact pure _
  | some t => exact bind (requireTemplate t) fun t => bind (generate h t) fun _ => pure _

theorem resolveConfig (h : AgentHost) (source : ConfigSource) :
    Writes P (Work.resolveConfig h source) := by
  unfold Work.resolveConfig
  split
  · exact refuseIf (pure _)
  · exact bind (renderFor _ _) fun _ => refuseIf (pure _)
  · exact bind (refuse _) fun _ => refuseIf (pure _)

theorem checkCall (instanceId coreType hostId : String) (source : ConfigSource)
    (unnamed : Invalid) :
    Writes P (Work.checkCall instanceId coreType hostId source unnamed) :=
  refuseIf (bind (ofResult _) fun _ => bind (callHost hostId) fun h =>
    bind (resolveConfig h source) fun _ => pure _)

theorem checkCompatibility (hostId templateId : String) :
    Writes P (Work.checkCompatibility hostId templateId) :=
  bind (requireHost hostId) fun _ => bind (requireTemplate templateId) fun _ => pure _

theorem getInstances (hostId : String) : Writes P (Work.getInstances hostId) :=
  bind (callHost hostId) fun _ => ask _

theorem getSwitchLogs (r : LogsRequest) : Writes P (Work.getSwitchLogs r) :=
  refuseIf (ask _)

theorem listTemplates (type : Option String) : Writes P (Work.listTemplates type) :=
  bind (optionMapM (fun _ => ofResult _) type) fun _ => ask _

/-! ## Writing -/

theorem createHost (r : HostRequest) : Writes Edit.KeepsHosts (Work.createHost r) := by
  refine refuseIf (refuseIf (bind get fun site => create fun {s id now x t} h => ?_))
  exact ⟨.createHost _, nofun, map_snd_ok h⟩

theorem changedHost (id : String) (h : Option AgentHost) : Writes P (Work.changedHost id h) := by
  cases h with
  | none => exact refuse _
  | some h => exact pure h

theorem reportCapabilities (hostId : String) (r : AgentReport) :
    Writes Edit.KeepsHosts (Work.reportCapabilities hostId r) := by
  refine bind (requireHost hostId) fun host => ?_
  dsimp only
  split
  · exact pure _
  · refine bind (ofResult _) fun coreType => bind (write fun {s now x t} h => ?_) (changedHost hostId)
    exact ⟨.reportHost hostId _, nofun, rfl, map_snd_ok h⟩

theorem assignTemplate (hostId templateId : String) :
    Writes Edit.KeepsHosts (Work.assignTemplate hostId templateId) := by
  have hwrite : ∀ id : Option String, Writes Edit.KeepsHosts
      (Work.write fun s now => s.assignTemplate hostId now id) := fun id =>
    write fun h => ⟨.assignTemplate hostId id, nofun, rfl, map_snd_ok h⟩
  refine bind (requireHost hostId) fun _ => ?_
  split
  · exact bind (hwrite none) (changedHost hostId)
  · exact bind (checkCompatibility hostId templateId) fun c =>
      bind (forM (fun _ => tell _ _ _) _) fun _ => bind (hwrite _) (changedHost hostId)

theorem createTemplate (r : TemplateRequest) :
    Writes Edit.KeepsHosts (Work.createTemplate r) := by
  refine refuseIf (bind (ofResult _) fun type => refuseIf (bind (ofResult _) fun minVersion =>
    create fun {s id now x t} h => ?_))
  exact ⟨.createTemplate _, nofun, map_snd_ok h⟩

theorem updateTemplate (id : String) (r : TemplateEdit) :
    Writes Edit.KeepsHosts (Work.updateTemplate id r) := by
  refine bind (requireTemplate id) fun current => refuseIf ?_
  refine bind (optionMapM (fun _ => ofResult _) _) fun type => refuseIf ?_
  refine bind (optionMapM (fun _ => ofResult _) _) fun minVersion => ?_
  refine bind (write fun {s now x t} h => ?_) fun updated => ?_
  · exact ⟨.updateTemplate id _, nofun, rfl, map_snd_ok h⟩
  · cases updated with
    | none => exact refuse _
    | some t => exact pure t

theorem deleteTemplate (id : String) : Writes Edit.KeepsHosts (Work.deleteTemplate id) := by
  refine bind (remove fun {s t b} h => ?_) fun removed => ?_
  · exact ⟨.removeTemplate id, nofun, rfl, fun _ => map_fst_ok h⟩
  · split
    · exact pure _
    · exact refuse _

theorem deleteInstance (hostId instanceId : String) :
    Writes Edit.KeepsHosts (Work.deleteInstance hostId instanceId) := by
  refine refuseIf (bind (ask _) fun found => ?_)
  cases found with
  | none => exact refuse _
  | some i =>
      refine bind get fun site => refuseIf (bind (remove fun {s t b} h => ?_) fun _ => pure _)
      exact ⟨.removeInstance i.id, nofun, rfl, fun _ => map_fst_ok h⟩

end Work.Within

/-! ## Calls to agents -/

theorem Edit.KeepsLogs.keepsHosts {e : Edit} (h : e.KeepsLogs) : e.KeepsHosts := h.removeHost

/-- An edit that is about a log. -/
inductive Edit.OfLog : Edit → Prop
  | create (new : NewSwitchLog) : OfLog (.createLog new)
  | move (log : String) (target : SwitchStatus) (details : MoveDetails) :
      OfLog (.moveLog log target details)

theorem Edit.OfLog.keepsHosts {e : Edit} (h : e.OfLog) : e.KeepsHosts := by
  cases h <;> exact nofun

/-- The call to an agent that a tool makes, if it makes one. -/
def Tool.call? (t : Tool) (a : Fields) : Option CallRequest :=
  match t with
  | .createInstance => some (.start (startRequest a))
  | .switchCore => some (.replace (replaceRequest a))
  | _ => none

namespace Work.Within

variable {α : Type} {P : Edit → Prop}

/-! ## Bookkeeping -/

theorem markInProgress (l : SwitchLog) :
    Writes (· = .moveLog l.id .inProgress ⟨none, none, none⟩) (Work.markInProgress l) := by
  refine bind (attempt (write fun {s now x t} h => ?_)) fun r => ?_
  · exact ⟨_, rfl, rfl, map_snd_ok h⟩
  · split
    · exact pure _
    · exact bind (tell _ _ _) fun _ => pure _
    · exact bind (tell _ _ _) fun _ => pure _

theorem finishLog_ofLog (l : SwitchLog) (status : SwitchStatus) (message : String)
    (toInstanceId : Option String) :
    Writes Edit.OfLog (Work.finishLog l status message toInstanceId) := by
  refine bind now fun time => bind (attempt (write fun {s now x t} h => ?_)) fun r => ?_
  · exact ⟨.moveLog l.id status _, .move _ _ _, rfl, map_snd_ok h⟩
  · split
    · exact pure _
    · exact bind (tell _ _ _) fun _ => pure _
    · exact bind (tell _ _ _) fun _ => pure _

theorem finishLog (l : SwitchLog) (status : SwitchStatus) (message : String)
    (toInstanceId : Option String) :
    Writes Edit.KeepsHosts (Work.finishLog l status message toInstanceId) :=
  (finishLog_ofLog l status message toInstanceId).mono fun _ _ h =>
    h.mono fun _ => Edit.OfLog.keepsHosts

/-- Putting an instance in. -/
theorem newInstance (new : NewInstance) :
    Writes Edit.KeepsLogs (Work.create fun s id now => s.createInstance id now new) :=
  create fun h => ⟨.createInstance new, ⟨nofun, nofun, nofun⟩, map_snd_ok h⟩

theorem recordStarted (c : OpenCall) (instanceId : String) :
    Writes Edit.KeepsLogs (Work.recordStarted c instanceId) := by
  refine bind (attempt (newInstance _)) fun r => ?_
  split
  · exact pure _
  · exact bind (tell _ _ _) fun _ => refuse _

theorem stopPrevious (c : OpenCall) (i : CoreInstance) :
    Writes Edit.KeepsLogs (Work.stopPrevious c i) := by
  refine bind (attempt (write fun {s now x t} h => ?_)) fun r => ?_
  · exact ⟨.updateInstance i.id _, ⟨nofun, nofun, nofun⟩, rfl, map_snd_ok h⟩
  · split
    · exact pure _
    · exact bind (tell _ _ _) fun _ => pure _

theorem recordNew (c : OpenCall) (newInstanceId : String) :
    Writes Edit.KeepsLogs (Work.recordNew c newInstanceId) := by
  refine bind (attempt (newInstance _)) fun r => ?_
  split
  · exact pure _
  · exact bind (tell _ _ _) fun _ => pure _

theorem reconcile (c : OpenCall) (previous : Option CoreInstance) (newInstanceId : String) :
    Writes Edit.KeepsLogs (Work.reconcile c previous newInstanceId) := by
  have hrecording : ∀ stopping, Writes Edit.KeepsLogs
      (if newInstanceId = "" then Pure.pure [] >>= fun recording => Pure.pure (stopping ++ recording)
        else Work.recordNew c newInstanceId >>= fun recording =>
          Pure.pure (stopping ++ recording)) := by
    intro stopping
    split
    · exact pure _
    · exact bind (recordNew c newInstanceId) fun _ => pure _
  cases previous with
  | none => exact bind (pure _) hrecording
  | some i => exact bind (stopPrevious c i) hrecording

/-! ## The desk and the agent -/

theorem signal (e : AgentEvent) : Grows P (Work.signal e) :=
  modify fun _ => .of_eq rfl rfl rfl

theorem giveBack (claim : Claim) : Grows P (Work.giveBack claim) :=
  modify fun _ => .of_eq rfl rfl rfl

theorem takeLock (key : String) (taken : Conflict) : Grows P (Work.takeLock key taken) := by
  intro a
  simp only [Work.takeLock, runAt_bind, runAt_get]
  cases a.desk.locks.acquire? key with
  | none => exact .of_eq rfl rfl rfl
  | some r => exact .of_eq rfl rfl rfl

theorem connect (h : AgentHost) : Grows P (Work.connect h) := by
  intro a
  simp only [Work.connect, Work.signal, runAt_bind, runAt_get]
  cases a.desk.barrier with
  | none => exact .of_eq rfl rfl rfl
  | some why => exact .of_eq rfl rfl rfl

theorem orTidy {tidy : Work Unit} {w : Work α} (ht : Grows P tidy) (hw : Grows P w) :
    Grows P (Work.orTidy tidy w) :=
  tryCatch hw fun _ => bind ht fun _ => throw _

theorem thenTidy {tidy : Work Unit} {w : Work α} (ht : Grows P tidy) (hw : Grows P w) :
    Grows P (Work.thenTidy tidy w) :=
  bind (orTidy ht hw) fun _ => bind ht fun _ => pure _

theorem hangUp (c : OpenCall) : Grows P (Work.hangUp c) :=
  bind (signal _) fun _ => giveBack _

/-! ## Calls -/

theorem openCall (h : AgentHost) (busyId : String) (taken : Conflict) (config : SentConfig)
    (new : NewSwitchLog) (request : SwitchRequest) :
    Grows Edit.OfLog (Work.openCall h busyId taken config new request) := by
  refine bind (takeLock _ _) fun claim => orTidy (giveBack _) ?_
  refine bind (connect h) fun client => orTidy (signal _) ?_
  refine bind (grows (create fun {s id now x t} hc => ?_) fun _ => id) fun log => ?_
  · exact ⟨.createLog new, .create new, map_snd_ok hc⟩
  · exact bind (grows (markInProgress log) fun _ he => he ▸ .move _ _ _) fun _ =>
      bind (signal _) fun _ => pure _

theorem openStart (r : StartRequest) : Grows Edit.OfLog (Work.openStart r) :=
  bind (grows (checkCall _ _ _ _ _) fun _ => id) fun _ => bind (ask _) fun _ =>
    refuseIf (openCall _ _ _ _ _ _)

theorem openSwitch (r : ReplaceRequest) : Grows Edit.OfLog (Work.openSwitch r) :=
  bind (grows (checkCall _ _ _ _ _) fun _ => id) fun _ => bind (ask _) fun _ =>
    bind now fun _ => bind (openCall _ _ _ _ _ _) fun _ => pure _

theorem startFailed (c : OpenCall) (reason : String) :
    Writes Edit.KeepsHosts (Work.startFailed c reason) :=
  bind (finishLog _ _ _ _) fun _ => refuse _

/-- Settling a call is work away from the desk, and then the call is hung up. -/
theorem settleStart_parts (c : OpenCall) (instanceId : String) (e : CallEnd) :
    ∃ w : Work CoreInstance, Work.settleStart c instanceId e = Work.thenTidy (Work.hangUp c) w ∧
      Writes Edit.KeepsHosts w := by
  refine ⟨_, rfl, ?_⟩
  split
  · exact startFailed c _
  · split
    · exact bind (finishLog _ _ _ _) fun _ =>
        (recordStarted c instanceId).mono fun _ _ h => h.mono fun _ => Edit.KeepsLogs.keepsHosts
    · exact startFailed c _

theorem settleSwitch_parts (c : OpenCall) (previous : Option CoreInstance) (e : CallEnd) :
    ∃ w : Work SwitchOutcome, Work.settleSwitch c previous e = Work.thenTidy (Work.hangUp c) w ∧
      Writes Edit.KeepsHosts w := by
  refine ⟨_, rfl, ?_⟩
  split
  · exact bind (finishLog _ _ _ _) fun _ => pure _
  · split
    · exact bind (finishLog _ _ _ _) fun _ => bind ((reconcile c previous _).mono
        fun _ _ h => h.mono fun _ => Edit.KeepsLogs.keepsHosts) fun _ => pure _
    · exact bind (finishLog _ _ _ _) fun _ => pure _

/-- Opening a call writes about its log only. -/
theorem begin_ofLog (r : CallRequest) : Grows Edit.OfLog (Work.begin r) := by
  cases r with
  | start r => exact bind (openStart r) fun _ => pure _
  | replace r => exact bind (openSwitch r) fun _ => pure _

theorem begin (r : CallRequest) : Grows Edit.KeepsHosts (Work.begin r) :=
  (begin_ofLog r).mono fun _ _ h => h.mono fun _ => Edit.OfLog.keepsHosts

theorem settle (p : Pending) (e : CallEnd) : Grows Edit.KeepsHosts (Work.settle p e) := by
  cases p with
  | start c instanceId =>
      obtain ⟨w, hw, hwrites⟩ := settleStart_parts c instanceId e
      refine bind ?_ fun _ => pure _
      rw [hw]
      exact thenTidy (hangUp c) (grows hwrites fun _ => id)
  | replace c previous =>
      obtain ⟨w, hw, hwrites⟩ := settleSwitch_parts c previous e
      refine bind ?_ fun _ => pure _
      rw [hw]
      exact thenTidy (hangUp c) (grows hwrites fun _ => id)

theorem perform (r : CallRequest) (e : CallEnd) : Grows Edit.KeepsHosts (Work.perform r e) :=
  bind (begin r) fun p => settle p e

theorem getCores (hostId : String) (answer : Except Problem α) :
    Grows P (Work.getCores hostId answer) := by
  refine bind (callHost hostId) fun host => bind (connect host) fun client =>
    bind (signal _) fun _ => bind (signal _) fun _ => ?_
  cases answer with
  | ok cores => exact pure _
  | error p => exact throw _

/-! ## Tools -/

section Tools

variable {R : Site → Site → Prop} [Std.Refl R]

theorem callTool
    (htool : ∀ (t : Tool) (a : Fields) (agent : AgentSide), Within R (t.perform a agent))
    (t : Traffic) (name : String) (arguments : Value) (agent : AgentSide) :
    R t.site (callTool t name arguments agent).2.site := by
  unfold ProxyFleet.callTool
  split
  · split
    · exact htool _ _ agent t.site
    · exact refl_of R _
  · exact refl_of R _

variable [IsTrans Site R]

/-- What holds of work away from the desk and of the call a tool makes holds of the tool. -/
theorem tool (hwork : ∀ {a b}, Site.Recorded Edit.KeepsHosts a b → R a b)
    (hcores : ∀ (hostId : String) (answer : Except Problem (List Value)),
      Within R (Work.getCores hostId answer))
    (t : Tool) (a : Fields) (agent : AgentSide)
    (hcall : ∀ r, t.call? a = some r → Within R (Work.perform r agent.switch)) :
    Within R (t.perform a agent) := by
  have hdone : ∀ {β : Type} {w : Work β} {f : β → String}, Writes Edit.KeepsHosts w →
      Within R (w >>= fun x => Pure.pure (f x)) :=
    fun hw => bind (hw.mono fun _ _ => hwork) fun _ => pure _
  cases t with
  | createAgentHost => exact hdone (createHost _)
  | listAgentHosts => exact hdone (ask _)
  | reportCapabilities => exact hdone (reportCapabilities _ _)
  | assignTemplate => exact hdone (assignTemplate _ _)
  | checkCompatibility => exact hdone (checkCompatibility _ _)
  | generateConfig => exact hdone (generateConfig _)
  | createTemplate => exact hdone (createTemplate _)
  | updateTemplate => exact hdone (updateTemplate _ _)
  | deleteTemplate => exact hdone (deleteTemplate _)
  | getTemplate => exact hdone (requireTemplate _)
  | listTemplates => exact hdone (listTemplates _)
  | validateTemplate => exact pure _
  | previewTemplate => exact ofResult _
  | getDefaultTemplate => exact bind (bind (ofResult _) fun _ => pure _) fun _ => pure _
  | getCores => exact bind (hcores _ _) fun _ => pure _
  | getInstances => exact hdone (getInstances _)
  | createInstance => exact bind (hcall _ rfl) fun _ => pure _
  | deleteInstance => exact hdone (deleteInstance _ _)
  | switchCore => exact bind (hcall _ rfl) fun _ => pure _
  | getSwitchLogs => exact hdone (getSwitchLogs _)
  | convertConfig => exact bind (ofResult _) fun _ => pure _
  | parseConfig => exact bind (ofResult _) fun _ => pure _

end Tools

theorem toolGrows (t : Tool) (a : Fields) (agent : AgentSide) :
    Grows Edit.KeepsHosts (t.perform a agent) :=
  tool (fun h => h.toGrown) getCores t a agent fun r _ => perform r agent.switch

end Work.Within

end ProxyFleet
