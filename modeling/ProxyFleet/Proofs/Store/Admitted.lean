import ProxyFleet.Proofs.Store.Rules

/-!
# Edits that go through

Where no write fails on its own account, an edit is refused just if the row that is put in
is at fault, or the one value that is changed: `Store.Admits` says so for each kind of edit
from what is in the tables before it, and `Store.edit_isOk` is the proof that nothing else is
in the way. In particular no removal is ever refused.
-/

namespace ProxyFleet

namespace Store

variable {s u : Store} {id : String}

/-- What must hold for an edit to go through; a row that is put in gets the id. -/
def Admits (s : Store) (id : String) : Edit → Prop
  | .createTemplate new => id ∉ s.templates.map TemplateRow.id ∧ (Engine.ofWord? new.type).isSome
  | .updateTemplate template change => template ∈ s.templates.map TemplateRow.id →
      ∀ word ∈ change.type, (Engine.ofWord? word).isSome
  | .createHost new => id ∉ s.hosts.map HostRow.id ∧ s.LeadsToTemplate new.templateId
  | .assignTemplate host template => host ∈ s.hosts.map HostRow.id → s.LeadsToTemplate template
  | .createServer new => id ∉ s.servers.map ServerRow.id ∧ new.hostId ∈ s.hosts.map HostRow.id
  | .createUser new => id ∉ s.users.map UserRow.id ∧ new.uuid ∉ s.users.map UserRow.uuid
  | .createInstance new => (InstanceStatus.ofName? new.status).isSome ∧
      id ∉ s.instances.map InstanceRow.id ∧
      (new.hostId, new.instanceId) ∉ s.instances.map (fun r => (r.hostId, r.instanceId)) ∧
      new.hostId ∈ s.hosts.map HostRow.id ∧ s.LeadsToTemplate new.templateId
  | .updateInstance i change => i ∈ s.instances.map InstanceRow.id →
      ∀ word ∈ change.status, (InstanceStatus.ofName? word).isSome
  | .createLog new => id ∉ s.logs.map SwitchLogRow.id ∧ new.hostId ∈ s.hosts.map HostRow.id
  | .reportHost .. | .removeHost .. | .removeTemplate .. | .updateInbounds .. | .removeServer ..
  | .setEnabled .. | .removeUser .. | .removeInstance .. | .moveLog .. => True

/-! ## Writes that go through -/

theorem isOk_bind {α β : Type} {x : Except StoreError α} {f : α → Except StoreError β}
    (hf : ∀ a, (f a).isOk = true) : (x >>= f).isOk = x.isOk := by
  cases x with
  | error e => rfl
  | ok a => exact hf a

theorem isOk_map {α β : Type} (f : α → β) (x : Except StoreError α) : (x.map f).isOk = x.isOk := by
  cases x <;> rfl

theorem exists_ok : (∃ v, (Except.ok u : Except StoreError Store) = .ok v ∧ v.Rules) ↔ u.Rules := by
  constructor
  · rintro ⟨v, hv, h⟩
    cases hv
    exact h
  · exact fun h => ⟨u, rfl, h⟩

/-- Where no write fails, one goes through just if it keeps the rules. -/
theorem write_isOk (hf : s.faults = []) {table : Table} {event : RowEvent} {status : Option String}
    {target : Except StoreError Store} :
    (s.write table event status target).isOk = true ↔ ∃ u, target = .ok u ∧ u.Rules := by
  have hgo : s.write table event status target =
      (target >>= fun u => u.checked >>= fun u => pure (u, true)) := by
    rw [write, hf]
    rfl
  rw [hgo]
  cases target with
  | error err => exact iff_of_false Bool.false_ne_true nofun
  | ok u =>
      have hchecked : u.checked.isOk = true ↔ u.Rules := by
        rw [← broken?_eq_none, checked]
        cases u.broken? with
        | none => exact iff_of_true rfl rfl
        | some err => exact iff_of_false Bool.false_ne_true nofun
      have hpure : (u.checked >>= fun u => pure (u, true)).isOk = u.checked.isOk :=
        isOk_bind fun _ => rfl
      exact (Bool.eq_iff_iff.1 hpure).trans (hchecked.trans exists_ok.symm)

theorem write_ok_isOk (hf : s.faults = []) {table : Table} {event : RowEvent}
    {status : Option String} : (s.write table event status (.ok u)).isOk = true ↔ u.Rules :=
  (write_isOk hf).trans exists_ok

/-- A row that is there is changed, and nothing happens if there is none. -/
theorem write_if_isOk (hf : s.faults = []) {c : Prop} [Decidable c] {table : Table}
    {event : RowEvent} {status : Option String} :
    (if c then s.write table event status (.ok u) else .ok (s, false)).isOk = true ↔
      (c → u.Rules) := by
  split
  · next hc => rw [write_ok_isOk hf]; exact ⟨fun h _ => h, fun h => h hc⟩
  · next hc => exact iff_of_true rfl fun h => absurd h hc

theorem find?_eq_none {α : Type} {idOf : α → String} {rows : List α} :
    rows.find? (idOf · == id) = none ↔ ¬∃ r ∈ rows, idOf r = id := by
  simp [List.find?_eq_none]

theorem find?_eq_some {α : Type} {idOf : α → String} {rows : List α} {r : α}
    (h : rows.find? (idOf · == id) = some r) : r ∈ rows ∧ idOf r = id := by
  have hid := List.find?_some h
  exact ⟨List.mem_of_find?_eq_some h, beq_iff_eq.1 hid⟩

/-- Where ids do not repeat, the row that is found is the only one of its id. -/
theorem find?_unique {α : Type} {idOf : α → String} {rows : List α} {old r : α}
    (hids : (rows.map idOf).Nodup) (hfind : rows.find? (idOf · == id) = some old) (hr : r ∈ rows)
    (hid : idOf r = id) : r = old := by
  obtain ⟨hold, holdId⟩ := find?_eq_some hfind
  exact List.inj_on_of_nodup_map hids hr hold (hid.trans holdId.symm)

/-- A row in place of the one of an id is written just if there is one and the rules are kept. -/
theorem write_row_isOk (hf : s.faults = []) {α : Type} {idOf : α → String} {rows : List α}
    (hids : (rows.map idOf).Nodup) {old : α} (hfind : rows.find? (idOf · == id) = some old)
    {f : α → Except StoreError α} {put : α → Store} (hput : ∀ row, f old = .ok row → (put row).Rules)
    {table : Table} {event : RowEvent} {status : Option String} :
    (s.write table event status (f old >>= fun row => pure (put row))).isOk = true ↔
      ∀ r ∈ rows, idOf r = id → (f r).isOk = true := by
  have honly : (∀ r ∈ rows, idOf r = id → (f r).isOk = true) ↔ (f old).isOk = true := by
    obtain ⟨hold, holdId⟩ := find?_eq_some hfind
    exact ⟨fun hall => hall old hold holdId,
      fun hok r hr hid => find?_unique hids hfind hr hid ▸ hok⟩
  rw [write_isOk hf, honly]
  cases hrow : f old with
  | error err => exact iff_of_false (fun ⟨u, hu, _⟩ => nomatch hu) Bool.false_ne_true
  | ok row => exact iff_of_true (exists_ok.2 (hput row hrow)) rfl

theorem forall_row_iff {α : Type} {idOf : α → String} {rows : List α} {P : Prop} :
    (∀ r ∈ rows, idOf r = id → P) ↔ (id ∈ rows.map idOf → P) := by
  rw [List.mem_map]
  exact ⟨fun h ⟨r, hr, hid⟩ => h r hr hid, fun h r hr hid => h ⟨r, hr, hid⟩⟩

theorem dropRows_go (hf : s.faults = []) {α : Type} (table : Table) (chosen : α → Bool)
    (rows : List α) : s.dropRows table chosen rows = .ok (rows.filter (!chosen ·)) := by
  rw [dropRows, hf]
  split
  · rfl
  · next hnone =>
    rw [List.filter_eq_self.2]
    simpa using hnone

theorem clearRows_go (hf : s.faults = []) {α : Type} (table : Table) (chosen : α → Bool)
    (status : α → Option String) (clear : α → α) (rows : List α) :
    s.clearRows table chosen status clear rows =
      .ok (rows.map fun r => if chosen r then clear r else r) := by
  rw [clearRows, hf]
  induction rows with
  | nil => rfl
  | cons r rows ih =>
      rw [List.mapM_cons, ih, List.map_cons]
      cases chosen r <;> rfl

/-! ## Edits that go through -/

section Refusals

variable (h : s.Rules) (hf : s.faults = []) (hp : s.presets = []) (id : String) (now : Instant)

include h hf

theorem createTemplate_isOk (new : NewTemplate) :
    (s.createTemplate id now new).isOk = true ↔ s.Admits id (.createTemplate new) := by
  rw [createTemplate, isOk_bind fun _ => rfl, addTemplate, isOk_bind fun _ => rfl, write_isOk hf]
  cases hword : Engine.ofWord? new.type with
  | none =>
      refine iff_of_false (fun ⟨u, hu, _⟩ => nomatch hu) fun ⟨_, hsome⟩ => ?_
      rw [hword] at hsome
      cases hsome
  | some type =>
      refine exists_ok.trans (h.addTemplate_iff.trans ?_)
      exact (and_iff_left (Option.isSome_iff_exists.2 ⟨type, hword⟩)).symm

theorem createHost_isOk (new : NewHost) :
    (s.createHost id now new).isOk = true ↔ s.Admits id (.createHost new) := by
  rw [createHost, isOk_bind fun _ => rfl, addHost, isOk_bind fun _ => rfl, write_ok_isOk hf,
    h.addHost_iff]
  rfl

theorem createServer_isOk (new : NewServer) :
    (s.createServer id now new).isOk = true ↔ s.Admits id (.createServer new) := by
  rw [createServer, isOk_bind fun _ => rfl, addServer, isOk_bind fun _ => rfl, write_ok_isOk hf,
    h.addServer_iff]
  rfl

theorem createUser_isOk (new : NewUser) :
    (s.createUser id now new).isOk = true ↔ s.Admits id (.createUser new) := by
  rw [createUser, isOk_bind fun _ => rfl, addUser, isOk_bind fun _ => rfl, write_ok_isOk hf,
    h.addUser_iff]
  rfl

theorem reportHost_isOk (host : String) (report : CoreReport) :
    (s.reportHost host now report).isOk = true := by
  rw [reportHost, isOk_bind fun _ => rfl, changeHost, write_if_isOk hf]
  refine fun _ => h.changeHost (fun _ => rfl) fun r hr _ => ?_
  exact h.hostTemplates r.templateId (List.mem_map_of_mem hr)

theorem assignTemplate_isOk (host : String) (template : Option String) :
    (s.assignTemplate host now template).isOk = true ↔
      s.Admits id (.assignTemplate host template) := by
  rw [assignTemplate, isOk_bind fun _ => rfl, changeHost, write_if_isOk hf, hasHost_iff]
  refine forall_congr' fun hhost => ?_
  constructor
  · intro hrules
    obtain ⟨r, hr, hid⟩ := List.mem_map.1 hhost
    have hrow : { r with templateId := template, updatedAt := now.text } ∈ mapRow HostRow.id host
        (fun h => { h with templateId := template, updatedAt := now.text }) s.hosts :=
      mem_mapRow.2 ⟨r, hr, by rw [if_pos (beq_iff_eq.2 hid)]⟩
    exact hrules.hostTemplates template (List.mem_map.2 ⟨_, hrow, rfl⟩)
  · exact fun htemplate => h.changeHost (fun _ => rfl) fun _ _ _ => htemplate

theorem updateInbounds_isOk (server : String) (inbounds : List Value) :
    (s.updateInbounds server now inbounds).isOk = true := by
  rw [updateInbounds, isOk_bind fun _ => rfl, Store.changeServer, write_if_isOk hf]
  exact fun _ => h.changeServer fun _ => ⟨rfl, rfl⟩

theorem setEnabled_isOk (user : String) (enabled : Bool) :
    (s.setEnabled user enabled).isOk = true := by
  rw [setEnabled, isOk_bind fun _ => rfl, Store.changeUser, write_if_isOk hf]
  exact fun _ => h.changeUser fun _ => ⟨rfl, rfl⟩

theorem removeServer_isOk (server : String) : (s.removeServer server).isOk = true := by
  rw [removeServer, write_if_isOk hf]
  exact fun _ => h.removeServer _

theorem removeUser_isOk (user : String) : (s.removeUser user).isOk = true := by
  rw [removeUser, write_if_isOk hf]
  exact fun _ => h.removeUser _

theorem removeInstance_isOk (i : String) : (s.removeInstance i).isOk = true := by
  rw [removeInstance, write_if_isOk hf]
  exact fun _ => h.removeInstance _

/-- The row of an id is changed just if there is a new row for it. -/
theorem changeTemplate_isOk {f : TemplateRow → Except StoreError TemplateRow}
    (hid : ∀ r row, f r = .ok row → row.id = r.id) :
    (s.changeTemplate id f).isOk = true ↔ ∀ r ∈ s.templates, r.id = id → (f r).isOk = true := by
  rw [Store.changeTemplate]
  cases hfind : s.templates.find? (·.id == id) with
  | none => exact iff_of_true rfl fun r hr heq => (find?_eq_none.1 hfind ⟨r, hr, heq⟩).elim
  | some old =>
      refine write_row_isOk hf h.templateIds hfind fun row hrow => ?_
      have holdId := (find?_eq_some hfind).2
      exact h.changeTemplate fun r _ heq => (hid old row hrow).trans (holdId.trans heq.symm)

theorem updateTemplate_isOk (template : String) (change : TemplateChange) :
    (s.updateTemplate template now change).isOk = true ↔
      s.Admits id (.updateTemplate template change) := by
  rw [updateTemplate, isOk_bind fun _ => rfl, changeTemplate_isOk h hf]
  · cases hchange : change.type with
    | none =>
        refine iff_of_true (fun _ _ _ => rfl) fun _ word hword => ?_
        rw [hchange] at hword
        cases hword
    | some word =>
        have hword : s.Admits id (.updateTemplate template change) ↔
            (template ∈ s.templates.map TemplateRow.id → (Engine.ofWord? word).isSome = true) := by
          rw [Admits, hchange]
          simp
        rw [hword, ← forall_row_iff]
        dsimp only
        cases Engine.ofWord? word with
        | none => exact Iff.rfl
        | some type => exact Iff.rfl
  · intro r row hrow
    dsimp only at hrow
    split at hrow
    · cases hrow
      rfl
    · split at hrow
      · cases hrow
        rfl
      · cases hrow

/-- The row of an id is changed just if there is a new row for it. -/
theorem changeInstance_isOk {f : InstanceRow → Except StoreError InstanceRow}
    (hsame : ∀ r row, f r = .ok row → row.id = r.id ∧ row.hostId = r.hostId ∧
      row.instanceId = r.instanceId ∧ row.templateId = r.templateId) :
    (s.changeInstance id f).isOk = true ↔ ∀ r ∈ s.instances, r.id = id → (f r).isOk = true := by
  rw [Store.changeInstance]
  cases hfind : s.instances.find? (·.id == id) with
  | none => exact iff_of_true rfl fun r hr heq => (find?_eq_none.1 hfind ⟨r, hr, heq⟩).elim
  | some old =>
      refine write_row_isOk hf h.instanceIds hfind fun row hrow => ?_
      refine h.changeInstance fun r hr heq => ?_
      rw [find?_unique h.instanceIds hfind hr heq]
      exact hsame old row hrow

theorem updateInstance_isOk (i : String) (change : InstanceChange) :
    (s.updateInstance i now change).isOk = true ↔ s.Admits id (.updateInstance i change) := by
  rw [updateInstance, isOk_bind fun _ => rfl, changeInstance_isOk h hf]
  · cases hchange : change.status with
    | none =>
        refine iff_of_true (fun _ _ _ => rfl) fun _ word hword => ?_
        rw [hchange] at hword
        cases hword
    | some word =>
        have hword : s.Admits id (.updateInstance i change) ↔
            (i ∈ s.instances.map InstanceRow.id → (InstanceStatus.ofName? word).isSome = true) := by
          rw [Admits, hchange]
          simp
        rw [hword, ← forall_row_iff]
        dsimp only [instanceStatus]
        cases InstanceStatus.ofName? word with
        | none => exact Iff.rfl
        | some status => exact Iff.rfl
  · intro r row hrow
    dsimp only at hrow
    split at hrow
    · cases hrow
      exact ⟨rfl, rfl, rfl, rfl⟩
    · obtain ⟨status, -, hrow⟩ := bind_ok hrow
      cases hrow
      exact ⟨rfl, rfl, rfl, rfl⟩

theorem moveLog_isOk (log : String) (target : SwitchStatus) (details : MoveDetails) :
    (s.moveLog log now target details).isOk = true := by
  rw [moveLog, isOk_bind fun _ => rfl, changeLog]
  cases s.logs.find? (·.id == log) with
  | none => rfl
  | some old =>
      refine (write_if_isOk hf).2 fun _ => ?_
      exact broken?_eq_none.1 (broken?_movedLog.trans (broken?_eq_none.2 h))

theorem removeHost_isOk (host : String) : (s.removeHost host).isOk = true := by
  rw [removeHost]
  split
  · refine (write_isOk hf).2 ⟨s.withoutHost host, ?_, h.withoutHost host⟩
    rw [dropRows_go hf, dropRows_go hf, dropRows_go hf]
    rfl
  · rfl

theorem removeTemplate_isOk (template : String) : (s.removeTemplate template).isOk = true := by
  rw [removeTemplate]
  split
  · refine (write_isOk hf).2 ⟨s.withoutTemplate template, ?_, h.withoutTemplate template⟩
    rw [clearRows_go hf, clearRows_go hf, withoutTemplate]
    simp only [cleared_host, cleared_instance]
    rfl
  · rfl

include hp

theorem createInstance_isOk (new : NewInstance) :
    (s.createInstance id now new).isOk = true ↔ s.Admits id (.createInstance new) := by
  rw [createInstance, isOk_bind fun _ => rfl, addInstance, isOk_bind, write_isOk hf]
  · have hadmits : s.Admits id (.createInstance new) ↔
        (InstanceStatus.ofName? new.status).isSome = true ∧
        id ∉ s.instances.map InstanceRow.id ∧
        (new.hostId, new.instanceId) ∉ s.instances.map (fun r => (r.hostId, r.instanceId)) ∧
        new.hostId ∈ s.hosts.map HostRow.id ∧ s.LeadsToTemplate new.templateId := Iff.rfl
    rw [hadmits]
    unfold instanceStatus
    cases InstanceStatus.ofName? new.status with
    | none => exact iff_of_false (fun ⟨u, hu, _⟩ => nomatch hu) fun hall => nomatch hall.1
    | some status => exact exists_ok.trans (h.addInstance_iff.trans (and_iff_right rfl).symm)
  · rintro ⟨after, written⟩
    rw [hp]
    dsimp only
    split
    · split <;> rfl
    · rfl

theorem createLog_isOk (new : NewSwitchLog) :
    (s.createLog id now new).isOk = true ↔ s.Admits id (.createLog new) := by
  rw [createLog, isOk_bind fun _ => rfl, addLog, isOk_bind, write_ok_isOk hf, h.addLog_iff]
  · rfl
  · rintro ⟨after, written⟩
    rw [hp]
    dsimp only
    split <;> rfl

/-- Where no write fails, an edit goes through just if it is admitted. -/
theorem edit_isOk (e : Edit) : (s.edit e id now).isOk = true ↔ s.Admits id e := by
  unfold edit
  cases e with
  | createHost new => rw [isOk_map, createHost_isOk h hf]
  | reportHost host report =>
      rw [isOk_map]
      exact iff_of_true (reportHost_isOk h hf now host report) trivial
  | assignTemplate host template => rw [isOk_map, assignTemplate_isOk h hf id]
  | removeHost host =>
      rw [isOk_map]
      exact iff_of_true (removeHost_isOk h hf host) trivial
  | createTemplate new => rw [isOk_map, createTemplate_isOk h hf]
  | updateTemplate template change => rw [isOk_map, updateTemplate_isOk h hf id]
  | removeTemplate template =>
      rw [isOk_map]
      exact iff_of_true (removeTemplate_isOk h hf template) trivial
  | createServer new => rw [isOk_map, createServer_isOk h hf]
  | updateInbounds server inbounds =>
      rw [isOk_map]
      exact iff_of_true (updateInbounds_isOk h hf now server inbounds) trivial
  | removeServer server =>
      rw [isOk_map]
      exact iff_of_true (removeServer_isOk h hf server) trivial
  | createUser new => rw [isOk_map, createUser_isOk h hf]
  | setEnabled user enabled =>
      rw [isOk_map]
      exact iff_of_true (setEnabled_isOk h hf user enabled) trivial
  | removeUser user =>
      rw [isOk_map]
      exact iff_of_true (removeUser_isOk h hf user) trivial
  | createInstance new => rw [isOk_map, createInstance_isOk h hf hp]
  | updateInstance i change => rw [isOk_map, updateInstance_isOk h hf id]
  | removeInstance i =>
      rw [isOk_map]
      exact iff_of_true (removeInstance_isOk h hf i) trivial
  | createLog new => rw [isOk_map, createLog_isOk h hf hp]
  | moveLog log target details =>
      rw [isOk_map]
      exact iff_of_true (moveLog_isOk h hf now log target details) trivial

end Refusals

end Store

end ProxyFleet
