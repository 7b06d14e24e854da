import Mathlib.Data.List.Forall2
import ProxyFleet.Store.Edit

/-!
# What an edit does to the tables

Every edit goes through `Store.write`, which either passes it over, or puts the
store into a new shape after checking its rules. `Store.Step` says for each kind
of edit what that shape is, so that whatever holds of all edits is read off by
one look at each of them, and no later proof opens the store again.

The tables that give new rows a status of their own (`Store.presets`) are taken
to be empty here; nothing a running program does ever fills them.
-/

namespace ProxyFleet

/-- The statuses a move is asked to start from are those that allow it. -/
theorem SwitchStatus.mem_sources {source target : SwitchStatus} :
    source ∈ target.sources ↔ source.canMove target = true := by
  cases source <;> cases target <;> decide

namespace Store

variable {s t u : Store} {id : String} {now : Instant} {e : Edit}

/-! ## Writing -/

theorem bind_ok {α β : Type} {x : Except StoreError α} {f : α → Except StoreError β} {b : β}
    (h : (x >>= f) = .ok b) : ∃ a, x = .ok a ∧ f a = .ok b := by
  cases x with
  | error err => cases h
  | ok a => exact ⟨a, rfl, h⟩

theorem map_ok {α β : Type} {x : Except StoreError α} {f : α → β} {b : β}
    (h : x.map f = .ok b) : ∃ a, x = .ok a ∧ f a = b := by
  cases x with
  | error err => cases h
  | ok a => exact ⟨a, rfl, by injection h⟩

theorem checked_ok (h : s.checked = .ok t) : t = s ∧ s.broken? = none := by
  unfold checked at h
  split at h
  · cases h
  · next hb =>
      injection h with h
      exact ⟨h.symm, hb⟩

/-- A write is passed over, or goes through with the rules kept. -/
theorem write_ok {table : Table} {event : RowEvent} {status : Option String}
    {target : Except StoreError Store} {r : Store × Bool}
    (h : s.write table event status target = .ok r) :
    r = (s, false) ∨ ∃ u, target = .ok u ∧ r = (u, true) ∧ u.broken? = none := by
  unfold write at h
  split at h
  · cases h
  · injection h with h
    exact Or.inl h.symm
  · obtain ⟨v, hv, hrest⟩ := bind_ok h
    obtain ⟨u, hu, hr⟩ := bind_ok hrest
    obtain ⟨rfl, hb⟩ := checked_ok hu
    cases hr
    exact Or.inr ⟨u, hv, rfl, hb⟩

/-- A write whose target is certain. -/
theorem write_ok_of_target {table : Table} {event : RowEvent} {status : Option String}
    {r : Store × Bool} (h : s.write table event status (.ok u) = .ok r) :
    r = (s, false) ∨ r = (u, true) ∧ u.broken? = none := by
  rcases write_ok h with h | ⟨v, hv, hr, hb⟩
  · exact Or.inl h
  · injection hv with hv
    subst hv
    exact Or.inr ⟨hr, hb⟩

theorem write_of_go {table : Table} {event : RowEvent} {status : Option String}
    (hgo : permit s.faults table event status = .go) (hu : u.broken? = none) :
    s.write table event status (.ok u) = .ok (u, true) := by
  unfold write
  rw [hgo]
  change (u.checked >>= fun s => pure (s, true)) = _
  unfold checked
  rw [hu]
  rfl

theorem write_of_fail {table : Table} {event : RowEvent} {status : Option String}
    {message : String} {target : Except StoreError Store}
    (hfail : permit s.faults table event status = .fail message) :
    s.write table event status target = .error (.raised message) := by
  unfold write
  rw [hfail]

/-! ## Rows -/

theorem mem_mapRow {α : Type} {idOf : α → String} {f : α → α} {rows : List α} {r : α} :
    r ∈ mapRow idOf id f rows ↔ ∃ q ∈ rows, r = if idOf q == id then f q else q := by
  simp only [mapRow, List.mem_map]
  constructor
  · rintro ⟨q, hq, rfl⟩
    exact ⟨q, hq, rfl⟩
  · rintro ⟨q, hq, rfl⟩
    exact ⟨q, hq, rfl⟩

theorem mem_mapRow_other {α : Type} {idOf : α → String} {f : α → α} {rows : List α} {r : α}
    (hr : r ∈ rows) (hid : idOf r ≠ id) : r ∈ mapRow idOf id f rows :=
  mem_mapRow.2 ⟨r, hr, by rw [if_neg (by simpa using hid)]⟩

/-- Rows of a table after some of them were taken out: the others are all there. -/
structure Dropped {α : Type} (chosen : α → Bool) (rows rows' : List α) : Prop where
  old : ∀ r ∈ rows', r ∈ rows
  kept : ∀ r ∈ rows, chosen r = false → r ∈ rows'

theorem dropRows_ok {α : Type} {table : Table} {chosen : α → Bool} {rows rows' : List α}
    (h : s.dropRows table chosen rows = .ok rows') : Dropped chosen rows rows' := by
  unfold dropRows at h
  split at h
  · split at h
    · cases h
    · injection h with h
      exact h ▸ ⟨fun _ hr => hr, fun _ hr _ => hr⟩
    · injection h with h
      subst h
      exact ⟨fun r hr => (List.mem_filter.1 hr).1,
        fun r hr hc => List.mem_filter.2 ⟨hr, by simp [hc]⟩⟩
  · injection h with h
    exact h ▸ ⟨fun _ hr => hr, fun _ hr _ => hr⟩

/-- Rows of a table after references in some of them were cleared. -/
def Cleared {α : Type} (chosen : α → Bool) (clear : α → α) (rows rows' : List α) : Prop :=
  List.Forall₂ (fun r r' => r' = r ∨ chosen r = true ∧ r' = clear r) rows rows'

theorem clearRows_ok {α : Type} {table : Table} {chosen : α → Bool} {status : α → Option String}
    {clear : α → α} : ∀ {rows rows' : List α},
      s.clearRows table chosen status clear rows = .ok rows' → Cleared chosen clear rows rows'
  | [], rows', h => by
      injection h with h
      exact h ▸ List.Forall₂.nil
  | r :: rows, rows', h => by
      unfold clearRows at h
      rw [List.mapM_cons] at h
      obtain ⟨q, hq, hrest⟩ := bind_ok h
      obtain ⟨qs, hqs, hr⟩ := bind_ok hrest
      cases hr
      refine List.Forall₂.cons ?_ (clearRows_ok hqs)
      split at hq
      · next hc =>
          split at hq
          · cases hq
          · injection hq with hq
            exact Or.inl hq.symm
          · injection hq with hq
            exact Or.inr ⟨hc, hq.symm⟩
      · injection hq with hq
        exact Or.inl hq.symm

/-! ## Edits -/

/-- The shape of the store after an edit that went through. -/
inductive Step (id : String) (s : Store) : Edit → Store → Prop where
  | createHost {new : NewHost} {row : HostRow} : row.id = id →
      Step id s (.createHost new) { s with hosts := s.hosts ++ [row] }
  | reportHost {host : String} {report : CoreReport} {f : HostRow → HostRow} :
      (∀ r, (f r).id = r.id) →
      Step id s (.reportHost host report) { s with hosts := mapRow HostRow.id host f s.hosts }
  | assignTemplate {host : String} {template : Option String} {f : HostRow → HostRow} :
      (∀ r, (f r).id = r.id) →
      Step id s (.assignTemplate host template) { s with hosts := mapRow HostRow.id host f s.hosts }
  | removeHost {host : String} {logs : List SwitchLogRow} {instances : List InstanceRow}
      {servers : List ServerRow} :
      Dropped (fun r => r.hostId == host) s.logs logs →
      Dropped (fun r => r.hostId == host) s.instances instances →
      Dropped (fun r => r.hostId == host) s.servers servers →
      Step id s (.removeHost host) { s with
        hosts := s.hosts.filter (·.id != host)
        logs := logs
        instances := instances
        servers := servers }
  | createTemplate {new : NewTemplate} {row : TemplateRow} : row.id = id →
      Step id s (.createTemplate new) { s with templates := s.templates ++ [row] }
  | updateTemplate {template : String} {change : TemplateChange} {old row : TemplateRow} :
      s.templates.find? (·.id == template) = some old → row.id = old.id →
      Step id s (.updateTemplate template change)
        { s with templates := mapRow TemplateRow.id template (fun _ => row) s.templates }
  | removeTemplate {template : String} {instances : List InstanceRow} {hosts : List HostRow} :
      Cleared (fun r => r.templateId == some template) (fun r => { r with templateId := none })
        s.instances instances →
      Cleared (fun r => r.templateId == some template) (fun r => { r with templateId := none })
        s.hosts hosts →
      Step id s (.removeTemplate template) { s with
        templates := s.templates.filter (·.id != template)
        instances := instances
        hosts := hosts }
  | createServer {new : NewServer} {row : ServerRow} : row.id = id →
      Step id s (.createServer new) { s with servers := s.servers ++ [row] }
  | updateInbounds {server : String} {inbounds : List Value} {f : ServerRow → ServerRow} :
      (∀ r, (f r).id = r.id) →
      Step id s (.updateInbounds server inbounds)
        { s with servers := mapRow ServerRow.id server f s.servers }
  | removeServer {server : String} :
      Step id s (.removeServer server) { s with servers := s.servers.filter (·.id != server) }
  | createUser {new : NewUser} {row : UserRow} : row.id = id →
      Step id s (.createUser new) { s with users := s.users ++ [row] }
  | setEnabled {user : String} {enabled : Bool} {f : UserRow → UserRow} :
      (∀ r, (f r).id = r.id) →
      Step id s (.setEnabled user enabled) { s with users := mapRow UserRow.id user f s.users }
  | removeUser {user : String} :
      Step id s (.removeUser user) { s with users := s.users.filter (·.id != user) }
  | createInstance {new : NewInstance} {row : InstanceRow} : row.id = id →
      row.hostId = new.hostId → row.instanceId = new.instanceId →
      Step id s (.createInstance new) { s with instances := s.instances ++ [row] }
  | updateInstance {i : String} {change : InstanceChange} {old row : InstanceRow} :
      s.instances.find? (·.id == i) = some old → row.id = old.id → row.hostId = old.hostId →
      row.instanceId = old.instanceId →
      Step id s (.updateInstance i change)
        { s with instances := mapRow InstanceRow.id i (fun _ => row) s.instances }
  | removeInstance {i : String} :
      Step id s (.removeInstance i) { s with instances := s.instances.filter (·.id != i) }
  | createLog {new : NewSwitchLog} {row : SwitchLogRow} : row.id = id → row.status = .pending →
      row.completedAt = none → row.hostId = new.hostId →
      Step id s (.createLog new) { s with logs := s.logs ++ [row] }
  | moveLog {log : String} {target : SwitchStatus} {details : MoveDetails} {now : Instant}
      {old : SwitchLogRow} :
      s.logs.find? (·.id == log) = some old → old.status.canMove target = true →
      Step id s (.moveLog log target details)
        { s with logs := mapRow SwitchLogRow.id log (movedLog now target details) s.logs }

/-- What an edit comes to: nothing, or a step after which the rules hold. -/
def Stepped (id : String) (s : Store) (e : Edit) (t : Store) : Prop :=
  t = s ∨ Step id s e t ∧ t.broken? = none

theorem Stepped.of_write {table : Table} {event : RowEvent} {status : Option String}
    {r : Store × Bool} (h : s.write table event status (.ok u) = .ok r) (hu : Step id s e u) :
    Stepped id s e r.1 := by
  rcases write_ok_of_target h with rfl | ⟨rfl, hb⟩
  · exact Or.inl rfl
  · exact Or.inr ⟨hu, hb⟩

/-- A row is changed or taken out only if it is there. -/
theorem Stepped.of_write_if {c : Prop} [Decidable c] {table : Table} {event : RowEvent}
    {status : Option String} {r : Store × Bool}
    (h : (if c then s.write table event status (.ok u) else .ok (s, false)) = .ok r)
    (hu : Step id s e u) : Stepped id s e r.1 := by
  split at h
  · exact of_write h hu
  · cases h
    exact Or.inl rfl

theorem createHost_ok {new : NewHost} {r : AgentHost × Store}
    (h : s.createHost id now new = .ok r) : Stepped id s (.createHost new) r.2 := by
  obtain ⟨t, ht, hr⟩ := bind_ok h
  obtain ⟨w, hw, ht⟩ := bind_ok ht
  cases hr
  cases ht
  exact .of_write hw (.createHost rfl)

theorem reportHost_ok {host : String} {report : CoreReport} {r : Option AgentHost × Store}
    (h : s.reportHost host now report = .ok r) : Stepped id s (.reportHost host report) r.2 := by
  obtain ⟨w, hw, hr⟩ := bind_ok h
  cases hr
  exact .of_write_if hw (.reportHost fun _ => rfl)

theorem assignTemplate_ok {host : String} {template : Option String}
    {r : Option AgentHost × Store} (h : s.assignTemplate host now template = .ok r) :
    Stepped id s (.assignTemplate host template) r.2 := by
  obtain ⟨w, hw, hr⟩ := bind_ok h
  cases hr
  exact .of_write_if hw (.assignTemplate fun _ => rfl)

theorem removeHost_ok {host : String} {r : Store × Bool} (h : s.removeHost host = .ok r) :
    Stepped id s (.removeHost host) r.1 := by
  unfold removeHost at h
  split at h
  · rcases write_ok h with rfl | ⟨u, hu, rfl, hb⟩
    · exact Or.inl rfl
    · obtain ⟨logs, hlogs, hu⟩ := bind_ok hu
      obtain ⟨instances, hinstances, hu⟩ := bind_ok hu
      obtain ⟨servers, hservers, hu⟩ := bind_ok hu
      cases hu
      exact Or.inr ⟨.removeHost (dropRows_ok hlogs) (dropRows_ok hinstances)
        (dropRows_ok hservers), hb⟩
  · cases h
    exact Or.inl rfl

theorem createTemplate_ok {new : NewTemplate} {r : ConfigTemplate × Store}
    (h : s.createTemplate id now new = .ok r) : Stepped id s (.createTemplate new) r.2 := by
  obtain ⟨t, ht, hr⟩ := bind_ok h
  obtain ⟨w, hw, ht⟩ := bind_ok ht
  cases hr
  cases ht
  rcases write_ok hw with rfl | ⟨u, hu, rfl, hb⟩
  · exact Or.inl rfl
  · obtain ⟨row, hrow, hu⟩ := bind_ok hu
    cases hu
    split at hrow
    · cases hrow
    · cases hrow
      exact Or.inr ⟨.createTemplate rfl, hb⟩

theorem updateTemplate_ok {template : String} {change : TemplateChange}
    {r : Option ConfigTemplate × Store} (h : s.updateTemplate template now change = .ok r) :
    Stepped id s (.updateTemplate template change) r.2 := by
  obtain ⟨w, hw, hr⟩ := bind_ok h
  cases hr
  unfold changeTemplate at hw
  split at hw
  · cases hw
    exact Or.inl rfl
  · next old hold =>
      rcases write_ok hw with rfl | ⟨u, hu, rfl, hb⟩
      · exact Or.inl rfl
      · obtain ⟨row, hrow, hu⟩ := bind_ok hu
        cases hu
        refine Or.inr ⟨.updateTemplate hold ?_, hb⟩
        dsimp only at hrow
        split at hrow
        · cases hrow
          rfl
        · split at hrow
          · cases hrow
            rfl
          · cases hrow

theorem removeTemplate_ok {template : String} {r : Store × Bool}
    (h : s.removeTemplate template = .ok r) : Stepped id s (.removeTemplate template) r.1 := by
  unfold removeTemplate at h
  split at h
  · rcases write_ok h with rfl | ⟨u, hu, rfl, hb⟩
    · exact Or.inl rfl
    · obtain ⟨instances, hinstances, hu⟩ := bind_ok hu
      obtain ⟨hosts, hhosts, hu⟩ := bind_ok hu
      cases hu
      exact Or.inr ⟨.removeTemplate (clearRows_ok hinstances) (clearRows_ok hhosts), hb⟩
  · cases h
    exact Or.inl rfl

theorem createServer_ok {new : NewServer} {r : ServerNode × Store}
    (h : s.createServer id now new = .ok r) : Stepped id s (.createServer new) r.2 := by
  obtain ⟨t, ht, hr⟩ := bind_ok h
  obtain ⟨w, hw, ht⟩ := bind_ok ht
  cases hr
  cases ht
  exact .of_write hw (.createServer rfl)

theorem updateInbounds_ok {server : String} {inbounds : List Value}
    {r : Option ServerNode × Store} (h : s.updateInbounds server now inbounds = .ok r) :
    Stepped id s (.updateInbounds server inbounds) r.2 := by
  obtain ⟨w, hw, hr⟩ := bind_ok h
  cases hr
  exact .of_write_if hw (.updateInbounds fun _ => rfl)

theorem removeServer_ok {server : String} {r : Store × Bool} (h : s.removeServer server = .ok r) :
    Stepped id s (.removeServer server) r.1 :=
  .of_write_if h .removeServer

theorem createUser_ok {new : NewUser} {r : NodeUser × Store}
    (h : s.createUser id now new = .ok r) : Stepped id s (.createUser new) r.2 := by
  obtain ⟨t, ht, hr⟩ := bind_ok h
  obtain ⟨w, hw, ht⟩ := bind_ok ht
  cases hr
  cases ht
  exact .of_write hw (.createUser rfl)

theorem setEnabled_ok {user : String} {enabled : Bool} {r : Option NodeUser × Store}
    (h : s.setEnabled user enabled = .ok r) : Stepped id s (.setEnabled user enabled) r.2 := by
  obtain ⟨w, hw, hr⟩ := bind_ok h
  cases hr
  exact .of_write_if hw (.setEnabled fun _ => rfl)

theorem removeUser_ok {user : String} {r : Store × Bool} (h : s.removeUser user = .ok r) :
    Stepped id s (.removeUser user) r.1 :=
  .of_write_if h .removeUser

theorem removeInstance_ok {i : String} {r : Store × Bool} (h : s.removeInstance i = .ok r) :
    Stepped id s (.removeInstance i) r.1 :=
  .of_write_if h .removeInstance

theorem updateInstance_ok {i : String} {change : InstanceChange}
    {r : Option CoreInstance × Store} (h : s.updateInstance i now change = .ok r) :
    Stepped id s (.updateInstance i change) r.2 := by
  obtain ⟨w, hw, hr⟩ := bind_ok h
  cases hr
  unfold changeInstance at hw
  split at hw
  · cases hw
    exact Or.inl rfl
  · next old hold =>
      rcases write_ok hw with rfl | ⟨u, hu, rfl, hb⟩
      · exact Or.inl rfl
      · obtain ⟨row, hrow, hu⟩ := bind_ok hu
        cases hu
        have hsame : row.id = old.id ∧ row.hostId = old.hostId ∧
            row.instanceId = old.instanceId := by
          dsimp only at hrow
          split at hrow
          · cases hrow
            exact ⟨rfl, rfl, rfl⟩
          · obtain ⟨status, -, hrow⟩ := bind_ok hrow
            cases hrow
            exact ⟨rfl, rfl, rfl⟩
        exact Or.inr ⟨.updateInstance hold hsame.1 hsame.2.1 hsame.2.2, hb⟩

/-- Putting an instance in is one write, where no status is set for its table. -/
theorem addInstance_ok {status : String} {row : Except StoreError InstanceRow}
    (hp : s.presets = []) (h : s.addInstance status row = .ok t) :
    ∃ written, s.write .instances .insert (some status)
      (row >>= fun r => pure { s with instances := s.instances ++ [r] }) = .ok (t, written) := by
  obtain ⟨⟨after, written⟩, hw, ht⟩ := bind_ok h
  refine ⟨written, ?_⟩
  dsimp only at ht
  rw [hp] at ht
  split at ht
  · split at ht
    · cases ht
      exact hw
    · cases ht
      exact hw
  · cases ht
    exact hw

/-- Putting a log in is one write, where no status is set for its table. -/
theorem addLog_ok {row : SwitchLogRow} (hp : s.presets = []) (h : s.addLog row = .ok t) :
    ∃ written, s.write .switchLogs .insert (some row.status.name)
      (.ok { s with logs := s.logs ++ [row] }) = .ok (t, written) := by
  obtain ⟨⟨after, written⟩, hw, ht⟩ := bind_ok h
  refine ⟨written, ?_⟩
  dsimp only at ht
  rw [hp] at ht
  split at ht
  · cases ht
    exact hw
  · cases ht
    exact hw

theorem createInstance_ok {new : NewInstance} {r : CoreInstance × Store} (hp : s.presets = [])
    (h : s.createInstance id now new = .ok r) : Stepped id s (.createInstance new) r.2 := by
  obtain ⟨t, ht, hr⟩ := bind_ok h
  cases hr
  obtain ⟨written, hw⟩ := addInstance_ok hp ht
  rcases write_ok hw with heq | ⟨u, hu, heq, hb⟩
  · cases heq
    exact Or.inl rfl
  · cases heq
    obtain ⟨row, hrow, hu⟩ := bind_ok hu
    obtain ⟨status, -, hrow⟩ := bind_ok hrow
    cases hu
    cases hrow
    exact Or.inr ⟨.createInstance rfl rfl rfl, hb⟩

theorem createLog_ok {new : NewSwitchLog} {r : SwitchLog × Store} (hp : s.presets = [])
    (h : s.createLog id now new = .ok r) : Stepped id s (.createLog new) r.2 := by
  obtain ⟨t, ht, hr⟩ := bind_ok h
  cases hr
  obtain ⟨written, hw⟩ := addLog_ok hp ht
  exact .of_write hw (.createLog rfl rfl rfl rfl)

theorem moveLog_ok {log : String} {target : SwitchStatus} {details : MoveDetails}
    {r : Bool × Store} (h : s.moveLog log now target details = .ok r) :
    Stepped id s (.moveLog log target details) r.2 := by
  obtain ⟨w, hw, hr⟩ := bind_ok h
  cases hr
  unfold changeLog at hw
  split at hw
  · cases hw
    exact Or.inl rfl
  · next old hold =>
      split at hw
      · next hs => exact .of_write hw (.moveLog hold (SwitchStatus.mem_sources.1 (by simpa using hs)))
      · cases hw
        exact Or.inl rfl

/-- An edit that goes through is passed over or takes its step. -/
theorem edit_ok (hp : s.presets = []) (h : s.edit e id now = .ok t) : Stepped id s e t := by
  cases e <;> obtain ⟨r, hr, rfl⟩ := map_ok h
  case createHost => exact createHost_ok hr
  case reportHost => exact reportHost_ok hr
  case assignTemplate => exact assignTemplate_ok hr
  case removeHost => exact removeHost_ok hr
  case createTemplate => exact createTemplate_ok hr
  case updateTemplate => exact updateTemplate_ok hr
  case removeTemplate => exact removeTemplate_ok hr
  case createServer => exact createServer_ok hr
  case updateInbounds => exact updateInbounds_ok hr
  case removeServer => exact removeServer_ok hr
  case createUser => exact createUser_ok hr
  case setEnabled => exact setEnabled_ok hr
  case removeUser => exact removeUser_ok hr
  case createInstance => exact createInstance_ok hp hr
  case updateInstance => exact updateInstance_ok hr
  case removeInstance => exact removeInstance_ok hr
  case createLog => exact createLog_ok hp hr
  case moveLog => exact moveLog_ok hr

end Store

end ProxyFleet
