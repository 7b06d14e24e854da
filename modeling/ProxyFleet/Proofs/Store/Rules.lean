import ProxyFleet.Proofs.Store.Moves

/-!
# The rules of the tables

A write is checked against all rules of all tables (`Store.broken?`), but what it can
break is little. `Store.Rules` says what the rules are, by columns, since what an edit
leaves alone is best seen there: a row that is changed keeps its id, and a reference is
kept as long as the column it leads to has not lost it.

So a row that is put in has to answer for itself alone, and what is taken out breaks
nothing, as long as all that leads to it goes with it (`Store.withoutHost`) or is cleared
(`Store.withoutTemplate`).
-/

namespace ProxyFleet

namespace Store

variable {s t u : Store} {id : String} {now : Instant} {e : Edit}

/-! ## Rules by columns -/

/-- There is a template for a reference, or the reference is empty. -/
def LeadsToTemplate (s : Store) (reference : Option String) : Prop :=
  ∀ id ∈ reference, id ∈ s.templates.map TemplateRow.id

/-- What holds of the columns of a store. -/
structure Rules (s : Store) : Prop where
  templateIds : (s.templates.map TemplateRow.id).Nodup
  hostIds : (s.hosts.map HostRow.id).Nodup
  serverIds : (s.servers.map ServerRow.id).Nodup
  userIds : (s.users.map UserRow.id).Nodup
  userUuids : (s.users.map UserRow.uuid).Nodup
  instanceIds : (s.instances.map InstanceRow.id).Nodup
  instanceNames : (s.instances.map fun r => (r.hostId, r.instanceId)).Nodup
  logIds : (s.logs.map SwitchLogRow.id).Nodup
  hostTemplates : ∀ o ∈ s.hosts.map HostRow.templateId, s.LeadsToTemplate o
  serverHosts : ∀ h ∈ s.servers.map ServerRow.hostId, h ∈ s.hosts.map HostRow.id
  instanceHosts : ∀ h ∈ s.instances.map InstanceRow.hostId, h ∈ s.hosts.map HostRow.id
  instanceTemplates : ∀ o ∈ s.instances.map InstanceRow.templateId, s.LeadsToTemplate o
  logHosts : ∀ h ∈ s.logs.map SwitchLogRow.hostId, h ∈ s.hosts.map HostRow.id

theorem hasHost_iff : s.hasHost id = true ↔ id ∈ s.hosts.map HostRow.id := by
  simp [hasHost]

theorem hasTemplate_iff {reference : Option String} :
    s.hasTemplate reference = true ↔ s.LeadsToTemplate reference := by
  cases reference <;> simp [hasTemplate, LeadsToTemplate]

theorem referencesHold_iff : s.referencesHold = true ↔
    (∀ o ∈ s.hosts.map HostRow.templateId, s.LeadsToTemplate o) ∧
    (∀ h ∈ s.servers.map ServerRow.hostId, h ∈ s.hosts.map HostRow.id) ∧
    ((∀ h ∈ s.instances.map InstanceRow.hostId, h ∈ s.hosts.map HostRow.id) ∧
      ∀ o ∈ s.instances.map InstanceRow.templateId, s.LeadsToTemplate o) ∧
    ∀ h ∈ s.logs.map SwitchLogRow.hostId, h ∈ s.hosts.map HostRow.id := by
  simp only [referencesHold, Bool.and_eq_true, List.all_eq_true, hasHost_iff, hasTemplate_iff,
    List.forall_mem_map, and_assoc, forall_and]

/-- The rules are what a write is checked against. -/
theorem broken?_eq_none : s.broken? = none ↔ s.Rules := by
  simp only [broken?, ite_some_eq_none, Bool.not_eq_true, hasRepeat_eq_false, Bool.not_eq_false',
    referencesHold_iff, and_true]
  constructor
  · rintro ⟨h1, h2, h3, h4, h5, h6, h7, h8, h9, h10, ⟨h11, h12⟩, h13⟩
    exact ⟨h1, h2, h3, h4, h5, h6, h7, h8, h9, h10, h11, h12, h13⟩
  · rintro ⟨h1, h2, h3, h4, h5, h6, h7, h8, h9, h10, h11, h12, h13⟩
    exact ⟨h1, h2, h3, h4, h5, h6, h7, h8, h9, h10, ⟨h11, h12⟩, h13⟩

/-! ## Columns -/

theorem nodup_map_concat {α β : Type} {f : α → β} {rows : List α} {row : α} :
    ((rows ++ [row]).map f).Nodup ↔ (rows.map f).Nodup ∧ f row ∉ rows.map f := by
  rw [List.map_append, List.map_singleton, List.nodup_append]
  simp

theorem map_mapRow {α β : Type} {idOf : α → String} {f : α → α} {g : α → β} {rows : List α}
    (h : ∀ r ∈ rows, idOf r = id → g (f r) = g r) : (mapRow idOf id f rows).map g = rows.map g := by
  rw [mapRow, List.map_map]
  refine List.map_congr_left fun r hr => ?_
  simp only [Function.comp]
  split
  · next heq => exact h r hr (beq_iff_eq.1 heq)
  · rfl

theorem nodup_map_filter {α β : Type} {f : α → β} {rows : List α} (p : α → Bool)
    (h : (rows.map f).Nodup) : ((rows.filter p).map f).Nodup :=
  h.sublist (List.filter_sublist.map f)

theorem forall_mem_concat {α β : Type} {f : α → β} {P : β → Prop} {rows : List α} {row : α} :
    (∀ x ∈ (rows ++ [row]).map f, P x) ↔ (∀ x ∈ rows.map f, P x) ∧ P (f row) := by
  rw [List.map_append, List.forall_mem_append, List.map_singleton, List.forall_mem_singleton]

theorem mem_map_concat {α β : Type} {f : α → β} {rows : List α} {x : β} (row : α)
    (h : x ∈ rows.map f) : x ∈ (rows ++ [row]).map f := by
  rw [List.map_append]
  exact List.mem_append_left _ h

theorem forall_mem_filter {α β : Type} {f : α → β} {P : β → Prop} {rows : List α} (p : α → Bool)
    (h : ∀ x ∈ rows.map f, P x) : ∀ x ∈ (rows.filter p).map f, P x := fun x hx =>
  h x ((List.filter_sublist.map f).subset hx)

namespace Rules

/-! ## Rows that are put in -/

theorem addTemplate_iff (h : s.Rules) {row : TemplateRow} :
    ({ s with templates := s.templates ++ [row] } : Store).Rules ↔
      row.id ∉ s.templates.map TemplateRow.id := by
  constructor
  · exact fun h' => (nodup_map_concat.1 h'.templateIds).2
  · intro hid
    have hleads : ∀ o, s.LeadsToTemplate o →
        LeadsToTemplate { s with templates := s.templates ++ [row] } o :=
      fun o ho x hx => mem_map_concat row (ho x hx)
    exact { h with
      templateIds := nodup_map_concat.2 ⟨h.templateIds, hid⟩
      hostTemplates := fun o ho => hleads o (h.hostTemplates o ho)
      instanceTemplates := fun o ho => hleads o (h.instanceTemplates o ho) }

theorem addHost_iff (h : s.Rules) {row : HostRow} :
    ({ s with hosts := s.hosts ++ [row] } : Store).Rules ↔
      row.id ∉ s.hosts.map HostRow.id ∧ s.LeadsToTemplate row.templateId := by
  constructor
  · exact fun h' => ⟨(nodup_map_concat.1 h'.hostIds).2, (forall_mem_concat.1 h'.hostTemplates).2⟩
  · rintro ⟨hid, htemplate⟩
    exact { h with
      hostIds := nodup_map_concat.2 ⟨h.hostIds, hid⟩
      hostTemplates := forall_mem_concat.2 ⟨h.hostTemplates, htemplate⟩
      serverHosts := fun x hx => mem_map_concat row (h.serverHosts x hx)
      instanceHosts := fun x hx => mem_map_concat row (h.instanceHosts x hx)
      logHosts := fun x hx => mem_map_concat row (h.logHosts x hx) }

theorem addServer_iff (h : s.Rules) {row : ServerRow} :
    ({ s with servers := s.servers ++ [row] } : Store).Rules ↔
      row.id ∉ s.servers.map ServerRow.id ∧ row.hostId ∈ s.hosts.map HostRow.id := by
  constructor
  · exact fun h' => ⟨(nodup_map_concat.1 h'.serverIds).2, (forall_mem_concat.1 h'.serverHosts).2⟩
  · rintro ⟨hid, hhost⟩
    exact { h with
      serverIds := nodup_map_concat.2 ⟨h.serverIds, hid⟩
      serverHosts := forall_mem_concat.2 ⟨h.serverHosts, hhost⟩ }

theorem addUser_iff (h : s.Rules) {row : UserRow} :
    ({ s with users := s.users ++ [row] } : Store).Rules ↔
      row.id ∉ s.users.map UserRow.id ∧ row.uuid ∉ s.users.map UserRow.uuid := by
  constructor
  · exact fun h' => ⟨(nodup_map_concat.1 h'.userIds).2, (nodup_map_concat.1 h'.userUuids).2⟩
  · rintro ⟨hid, huuid⟩
    exact { h with
      userIds := nodup_map_concat.2 ⟨h.userIds, hid⟩
      userUuids := nodup_map_concat.2 ⟨h.userUuids, huuid⟩ }

theorem addInstance_iff (h : s.Rules) {row : InstanceRow} :
    ({ s with instances := s.instances ++ [row] } : Store).Rules ↔
      row.id ∉ s.instances.map InstanceRow.id ∧
      (row.hostId, row.instanceId) ∉ s.instances.map (fun r => (r.hostId, r.instanceId)) ∧
      row.hostId ∈ s.hosts.map HostRow.id ∧ s.LeadsToTemplate row.templateId := by
  constructor
  · exact fun h' => ⟨(nodup_map_concat.1 h'.instanceIds).2, (nodup_map_concat.1 h'.instanceNames).2,
      (forall_mem_concat.1 h'.instanceHosts).2, (forall_mem_concat.1 h'.instanceTemplates).2⟩
  · rintro ⟨hid, hname, hhost, htemplate⟩
    exact { h with
      instanceIds := nodup_map_concat.2 ⟨h.instanceIds, hid⟩
      instanceNames := nodup_map_concat.2 ⟨h.instanceNames, hname⟩
      instanceHosts := forall_mem_concat.2 ⟨h.instanceHosts, hhost⟩
      instanceTemplates := forall_mem_concat.2 ⟨h.instanceTemplates, htemplate⟩ }

theorem addLog_iff (h : s.Rules) {row : SwitchLogRow} :
    ({ s with logs := s.logs ++ [row] } : Store).Rules ↔
      row.id ∉ s.logs.map SwitchLogRow.id ∧ row.hostId ∈ s.hosts.map HostRow.id := by
  constructor
  · exact fun h' => ⟨(nodup_map_concat.1 h'.logIds).2, (forall_mem_concat.1 h'.logHosts).2⟩
  · rintro ⟨hid, hhost⟩
    exact { h with
      logIds := nodup_map_concat.2 ⟨h.logIds, hid⟩
      logHosts := forall_mem_concat.2 ⟨h.logHosts, hhost⟩ }

/-! ## Rows that are changed -/

theorem changeTemplate (h : s.Rules) {f : TemplateRow → TemplateRow}
    (hid : ∀ r ∈ s.templates, r.id = id → (f r).id = r.id) :
    ({ s with templates := mapRow TemplateRow.id id f s.templates } : Store).Rules := by
  have hids := map_mapRow hid
  have hleads : ∀ o, s.LeadsToTemplate o →
      LeadsToTemplate { s with templates := mapRow TemplateRow.id id f s.templates } o :=
    fun o ho x hx => hids ▸ ho x hx
  exact { h with
    templateIds := hids ▸ h.templateIds
    hostTemplates := fun o ho => hleads o (h.hostTemplates o ho)
    instanceTemplates := fun o ho => hleads o (h.instanceTemplates o ho) }

/-- Of a host only the reference to its template can be at fault. -/
theorem changeHost (h : s.Rules) {f : HostRow → HostRow} (hid : ∀ r, (f r).id = r.id)
    (htemplate : ∀ r ∈ s.hosts, r.id = id → s.LeadsToTemplate (f r).templateId) :
    ({ s with hosts := mapRow HostRow.id id f s.hosts } : Store).Rules := by
  have hids : (mapRow HostRow.id id f s.hosts).map HostRow.id = s.hosts.map HostRow.id :=
    map_mapRow fun r _ _ => hid r
  have htemplates : ∀ o ∈ (mapRow HostRow.id id f s.hosts).map HostRow.templateId,
      s.LeadsToTemplate o := by
    refine List.forall_mem_map.2 fun r hr => ?_
    obtain ⟨q, hq, rfl⟩ := mem_mapRow.1 hr
    split
    · next heq => exact htemplate q hq (beq_iff_eq.1 heq)
    · exact h.hostTemplates _ (List.mem_map_of_mem hq)
  exact { h with
    hostIds := hids ▸ h.hostIds
    hostTemplates := htemplates
    serverHosts := fun x hx => hids ▸ h.serverHosts x hx
    instanceHosts := fun x hx => hids ▸ h.instanceHosts x hx
    logHosts := fun x hx => hids ▸ h.logHosts x hx }

theorem changeServer (h : s.Rules) {f : ServerRow → ServerRow}
    (hf : ∀ r, (f r).id = r.id ∧ (f r).hostId = r.hostId) :
    ({ s with servers := mapRow ServerRow.id id f s.servers } : Store).Rules := by
  have hids : (mapRow ServerRow.id id f s.servers).map ServerRow.id = s.servers.map ServerRow.id :=
    map_mapRow fun r _ _ => (hf r).1
  have hhosts : (mapRow ServerRow.id id f s.servers).map ServerRow.hostId =
      s.servers.map ServerRow.hostId := map_mapRow fun r _ _ => (hf r).2
  exact { h with
    serverIds := hids ▸ h.serverIds
    serverHosts := fun x hx => h.serverHosts x (hhosts ▸ hx) }

theorem changeUser (h : s.Rules) {f : UserRow → UserRow}
    (hf : ∀ r, (f r).id = r.id ∧ (f r).uuid = r.uuid) :
    ({ s with users := mapRow UserRow.id id f s.users } : Store).Rules := by
  have hids : (mapRow UserRow.id id f s.users).map UserRow.id = s.users.map UserRow.id :=
    map_mapRow fun r _ _ => (hf r).1
  have huuids : (mapRow UserRow.id id f s.users).map UserRow.uuid = s.users.map UserRow.uuid :=
    map_mapRow fun r _ _ => (hf r).2
  exact { h with
    userIds := hids ▸ h.userIds
    userUuids := huuids ▸ h.userUuids }

theorem changeInstance (h : s.Rules) {f : InstanceRow → InstanceRow}
    (hf : ∀ r ∈ s.instances, r.id = id → (f r).id = r.id ∧ (f r).hostId = r.hostId ∧
      (f r).instanceId = r.instanceId ∧ (f r).templateId = r.templateId) :
    ({ s with instances := mapRow InstanceRow.id id f s.instances } : Store).Rules := by
  have hids : (mapRow InstanceRow.id id f s.instances).map InstanceRow.id =
      s.instances.map InstanceRow.id := map_mapRow fun r hr heq => (hf r hr heq).1
  have hhosts : (mapRow InstanceRow.id id f s.instances).map InstanceRow.hostId =
      s.instances.map InstanceRow.hostId := map_mapRow fun r hr heq => (hf r hr heq).2.1
  have hnames : (mapRow InstanceRow.id id f s.instances).map (fun r => (r.hostId, r.instanceId)) =
      s.instances.map fun r => (r.hostId, r.instanceId) :=
    map_mapRow fun r hr heq => Prod.ext (hf r hr heq).2.1 (hf r hr heq).2.2.1
  have htemplates : (mapRow InstanceRow.id id f s.instances).map InstanceRow.templateId =
      s.instances.map InstanceRow.templateId := map_mapRow fun r hr heq => (hf r hr heq).2.2.2
  exact { h with
    instanceIds := hids ▸ h.instanceIds
    instanceNames := hnames ▸ h.instanceNames
    instanceHosts := fun x hx => h.instanceHosts x (hhosts ▸ hx)
    instanceTemplates := fun o ho => h.instanceTemplates o (htemplates ▸ ho) }

/-! ## Rows that are taken out -/

theorem removeServer (h : s.Rules) (p : ServerRow → Bool) :
    ({ s with servers := s.servers.filter p } : Store).Rules :=
  { h with
    serverIds := nodup_map_filter p h.serverIds
    serverHosts := forall_mem_filter p h.serverHosts }

theorem removeUser (h : s.Rules) (p : UserRow → Bool) :
    ({ s with users := s.users.filter p } : Store).Rules :=
  { h with
    userIds := nodup_map_filter p h.userIds
    userUuids := nodup_map_filter p h.userUuids }

theorem removeInstance (h : s.Rules) (p : InstanceRow → Bool) :
    ({ s with instances := s.instances.filter p } : Store).Rules :=
  { h with
    instanceIds := nodup_map_filter p h.instanceIds
    instanceNames := nodup_map_filter p h.instanceNames
    instanceHosts := forall_mem_filter p h.instanceHosts
    instanceTemplates := forall_mem_filter p h.instanceTemplates }

end Rules

/-- A store without a host and all that belongs to it. -/
def withoutHost (s : Store) (id : String) : Store := { s with
  hosts := s.hosts.filter (·.id != id)
  servers := s.servers.filter (!·.hostId == id)
  instances := s.instances.filter (!·.hostId == id)
  logs := s.logs.filter (!·.hostId == id) }

/-- A reference, cleared if it leads to a certain template. -/
def unassigned (id : String) (reference : Option String) : Option String :=
  if reference == some id then none else reference

/-- A store without a template and without references to it. -/
def withoutTemplate (s : Store) (id : String) : Store := { s with
  templates := s.templates.filter (·.id != id)
  hosts := s.hosts.map fun r => { r with templateId := unassigned id r.templateId }
  instances := s.instances.map fun r => { r with templateId := unassigned id r.templateId } }

/-- What leads to a host that stays leads to it still. -/
theorem hosts_filter {α : Type} {hostOf : α → String} {rows : List α}
    (h : ∀ x ∈ rows.map hostOf, x ∈ s.hosts.map HostRow.id) :
    ∀ x ∈ (rows.filter fun r => !hostOf r == id).map hostOf,
      x ∈ (s.hosts.filter (·.id != id)).map HostRow.id := by
  refine List.forall_mem_map.2 fun r hr => ?_
  obtain ⟨hr, hne⟩ := List.mem_filter.1 hr
  obtain ⟨g, hg, hid⟩ := List.mem_map.1 (h _ (List.mem_map_of_mem hr))
  refine List.mem_map.2 ⟨g, List.mem_filter.2 ⟨hg, ?_⟩, hid⟩
  rw [hid]
  simpa using hne

theorem leadsToTemplate_unassigned {reference : Option String} (h : s.LeadsToTemplate reference) :
    (s.withoutTemplate id).LeadsToTemplate (unassigned id reference) := by
  intro x hx
  unfold unassigned at hx
  split at hx
  · cases hx
  · next hne =>
    obtain ⟨r, hr, hid⟩ := List.mem_map.1 (h x hx)
    refine List.mem_map.2 ⟨r, List.mem_filter.2 ⟨hr, ?_⟩, hid⟩
    rw [hid, bne_iff_ne]
    rintro rfl
    exact hne (beq_iff_eq.2 hx)

namespace Rules

theorem withoutHost (h : s.Rules) (id : String) : (s.withoutHost id).Rules :=
  { h with
    hostIds := nodup_map_filter _ h.hostIds
    serverIds := nodup_map_filter _ h.serverIds
    instanceIds := nodup_map_filter _ h.instanceIds
    instanceNames := nodup_map_filter _ h.instanceNames
    logIds := nodup_map_filter _ h.logIds
    hostTemplates := forall_mem_filter _ h.hostTemplates
    instanceTemplates := forall_mem_filter _ h.instanceTemplates
    serverHosts := hosts_filter h.serverHosts
    instanceHosts := hosts_filter h.instanceHosts
    logHosts := hosts_filter h.logHosts }

theorem withoutTemplate (h : s.Rules) (id : String) : (s.withoutTemplate id).Rules := by
  have hhosts : (s.withoutTemplate id).hosts.map HostRow.id = s.hosts.map HostRow.id := by
    rw [Store.withoutTemplate, List.map_map]
    rfl
  have hinstances : (s.withoutTemplate id).instances.map InstanceRow.id =
      s.instances.map InstanceRow.id := by
    rw [Store.withoutTemplate, List.map_map]
    rfl
  have hnames : (s.withoutTemplate id).instances.map (fun r => (r.hostId, r.instanceId)) =
      s.instances.map fun r => (r.hostId, r.instanceId) := by
    rw [Store.withoutTemplate, List.map_map]
    rfl
  have howners : (s.withoutTemplate id).instances.map InstanceRow.hostId =
      s.instances.map InstanceRow.hostId := by
    rw [Store.withoutTemplate, List.map_map]
    rfl
  exact { h with
    templateIds := nodup_map_filter _ h.templateIds
    hostIds := hhosts ▸ h.hostIds
    instanceIds := hinstances ▸ h.instanceIds
    instanceNames := hnames ▸ h.instanceNames
    hostTemplates := by
      refine List.forall_mem_map.2 fun r hr => ?_
      obtain ⟨q, hq, rfl⟩ := List.mem_map.1 hr
      exact leadsToTemplate_unassigned (h.hostTemplates _ (List.mem_map_of_mem hq))
    instanceTemplates := by
      refine List.forall_mem_map.2 fun r hr => ?_
      obtain ⟨q, hq, rfl⟩ := List.mem_map.1 hr
      exact leadsToTemplate_unassigned (h.instanceTemplates _ (List.mem_map_of_mem hq))
    serverHosts := fun x hx => hhosts ▸ h.serverHosts x hx
    instanceHosts := fun x hx => hhosts ▸ h.instanceHosts x (howners ▸ hx)
    logHosts := fun x hx => hhosts ▸ h.logHosts x hx }

/-- Where there is no such host, nothing belongs to it. -/
theorem withoutHost_eq (h : s.Rules) (hid : id ∉ s.hosts.map HostRow.id) :
    s.withoutHost id = s := by
  have hhosts : s.hosts.filter (·.id != id) = s.hosts := by
    refine List.filter_eq_self.2 fun r hr => bne_iff_ne.2 ?_
    rintro rfl
    exact hid (List.mem_map_of_mem hr)
  have hrows : ∀ {α : Type} {hostOf : α → String} {rows : List α},
      (∀ x ∈ rows.map hostOf, x ∈ s.hosts.map HostRow.id) →
        rows.filter (fun r => !hostOf r == id) = rows := by
    intro α hostOf rows howners
    refine List.filter_eq_self.2 fun r hr => ?_
    rw [Bool.not_eq_true', beq_eq_false_iff_ne]
    rintro rfl
    exact hid (howners _ (List.mem_map_of_mem hr))
  rw [Store.withoutHost, hhosts, hrows h.serverHosts, hrows h.instanceHosts, hrows h.logHosts]

theorem withoutTemplate_eq (h : s.Rules) (hid : id ∉ s.templates.map TemplateRow.id) :
    s.withoutTemplate id = s := by
  have htemplates : s.templates.filter (·.id != id) = s.templates := by
    refine List.filter_eq_self.2 fun r hr => bne_iff_ne.2 ?_
    rintro rfl
    exact hid (List.mem_map_of_mem hr)
  have hkept : ∀ o, s.LeadsToTemplate o → unassigned id o = o := by
    intro o ho
    refine if_neg fun heq => ?_
    exact hid (ho id (beq_iff_eq.1 heq))
  have hhosts : s.hosts.map (fun r => { r with templateId := unassigned id r.templateId }) =
      s.hosts := by
    refine (List.map_congr_left fun r hr => ?_).trans (List.map_id _)
    rw [hkept _ (h.hostTemplates _ (List.mem_map_of_mem hr))]
    rfl
  have hinstances : s.instances.map
      (fun r => { r with templateId := unassigned id r.templateId }) = s.instances := by
    refine (List.map_congr_left fun r hr => ?_).trans (List.map_id _)
    rw [hkept _ (h.instanceTemplates _ (List.mem_map_of_mem hr))]
    rfl
  rw [Store.withoutTemplate, htemplates, hhosts, hinstances]

end Rules

/-! ## Removals -/

theorem cleared_host {r : HostRow} :
    (if r.templateId == some id then { r with templateId := none } else r) =
      { r with templateId := unassigned id r.templateId } := by
  unfold unassigned
  split <;> rfl

theorem cleared_instance {r : InstanceRow} :
    (if r.templateId == some id then { r with templateId := none } else r) =
      { r with templateId := unassigned id r.templateId } := by
  unfold unassigned
  split <;> rfl

section Removals

variable (h : s.Rules) (hf : ∀ f ∈ s.faults, f.message.isSome = true)

include hf

/-- Where no fault passes a write over, all chosen rows go or none. -/
theorem dropRows_eq {α : Type} {table : Table} {chosen : α → Bool} {rows rows' : List α}
    (hdrop : s.dropRows table chosen rows = .ok rows') : rows' = rows.filter (!chosen ·) := by
  unfold dropRows at hdrop
  split at hdrop
  · rcases permit_of_raising hf table .delete none with hgo | ⟨_, _, _, message, _, hfail⟩
    · rw [hgo] at hdrop
      exact (Except.ok.inj hdrop).symm
    · rw [hfail] at hdrop
      cases hdrop
  · next hnone =>
    rw [← Except.ok.inj hdrop, List.filter_eq_self.2]
    simpa using hnone

theorem clearRows_eq {α : Type} {table : Table} {chosen : α → Bool} {status : α → Option String}
    {clear : α → α} : ∀ {rows rows' : List α},
      s.clearRows table chosen status clear rows = .ok rows' →
        rows' = rows.map fun r => if chosen r then clear r else r
  | [], rows', hclear => (Except.ok.inj hclear).symm
  | r :: rows, rows', hclear => by
      unfold clearRows at hclear
      rw [List.mapM_cons] at hclear
      obtain ⟨q, hq, hrest⟩ := bind_ok hclear
      obtain ⟨qs, hqs, hr⟩ := bind_ok hrest
      cases hr
      rw [List.map_cons, ← clearRows_eq hqs]
      congr 1
      split at hq
      · next hchosen =>
        rw [if_pos hchosen]
        rcases permit_of_raising hf table .update (status r) with hgo | ⟨_, _, _, message, _, hfail⟩
        · rw [hgo] at hq
          exact (Except.ok.inj hq).symm
        · rw [hfail] at hq
          cases hq
      · next hnot =>
        rw [if_neg hnot]
        exact (Except.ok.inj hq).symm

include h

/-- A host goes with all that belongs to it, and with nothing else. -/
theorem removeHost_eq {host : String} {r : Store × Bool} (hr : s.removeHost host = .ok r) :
    r.1 = s.withoutHost host := by
  unfold removeHost at hr
  split at hr
  · have hwritten := write_written hf hr
    rcases write_ok hr with rfl | ⟨u, htarget, rfl, -⟩
    · cases hwritten
    · obtain ⟨logs, hlogs, htarget⟩ := bind_ok htarget
      obtain ⟨instances, hinstances, htarget⟩ := bind_ok htarget
      obtain ⟨servers, hservers, htarget⟩ := bind_ok htarget
      cases htarget
      rw [dropRows_eq hf hlogs, dropRows_eq hf hinstances, dropRows_eq hf hservers]
      rfl
  · next hnone =>
    cases hr
    exact (h.withoutHost_eq fun hhost => hnone (hasHost_iff.2 hhost)).symm

/-- A template goes, and references to it are cleared; nothing else changes. -/
theorem removeTemplate_eq {template : String} {r : Store × Bool}
    (hr : s.removeTemplate template = .ok r) : r.1 = s.withoutTemplate template := by
  unfold removeTemplate at hr
  split at hr
  · have hwritten := write_written hf hr
    rcases write_ok hr with rfl | ⟨u, htarget, rfl, -⟩
    · cases hwritten
    · obtain ⟨instances, hinstances, htarget⟩ := bind_ok htarget
      obtain ⟨hosts, hhosts, htarget⟩ := bind_ok htarget
      cases htarget
      rw [clearRows_eq hf hinstances, clearRows_eq hf hhosts, withoutTemplate]
      simp only [cleared_host, cleared_instance]
  · next hnone =>
    cases hr
    refine (h.withoutTemplate_eq fun htemplate => hnone ?_).symm
    rw [List.any_eq_true]
    obtain ⟨q, hq, hid⟩ := List.mem_map.1 htemplate
    exact ⟨q, hq, beq_iff_eq.2 hid⟩

end Removals

end Store

end ProxyFleet
