import ProxyFleet.Generation
import ProxyFleet.Proofs.Instant.Written
import ProxyFleet.Proofs.Store.Step

/-!
# What a host is served from

The configuration of a host is made from four things in the store: its own row, the row
of the template, the rows of its servers, and those of the users in the groups of these
servers. Together they are the host's view of the store. What a configuration is does not
depend on anything else (`Store.generate_congr`), and no edit changes the view unless it
is about one of the four (`Store.view_edit`).

Rows are seen in the order they were put in, since where names and times of two rows are
the same, this order decides.

A user counts while it is enabled and its time has not run out. Whether it has is found by
comparing texts: the text of the present instant with whatever was written down.
-/

namespace ProxyFleet

open Instant (WrittenTime InFourDigits)

/-! ## Users that count -/

namespace Store

variable {s : Store} {groups : List String} {r : UserRow} {t : Instant}

theorem isInGroup_iff : isInGroup groups r = true ↔ ∃ g ∈ groups, r.groupId = some g := by
  rw [isInGroup]
  cases r.groupId <;> simp

theorem isActive_iff {now : String} :
    isActive now r = true ↔ r.enabled = true ∧ ∀ time ∈ r.expiresAt, textLe time now = false := by
  rw [isActive]
  cases r.expiresAt <;> simp

/-- A user counts up to the cut of the time at which it runs out. -/
theorem isActive_iff_before_cut {expiry : Option WrittenTime} (ht : InFourDigits t.year)
    (hr : r.expiresAt = expiry.map WrittenTime.text) :
    isActive t.text r = true ↔
      r.enabled = true ∧ ∀ w ∈ expiry, t.milliseconds < w.cut.milliseconds := by
  rw [isActive_iff, hr]
  cases expiry with
  | none => simp
  | some w =>
      have hle := WrittenTime.textLe_text_iff (w := w) ht
      simp [← Bool.not_eq_true, hle]

/-- If the time is written as the text of an instant, the user counts up to that instant, but for
one after the year 9999, with which it never counts. -/
theorem isActive_iff_before {expiry : Option Instant} (ht : InFourDigits t.year)
    (hr : r.expiresAt = expiry.map Instant.text) :
    isActive t.text r = true ↔
      r.enabled = true ∧ ∀ x ∈ expiry, t.milliseconds < x.milliseconds ∧ x.year ≤ 9999 := by
  rw [isActive_iff, hr]
  cases expiry with
  | none => simp
  | some x =>
      have hlt := Instant.lt_text_iff (u := x) ht
      simp [← Bool.not_eq_true, textLe_iff, hlt]

theorem mem_activeUsers {now : String} {u : NodeUser} :
    u ∈ s.activeUsers groups now ↔ ∃ r ∈ s.users, r.toUser = u ∧ isActive now r = true ∧
      isInGroup groups r = true := by
  rw [activeUsers, List.mem_map]
  simp only [mem_sortBy, List.mem_filter, Bool.and_eq_true]
  constructor
  · rintro ⟨r, ⟨hr, hactive, hgroup⟩, rfl⟩
    exact ⟨r, hr, rfl, hactive, hgroup⟩
  · rintro ⟨r, hr, rfl, hactive, hgroup⟩
    exact ⟨r, ⟨hr, hactive, hgroup⟩, rfl⟩

end Store

/-! ## What a host sees -/

/-- The rows that a configuration is made from. -/
structure View where
  host : Option HostRow
  template : Option TemplateRow
  servers : List ServerRow
  users : List UserRow
  deriving DecidableEq, Repr

/-- The listeners that the text of a server lists and that look like such. -/
def ServerRow.listeners (n : ServerRow) : List Value :=
  Value.arrayOfText Value.isInbound n.inboundsText

namespace Store

variable {s t : Store} {hostId templateId : String} {now : Instant}

def rowsOf (s : Store) (hostId : String) : List ServerRow := s.servers.filter (·.hostId == hostId)

def groupsOf (s : Store) (hostId : String) : List String := (s.rowsOf hostId).filterMap (·.groupId)

/-- What a host sees of the store, for a template. -/
def view (s : Store) (hostId templateId : String) : View where
  host := s.hosts.find? (·.id == hostId)
  template := s.templates.find? (·.id == templateId)
  servers := s.rowsOf hostId
  users := s.users.filter (isInGroup (s.groupsOf hostId))

/-! ## Configurations are made from the view -/

/-- The groups served are those of the servers of the host that have listeners. -/
theorem mem_servedGroups {g : String} : g ∈ servedGroups (s.serversOf hostId) ↔
    ∃ n ∈ s.rowsOf hostId, n.groupId = some g ∧ n.listeners ≠ [] := by
  have hempty : ∀ n : ServerRow, n.toServer.inbounds.isEmpty = true ↔ n.listeners = [] :=
    fun n => List.isEmpty_iff
  rw [servedGroups, List.mem_filterMap]
  constructor
  · rintro ⟨_, hmem, hg⟩
    obtain ⟨n, hn, rfl⟩ := List.mem_map.1 hmem
    split at hg
    · cases hg
    · next hfull => exact ⟨n, (mem_sortBy ..).1 hn, hg, fun hnone => hfull ((hempty n).2 hnone)⟩
  · rintro ⟨n, hn, hg, hlisteners⟩
    refine ⟨n.toServer, List.mem_map_of_mem ((mem_sortBy ..).2 hn), ?_⟩
    rw [if_neg fun hnone => hlisteners ((hempty n).1 hnone)]
    exact hg

theorem isInGroup_groupsOf {r : UserRow}
    (h : isInGroup (servedGroups (s.serversOf hostId)) r = true) :
    isInGroup (s.groupsOf hostId) r = true := by
  obtain ⟨g, hg, hr⟩ := isInGroup_iff.1 h
  obtain ⟨n, hn, hgroup, -⟩ := mem_servedGroups.1 hg
  exact isInGroup_iff.2 ⟨g, List.mem_filterMap.2 ⟨n, hn, hgroup⟩, hr⟩

/-- Of the users only those are looked at whose group is that of a server. -/
theorem filter_served (s : Store) (hostId time : String) :
    s.users.filter (fun r => isActive time r && isInGroup (servedGroups (s.serversOf hostId)) r) =
      (s.users.filter (isInGroup (s.groupsOf hostId))).filter fun r =>
        isActive time r && isInGroup (servedGroups (s.serversOf hostId)) r := by
  rw [List.filter_filter]
  refine List.filter_congr fun r _ => ?_
  -- a group may be that of a server without being served
  cases hserved : isInGroup (servedGroups (s.serversOf hostId)) r with
  | false => simp
  | true => simp [isInGroup_groupsOf hserved]

theorem contextFor_congr {h : AgentHost} {template : ConfigTemplate}
    (hview : s.view h.id templateId = t.view h.id templateId) :
    s.contextFor now h template = t.contextFor now h template := by
  have hrows : s.rowsOf h.id = t.rowsOf h.id := congrArg View.servers hview
  have hservers : s.serversOf h.id = t.serversOf h.id := by
    unfold serversOf
    exact congrArg (fun rows => (sortBy _ rows).map ServerRow.toServer) hrows
  have husers : s.users.filter (isInGroup (s.groupsOf h.id)) =
      t.users.filter (isInGroup (t.groupsOf h.id)) := congrArg View.users hview
  have hactive : s.activeUsers (servedGroups (s.serversOf h.id)) now.text =
      t.activeUsers (servedGroups (t.serversOf h.id)) now.text := by
    unfold activeUsers
    rw [filter_served, filter_served, husers, hservers]
  unfold contextFor
  dsimp only
  rw [hactive, hservers]

/-- What comes of making a configuration is the same wherever the host sees the same. -/
theorem generate_congr {h : AgentHost} {template : ConfigTemplate}
    (hview : s.view h.id templateId = t.view h.id templateId) :
    s.generate now h template = t.generate now h template := by
  unfold Store.generate
  rw [contextFor_congr hview]

theorem host?_congr (hview : s.view hostId templateId = t.view hostId templateId) :
    s.host? hostId = t.host? hostId :=
  congrArg (Option.map HostRow.toHost) (congrArg View.host hview)

theorem template?_congr (hview : s.view hostId templateId = t.view hostId templateId) :
    s.template? templateId = t.template? templateId :=
  congrArg (Option.map TemplateRow.toTemplate) (congrArg View.template hview)

/-! ## Rows that are not seen -/

section Rows

variable {α : Type} {idOf : α → String} {id other : String} {f : α → α} {p : α → Bool}
  {rows : List α}

theorem find?_append_other {row : α} (hrow : idOf row ≠ id) :
    (rows ++ [row]).find? (idOf · == id) = rows.find? (idOf · == id) := by
  have hnone : [row].find? (idOf · == id) = none := by simpa using hrow
  rw [List.find?_append, hnone, Option.or_none]

theorem find?_mapRow_other (hid : ∀ r, idOf (f r) = idOf r) (hother : other ≠ id) :
    (mapRow idOf other f rows).find? (idOf · == id) = rows.find? (idOf · == id) := by
  induction rows with
  | nil => rfl
  | cons r rows ih =>
      rw [mapRow, List.map_cons, ← mapRow, List.find?_cons, List.find?_cons, ih]
      by_cases hr : idOf r = other
      · -- a row of another id is passed over before and after it is changed
        have hchanged : (idOf (f r) == id) = false := beq_false_of_ne (hid r ▸ hr ▸ hother)
        have hunchanged : (idOf r == id) = false := beq_false_of_ne (hr ▸ hother)
        rw [if_pos (beq_iff_eq.2 hr), hchanged, hunchanged]
      · rw [if_neg (mt beq_iff_eq.1 hr)]

theorem find?_filter_other (hother : other ≠ id) :
    (rows.filter (idOf · != other)).find? (idOf · == id) = rows.find? (idOf · == id) := by
  rw [List.find?_filter]
  congr 1
  funext r
  by_cases hr : idOf r = id
  · simp [hr, hother.symm]
  · simp [hr]

theorem filter_append_unseen {row : α} (hrow : p row = false) :
    (rows ++ [row]).filter p = rows.filter p := by
  simp [List.filter_append, hrow]

theorem filter_mapRow_unseen
    (hunseen : ∀ r ∈ rows, idOf r = id → p r = false ∧ p (f r) = false) :
    (mapRow idOf id f rows).filter p = rows.filter p := by
  induction rows with
  | nil => rfl
  | cons r rows ih =>
      have hrest := ih fun q hq => hunseen q (List.mem_cons_of_mem r hq)
      rw [mapRow, List.map_cons, ← mapRow]
      by_cases hr : idOf r = id
      · obtain ⟨hold, hnew⟩ := hunseen r List.mem_cons_self hr
        rw [if_pos (beq_iff_eq.2 hr), List.filter_cons, List.filter_cons, hold, hnew, hrest]
        rfl
      · rw [if_neg (mt beq_iff_eq.1 hr), List.filter_cons, List.filter_cons, hrest]

theorem filter_filter_unseen (hunseen : ∀ r ∈ rows, idOf r = id → p r = false) :
    (rows.filter (idOf · != id)).filter p = rows.filter p := by
  rw [List.filter_filter]
  refine List.filter_congr fun r hr => ?_
  by_cases hid : idOf r = id
  · rw [hunseen r hr hid, Bool.false_and]
  · rw [bne_iff_ne.2 hid, Bool.and_true]

theorem filter_dropRows {table : Table} {chosen : α → Bool} {rows' : List α}
    (h : s.dropRows table chosen rows = .ok rows')
    (hunseen : ∀ r, chosen r = true → p r = false) : rows'.filter p = rows.filter p := by
  unfold dropRows at h
  split at h
  · split at h
    · cases h
    · cases h
      rfl
    · cases h
      rw [List.filter_filter]
      refine List.filter_congr fun r _ => ?_
      cases hr : chosen r with
      | true => rw [hunseen r hr, Bool.false_and]
      | false => rw [Bool.not_false, Bool.and_true]
  · cases h
    rfl

end Rows

/-! ## Edits that are not seen -/

/-- Edits of what a host does not see: other hosts and their servers, users of groups that none of
its servers has, and all instances and switch logs. A row that is put in gets the id. -/
def Unseen (s : Store) (hostId id : String) : Edit → Prop
  | .createHost _ => id ≠ hostId
  | .reportHost host _ | .assignTemplate host _ | .removeHost host => host ≠ hostId
  | .createServer new => new.hostId ≠ hostId
  | .updateInbounds server _ | .removeServer server =>
    ∀ n ∈ s.servers, n.id = server → n.hostId ≠ hostId
  | .createUser new => ∀ g ∈ new.groupId, g ∉ s.groupsOf hostId
  | .setEnabled user _ | .removeUser user =>
    ∀ r ∈ s.users, r.id = user → ∀ g ∈ r.groupId, g ∉ s.groupsOf hostId
  | .createInstance _ | .updateInstance .. | .removeInstance _ | .createLog _ | .moveLog .. => True
  | .createTemplate _ | .updateTemplate .. | .removeTemplate _ => False

theorem isInGroup_eq_false {groups : List String} {r : UserRow}
    (h : ∀ g ∈ r.groupId, g ∉ groups) : isInGroup groups r = false := by
  rw [← Bool.not_eq_true, isInGroup_iff]
  rintro ⟨g, hg, hr⟩
  exact h g hr hg

variable {id : String} {e : Edit}

theorem view_hosts {rows : List HostRow}
    (h : rows.find? (·.id == hostId) = s.hosts.find? (·.id == hostId)) :
    { s with hosts := rows }.view hostId templateId = s.view hostId templateId :=
  congrArg (fun host => { s.view hostId templateId with host := host }) h

theorem view_servers {rows : List ServerRow}
    (h : rows.filter (·.hostId == hostId) = s.rowsOf hostId) :
    { s with servers := rows }.view hostId templateId = s.view hostId templateId :=
  congrArg (fun servers => ({
    s.view hostId templateId with
    servers := servers
    users := s.users.filter (isInGroup (servers.filterMap (·.groupId))) } : View)) h

theorem view_users {rows : List UserRow} (h : rows.filter (isInGroup (s.groupsOf hostId)) =
      s.users.filter (isInGroup (s.groupsOf hostId))) :
    { s with users := rows }.view hostId templateId = s.view hostId templateId :=
  congrArg (fun users => { s.view hostId templateId with users := users }) h

/-- A write that goes through is seen only if its target is. -/
theorem view_write {table : Table} {event : RowEvent} {status : Option String}
    {target : Except StoreError Store} {r : Store × Bool}
    (h : s.write table event status target = .ok r)
    (htarget : ∀ u, target = .ok u → u.view hostId templateId = s.view hostId templateId) :
    r.1.view hostId templateId = s.view hostId templateId := by
  rcases write_ok h with rfl | ⟨u, hu, rfl, -⟩
  · rfl
  · exact htarget u hu

theorem view_write_ok {table : Table} {event : RowEvent} {status : Option String} {u : Store}
    {r : Store × Bool} (h : s.write table event status (.ok u) = .ok r)
    (hu : u.view hostId templateId = s.view hostId templateId) :
    r.1.view hostId templateId = s.view hostId templateId :=
  view_write h fun _ heq => by
    cases heq
    exact hu

theorem view_write_if {c : Prop} [Decidable c] {table : Table} {event : RowEvent}
    {status : Option String} {u : Store} {r : Store × Bool}
    (h : (if c then s.write table event status (.ok u) else .ok (s, false)) = .ok r)
    (hu : u.view hostId templateId = s.view hostId templateId) :
    r.1.view hostId templateId = s.view hostId templateId := by
  split at h
  · exact view_write_ok h hu
  · cases h
    rfl

theorem view_changeInstance {f : InstanceRow → Except StoreError InstanceRow} {r : Store × Bool}
    (h : s.changeInstance id f = .ok r) :
    r.1.view hostId templateId = s.view hostId templateId := by
  unfold changeInstance at h
  split at h
  · cases h
    rfl
  · refine view_write h fun u hu => ?_
    obtain ⟨row, -, hu⟩ := bind_ok hu
    cases hu
    rfl

theorem view_changeLog {sources : List SwitchStatus} {f : SwitchLogRow → SwitchLogRow}
    {r : Store × Bool} (h : s.changeLog id sources f = .ok r) :
    r.1.view hostId templateId = s.view hostId templateId := by
  unfold changeLog at h
  split at h
  · cases h
    rfl
  · split at h
    · exact view_write_ok h rfl
    · cases h
      rfl

/-- The statuses set for a table change instances and switch logs only. -/
theorem view_presets {f : Store → Preset → Except StoreError Store}
    (hf : ∀ {s t : Store} {p : Preset}, f s p = .ok t →
      t.view hostId templateId = s.view hostId templateId) :
    ∀ {presets : List Preset} {s t : Store}, presets.foldlM f s = .ok t →
      t.view hostId templateId = s.view hostId templateId
  | [], s, t, h => by
      cases h
      rfl
  | p :: presets, s, t, h => by
      rw [List.foldlM_cons] at h
      obtain ⟨u, hu, h⟩ := bind_ok h
      exact (view_presets hf h).trans (hf hu)

theorem view_addInstance {status : String} {row : Except StoreError InstanceRow}
    (h : s.addInstance status row = .ok t) :
    t.view hostId templateId = s.view hostId templateId := by
  obtain ⟨⟨u, written⟩, hw, ht⟩ := bind_ok h
  have hu : u.view hostId templateId = s.view hostId templateId :=
    view_write hw fun v hv => by
      obtain ⟨r, -, hv⟩ := bind_ok hv
      cases hv
      rfl
  dsimp only at ht
  split at ht
  · split at ht
    · refine (view_presets (fun {s t p} hp => ?_) ht).trans hu
      unfold presetInstance at hp
      split at hp
      · obtain ⟨r, hr, hp⟩ := bind_ok hp
        cases hp
        exact view_changeInstance hr
      · cases hp
        rfl
    · cases ht
      exact hu
  · cases ht
    exact hu

theorem view_addLog {row : SwitchLogRow} (h : s.addLog row = .ok t) :
    t.view hostId templateId = s.view hostId templateId := by
  obtain ⟨⟨u, written⟩, hw, ht⟩ := bind_ok h
  have hu : u.view hostId templateId = s.view hostId templateId := view_write_ok hw rfl
  dsimp only at ht
  split at ht
  · refine (view_presets (fun {s t p} hp => ?_) ht).trans hu
    unfold presetLog at hp
    split at hp
    · split at hp
      · obtain ⟨r, hr, hp⟩ := bind_ok hp
        cases hp
        exact view_changeLog hr
      · cases hp
    · cases hp
      rfl
  · cases ht
    exact hu

/-- When a host goes, what goes with it belongs to it. -/
theorem view_removeHost {host : String} {r : Store × Bool} (hother : host ≠ hostId)
    (h : s.removeHost host = .ok r) : r.1.view hostId templateId = s.view hostId templateId := by
  unfold removeHost at h
  split at h
  · refine view_write h fun u hu => ?_
    obtain ⟨logs, -, hu⟩ := bind_ok hu
    obtain ⟨instances, -, hu⟩ := bind_ok hu
    obtain ⟨servers, hservers, hu⟩ := bind_ok hu
    cases hu
    have hkept : servers.filter (·.hostId == hostId) = s.rowsOf hostId :=
      filter_dropRows hservers fun n hn => beq_false_of_ne fun hn' =>
        hother ((beq_iff_eq.1 hn).symm.trans hn')
    exact (view_hosts (find?_filter_other hother)).trans (view_servers hkept)
  · cases h
    rfl

/-- An edit of what a host does not see leaves its view as it was. -/
theorem view_edit (hunseen : s.Unseen hostId id e) (h : s.edit e id now = .ok t) :
    t.view hostId templateId = s.view hostId templateId := by
  cases e <;> obtain ⟨r, hr, rfl⟩ := map_ok h
  case createHost new =>
    obtain ⟨u, hu, hr⟩ := bind_ok hr
    obtain ⟨w, hw, hu⟩ := bind_ok hu
    cases hr
    cases hu
    exact view_write_ok hw (view_hosts (find?_append_other hunseen))
  case reportHost host report =>
    obtain ⟨w, hw, hr⟩ := bind_ok hr
    cases hr
    exact view_write_if hw (view_hosts (find?_mapRow_other (fun _ => rfl) hunseen))
  case assignTemplate host template =>
    obtain ⟨w, hw, hr⟩ := bind_ok hr
    cases hr
    exact view_write_if hw (view_hosts (find?_mapRow_other (fun _ => rfl) hunseen))
  case removeHost host => exact view_removeHost hunseen hr
  case createTemplate => exact hunseen.elim
  case updateTemplate => exact hunseen.elim
  case removeTemplate => exact hunseen.elim
  case createServer new =>
    obtain ⟨u, hu, hr⟩ := bind_ok hr
    obtain ⟨w, hw, hu⟩ := bind_ok hu
    cases hr
    cases hu
    exact view_write_ok hw (view_servers (filter_append_unseen (beq_false_of_ne hunseen)))
  case updateInbounds server inbounds =>
    obtain ⟨w, hw, hr⟩ := bind_ok hr
    cases hr
    refine view_write_if hw (view_servers (filter_mapRow_unseen fun n hn hid => ?_))
    exact ⟨beq_false_of_ne (hunseen n hn hid), beq_false_of_ne (hunseen n hn hid)⟩
  case removeServer server =>
    exact view_write_if hr (view_servers (filter_filter_unseen fun n hn hid =>
      beq_false_of_ne (hunseen n hn hid)))
  case createUser new =>
    obtain ⟨u, hu, hr⟩ := bind_ok hr
    obtain ⟨w, hw, hu⟩ := bind_ok hu
    cases hr
    cases hu
    exact view_write_ok hw (view_users (filter_append_unseen (isInGroup_eq_false hunseen)))
  case setEnabled user enabled =>
    obtain ⟨w, hw, hr⟩ := bind_ok hr
    cases hr
    refine view_write_if hw (view_users (filter_mapRow_unseen fun r hr hid => ?_))
    exact ⟨isInGroup_eq_false (hunseen r hr hid), isInGroup_eq_false (hunseen r hr hid)⟩
  case removeUser user =>
    exact view_write_if hr (view_users (filter_filter_unseen fun r hr hid =>
      isInGroup_eq_false (hunseen r hr hid)))
  case createInstance new =>
    obtain ⟨u, hu, hr⟩ := bind_ok hr
    cases hr
    exact view_addInstance hu
  case updateInstance i change =>
    obtain ⟨w, hw, hr⟩ := bind_ok hr
    cases hr
    exact view_changeInstance hw
  case removeInstance => exact view_write_if hr rfl
  case createLog new =>
    obtain ⟨u, hu, hr⟩ := bind_ok hr
    cases hr
    exact view_addLog hu
  case moveLog log target details =>
    obtain ⟨w, hw, hr⟩ := bind_ok hr
    cases hr
    exact view_changeLog hw

end Store

end ProxyFleet
