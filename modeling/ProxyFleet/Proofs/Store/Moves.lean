import ProxyFleet.Proofs.Store.Orderly

/-!
# Writes that calls rest on

Moving a log and putting an instance in, each with all that can come of it in a
store in good order: where no fault passes a write over in silence, it goes
through, or it is refused and changes nothing.
-/

namespace ProxyFleet

/-- Where no fault passes a write over, a write goes through or a fault breaks it off. -/
theorem permit_of_raising {faults : List Fault} (h : ∀ f ∈ faults, f.message.isSome = true)
    (table : Table) (event : RowEvent) (status : Option String) :
    permit faults table event status = .go ∨
      ∃ f ∈ faults, f.covers table event status = true ∧ ∃ message, f.message = some message ∧
        permit faults table event status = .fail message := by
  unfold permit
  cases hfind : faults.find? (·.covers table event status) with
  | none => exact Or.inl rfl
  | some f =>
      have hmem := List.mem_of_find?_eq_some hfind
      obtain ⟨message, hmessage⟩ := Option.isSome_iff_exists.1 (h f hmem)
      refine Or.inr ⟨f, hmem, by simpa using List.find?_some hfind, message, hmessage, ?_⟩
      simp only [hmessage]

/-- The row of an instance that is put in. -/
def NewInstance.row (new : NewInstance) (id : String) (now : Instant) (status : InstanceStatus) :
    InstanceRow where
  id := id
  hostId := new.hostId
  instanceId := new.instanceId
  coreType := new.coreType
  status := status
  templateId := new.templateId
  configHash := new.configHash
  listenPortsText := numbersText new.listenPorts
  lastHeartbeatAt := new.lastHeartbeatAt
  errorMessage := new.errorMessage
  createdAt := now.text
  updatedAt := now.text

namespace Store

/-- What goes through is written, and as it was told. -/
structure Faithful (s : Store) : Prop where
  presets : s.presets = []
  faults : ∀ f ∈ s.faults, f.message.isSome = true

theorem Orderly.faithful {n : Nat} {s : Store} (h : Orderly n s) : s.Faithful :=
  ⟨h.presets, h.faults⟩

/-- Where no fault passes a write over, what goes through is written. -/
theorem write_written {s : Store} {table : Table} {event : RowEvent} {status : Option String}
    {target : Except StoreError Store} {r : Store × Bool}
    (hf : ∀ f ∈ s.faults, f.message.isSome = true)
    (h : s.write table event status target = .ok r) : r.2 = true := by
  unfold write at h
  rcases permit_of_raising hf table event status with hgo | ⟨_, _, _, message, _, hfail⟩
  · rw [hgo] at h
    obtain ⟨v, -, hrest⟩ := bind_ok h
    obtain ⟨u, -, hr⟩ := bind_ok hrest
    cases hr
    rfl
  · rw [hfail] at h
    cases h

variable {s t : Store} {id : String} {now : Instant} {n : Nat} {r : SwitchLogRow}
  {target : SwitchStatus} {details : MoveDetails}

/-! ## Moving one log -/

/-- There is a log of an id, and its status allows the move. -/
def Movable (s : Store) (id : String) (target : SwitchStatus) : Prop :=
  ∃ r ∈ s.logs, r.id = id ∧ r.status.canMove target = true

theorem find_log (h : s.broken? = none) :
    s.logs.find? (·.id == id) = some r ↔ r ∈ s.logs ∧ r.id = id := by
  constructor
  · intro hfind
    exact ⟨List.mem_of_find?_eq_some hfind, by simpa using List.find?_some hfind⟩
  · rintro ⟨hr, hid⟩
    cases hfind : s.logs.find? (·.id == id) with
    | none => exact absurd hid (by simpa using List.find?_eq_none.1 hfind r hr)
    | some q =>
        have hq : q.id = id := by simpa using List.find?_some hfind
        rw [log_unique h (List.mem_of_find?_eq_some hfind) hr (hq.trans hid.symm)]

/-- Moving a log breaks no rule. -/
theorem broken?_movedLog :
    { s with logs := mapRow SwitchLogRow.id id (movedLog now target details) s.logs }.broken?
      = s.broken? := by
  have hids : (mapRow SwitchLogRow.id id (movedLog now target details) s.logs).map (·.id)
      = s.logs.map (·.id) := by
    simp only [mapRow, List.map_map, List.map_inj_left, Function.comp]
    intro r _
    split <;> rfl
  have hhosts : (mapRow SwitchLogRow.id id (movedLog now target details) s.logs).all
      (s.hasHost ·.hostId) = s.logs.all (s.hasHost ·.hostId) := by
    simp only [mapRow, List.all_map, Function.comp_def]
    congr 1
    funext r
    split <;> rfl
  simp only [broken?, hids, referencesHold]
  simp only [hasHost] at hhosts ⊢
  simp only [hhosts]
  rfl

/-- What comes of moving a log: it was moved just if it may be, unless a fault broke the write
off. -/
theorem moveLog_result (hs : Orderly n s) (id : String) (now : Instant) (target : SwitchStatus)
    (details : MoveDetails) :
    (s.moveLog id now target details = .ok (true, { s with
        logs := mapRow SwitchLogRow.id id (movedLog now target details) s.logs }) ∧
      s.Movable id target) ∨
    (s.moveLog id now target details = .ok (false, s) ∧ ¬s.Movable id target) ∨
    ∃ f ∈ s.faults, f.covers .switchLogs .update (some target.name) = true ∧
      ∃ message, f.message = some message ∧
        s.moveLog id now target details = .error (.raised message) := by
  unfold moveLog changeLog
  cases hfind : s.logs.find? (·.id == id) with
  | none =>
      refine Or.inr (Or.inl ⟨rfl, ?_⟩)
      rintro ⟨r, hr, hid, -⟩
      exact absurd hid (by simpa using List.find?_eq_none.1 hfind r hr)
  | some old =>
      obtain ⟨hold, hid⟩ := (find_log hs.rules).1 hfind
      have hmovable : s.Movable id target ↔ old.status.canMove target = true := by
        constructor
        · rintro ⟨r, hr, hrid, hmove⟩
          rwa [log_unique hs.rules hold hr (hid.trans hrid.symm)]
        · exact fun hmove => ⟨old, hold, hid, hmove⟩
      dsimp only
      split
      · next hsource =>
          have hmove := SwitchStatus.mem_sources.1 (List.contains_iff_mem.1 hsource)
          rcases permit_of_raising hs.faults .switchLogs .update (some target.name) with
            hgo | ⟨f, hf, hcovers, message, hmessage, hfail⟩
          · refine Or.inl ⟨?_, hmovable.2 hmove⟩
            rw [movedLog_status, write_of_go hgo (broken?_movedLog.trans hs.rules)]
            rfl
          · refine Or.inr (Or.inr ⟨f, hf, hcovers, message, hmessage, ?_⟩)
            rw [movedLog_status, write_of_fail hfail]
            rfl
      · next hsource =>
          refine Or.inr (Or.inl ⟨rfl, fun h => hsource ?_⟩)
          exact List.contains_iff_mem.2 (SwitchStatus.mem_sources.2 (hmovable.1 h))

/-- The log that was moved, as the store tells of it afterwards. -/
theorem log?_movedLog (hs : Orderly n s) (hmovable : s.Movable id target) :
    ∃ r ∈ s.logs, r.id = id ∧
      { s with logs := mapRow SwitchLogRow.id id (movedLog now target details) s.logs }.log? id
        = some (movedLog now target details r).toLog := by
  obtain ⟨r, hr, hid, -⟩ := hmovable
  refine ⟨r, hr, hid, ?_⟩
  have hmem : movedLog now target details r ∈
      mapRow SwitchLogRow.id id (movedLog now target details) s.logs :=
    mem_mapRow.2 ⟨r, hr, by rw [if_pos (by simpa using hid)]⟩
  exact congrArg (Option.map SwitchLogRow.toLog)
    ((find_log (broken?_movedLog.trans hs.rules)).2 ⟨hmem, hid⟩)

/-! ## Putting rows in -/

/-- Where pending logs cannot be written, none is put in. -/
theorem createLog_of_fail {text : String} (new : NewSwitchLog)
    (hfail : permit s.faults .switchLogs .insert (some SwitchStatus.pending.name) = .fail text) :
    s.createLog id now new = .error (.raised text) := by
  unfold createLog addLog
  dsimp only
  rw [write_of_fail hfail]
  rfl

/-- A log that is put in is a pending row behind all others. -/
theorem createLog_rows (hs : s.Faithful) {new : NewSwitchLog} {log : SwitchLog} {t : Store}
    (h : s.createLog id now new = .ok (log, t)) :
    ∃ row : SwitchLogRow, row.id = id ∧ row.status = .pending ∧ row.toLog = log ∧
      t = { s with logs := s.logs ++ [row] } ∧ t.broken? = none := by
  obtain ⟨u, hu, hr⟩ := bind_ok h
  cases hr
  obtain ⟨written, hw⟩ := addLog_ok hs.presets hu
  have hwritten : written = true := write_written hs.faults hw
  rcases write_ok_of_target hw with heq | ⟨heq, hb⟩
  · cases heq
    cases hwritten
  · cases heq
    exact ⟨_, rfl, rfl, rfl, rfl, hb⟩

/-- A log that was put in is there, and pending. -/
theorem createLog_written (hs : Orderly n s) {new : NewSwitchLog} {log : SwitchLog} {t : Store}
    (h : s.createLog id now new = .ok (log, t)) :
    log.id = id ∧ ∃ row ∈ t.logs, row.id = id ∧ row.status = .pending := by
  obtain ⟨row, hid, hstatus, rfl, rfl, -⟩ := createLog_rows hs.faithful h
  exact ⟨hid, row, List.mem_append_right _ List.mem_cons_self, hid, hstatus⟩

/-- A log that is only marked as in progress does not come to an end. -/
theorem Orderly.open_log {log : String} {details : MoveDetails} {m : Nat} (hs : Orderly n s)
    (hle : n ≤ m) {t : Store}
    (he : s.Edited (· = .moveLog log .inProgress details) n m now t)
    (hopen : ∃ row ∈ s.logs, row.id = log ∧ row.status.isFinal = false) :
    ∃ row ∈ t.logs, row.id = log ∧ row.status.isFinal = false := by
  induction he with
  | refl => exact hopen
  | step hst hP _ hw ih =>
      rcases edit_ok (hs.edited hle hst).presets hw with rfl | ⟨hstep, -⟩
      · exact ih
      · subst hP
        obtain ⟨row, hrow, hid, hnotFinal⟩ := ih
        cases hstep with
        | moveLog hold hmove =>
            refine ⟨_, mem_mapRow.2 ⟨row, hrow, rfl⟩, ?_⟩
            rw [if_pos (by simpa using hid)]
            exact ⟨hid, rfl⟩

/-- An instance that is put in is a row behind all others. -/
theorem createInstance_rows (hs : s.Faithful) {new : NewInstance} {i : CoreInstance}
    (h : s.createInstance id now new = .ok (i, t)) :
    ∃ status, InstanceStatus.ofName? new.status = some status ∧
      t = { s with instances := s.instances ++ [new.row id now status] } ∧ t.broken? = none ∧
      i = { (new.row id now status).toInstance with listenPorts := new.listenPorts } := by
  obtain ⟨u, hu, hr⟩ := bind_ok h
  cases hr
  obtain ⟨written, hw⟩ := addInstance_ok hs.presets hu
  have hwritten : written = true := write_written hs.faults hw
  rcases write_ok hw with heq | ⟨v, hv, heq, hb⟩
  · cases heq
    cases hwritten
  · cases heq
    obtain ⟨row, hrow, hv⟩ := bind_ok hv
    obtain ⟨status, hstatus, hrow⟩ := bind_ok hrow
    cases hv
    cases hrow
    have hname : InstanceStatus.ofName? new.status = some status := by
      unfold instanceStatus at hstatus
      split at hstatus
      · next hfound =>
          cases hstatus
          exact hfound
      · cases hstatus
    refine ⟨status, hname, rfl, hb, ?_⟩
    rw [hname]
    rfl

/-- What comes of putting an instance in: it is on record, or the write is refused. -/
theorem createInstance_result (hs : Orderly n s) (id : String) (now : Instant)
    (new : NewInstance) :
    (∃ i t, s.createInstance id now new = .ok (i, t) ∧ i.id = id ∧ i.hostId = new.hostId ∧
      i.instanceId = new.instanceId ∧
      ∃ row ∈ t.instances, row.id = id ∧ row.hostId = new.hostId ∧
        row.instanceId = new.instanceId) ∨
    ∃ e, s.createInstance id now new = .error e := by
  cases hrun : s.createInstance id now new with
  | error e => exact Or.inr ⟨e, rfl⟩
  | ok r =>
      obtain ⟨i, t⟩ := r
      obtain ⟨status, -, rfl, -, rfl⟩ := createInstance_rows hs.faithful hrun
      exact Or.inl ⟨_, _, rfl, rfl, rfl, rfl, _, List.mem_append_right _ List.mem_cons_self,
        rfl, rfl, rfl⟩

end Store

end ProxyFleet
