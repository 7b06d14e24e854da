import ProxyFleet.Proofs.Store.Columns
import ProxyFleet.Proofs.Store.Moves
import ProxyFleet.Proofs.Work.Services

/-!
# The ledger of instances

Two writes to the table of instances are looked at closely. Marking an instance
as stopped changes the rows of one id, and putting an instance in adds one row
behind all others. Both are equations on the whole table, so that what they leave
alone need not be listed.

A row that is put in has an id that no row ever had, and no other row of its host
has its name. So it is the row that is found under the name from then on.
-/

namespace ProxyFleet

/-- What marking an instance as stopped makes of its row. -/
def InstanceRow.stopped (now : Instant) (r : InstanceRow) : InstanceRow :=
  { r with
    status := .stopped
    errorMessage := ""
    updatedAt := now.text }

/-- The change that marks an instance as stopped. -/
def InstanceChange.stop : InstanceChange := ⟨some InstanceStatus.stopped.name, some "", none, none⟩

namespace Store

variable {s t : Store} {id : String} {now : Instant} {e : Edit} {n low high : Nat}
  {r : InstanceRow} {P : Edit → Prop}

/-! ## Rules -/

/-- Instances have ids of their own, and on their hosts names of their own. -/
theorem instance_rules (h : s.broken? = none) :
    (s.instances.map InstanceRow.id).Nodup ∧
      (s.instances.map fun r => (r.hostId, r.instanceId)).Nodup := by
  simp only [broken?, ite_some_eq_none] at h
  obtain ⟨-, -, -, -, -, hids, hnames, -⟩ := h
  exact ⟨hasRepeat_eq_false.1 (Bool.not_eq_true _ ▸ hids),
    hasRepeat_eq_false.1 (Bool.not_eq_true _ ▸ hnames)⟩

theorem instance_unique (h : s.broken? = none) {q : InstanceRow} (hq : q ∈ s.instances)
    (hr : r ∈ s.instances) (hid : q.id = r.id) : q = r :=
  List.inj_on_of_nodup_map (instance_rules h).1 hq hr hid

/-- An instance is found under its name. -/
theorem instanceNamed?_of_mem (h : s.broken? = none) (hr : r ∈ s.instances) :
    s.instanceNamed? r.hostId r.instanceId = some r.toInstance := by
  refine Option.map_eq_some_iff.2 ⟨r, ?_, rfl⟩
  cases hfind : s.instances.find? fun q => q.hostId == r.hostId && q.instanceId == r.instanceId with
  | none => exact absurd (List.find?_eq_none.1 hfind r hr) (by simp)
  | some q =>
      have hmatch := List.find?_some hfind
      simp only [Bool.and_eq_true, beq_iff_eq] at hmatch
      rw [List.inj_on_of_nodup_map (instance_rules h).2 (List.mem_of_find?_eq_some hfind) hr
        (Prod.ext hmatch.1 hmatch.2)]

/-! ## Writing -/

/-- Where the row of an id is known, changing the rows of the id is changing this row. -/
theorem mapRow_congr {α : Type} {idOf : α → String} {f g : α → α} {rows : List α}
    (h : ∀ q ∈ rows, idOf q = id → f q = g q) : mapRow idOf id f rows = mapRow idOf id g rows := by
  refine List.map_congr_left fun q hq => ?_
  split
  · next heq => exact h q hq (by simpa using heq)
  · rfl

/-- Marking an instance as stopped changes its row and nothing else. -/
theorem stop_rows (hs : Orderly n s) {found : Option CoreInstance}
    (h : s.updateInstance id now .stop = .ok (found, t)) :
    t = { s with instances := mapRow InstanceRow.id id (InstanceRow.stopped now) s.instances } := by
  obtain ⟨w, hw, hr⟩ := bind_ok h
  cases hr
  unfold changeInstance at hw
  split at hw
  · next hnone =>
      -- nobody has the id, so that there is no row to change
      have hsame :
          mapRow InstanceRow.id id (InstanceRow.stopped now) s.instances = s.instances := by
        refine (mapRow_congr (g := fun q => q) fun q hq hid => ?_).trans ?_
        · exact absurd (by simpa using hid) (List.find?_eq_none.1 hnone q hq)
        · simp [mapRow]
      cases hw
      rw [hsame]
  · next old hold =>
      have hid : old.id = id := by simpa using List.find?_some hold
      have hwritten : w.2 = true := write_written hs.faults hw
      rcases write_ok hw with rfl | ⟨u, hu, rfl, -⟩
      · cases hwritten
      · cases hu
        have hrow : mapRow InstanceRow.id id (fun _ => old.stopped now) s.instances =
            mapRow InstanceRow.id id (InstanceRow.stopped now) s.instances :=
          mapRow_congr fun q hq hqid => by
            rw [instance_unique hs.rules hq (List.mem_of_find?_eq_some hold) (hqid.trans hid.symm)]
        exact congrArg (fun rows => { s with instances := rows }) hrow

/-! ## Where rows come from -/

theorem Step.instance_origin (h : Step id s e t) (hr : r ∈ t.instances) :
    (∃ q ∈ s.instances, r.id = q.id) ∨ e.isNew = true ∧ r.id = id := by
  cases h with
  | createInstance hid =>
      rcases List.mem_append.1 hr with hr | hr
      · exact Or.inl ⟨r, hr, rfl⟩
      · exact Or.inr ⟨rfl, by rw [List.mem_singleton.1 hr, hid]⟩
  | updateInstance hold hid =>
      refine Or.inl (mapRow_origin (fun _ _ => ?_) hr)
      rw [hid]
      simpa using List.find?_some hold
  | removeInstance => exact Or.inl ⟨r, (List.mem_filter.1 hr).1, rfl⟩
  | removeHost _ hinstances => exact Or.inl ⟨r, hinstances.old r hr, rfl⟩
  | removeTemplate hinstances =>
      obtain ⟨q, hq, hrq⟩ := hinstances.origin hr
      exact Or.inl ⟨q, hq, by rcases hrq with rfl | rfl <;> rfl⟩
  | _ => exact Or.inl ⟨r, hr, rfl⟩

/-- The ids of instances were given out. -/
def Numbered (n : Nat) (s : Store) : Prop := ∀ r ∈ s.instances, ∃ k ≤ n, r.id = Work.idOf k

theorem Numbered.edited (h : Numbered low s) (hs : Orderly low s) (hle : low ≤ high)
    (he : s.Edited P low high now t) : Numbered high t := by
  induction he with
  | refl => exact fun r hr => (h r hr).imp fun _ hk => ⟨Nat.le_trans hk.1 hle, hk.2⟩
  | step hst _ hid hw ih =>
      rcases edit_ok (hs.edited hle hst).presets hw with rfl | ⟨hstep, -⟩
      · exact ih
      · intro r hr
        rcases hstep.instance_origin hr with ⟨q, hq, hrq⟩ | ⟨hnew, hrid⟩
        · exact hrq ▸ ih q hq
        · obtain ⟨k, -, hk, hidk⟩ := hid hnew
          exact ⟨k, hk, hrid.trans hidk⟩

/-- What is written about logs leaves the instances alone. -/
theorem Orderly.instances_edited (h : Orderly low s) (hle : low ≤ high)
    (he : s.Edited Edit.OfLog low high now t) : t.instances = s.instances := by
  induction he with
  | refl => rfl
  | step hst hlog _ hw ih =>
      rcases edit_ok (h.edited hle hst).presets hw with rfl | ⟨hstep, -⟩
      · exact ih
      · cases hlog <;> cases hstep <;> exact ih

end Store

end ProxyFleet
