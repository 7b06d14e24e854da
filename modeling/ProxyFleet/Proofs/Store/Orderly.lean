import Mathlib.Data.List.Nodup
import ProxyFleet.Proofs.Store.Step
import ProxyFleet.Proofs.Work.Writes

/-!
# Stores in good order

What holds of the store at every moment of a run: its rules are kept, the ids of
hosts and logs are among those given out so far, and a log has a time of its end
just if its status is final. Each is read off the step an edit takes, and carried
along a chain of edits.

A log that came to an end is out of reach of every edit but the removal of its
host. No id is given out twice, so nothing ever takes its place either.
-/

namespace ProxyFleet

theorem Work.idOf_inj {j k : Nat} : Work.idOf j = Work.idOf k ↔ j = k := by
  refine ⟨fun h => ?_, congrArg Work.idOf⟩
  have hdigits : Nat.toDigits 10 j = Nat.toDigits 10 k := by
    simpa [Work.idOf, String.ext_iff] using h
  simpa using congrArg (Nat.ofDigitChars 10 · 0) hdigits

/-- An id that is given out later is another one. -/
theorem Work.idOf_ne {low high : Nat} {id x : String}
    (hid : ∃ k, low < k ∧ k ≤ high ∧ id = Work.idOf k) (hx : ∃ k ≤ low, x = Work.idOf k) :
    id ≠ x := by
  obtain ⟨k, hk, -, rfl⟩ := hid
  obtain ⟨j, hj, rfl⟩ := hx
  intro heq
  have hkj := Work.idOf_inj.1 heq
  omega

theorem hasRepeat_eq_false {α : Type} [BEq α] [LawfulBEq α] {as : List α} :
    hasRepeat as = false ↔ as.Nodup := by
  induction as with
  | nil => simp [hasRepeat]
  | cons a as ih => simp [hasRepeat, ih]

/-- Nothing moves on from an end. -/
theorem SwitchStatus.canMove_of_isFinal {source target : SwitchStatus}
    (h : source.isFinal = true) : source.canMove target = false := by
  cases source <;> cases target <;> first | rfl | cases h

/-- An edit that leaves all logs alone. -/
structure Edit.KeepsLogs (e : Edit) : Prop where
  removeHost : ∀ host, e ≠ .removeHost host
  createLog : ∀ new, e ≠ .createLog new
  moveLog : ∀ log target details, e ≠ .moveLog log target details

namespace Store

variable {s t : Store} {id : String} {now : Instant} {e : Edit} {n m low high : Nat}
  {r : SwitchLogRow} {P : Edit → Prop}

/-! ## Rules -/

theorem hasHost_eq_false {host : String} :
    s.hasHost host = false ↔ ∀ h ∈ s.hosts, h.id ≠ host := by
  simp [hasHost]

theorem ite_some_eq_none {α : Type} {c : Prop} [Decidable c] {a : α} {x : Option α} :
    (if c then some a else x) = none ↔ ¬c ∧ x = none := by
  split <;> simp_all

/-- Logs have ids of their own, and every reference leads to a row. -/
theorem rules_hold (h : s.broken? = none) :
    (s.logs.map SwitchLogRow.id).Nodup ∧ s.referencesHold = true := by
  simp only [broken?, ite_some_eq_none] at h
  obtain ⟨-, -, -, -, -, -, -, hlogs, hrefs, -⟩ := h
  exact ⟨hasRepeat_eq_false.1 (Bool.not_eq_true _ ▸ hlogs), by simpa using hrefs⟩

theorem log_unique (h : s.broken? = none) {q : SwitchLogRow} (hq : q ∈ s.logs) (hr : r ∈ s.logs)
    (hid : q.id = r.id) : q = r :=
  List.inj_on_of_nodup_map (rules_hold h).1 hq hr hid

theorem hasHost_of_log (h : s.broken? = none) (hr : r ∈ s.logs) : s.hasHost r.hostId = true := by
  have hrefs := (rules_hold h).2
  simp only [referencesHold, Bool.and_eq_true, List.all_eq_true] at hrefs
  exact hrefs.2 r hr

theorem hasHost_of_instance (h : s.broken? = none) {i : InstanceRow} (hi : i ∈ s.instances) :
    s.hasHost i.hostId = true := by
  have hrefs := (rules_hold h).2
  simp only [referencesHold, Bool.and_eq_true, List.all_eq_true] at hrefs
  exact (hrefs.1.2 i hi).1

/-! ## Where rows come from -/

theorem Step.faults (h : Step id s e t) : t.faults = s.faults := by
  cases h <;> rfl

theorem Step.presets (h : Step id s e t) : t.presets = s.presets := by
  cases h <;> rfl

theorem Step.logs (h : Step id s e t) (he : e.KeepsLogs) : t.logs = s.logs := by
  cases h with
  | removeHost => exact absurd rfl (he.removeHost _)
  | createLog => exact absurd rfl (he.createLog _)
  | moveLog => exact absurd rfl (he.moveLog _ _ _)
  | _ => rfl

/-- A row of the table was there before, under the same id. -/
theorem mapRow_origin {α : Type} {idOf : α → String} {row : String} {f : α → α} {rows : List α}
    {q : α} (hf : ∀ r, idOf r = row → idOf (f r) = row) (hq : q ∈ mapRow idOf row f rows) :
    ∃ r ∈ rows, idOf q = idOf r := by
  obtain ⟨r, hr, rfl⟩ := mem_mapRow.1 hq
  refine ⟨r, hr, ?_⟩
  split
  · next heq =>
      have hid : idOf r = row := by simpa using heq
      rw [hf r hid, hid]
  · rfl

theorem Cleared.origin {α : Type} {chosen : α → Bool} {clear : α → α} {rows rows' : List α}
    (h : Cleared chosen clear rows rows') {q : α} (hq : q ∈ rows') :
    ∃ r ∈ rows, q = r ∨ q = clear r := by
  induction h with
  | nil => cases hq
  | cons hhead _ ih =>
      rcases List.mem_cons.1 hq with rfl | hq
      · exact ⟨_, List.mem_cons_self, hhead.imp_right And.right⟩
      · obtain ⟨r, hr, hqr⟩ := ih hq
        exact ⟨r, List.mem_cons_of_mem _ hr, hqr⟩

theorem Step.host_origin (h : Step id s e t) {g : HostRow} (hg : g ∈ t.hosts) :
    (∃ g' ∈ s.hosts, g.id = g'.id) ∨ e.isNew = true ∧ g.id = id := by
  cases h with
  | createHost hid =>
      rcases List.mem_append.1 hg with hg | hg
      · exact Or.inl ⟨g, hg, rfl⟩
      · exact Or.inr ⟨rfl, by rw [List.mem_singleton.1 hg, hid]⟩
  | reportHost hf => exact Or.inl (mapRow_origin (fun r hr => (hf r).trans hr) hg)
  | assignTemplate hf => exact Or.inl (mapRow_origin (fun r hr => (hf r).trans hr) hg)
  | removeHost => exact Or.inl ⟨g, (List.mem_filter.1 hg).1, rfl⟩
  | removeTemplate _ hhosts =>
      obtain ⟨g', hg', hgg⟩ := hhosts.origin hg
      exact Or.inl ⟨g', hg', by rcases hgg with rfl | rfl <;> rfl⟩
  | _ => exact Or.inl ⟨g, hg, rfl⟩

/-- How a log comes to be in the table: it was there, it is new, or it was moved. -/
theorem Step.log_origin (hs : s.broken? = none) (h : Step id s e t) (hr : r ∈ t.logs) :
    r ∈ s.logs ∨
    (e.isNew = true ∧ r.id = id ∧ r.status = .pending ∧ r.completedAt = none) ∨
    ∃ q ∈ s.logs, ∃ now target details, q.status.canMove target = true ∧
      r = movedLog now target details q := by
  cases h with
  | createLog hid hstatus hend =>
      rcases List.mem_append.1 hr with hr | hr
      · exact Or.inl hr
      · rw [List.mem_singleton.1 hr]
        exact Or.inr (Or.inl ⟨rfl, hid, hstatus, hend⟩)
  | removeHost hlogs => exact Or.inl (hlogs.old r hr)
  | moveLog hold hmove =>
      obtain ⟨q, hq, rfl⟩ := mem_mapRow.1 hr
      split
      · next heq =>
          have hfound := List.find?_some hold
          have hqo : q = _ := log_unique hs hq (List.mem_of_find?_eq_some hold)
            (by rw [beq_iff_eq] at heq hfound; rw [heq, hfound])
          exact Or.inr (Or.inr ⟨q, hq, _, _, _, hqo ▸ hmove, rfl⟩)
      · exact Or.inl hq
  | _ => exact Or.inl hr

/-! ## Good order -/

/-- A store in good order, where ids up to a number were given out. Writes that fail in it break
off; none is passed over. -/
structure Orderly (n : Nat) (s : Store) : Prop where
  rules : s.broken? = none
  presets : s.presets = []
  faults : ∀ f ∈ s.faults, f.message.isSome = true
  host : ∀ g ∈ s.hosts, ∃ k ≤ n, g.id = Work.idOf k
  log : ∀ r ∈ s.logs, ∃ k ≤ n, r.id = Work.idOf k
  ends : ∀ r ∈ s.logs, r.completedAt.isSome = r.status.isFinal

namespace Orderly

theorem empty : Orderly n empty where
  rules := by decide
  presets := rfl
  faults := fun _ h => absurd h List.not_mem_nil
  host := fun _ h => absurd h List.not_mem_nil
  log := fun _ h => absurd h List.not_mem_nil
  ends := fun _ h => absurd h List.not_mem_nil

theorem mono (h : Orderly n s) (hnm : n ≤ m) : Orderly m s where
  rules := h.rules
  presets := h.presets
  faults := h.faults
  host := fun g hg => (h.host g hg).imp fun _ hk => ⟨Nat.le_trans hk.1 hnm, hk.2⟩
  log := fun r hr => (h.log r hr).imp fun _ hk => ⟨Nat.le_trans hk.1 hnm, hk.2⟩
  ends := h.ends

theorem movedLog_ends {target : SwitchStatus} {details : MoveDetails}
    (h : r.completedAt.isSome = r.status.isFinal) (hmove : r.status.canMove target = true) :
    (movedLog now target details r).completedAt.isSome =
      (movedLog now target details r).status.isFinal := by
  have hopen : r.status.isFinal = false := by
    cases hfinal : r.status.isFinal with
    | false => rfl
    | true => rw [SwitchStatus.canMove_of_isFinal hfinal] at hmove; cases hmove
  unfold movedLog
  cases htarget : target.isFinal with
  | true => simp
  | false => simp [h, hopen]

theorem edit (h : Orderly n s) (hid : e.isNew = true → ∃ k ≤ n, id = Work.idOf k)
    (he : s.edit e id now = .ok t) : Orderly n t := by
  rcases edit_ok h.presets he with rfl | ⟨hstep, hrules⟩
  · exact h
  refine ⟨hrules, hstep.presets.trans h.presets, hstep.faults ▸ h.faults, fun g hg => ?_,
    fun r hr => ?_, fun r hr => ?_⟩
  · rcases hstep.host_origin hg with ⟨g', hg', hgg⟩ | ⟨hnew, hgid⟩
    · exact hgg ▸ h.host g' hg'
    · exact hgid ▸ hid hnew
  · rcases hstep.log_origin h.rules hr with hr | ⟨hnew, hrid, -⟩ | ⟨q, hq, _, _, _, -, rfl⟩
    · exact h.log r hr
    · exact hrid ▸ hid hnew
    · exact h.log q hq
  · rcases hstep.log_origin h.rules hr with hr | ⟨-, -, hstatus, hend⟩ |
        ⟨q, hq, _, _, _, hmove, rfl⟩
    · exact h.ends r hr
    · rw [hstatus, hend]
      rfl
    · exact movedLog_ends (h.ends q hq) hmove

/-- Good order is kept along a chain of edits. -/
theorem edited (h : Orderly low s) (hle : low ≤ high) (he : s.Edited P low high now t) :
    Orderly high t := by
  induction he with
  | refl => exact h.mono hle
  | step _ _ hid hw ih =>
      refine ih.edit (fun hnew => ?_) hw
      obtain ⟨k, -, hk, hidk⟩ := hid hnew
      exact ⟨k, hk, hidk⟩

theorem withFaults (h : Orderly n s) {faults : List Fault}
    (hf : ∀ f ∈ faults, f.message.isSome = true) : Orderly n { s with faults := faults } :=
  ⟨h.rules, h.presets, hf, h.host, h.log, h.ends⟩

/-- A host on record has an id that was given out. -/
theorem hasHost_id (h : Orderly n s) {host : String} (hhost : s.hasHost host = true) :
    ∃ k ≤ n, host = Work.idOf k := by
  obtain ⟨g, hg, hid⟩ := List.any_eq_true.1 hhost
  obtain ⟨k, hk, hgk⟩ := h.host g hg
  exact ⟨k, hk, by rw [← hgk, ← beq_iff_eq.1 hid]⟩

end Orderly

/-- A chain of edits that leave the logs alone. -/
theorem Orderly.logs_edited (h : Orderly low s) (hle : low ≤ high) (hP : ∀ e, P e → e.KeepsLogs)
    (he : s.Edited P low high now t) : t.logs = s.logs := by
  induction he with
  | refl => rfl
  | step hst hPe _ hw ih =>
      rcases edit_ok (h.edited hle hst).presets hw with rfl | ⟨hstep, -⟩
      · exact ih
      · exact (hstep.logs (hP _ hPe)).trans ih

/-! ## Logs that came to an end -/

/-- Under the id of a row there is nothing but this row; and if it is gone, so is its host. -/
structure Archived (r : SwitchLogRow) (s : Store) : Prop where
  only : ∀ q ∈ s.logs, q.id = r.id → q = r
  gone : r ∉ s.logs → s.hasHost r.hostId = false

/-- What moves is another log: the status of this one is final. -/
theorem Archived.ne_moved {old : SwitchLogRow} {target : SwitchStatus} {log : String}
    (hr : Archived r s) (hfinal : r.status.isFinal = true)
    (hold : s.logs.find? (·.id == log) = some old) (hmove : old.status.canMove target = true) :
    r.id ≠ log := by
  intro hlog
  have hfound : old.id = log := by simpa using List.find?_some hold
  have hsame := hr.only old (List.mem_of_find?_eq_some hold) (hfound.trans hlog.symm)
  rw [hsame, SwitchStatus.canMove_of_isFinal hfinal] at hmove
  cases hmove

/-- An edit changes no log that came to an end; it goes only with its host. -/
theorem Step.final_log (h : Step id s e t) (hfinal : r.status.isFinal = true)
    (hr : Archived r s) (hmem : r ∈ s.logs) :
    r ∈ t.logs ∨ e = .removeHost r.hostId ∧ t.hasHost r.hostId = false := by
  cases h with
  | createLog => exact Or.inl (List.mem_append_left _ hmem)
  | removeHost hlogs =>
      rename_i host _ _ _ _ _
      by_cases hhost : r.hostId = host
      · subst hhost
        exact Or.inr ⟨rfl, by simp [hasHost]⟩
      · exact Or.inl (hlogs.kept r hmem (by simpa using hhost))
  | moveLog hold hmove =>
      have hother := hr.ne_moved hfinal hold hmove
      exact Or.inl (mem_mapRow_other hmem hother)
  | _ => exact Or.inl hmem

theorem Archived.step (hr : Archived r s) (hfinal : r.status.isFinal = true)
    (hnew : e.isNew = true → id ≠ r.id ∧ id ≠ r.hostId) (h : Step id s e t) : Archived r t where
  only := fun q hq hid => by
    cases h with
    | createLog hrow =>
        rcases List.mem_append.1 hq with hq | hq
        · exact hr.only q hq hid
        · rw [List.mem_singleton.1 hq, hrow] at hid
          exact absurd hid (hnew rfl).1
    | removeHost hlogs => exact hr.only q (hlogs.old q hq) hid
    | moveLog hold hmove =>
        have hother := hr.ne_moved hfinal hold hmove
        obtain ⟨q', hq', rfl⟩ := mem_mapRow.1 hq
        have hid' : q'.id = r.id := by
          split at hid
          · exact hid
          · exact hid
        have heq := hr.only q' hq' hid'
        subst heq
        rw [if_neg (by simpa using hother)]
    | _ => exact hr.only q hq hid
  gone := fun hgone => by
    by_cases hmem : r ∈ s.logs
    · rcases h.final_log hfinal hr hmem with hmem' | ⟨-, hhost⟩
      · exact absurd hmem' hgone
      · exact hhost
    · have hhost := hasHost_eq_false.1 (hr.gone hmem)
      refine hasHost_eq_false.2 fun g hg hgid => ?_
      rcases h.host_origin hg with ⟨g', hg', hgg⟩ | ⟨hisNew, hgg⟩
      · exact hhost g' hg' (hgg.symm.trans hgid)
      · exact (hnew hisNew).2 (hgg.symm.trans hgid)

/-- A log that came to an end, along a chain of edits. -/
theorem Archived.edited (hr : Archived r s) (hfinal : r.status.isFinal = true)
    (hid : ∃ k ≤ low, r.id = Work.idOf k) (hhost : ∃ k ≤ low, r.hostId = Work.idOf k)
    (hs : Orderly low s) (hle : low ≤ high) (he : s.Edited P low high now t) : Archived r t := by
  induction he with
  | refl => exact hr
  | step hst _ hnew hw ih =>
      rcases edit_ok (hs.edited hle hst).presets hw with rfl | ⟨hstep, -⟩
      · exact ih
      · exact ih.step hfinal
          (fun hn => ⟨Work.idOf_ne (hnew hn) hid, Work.idOf_ne (hnew hn) hhost⟩) hstep

/-- A log that came to an end stays as long as nobody takes its host out. -/
theorem Orderly.final_log (hs : Orderly low s) (hle : low ≤ high) (hmem : r ∈ s.logs)
    (hfinal : r.status.isFinal = true) (hP : ∀ e, P e → e ≠ .removeHost r.hostId)
    (he : s.Edited P low high now t) : r ∈ t.logs := by
  induction he with
  | refl => exact hmem
  | step hst hPe _ hw ih =>
      have ho := hs.edited hle hst
      rcases edit_ok ho.presets hw with rfl | ⟨hstep, -⟩
      · exact ih
      · have harchived : Archived r _ :=
          ⟨fun q hq hid => log_unique ho.rules hq ih hid, fun h => absurd ih h⟩
        exact (hstep.final_log hfinal harchived ih).resolve_right fun h => hP _ hPe h.1

end Store

end ProxyFleet
