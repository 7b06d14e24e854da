import ProxyFleet.Proofs.Call.Beginning
import ProxyFleet.Proofs.Store.Moves

/-!
# The store over a run

Each action either is work, and then the store was edited, or sets which writes
break off. So what is kept by every edit is kept over every run, whoever writes
and in whatever order; that the store is in good order is the first such thing.

Of switch logs there is more to say. A log is moved only as `SwitchStatus.canMove`
has it, it has a time of its end just if its status is final, and once it came to
its end it is never written again.
-/

namespace ProxyFleet

/-- What an action may write: all that keeps the hosts, and besides what it is itself. -/
def Action.Makes (a : Action) (e : Edit) : Prop := e.KeepsHosts ∨ a = .edit e

namespace Traffic

variable {t : Traffic} {a : Action} {actions : List Action} {I : Traffic → Prop}

/-! ## Runs -/

/-- What every action keeps is kept over a run. -/
theorem after_of_act (hact : ∀ t a, I t → I (t.act a)) : ∀ {t : Traffic} (actions : List Action),
    I t → I (t.after actions)
  | _, [], h => h
  | _, a :: actions, h => after_of_act hact actions (hact _ a h)

theorem after_append (t : Traffic) (actions more : List Action) :
    t.after (actions ++ more) = (t.after actions).after more := by
  simp [after]

theorem run_fst {α : Type} (t : Traffic) (w : Work α) : (t.run w).1 = (w.runAt t.site).1 := rfl

theorem begin_site (t : Traffic) (label : String) (r : CallRequest) :
    (t.begin label r).2.site = ((Work.begin r).runAt t.site).2 := by
  unfold Traffic.begin run
  cases h : (Work.begin r).runAt t.site with
  | mk result b => cases result <;> rfl

theorem begin_fst (t : Traffic) (label : String) (r : CallRequest) :
    (t.begin label r).1 = ((Work.begin r).runAt t.site).1 := by
  unfold Traffic.begin run
  cases h : (Work.begin r).runAt t.site with
  | mk result b => cases result <;> rfl

theorem begin_error {label : String} {r : CallRequest} {p : Problem}
    (h : (t.begin label r).1 = .error p) :
    ∃ b, Work.Beginning r t.site (.error p) b ∧ (t.begin label r).2 = { t with site := b } := by
  have hbegin := Work.begin_beginning r t.site
  unfold Traffic.begin run at h ⊢
  cases hrun : (Work.begin r).runAt t.site with
  | mk result b =>
    rw [hrun] at h hbegin
    cases result with
    | ok x => cases h
    | error q =>
        cases h
        exact ⟨b, hbegin, rfl⟩

theorem begin_ok {label : String} {r : CallRequest} {p : Pending}
    (h : (t.begin label r).1 = .ok p) :
    ∃ b, Work.Beginning r t.site (.ok p) b ∧ (t.begin label r).2 =
      { site := b, underway := (label, p) :: t.underway.filter (·.1 != label) } := by
  have hbegin := Work.begin_beginning r t.site
  unfold Traffic.begin run at h ⊢
  cases hrun : (Work.begin r).runAt t.site with
  | mk result b =>
    rw [hrun] at h hbegin
    cases result with
    | ok x =>
        cases h
        exact ⟨b, hbegin, rfl⟩
    | error q => cases h

theorem settle_site {label : String} {p : Pending} (h : t.underway.lookup label = some p)
    (e : CallEnd) : (t.settle label e).2.site = ((Work.settle p e).runAt t.site).2 := by
  simp only [Traffic.settle, h, run]

/-- An action is work that edits the store, or sets which writes break off. -/
theorem act_store (t : Traffic) (a : Action) :
    Site.Grown a.Makes t.site (t.act a).site ∨
      ∃ faults : List Fault, (∀ f ∈ faults, f ∈ t.site.store.faults ∨ f.message.isSome = true) ∧
        (t.act a).site.store = { t.site.store with faults := faults } ∧
        (t.act a).site.issued = t.site.issued := by
  have hsame : ∀ {u : Traffic}, u.site.store = t.site.store → u.site.issued = t.site.issued →
      ∃ faults : List Fault, (∀ f ∈ faults, f ∈ t.site.store.faults ∨ f.message.isSome = true) ∧
        u.site.store = { t.site.store with faults := faults } ∧
        u.site.issued = t.site.issued :=
    fun hs hi => ⟨t.site.store.faults, fun _ hf => Or.inl hf, hs, hi⟩
  cases a with
  | begin label r =>
      simp only [act]
      split
      · exact Or.inr (hsame rfl rfl)
      · exact Or.inl (begin_site t label r ▸ (Work.Within.begin r t.site).mono fun _ => Or.inl)
  | settle label e =>
      simp only [act]
      cases h : t.underway.lookup label with
      | none => exact Or.inr (hsame (by simp [Traffic.settle, h]) (by simp [Traffic.settle, h]))
      | some p =>
          exact Or.inl (settle_site h e ▸ (Work.Within.settle p e t.site).mono fun _ => Or.inl)
  | deleteInstance hostId instanceId =>
      exact Or.inl (Work.Within.grows (Work.Within.deleteInstance hostId instanceId)
        (fun _ => Or.inl) t.site)
  | tool name arguments agent =>
      exact Or.inl ((Work.Within.callTool Work.Within.toolGrows t name arguments agent).mono
        fun _ => Or.inl)
  | edit e =>
      exact Or.inl (Work.Within.grows (Work.Within.edit (P := (· = e)) rfl)
        (fun _ he => Or.inr (he ▸ rfl)) t.site)
  | breakWrites table event status message =>
      refine Or.inr ⟨⟨table, event, status, some message⟩ :: t.site.store.faults, fun f hf => ?_,
        rfl, rfl⟩
      rcases List.mem_cons.1 hf with rfl | hf
      · exact Or.inr rfl
      · exact Or.inl hf
  | mendWrites => exact Or.inr ⟨[], nofun, rfl, rfl⟩
  | bar why => exact Or.inr (hsame rfl rfl)
  | tick now => exact Or.inr (hsame rfl rfl)
  | restart => exact Or.inr (hsame rfl rfl)

/-- The store is in good order, and the ids in it were given out. -/
abbrev StoreOrderly (t : Traffic) : Prop := t.site.store.Orderly t.site.issued

theorem act_orderly (t : Traffic) (a : Action) (h : t.StoreOrderly) : (t.act a).StoreOrderly := by
  rcases act_store t a with hgrown | ⟨faults, hfaults, hstore, hissued⟩
  · exact h.edited hgrown.issued hgrown.store
  · unfold StoreOrderly
    rw [hstore, hissued]
    exact h.withFaults fun f hf => (hfaults f hf).elim (h.faults f) id

theorem start_orderly (rpc : RpcSettings) (now : Instant) (spareToken : String) :
    (start rpc now spareToken).StoreOrderly := .empty

theorem orderly (rpc : RpcSettings) (now : Instant) (spareToken : String)
    (actions : List Action) : ((start rpc now spareToken).after actions).StoreOrderly :=
  after_of_act act_orderly actions (start_orderly rpc now spareToken)

theorem issued_le (t : Traffic) (a : Action) : t.site.issued ≤ (t.act a).site.issued := by
  rcases act_store t a with hgrown | ⟨-, -, -, hissued⟩
  · exact hgrown.issued
  · exact Nat.le_of_eq hissued.symm

/-! ## Logs that came to an end -/

variable {r : SwitchLogRow}

/-- A row that came to an end, at some later moment: its ids were given out, and it is as it was
or has gone with its host. -/
structure Filed (r : SwitchLogRow) (t : Traffic) : Prop where
  orderly : t.StoreOrderly
  id : ∃ k ≤ t.site.issued, r.id = Work.idOf k
  host : ∃ k ≤ t.site.issued, r.hostId = Work.idOf k
  archived : t.site.store.Archived r

theorem filed_of_mem (h : t.StoreOrderly) (hr : r ∈ t.site.store.logs) : Filed r t where
  orderly := h
  id := h.log r hr
  host := h.hasHost_id (Store.hasHost_of_log h.rules hr)
  archived := ⟨fun _ hq hid => Store.log_unique h.rules hq hr hid, fun hgone => absurd hr hgone⟩

theorem Filed.act (h : Filed r t) (hfinal : r.status.isFinal = true) (a : Action) :
    Filed r (t.act a) where
  orderly := act_orderly t a h.orderly
  id := h.id.imp fun _ hk => ⟨Nat.le_trans hk.1 (issued_le t a), hk.2⟩
  host := h.host.imp fun _ hk => ⟨Nat.le_trans hk.1 (issued_le t a), hk.2⟩
  archived := by
    rcases act_store t a with hgrown | ⟨faults, -, hstore, -⟩
    · exact h.archived.edited hfinal h.id h.host h.orderly hgrown.issued hgrown.store
    · rw [hstore]
      exact ⟨h.archived.only, h.archived.gone⟩

theorem Filed.after (h : Filed r t) (hfinal : r.status.isFinal = true) (actions : List Action) :
    Filed r (t.after actions) :=
  after_of_act (fun _ a ht => ht.act hfinal a) actions h

/-- A row that came to an end goes only if its host is taken out. -/
theorem mem_act_of_final (h : t.StoreOrderly) (hr : r ∈ t.site.store.logs)
    (hfinal : r.status.isFinal = true) :
    r ∈ (t.act a).site.store.logs ∨ a = .edit (.removeHost r.hostId) := by
  by_cases ha : a = .edit (.removeHost r.hostId)
  · exact Or.inr ha
  · left
    rcases act_store t a with hgrown | ⟨faults, -, hstore, -⟩
    · refine h.final_log hgrown.issued hr hfinal (fun e hmakes heq => ?_) hgrown.store
      subst heq
      exact hmakes.elim (fun hkeeps => hkeeps _ rfl) ha
    · rw [hstore]
      exact hr

theorem mem_after_of_final (h : t.StoreOrderly) (hr : r ∈ t.site.store.logs)
    (hfinal : r.status.isFinal = true) (actions : List Action) :
    r ∈ (t.after actions).site.store.logs ∨ .edit (.removeHost r.hostId) ∈ actions := by
  induction actions generalizing t with
  | nil => exact Or.inl hr
  | cons a actions ih =>
      rcases mem_act_of_final (a := a) h hr hfinal with hmem | ha
      · exact (ih (act_orderly t a h) hmem).imp_right (List.mem_cons_of_mem a)
      · exact Or.inr (ha ▸ List.mem_cons_self)

/-- Switch logs at every moment of every run: a log is moved just if it is there and its status
allows the move, unless a write breaks off; it has a time of its end just if its status is final;
and from then on the row stays as it is, until its host is taken out and the row with it. -/
theorem switch_logs_kept (rpc : RpcSettings) (now : Instant) (spareToken : String)
    (actions : List Action) :
    let s := ((start rpc now spareToken).after actions).site.store
    (∀ id time target details,
      (∀ moved s', s.moveLog id time target details = .ok (moved, s') →
        (moved = true ↔ s.Movable id target)) ∧
      (∀ e, s.moveLog id time target details = .error e →
        ∃ f ∈ s.faults, f.covers .switchLogs .update (some target.name) = true ∧
          f.message = some e.message)) ∧
    (∀ r ∈ s.logs, r.completedAt.isSome = true ↔ r.status.isFinal = true) ∧
    ∀ r ∈ s.logs, r.status.isFinal = true → ∀ more : List Action,
      let s' := ((start rpc now spareToken).after (actions ++ more)).site.store
      (∀ q ∈ s'.logs, q.id = r.id → q = r) ∧
      (r ∈ s'.logs ∨
        Action.edit (.removeHost r.hostId) ∈ more ∧ s'.hasHost r.hostId = false) := by
  intro s
  have hs : Traffic.StoreOrderly _ := orderly rpc now spareToken actions
  refine ⟨fun id time target details => ?_, fun r hr => by rw [hs.ends r hr], ?_⟩
  · constructor
    · intro moved s' h
      rcases Store.moveLog_result hs id time target details with
        ⟨hmove, hmovable⟩ | ⟨hmove, hnot⟩ | ⟨f, -, -, m, -, hmove⟩
      · cases hmove.symm.trans h
        simpa using hmovable
      · cases hmove.symm.trans h
        simpa using hnot
      · cases hmove.symm.trans h
    · intro e h
      rcases Store.moveLog_result hs id time target details with
        ⟨hmove, -⟩ | ⟨hmove, -⟩ | ⟨f, hf, hcovers, m, hm, hmove⟩
      · cases hmove.symm.trans h
      · cases hmove.symm.trans h
      · cases hmove.symm.trans h
        exact ⟨f, hf, hcovers, hm⟩
  · intro r hr hfinal more
    rw [after_append]
    have hfiled := (filed_of_mem hs hr).after hfinal more
    refine ⟨hfiled.archived.only, ?_⟩
    by_cases hmem : r ∈ (((start rpc now spareToken).after actions).after more).site.store.logs
    · exact Or.inl hmem
    · exact Or.inr ⟨(mem_after_of_final hs hr hfinal more).resolve_left hmem,
        hfiled.archived.gone hmem⟩

end Traffic

end ProxyFleet
