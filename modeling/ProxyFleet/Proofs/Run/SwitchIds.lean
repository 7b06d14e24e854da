import Mathlib
import ProxyFleet.Proofs.Run.Begun
import ProxyFleet.Proofs.Run.Exclusion

/-!
# Ids of switches

A call whose caller leaves it to the program to name the switch gets a name made
of its host and, for a first start, of the instance, else of the time. A lock
keeps calls about the same instance apart, so two names of first starts underway
differ; a name of a first start and one of a switch never meet; but the time says
nothing on the instance, and a lock says nothing on the time. So two switches of
one host that are opened in the same millisecond have one name between them, and
no other two calls underway have.

The row of a call has the name its request has. Nothing that is written later
changes it, and the row goes only with its host.
-/

namespace ProxyFleet

/-- Whether a call replaces a core. -/
def CallRequest.replaces : CallRequest → Bool
  | .start _ => false
  | .replace _ => true

/-- Names that are made for two calls of one host, about different instances, are the same just for
two switches at the same time. -/
theorem CallRequest.ownId_eq_iff {r q : CallRequest} {t u : Instant}
    (hhost : r.target.1 = q.target.1) (hname : r.target.2 ≠ q.target.2) :
    r.ownId t = q.ownId u ↔ r.replaces = true ∧ q.replaces = true ∧ t = u := by
  have hmark : ∀ {x y : String}, "create-" ++ x ≠ "switch-" ++ y := by
    intro x y heq
    have hhead := congrArg (fun s => s.toList.head?) heq
    simp at hhead
  cases r with
  | start r =>
      cases q with
      | start q =>
          change r.hostId = q.hostId at hhost
          change trim r.instanceId ≠ trim q.instanceId at hname
          simp [ownId, replaces, hhost, hname]
      | replace q =>
          simp only [ownId, replaces, switchIdAt, String.append_assoc]
          simpa using hmark
  | replace r =>
      cases q with
      | start q =>
          simp only [ownId, replaces, switchIdAt, String.append_assoc]
          simpa using hmark.symm
      | replace q =>
          change r.hostId = q.hostId at hhost
          cases t
          cases u
          simp [ownId, replaces, switchIdAt, hhost, Int.repr_inj]

namespace Store

variable {s t : Store} {id : String} {now : Instant} {e : Edit} {n low high : Nat}
  {l : SwitchLog} {P : Edit → Prop}

/-- What a store tells of a log: whatever row has its id has its host and the id of its switch, and
there is such a row as long as there is the host. -/
structure Tells (l : SwitchLog) (s : Store) : Prop where
  same : ∀ q ∈ s.logs, q.id = l.id → q.switchId = l.switchId ∧ q.hostId = l.hostId
  there : s.hasHost l.hostId = true → ∃ q ∈ s.logs, q.id = l.id

theorem Tells.step (hl : Tells l s) (hs : s.broken? = none)
    (hnew : e.isNew = true → id ≠ l.id ∧ id ≠ l.hostId) (h : Step id s e t) : Tells l t where
  same := fun q hq hid => by
    rcases h.log_origin hs hq with hold | ⟨hisNew, hqid, -⟩ | ⟨q', hq', _, _, _, -, rfl⟩
    · exact hl.same q hold hid
    · exact absurd (hqid.symm.trans hid) (hnew hisNew).1
    · exact hl.same q' hq' hid
  there := fun hhost => by
    have hbefore : s.hasHost l.hostId = true := by
      obtain ⟨g, hg, hgid⟩ := List.any_eq_true.1 hhost
      rcases h.host_origin hg with ⟨g', hg', hgg⟩ | ⟨hisNew, hgg⟩
      · exact List.any_eq_true.2 ⟨g', hg', hgg ▸ hgid⟩
      · exact absurd (hgg.symm.trans (by simpa using hgid)) (hnew hisNew).2
    obtain ⟨q, hq, hqid⟩ := hl.there hbefore
    cases h with
    | createLog => exact ⟨q, List.mem_append_left _ hq, hqid⟩
    | @removeHost host _ _ _ hlogs =>
        -- had the row gone with its host, the host would not be there any more
        have hother : q.hostId ≠ host := by
          rintro rfl
          rw [(hl.same q hq hqid).2] at hhost
          simp [hasHost] at hhost
        exact ⟨q, hlogs.kept q hq (by simpa using hother), hqid⟩
    | moveLog =>
        refine ⟨_, mem_mapRow.2 ⟨q, hq, rfl⟩, ?_⟩
        split <;> exact hqid
    | _ => exact ⟨q, hq, hqid⟩

/-- What a store tells of a log is kept along a chain of edits. -/
theorem Tells.edited (hl : Tells l s) (hid : ∃ k ≤ low, l.id = Work.idOf k)
    (hhost : ∃ k ≤ low, l.hostId = Work.idOf k) (hs : Orderly low s) (hle : low ≤ high)
    (he : s.Edited P low high now t) : Tells l t := by
  induction he with
  | refl => exact hl
  | step hst _ hnew hw ih =>
      have ho := hs.edited hle hst
      rcases edit_ok ho.presets hw with rfl | ⟨hstep, -⟩
      · exact ih
      · exact ih.step ho.rules
          (fun hn => ⟨Work.idOf_ne (hnew hn) hid, Work.idOf_ne (hnew hn) hhost⟩) hstep

/-- A log that is put in under a new id is told of. -/
theorem Orderly.createLog_tells (hs : Orderly n s) {new : NewSwitchLog}
    (h : s.createLog (Work.idOf (n + 1)) now new = .ok (l, t)) : Tells l t := by
  obtain ⟨row, hrow, -, rfl, rfl, -⟩ := createLog_rows hs.faithful h
  refine ⟨fun q hq hid => ?_, fun _ => ⟨row, List.mem_append_right _ List.mem_cons_self, rfl⟩⟩
  rcases List.mem_append.1 hq with hold | hnew
  · exact absurd (hid.trans hrow).symm
      (Work.idOf_ne ⟨n + 1, Nat.lt_succ_self n, Nat.le_refl _, rfl⟩ (hs.log q hold))
  · cases List.mem_singleton.1 hnew
    exact ⟨rfl, rfl⟩

end Store

/-- A log that was written at a site: its ids were given out, and the store tells of it. -/
structure Site.Logged (l : SwitchLog) (a : Site) : Prop where
  orderly : a.store.Orderly a.issued
  id : ∃ k ≤ a.issued, l.id = Work.idOf k
  host : ∃ k ≤ a.issued, l.hostId = Work.idOf k
  tells : a.store.Tells l

theorem Site.Logged.grown {l : SwitchLog} {a b : Site} {P : Edit → Prop} (h : a.Logged l)
    (hb : a.Grown P b) : b.Logged l where
  orderly := h.orderly.edited hb.issued hb.store
  id := h.id.imp fun _ hk => ⟨Nat.le_trans hk.1 hb.issued, hk.2⟩
  host := h.host.imp fun _ hk => ⟨Nat.le_trans hk.1 hb.issued, hk.2⟩
  tells := h.tells.edited h.id h.host h.orderly hb.issued hb.store

namespace Work

variable {a b : Site} {r : CallRequest} {p : Pending}

/-- The log of a call that comes about is written. -/
theorem Beginning.logWritten (ha : a.store.Orderly a.issued) (h : Beginning r a (.ok p) b) :
    b.Logged p.call.log := by
  cases h with
  | @sent k m _ new request c _ hcheck hopening hcall _ =>
      have hchecked := Within.check r a
      rw [hcheck] at hchecked
      have hm : m.store.Orderly m.issued := ha.edited hchecked.issued hchecked.store
      rw [hcall]
      cases hopening with
      | @sent log s n warnings _ _ hlog hmarked =>
          obtain ⟨row, hid, -, hrow, hs, -⟩ := Store.createLog_rows hm.faithful hlog
          have hput : s.Orderly (m.issued + 1) := (hm.mono (Nat.le_succ _)).edit
            (e := .createLog new) (fun _ => ⟨_, Nat.le_refl _, rfl⟩) (map_snd_ok hlog)
          have hhost : s.hasHost log.hostId = true :=
            Store.hasHost_of_log hput.rules (r := row) (by simp [hs]) ▸ hrow ▸ rfl
          have hlogged := Site.Logged.grown (l := log) ⟨hput, ⟨_, Nat.le_refl _, hrow ▸ hid⟩,
            hput.hasHost_id hhost, hm.createLog_tells hlog⟩ hmarked.toGrown
          exact ⟨hlogged.orderly, hlogged.id, hlogged.host, hlogged.tells⟩

end Work

namespace Traffic

variable {t : Traffic} {actions : List Action} {u v : String × Pending} {r q : CallRequest}
  {a b : Site}

/-! ## Over a run -/

/-- The logs of all calls underway are written. -/
structure AllLogged (t : Traffic) : Prop where
  orderly : t.StoreOrderly
  logged : ∀ u ∈ t.underway, t.site.Logged u.2.call.log

theorem act_logged {l : SwitchLog} (h : t.site.Logged l) (x : Action) :
    (t.act x).site.Logged l := by
  rcases act_store t x with hgrown | ⟨faults, hfaults, hstore, hissued⟩
  · exact h.grown hgrown
  · refine ⟨act_orderly t x h.orderly, hissued ▸ h.id, hissued ▸ h.host, ?_⟩
    rw [hstore]
    exact ⟨h.tells.same, h.tells.there⟩

theorem act_allLogged (t : Traffic) (x : Action) (h : t.AllLogged) : (t.act x).AllLogged where
  orderly := act_orderly t x h.orderly
  logged := fun u hu => by
    rcases act_underway hu with hold | ⟨r, -, hbegin⟩
    · exact act_logged (h.logged u hold) x
    · have hbeginning := Work.begin_beginning r t.site
      rw [hbegin] at hbeginning
      exact hbeginning.logWritten h.orderly

theorem allLogged (rpc : RpcSettings) (now : Instant) (spareToken : String)
    (actions : List Action) : ((start rpc now spareToken).after actions).AllLogged :=
  after_of_act act_allLogged actions
    ⟨start_orderly rpc now spareToken, fun _ hu => absurd hu List.not_mem_nil⟩

/-- A call that was given no id has the one that is made for it. -/
theorem Begun.switchId (h : t.Begun actions u r a) (hid : r.givenId = "") :
    u.2.call.request.switchId = r.ownId a.now := by
  rw [h.makes.switchId, hid, firstText, if_pos rfl]

/-- Two calls underway of one host are about different instances. -/
theorem Tended.names_ne (h : t.Tended) (hu : u ∈ t.underway) (hv : v ∈ t.underway) (hne : u ≠ v)
    (hhost : u.2.target.1 = v.2.target.1) : u.2.target.2 ≠ v.2.target.2 := fun hname =>
  hne (List.inj_on_of_nodup_map h.targets hu hv (Prod.ext hhost hname))

theorem Begun.target (h : t.Begun actions u r a) : u.2.target = r.target := by
  obtain ⟨before, rest, -, -, hbegin⟩ := h
  have hbeginning := Work.begin_beginning r a
  rw [hbegin] at hbeginning
  exact hbeginning.target

/-- Ids of switches, at every moment of every run. A call underway was opened by an action of the
run, and the row of its log has the id that its request has. If its caller gave none, it is made of
the host and of the instance or the time. Two calls underway of one host that were given none have
different ids, in their requests and in their rows, unless both replace a core and were opened at
the same time; then the ids are the same. -/
theorem switch_ids_of_calls_underway (rpc : RpcSettings) (now : Instant) (spareToken : String)
    (actions : List Action) :
    let first := start rpc now spareToken
    let t := first.after actions
    (∀ u ∈ t.underway, (∃ r a, first.Begun actions u r a) ∧
      (∀ row ∈ t.site.store.logs, row.id = u.2.call.log.id →
        row.switchId = u.2.call.request.switchId ∧ row.hostId = u.2.target.1) ∧
      (t.site.store.hasHost u.2.target.1 = true →
        ∃ row ∈ t.site.store.logs, row.id = u.2.call.log.id)) ∧
    (∀ u ∈ t.underway, ∀ r a, first.Begun actions u r a → r.givenId = "" →
      u.2.call.request.switchId = r.ownId a.now) ∧
    ∀ u ∈ t.underway, ∀ v ∈ t.underway, u ≠ v → u.2.target.1 = v.2.target.1 →
      ∀ r a q b, first.Begun actions u r a → first.Begun actions v q b →
        r.givenId = "" → q.givenId = "" →
        let same := r.replaces = true ∧ q.replaces = true ∧ a.now = b.now
        (u.2.call.request.switchId = v.2.call.request.switchId ↔ same) ∧
        ∀ x ∈ t.site.store.logs, ∀ y ∈ t.site.store.logs, x.id = u.2.call.log.id →
          y.id = v.2.call.log.id → (x.switchId = y.switchId ↔ same) := by
  intro first t
  have htended : t.Tended := tended rpc now spareToken actions
  have hrow : ∀ u ∈ t.underway, (∃ r a, first.Begun actions u r a) ∧
      (∀ row ∈ t.site.store.logs, row.id = u.2.call.log.id →
        row.switchId = u.2.call.request.switchId ∧ row.hostId = u.2.target.1) ∧
      (t.site.store.hasHost u.2.target.1 = true →
        ∃ row ∈ t.site.store.logs, row.id = u.2.call.log.id) := by
    intro u hu
    obtain ⟨r, a, hbegun⟩ := underway_begun rfl hu
    obtain ⟨hid, hhost⟩ := hbegun.makes.logged
    have htells := ((allLogged rpc now spareToken actions).logged u hu).tells
    have htarget : u.2.call.log.hostId = u.2.target.1 := by
      rw [hhost, hbegun.makes.host, hbegun.target]
    refine ⟨⟨r, a, hbegun⟩, fun row hrow hrid => ?_, fun hthere => ?_⟩
    · obtain ⟨h1, h2⟩ := htells.same row hrow hrid
      exact ⟨h1.trans hid, h2.trans htarget⟩
    · exact htells.there (htarget ▸ hthere)
  refine ⟨hrow, fun u _ r a hbegun hid => hbegun.switchId hid, ?_⟩
  intro u hu v hv hne hhost r a q b hr hq hrid hqid same
  have hrequests : u.2.call.request.switchId = v.2.call.request.switchId ↔ same := by
    rw [hr.switchId hrid, hq.switchId hqid]
    refine CallRequest.ownId_eq_iff ?_ ?_
    · rw [← hr.target, ← hq.target, hhost]
    · rw [← hr.target, ← hq.target]
      exact htended.names_ne hu hv hne hhost
  refine ⟨hrequests, fun x hx y hy hxid hyid => ?_⟩
  rw [((hrow u hu).2.1 x hx hxid).1, ((hrow v hv).2.1 y hy hyid).1]
  exact hrequests

/-- A switch that is given no id. -/
def unnamedSwitch (name : String) : CallRequest :=
  .replace ⟨"id-1", name, "xray", ⟨none, some "[]"⟩, none, [], false, none⟩

/-- A run in which two switches of a host are opened, the second one some time after the first. -/
def switchPair (later : Int) : List Action :=
  [.edit (.createHost ⟨"node", "10.0.0.1", "token", "", "", [], [], none⟩),
    .begin "a" (unnamedSwitch "main"), .tick ⟨later⟩, .begin "b" (unnamedSwitch "side")]

/-- Two switches of a host that are opened at the same time are given one id, in their requests and
in their rows. -/
theorem switches_at_once_share_their_id :
    let t := (start .standard ⟨0⟩ "token").after (switchPair 0)
    (∀ name, (unnamedSwitch name).givenId = "") ∧
      ∃ u ∈ t.underway, ∃ v ∈ t.underway, u ≠ v ∧ u.2.target.1 = v.2.target.1 ∧
        u.2.call.request.switchId = v.2.call.request.switchId ∧
        ∃ x ∈ t.site.store.logs, ∃ y ∈ t.site.store.logs, x.id = u.2.call.log.id ∧
          y.id = v.2.call.log.id ∧ x.id ≠ y.id ∧ x.switchId = y.switchId := by
  refine ⟨fun _ => rfl, ?_⟩
  decide +kernel

/-- A millisecond between them is enough. -/
theorem switch_ids_of_calls_underway_apart :
    let t := (start .standard ⟨0⟩ "token").after (switchPair 1)
    ∃ u ∈ t.underway, ∃ v ∈ t.underway, u ≠ v ∧ u.2.target.1 = v.2.target.1 ∧
      u.2.call.request.switchId ≠ v.2.call.request.switchId := by
  intro t
  have hpair : ∃ u ∈ t.underway, ∃ v ∈ t.underway, u ≠ v ∧ u.2.target.1 = v.2.target.1 ∧
      u.1 = "b" ∧ v.1 = "a" ∧
      ((Work.begin (unnamedSwitch "side")).runAt
        ((start .standard ⟨0⟩ "token").after ((switchPair 1).take 3)).site).1 = .ok u.2 ∧
      ((Work.begin (unnamedSwitch "main")).runAt
        ((start .standard ⟨0⟩ "token").after ((switchPair 1).take 1)).site).1 = .ok v.2 := by
    decide +kernel
  obtain ⟨u, hu, v, hv, hne, hhost, hulabel, hvlabel, hubegin, hvbegin⟩ := hpair
  refine ⟨u, hu, v, hv, hne, hhost, fun heq => ?_⟩
  have hsame := ((switch_ids_of_calls_underway .standard ⟨0⟩ "token" (switchPair 1)).2.2
    u hu v hv hne hhost _ _ _ _ ⟨_, [], by rw [hulabel]; rfl, rfl, hubegin⟩
    ⟨_, (switchPair 1).drop 2, by rw [hvlabel]; rfl, rfl, hvbegin⟩ rfl rfl).1.1 heq
  exact absurd hsame.2.2 (by decide +kernel)

end Traffic

end ProxyFleet
