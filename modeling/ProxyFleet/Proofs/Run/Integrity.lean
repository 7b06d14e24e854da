import ProxyFleet.Proofs.Call.Settling
import ProxyFleet.Proofs.Run.Store
import ProxyFleet.Proofs.Store.Admitted

/-!
# The tables over a run

Whoever writes, and in whatever order, what one table says of another stays true: no two
instances of a host have one name, no two users one uuid, and every reference leads to a row
or is empty. An edit that is refused leaves all tables as they were; a host goes with just
what belongs to it, and a template that goes is only taken from where it was assigned.

Over a run the first of this is an invariant (`Traffic.orderly`). The rest is said of the
next edit, at any moment of the run, by what the edit does to the store it finds.
-/

namespace ProxyFleet

namespace Work

variable {a : Site} {e : Edit}

/-- An edit that puts no row in does not look at the id. -/
theorem edit_anyId (he : e.isNew = false) (s : Store) (id other : String) (now : Instant) :
    s.edit e id now = s.edit e other now := by
  cases e with
  | createHost | createTemplate | createServer | createUser | createInstance | createLog =>
      exact absurd he.symm Bool.false_ne_true
  | _ => rfl

/-- Work that makes an edit leaves what the edit makes of the store, or the store as it was. -/
theorem runAt_edit (e : Edit) (a : Site) :
    (∃ s, a.store.edit e (idOf (a.issued + 1)) a.now = .ok s ∧
      ((Work.edit e).runAt a).1 = .ok () ∧ ((Work.edit e).runAt a).2.store = s) ∨
    ∃ err, a.store.edit e (idOf (a.issued + 1)) a.now = .error err ∧
      ((Work.edit e).runAt a).1 = .error (.refused err) ∧
      ((Work.edit e).runAt a).2.store = a.store := by
  unfold Work.edit
  split
  · cases h : a.store.edit e (idOf (a.issued + 1)) a.now with
    | ok s =>
        rw [runAt_create_ok (congrArg (Except.map ((), ·)) h)]
        exact Or.inl ⟨s, rfl, rfl, rfl⟩
    | error err =>
        rw [runAt_create_error (congrArg (Except.map ((), ·)) h)]
        exact Or.inr ⟨err, rfl, rfl, rfl⟩
  · next hold =>
    rw [edit_anyId (Bool.eq_false_iff.2 hold) _ _ ""]
    cases h : a.store.edit e "" a.now with
    | ok s =>
        rw [runAt_write_ok (congrArg (Except.map ((), ·)) h)]
        exact Or.inl ⟨s, rfl, rfl, rfl⟩
    | error err =>
        rw [runAt_write_error (congrArg (Except.map ((), ·)) h)]
        exact Or.inr ⟨err, rfl, rfl, rfl⟩

end Work

namespace Traffic

variable {t : Traffic} {e : Edit}

/-- The store after an edit that is made next. -/
def edited (t : Traffic) (e : Edit) : Store := (t.act (.edit e)).site.store

theorem edited_of_ok (h : (t.run (Work.edit e)).1 = .ok ()) :
    t.site.store.edit e (Work.idOf (t.site.issued + 1)) t.site.now = .ok (t.edited e) := by
  rcases Work.runAt_edit e t.site with ⟨s, hs, -, hstore⟩ | ⟨err, -, herror, -⟩
  · exact hs.trans (congrArg Except.ok hstore.symm)
  · cases h.symm.trans herror

theorem edited_of_error {p : Problem} (h : (t.run (Work.edit e)).1 = .error p) :
    t.edited e = t.site.store := by
  rcases Work.runAt_edit e t.site with ⟨s, -, hok, -⟩ | ⟨err, -, -, hstore⟩
  · cases h.symm.trans hok
  · exact hstore

theorem run_edit_isOk :
    (t.run (Work.edit e)).1.isOk =
      (t.site.store.edit e (Work.idOf (t.site.issued + 1)) t.site.now).isOk := by
  rw [run_fst]
  rcases Work.runAt_edit e t.site with ⟨s, hs, hok, -⟩ | ⟨err, hs, herror, -⟩
  · rw [hs, hok]
    rfl
  · rw [hs, herror]
    rfl

/-- At every moment of every run the rules of the tables hold; and of the edit that is made next,
whichever it is: if it is refused, all tables stay as they are; a host goes with its servers,
instances and logs and with nothing else; a template goes and is taken from the hosts and instances
it was assigned to, and nothing else changes; and where no write fails, it goes through just if the
tables admit it. -/
theorem tables_keep_rules (rpc : RpcSettings) (now : Instant) (spareToken : String)
    (actions : List Action) :
    let t := (start rpc now spareToken).after actions
    t.site.store.Rules ∧
    (∀ e p, (t.run (Work.edit e)).1 = .error p → t.edited e = t.site.store) ∧
    (∀ host, (t.run (Work.edit (.removeHost host))).1 = .ok () →
      t.edited (.removeHost host) = t.site.store.withoutHost host) ∧
    (∀ template, (t.run (Work.edit (.removeTemplate template))).1 = .ok () →
      t.edited (.removeTemplate template) = t.site.store.withoutTemplate template) ∧
    (t.site.store.faults = [] → ∀ e, (t.run (Work.edit e)).1.isOk = true ↔
      t.site.store.Admits (Work.idOf (t.site.issued + 1)) e) := by
  intro t
  have horderly : t.StoreOrderly := orderly rpc now spareToken actions
  have hrules : t.site.store.Rules := Store.broken?_eq_none.1 horderly.rules
  refine ⟨hrules, fun e p => edited_of_error, fun host hok => ?_, fun template hok => ?_,
    fun hfaults e => ?_⟩
  · obtain ⟨r, hr, hstore⟩ := Store.map_ok (edited_of_ok hok)
    exact hstore.symm.trans (Store.removeHost_eq hrules horderly.faults hr)
  · obtain ⟨r, hr, hstore⟩ := Store.map_ok (edited_of_ok hok)
    exact hstore.symm.trans (Store.removeTemplate_eq hrules horderly.faults hr)
  · rw [run_edit_isOk]
    exact Store.edit_isOk hrules hfaults horderly.presets _ _ e

/-- A host with a server, an instance and a log, beside one that has nothing but the same template,
and a user. -/
def peopledRun : List Action :=
  [.edit (.createTemplate ⟨"plain", "xray", "\x7b\x7d", "", "", [], 1, true, ""⟩),
    .edit (.createHost ⟨"node", "10.0.0.1", "token", "", "", [], [], some "id-1"⟩),
    .edit (.createHost ⟨"other", "10.0.0.2", "token", "", "", [], [], some "id-1"⟩),
    .edit (.createServer ⟨"id-2", none, "entry", []⟩),
    .edit (.createInstance ⟨"id-2", "main", "xray", "running", some "id-1", "", [], none, ""⟩),
    .edit (.createLog ⟨"id-2", "switch", none, none, none, "xray", "", none⟩),
    .edit (.createUser ⟨"uuid", "", none, true, none⟩)]

theorem tables_keep_rules_peopled :
    let t := (start .standard ⟨0⟩ "token").after peopledRun
    t.site.store.Rules ∧
    t.edited (.createUser ⟨"uuid", "", none, false, none⟩) = t.site.store ∧
    t.edited (.removeHost "id-2") = t.site.store.withoutHost "id-2" ∧
    (t.site.store.withoutHost "id-2").hosts.map HostRow.id = ["id-3"] ∧
    t.edited (.removeTemplate "id-1") = t.site.store.withoutTemplate "id-1" ∧
    (t.site.store.withoutTemplate "id-1").hosts.map HostRow.templateId = [none, none] ∧
    t.site.store.Admits (Work.idOf (t.site.issued + 1))
      (.createServer ⟨"id-3", none, "exit", []⟩) := by
  intro t
  obtain ⟨hrules, hrefused, hhost, htemplate, hadmits⟩ :=
    tables_keep_rules .standard ⟨0⟩ "token" peopledRun
  have hrepeated : (t.run (Work.edit (.createUser ⟨"uuid", "", none, false, none⟩))).1 =
      .error (.refused (.repeated .users ["uuid"])) := by decide +kernel
  exact ⟨hrules, hrefused _ _ hrepeated, hhost "id-2" (by decide +kernel), by decide +kernel,
    htemplate "id-1" (by decide +kernel), by decide +kernel,
    (hadmits (by decide +kernel) (.createServer ⟨"id-3", none, "exit", []⟩)).1 (by decide +kernel)⟩

end Traffic

end ProxyFleet
