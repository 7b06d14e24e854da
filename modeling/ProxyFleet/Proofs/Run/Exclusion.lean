import ProxyFleet.Proofs.Run.Underway

/-!
# Calls that keep out of each other's way

A call underway keeps others of the same host and instance out, and no others:
the key of a lock tells hosts and instances apart, because no id of a host has a
colon in it. So the table of locks can be read as a table of hosts and instances,
and says of each whether a call is underway.
-/

namespace ProxyFleet

/-! ## Keys -/

/-- Before a mark that does not occur in them, two texts are told apart. -/
theorem append_mark_inj {mark : Char} : ∀ {xs ys us vs : List Char}, mark ∉ xs → mark ∉ ys →
    xs ++ mark :: us = ys ++ mark :: vs → xs = ys ∧ us = vs
  | [], [], _, _, _, _, h => by simpa using h
  | [], y :: ys, _, _, _, hy, h => by
      injection h with hhead
      exact absurd List.mem_cons_self (hhead ▸ hy)
  | x :: xs, [], _, _, hx, _, h => by
      injection h with hhead
      exact absurd List.mem_cons_self (hhead ▸ hx)
  | x :: xs, y :: ys, us, vs, hx, hy, h => by
      injection h with hhead htail
      obtain ⟨heq, hrest⟩ := append_mark_inj (fun hm => hx (List.mem_cons_of_mem _ hm))
        (fun hm => hy (List.mem_cons_of_mem _ hm)) htail
      exact ⟨by rw [hhead, heq], hrest⟩

theorem Work.colon_notMem_idOf (k : Nat) : ':' ∉ (Work.idOf k).toList := by
  intro hmem
  have hlist : (Work.idOf k).toList = ['i', 'd', '-'] ++ Nat.toDigits 10 k := by
    simp [Work.idOf]
  rw [hlist, List.mem_append] at hmem
  rcases hmem with hmem | hmem
  · exact absurd hmem (by decide)
  · have hdigit := Nat.isDigit_of_mem_toDigits (by decide) (by decide) hmem
    exact absurd hdigit (by decide)

/-- Keys of hosts on record tell hosts and instances apart. -/
theorem instanceKey_inj {j k : Nat} {i i' : String}
    (h : instanceKey (Work.idOf j) i = instanceKey (Work.idOf k) i') : j = k ∧ i = i' := by
  have hlist : (Work.idOf j).toList ++ ':' :: i.toList = (Work.idOf k).toList ++ ':' :: i'.toList := by
    have hkeys := congrArg String.toList h
    simpa [instanceKey] using hkeys
  obtain ⟨hhost, hname⟩ :=
    append_mark_inj (Work.colon_notMem_idOf j) (Work.colon_notMem_idOf k) hlist
  exact ⟨Work.idOf_inj.1 (String.toList_inj.1 hhost), String.toList_inj.1 hname⟩

/-- A conflict with a call underway. -/
def Conflict.IsBusy : Conflict → Prop
  | .instanceBusy .. | .switchRunning .. => True
  | _ => False

theorem Store.instanceNamed?_ok {s : Store} {hostId name : String} {i : CoreInstance}
    (h : s.instanceNamed? hostId name = some i) : ∃ row ∈ s.instances, row.hostId = hostId := by
  obtain ⟨row, hrow, -⟩ := Option.map_eq_some_iff.1 h
  have hmatch := List.find?_some hrow
  simp only [Bool.and_eq_true, beq_iff_eq] at hmatch
  exact ⟨row, List.mem_of_find?_eq_some hrow, hmatch.1⟩

namespace Work

variable {a b : Site} {r : CallRequest} {k : CheckedCall}

/-- A call underway is about what was asked for. -/
theorem Beginning.target {p : Pending} (h : Beginning r a (.ok p) b) : p.target = r.target := by
  cases h with
  | sent hcheck _ _ htarget => rw [htarget, check_target hcheck]

/-- A call turned away as busy found its key taken. -/
theorem Beginning.busy {c : Conflict} (h : Beginning r a (.error (.failure (.conflict c))) b)
    (hc : c.IsBusy) :
    a.desk.locks.isHeld (instanceKey r.target.1 r.target.2) = true ∧
      ∃ g ∈ a.store.hosts, g.id = r.target.1 := by
  cases h with
  | refused hcheck => exact (check_breaks r _ _ _ hcheck).elim
  | present => exact hc.elim
  | failed hcheck hopening =>
      have hchecked := Within.check r a
      rw [hcheck] at hchecked
      obtain ⟨g, hg, hgid⟩ := check_host hcheck
      rw [← check_target hcheck]
      cases hopening with
      | taken hheld =>
          rw [hchecked.desk] at hheld
          exact ⟨hheld, g, hg, hgid⟩

/-- Whose key is taken is turned away with a conflict. -/
theorem begin_taken (hcheck : ((check r).runAt a).1 = .ok k)
    (hheld : a.desk.locks.isHeld (instanceKey k.host.id k.instanceId) = true) :
    ∃ c, ((begin r).runAt a).1 = .error (.failure (.conflict c)) := by
  have hrun : (check r).runAt a = (.ok k, ((check r).runAt a).2) := Prod.ext hcheck rfl
  have hchecked := Within.check r a
  rw [← hchecked.desk] at hheld
  have hbegin := begin_beginning r a
  generalize ((begin r).runAt a).1 = result at hbegin ⊢
  generalize ((begin r).runAt a).2 = b at hbegin
  cases hbegin with
  | refused hrefused => cases hrun.symm.trans hrefused
  | present => exact ⟨_, rfl⟩
  | failed hfailed hopening =>
      cases hrun.symm.trans hfailed
      cases hopening with
      | taken => exact ⟨_, rfl⟩
      | barred hfree =>
          rw [hheld] at hfree
          cases hfree
      | unlogged hfree =>
          rw [hheld] at hfree
          cases hfree
  | sent hsent hopening =>
      cases hrun.symm.trans hsent
      cases hopening with
      | sent hfree =>
          rw [hheld] at hfree
          cases hfree

/-- An instance on record whose key is taken stays on record. -/
theorem deleteInstance_busy {hostId instanceId : String} {i : CoreInstance}
    (hname : trim instanceId ≠ "")
    (hi : a.store.instanceNamed? hostId (trim instanceId) = some i)
    (hheld : a.desk.locks.isHeld (instanceKey hostId (trim instanceId)) = true) :
    (deleteInstance hostId instanceId).runAt a =
      (.error (.failure (.conflict (.instanceBusy (trim instanceId) hostId))), a) := by
  rw [deleteInstance, if_neg hname, runAt_bind_of_ok (runAt_ask _ _)]
  dsimp only
  rw [hi, runAt_bind_of_ok (runAt_get a), if_pos hheld]
  rfl

/-- A removal that breaks off was refused by the store. -/
theorem remove_refused (f : Store → Except StoreError (Store × Bool)) (a : Site) {g : Failure} :
    (remove f).runAt a ≠ (.error (.failure g), b) := by
  intro h
  simp only [remove, write, runAt_bind, runAt_get] at h
  cases hf : f a.store with
  | error e =>
      rw [hf] at h
      cases h
  | ok r =>
      rw [hf] at h
      cases h

/-- Only a taken key keeps an instance on record. -/
theorem deleteInstance_conflict {hostId instanceId : String} {c : Conflict}
    (hconflict : ((deleteInstance hostId instanceId).runAt a).1 =
      .error (.failure (.conflict c))) :
    a.desk.locks.isHeld (instanceKey hostId (trim instanceId)) = true ∧
      ∃ row ∈ a.store.instances, row.hostId = hostId := by
  have h : (deleteInstance hostId instanceId).runAt a = (.error (.failure (.conflict c)), _) :=
    Prod.ext hconflict rfl
  rw [deleteInstance] at h
  by_cases hname : trim instanceId = ""
  · rw [if_pos hname] at h
    cases h
  rw [if_neg hname, runAt_bind_of_ok (runAt_ask _ _)] at h
  dsimp only at h
  cases hi : a.store.instanceNamed? hostId (trim instanceId) with
  | none =>
      rw [hi] at h
      cases h
  | some i =>
      rw [hi, runAt_bind_of_ok (runAt_get a)] at h
      cases hheld : a.desk.locks.isHeld (instanceKey hostId (trim instanceId)) with
      | true => exact ⟨rfl, Store.instanceNamed?_ok hi⟩
      | false =>
          rw [hheld, if_neg (by decide)] at h
          rcases runAt_bind_error h with hremove | ⟨_, _, _, hpure⟩
          · exact absurd hremove (remove_refused _ _)
          · cases hpure

end Work

namespace Traffic

variable {t : Traffic}

/-- A call about a host and an instance is underway. -/
def Busy (t : Traffic) (target : String × String) : Prop := ∃ u ∈ t.underway, u.2.target = target

/-- A call underway keeps its key. -/
theorem Tended.isHeld (h : t.Tended) {u : String × Pending} (hu : u ∈ t.underway) :
    t.site.desk.locks.isHeld (instanceKey u.2.target.1 u.2.target.2) = true :=
  Locks.isHeld_eq_true.2 ⟨u.2.call.claim, h.held.mem_iff.2 (List.mem_map.2 ⟨u, hu, rfl⟩),
    (h.waiting u hu).key⟩

/-- A key of a host on record is taken by a call about this very host and instance. -/
theorem Tended.busy (h : t.Tended) {host name : String} (hhost : t.site.store.hasHost host = true)
    (hheld : t.site.desk.locks.isHeld (instanceKey host name) = true) : t.Busy (host, name) := by
  obtain ⟨c, hc, hkey⟩ := Locks.isHeld_eq_true.1 hheld
  obtain ⟨u, hu, rfl⟩ := List.mem_map.1 (h.held.mem_iff.1 hc)
  -- both hosts have ids that were given out, so that equal keys mean equal targets
  obtain ⟨j, hj⟩ := (h.waiting u hu).host
  obtain ⟨k, -, hk⟩ := h.store.hasHost_id hhost
  rw [(h.waiting u hu).key, hj, hk] at hkey
  obtain ⟨hjk, hname⟩ := instanceKey_inj hkey
  exact ⟨u, hu, Prod.ext (by rw [hj, hk, hjk]) hname⟩

theorem hasHost_of_mem {g : HostRow} (hg : g ∈ t.site.store.hosts) {host : String}
    (hid : g.id = host) : t.site.store.hasHost host = true :=
  List.any_eq_true.2 ⟨g, hg, by simpa using hid⟩

/-- Calls underway are about different hosts or instances. -/
theorem Tended.targets (h : t.Tended) : (t.underway.map (·.2.target)).Nodup := by
  refine List.Nodup.of_map (fun target => instanceKey target.1 target.2) ?_
  have hkeys : (t.underway.map (·.2.target)).map (fun target => instanceKey target.1 target.2) =
      t.claims.map Claim.key := by
    rw [claims, List.map_map, List.map_map]
    exact List.map_congr_left fun u hu => ((h.waiting u hu).key).symm
  rw [hkeys]
  exact h.keys

/-- Exclusion, at every moment of every run: no two calls underway are about the same host and
instance, and each has its key locked; a call with good input whose key is taken, and the removal
of a recorded instance whose key is taken, fail with a conflict; whoever is turned away as busy
is so by a call underway about the same host and instance; and when no call is underway, no key is
taken and every client that was opened has been closed once and for all. -/
theorem calls_exclude_each_other (rpc : RpcSettings) (now : Instant) (spareToken : String)
    (actions : List Action) :
    let t := (start rpc now spareToken).after actions
    (t.underway.map (·.2.target)).Nodup ∧
    (∀ u ∈ t.underway,
      t.site.desk.locks.isHeld (instanceKey u.2.target.1 u.2.target.2) = true) ∧
    (∀ label r p, (t.begin label r).1 = .ok p → p.target = r.target) ∧
    (∀ label r k, ((Work.check r).runAt t.site).1 = .ok k →
      t.site.desk.locks.isHeld (instanceKey k.host.id k.instanceId) = true →
      ∃ c, (t.begin label r).1 = .error (.failure (.conflict c))) ∧
    (∀ hostId instanceId i, trim instanceId ≠ "" →
      t.site.store.instanceNamed? hostId (trim instanceId) = some i →
      t.site.desk.locks.isHeld (instanceKey hostId (trim instanceId)) = true →
      (t.run (Work.deleteInstance hostId instanceId)).1 =
        .error (.failure (.conflict (.instanceBusy (trim instanceId) hostId)))) ∧
    (∀ label r c, (t.begin label r).1 = .error (.failure (.conflict c)) → c.IsBusy →
      t.Busy r.target) ∧
    (∀ hostId instanceId c,
      (t.run (Work.deleteInstance hostId instanceId)).1 = .error (.failure (.conflict c)) →
      t.Busy (hostId, trim instanceId)) ∧
    (t.underway = [] → t.site.desk.locks.held = [] ∧
      (∀ n < t.site.opened, AgentEvent.Finished n (t.site.dealings n)) ∧
      ∀ n, t.site.opened ≤ n → t.site.dealings n = []) := by
  intro t
  have h : t.Tended := tended rpc now spareToken actions
  refine ⟨h.targets, fun u hu => h.isHeld hu, fun label r p hp => ?_,
    fun label r k hcheck hheld => ?_, fun hostId instanceId i hname hi hheld => ?_,
    fun label r c hbegin hc => ?_, fun hostId instanceId c hdelete => ?_, fun hnone => ?_⟩
  · obtain ⟨b, hbeginning, -⟩ := begin_ok hp
    exact hbeginning.target
  · rw [begin_fst]
    exact Work.begin_taken hcheck hheld
  · rw [run_fst, Work.deleteInstance_busy hname hi hheld]
  · obtain ⟨b, hbeginning, -⟩ := begin_error hbegin
    obtain ⟨hheld, g, hg, hgid⟩ := hbeginning.busy hc
    exact h.busy (hasHost_of_mem hg hgid) hheld
  · rw [run_fst] at hdelete
    obtain ⟨hheld, row, hrow, rfl⟩ := Work.deleteInstance_conflict hdelete
    exact h.busy (Store.hasHost_of_instance h.store.rules hrow) hheld
  · have hclaims : t.claims = [] := by rw [claims, hnone]; rfl
    have hclients : t.clients = [] := by rw [clients, hnone]; rfl
    refine ⟨List.perm_nil.1 (hclaims ▸ h.held), fun n hn => ?_, h.unused⟩
    exact h.finished n hn (by rw [hclients]; exact List.not_mem_nil)

/-- Blanks about a name make it no other instance, and other instances are not kept out. -/
example :
    let host : NewHost := ⟨"edge", "10.0.0.1", "token", "xray", "1.8.0", [], [], none⟩
    let call (name : String) : CallRequest :=
      .start ⟨Work.idOf 1, "xray", name, ⟨none, some "[]"⟩, none⟩
    let t := (start .standard ⟨0⟩ "token").after
      [.edit (.createHost host), .begin "first" (call "main")]
    t.underway.map (·.2.target) = [(Work.idOf 1, "main")] ∧
      (t.begin "second" (call " main ")).1.toOption.isNone = true ∧
      (t.begin "third" (call "side")).1.toOption.isSome = true := by
  decide +kernel

end Traffic

end ProxyFleet
