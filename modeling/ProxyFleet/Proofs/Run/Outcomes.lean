import ProxyFleet.Proofs.Run.Refusals
import ProxyFleet.Proofs.Run.Underway

/-!
# What becomes of calls

From the pending log on, a call tells what became of it, whatever the agent does
and whichever writes fail from then on. One request is sent over its client, and
the client is closed behind it. A switch gives an outcome that names the log; the
log says the same as the outcome, or else the outcome admits that it may not. A
first start gives the instance, or names in its failure what went wrong.
-/

namespace ProxyFleet

namespace Work

variable {a b : Site} {r : CallRequest} {p : Pending}

/-- A call that does not come about leaves the store as it was. -/
theorem Beginning.store {q : Problem} (h : Beginning r a (.error q) b) : b.store = a.store := by
  cases h with
  | refused hcheck => exact (check_result_unmoved hcheck).store
  | present _ hcheck => exact (check_result_unmoved hcheck).store
  | failed hcheck hopening =>
      rw [← (check_result_unmoved hcheck).store]
      cases hopening <;> rfl

/-- The log of a call that comes about is in the store, and has not come to an end. -/
theorem Beginning.logged (ha : a.store.Orderly a.issued) (h : Beginning r a (.ok p) b) :
    ∃ l, b.store.log? p.call.log.id = some l ∧ l.status.isFinal = false := by
  cases h with
  | @sent k m _ new request c _ hcheck hopening hcall _ =>
      have hchecked := Within.check r a
      rw [hcheck] at hchecked
      have hm : m.store.Orderly m.issued := ha.edited hchecked.issued hchecked.store
      rw [hcall]
      cases hopening with
      | @sent log s n warnings _ _ hlog hmarked =>
          -- the row was put in as pending, and marking it in progress is no end
          obtain ⟨hid, row, hrow, hrid, hpending⟩ := Store.createLog_written hm hlog
          have hs : s.Orderly (m.issued + 1) := (hm.mono (Nat.le_succ _)).edit
            (e := .createLog new) (fun _ => ⟨_, Nat.le_refl _, rfl⟩) (map_snd_ok hlog)
          obtain ⟨row', hrow', hrid', hopen⟩ := hs.open_log hmarked.issued hmarked.store
            ⟨row, hrow, hrid.trans hid.symm, by rw [hpending]; rfl⟩
          have hn : n.store.Orderly n.issued := hs.edited hmarked.issued hmarked.store
          refine ⟨row'.toLog, ?_, hopen⟩
          exact congrArg (Option.map SwitchLogRow.toLog)
            ((Store.find_log hn.rules).2 ⟨hrow', hrid'⟩)

end Work

namespace Traffic

/-- What a call that is settled at a site must give, and what must be on record then. Once the end
of its log has been written, or has not, a first start puts in the row of its instance, and fails
just if the store refuses this row. -/
def Accounted (a : Site) (p : Pending) (e : CallEnd) (result : Except Problem CallResult)
    (s : Store) : Prop :=
  match p with
  | .replace c _ => ∃ o : SwitchOutcome, result = .ok (.switched o) ∧ o.logId = c.log.id ∧
      o.success = e.succeeded ∧
      Work.Ending c.log (if o.success then .completed else .failed) s ⟨o.completedAt, o.warnings⟩
  | .start c instanceId =>
      (e.succeeded = false → result = .error (.failure
        (.agent ("create instance failed: " ++ e.reason) (some c.log.id)))) ∧
      ∀ reply, e.result = .ok reply → reply.success = true →
        let logged := ((Work.finishLog c.log .completed reply.message none).runAt a).2
        ∃ recorded, Work.Recording c instanceId logged recorded s ∧
          result = recorded.map .started

theorem settle_accounted {a : Site} (ha : a.store.Orderly a.issued) (p : Pending) (e : CallEnd) :
    Accounted a p e ((Work.settle p e).runAt a).1 ((Work.settle p e).runAt a).2.store := by
  cases p with
  | start c instanceId =>
      obtain ⟨result, b, hrun, hfailed, hdone⟩ := Work.settleStart_result c instanceId e ha
      have hsettle : (Work.settle (.start c instanceId) e).runAt a =
          (result.map .started, b.hungUp c) := by
        rw [Work.settle, Work.runAt_bind, hrun]
        cases result <;> rfl
      rw [hsettle]
      refine ⟨fun hsucceeded => ?_, fun reply hreply hsuccess =>
        ⟨result, hdone reply hreply hsuccess, rfl⟩⟩
      rw [hfailed hsucceeded]
      rfl
  | replace c previous =>
      obtain ⟨o, b, hrun, hid, hsuccess, hending⟩ := Work.settleSwitch_ok c previous e ha
      have hsettle : (Work.settle (.replace c previous) e).runAt a =
          (.ok (.switched o), b.hungUp c) := Work.runAt_bind_of_ok hrun
      rw [hsettle]
      exact ⟨o, rfl, hid, hsuccess, hending⟩

/-- Calls at every moment of every run: one that does not come about leaves no row; one that comes
about has its log on record and has sent its one request; and settled with any end, it accounts
for it, with nothing more sent over its client than the close. -/
theorem calls_account_for_their_end (rpc : RpcSettings) (now : Instant) (spareToken : String)
    (actions : List Action) (label : String) :
    let t := (start rpc now spareToken).after actions
    (∀ r q, (t.begin label r).1 = .error q → (t.begin label r).2.site.store = t.site.store) ∧
    (∀ r p, (t.begin label r).1 = .ok p →
      let u := (t.begin label r).2
      u.underway.lookup label = some p ∧
      (∃ l, u.site.store.log? p.call.log.id = some l ∧ l.status.isFinal = false) ∧
      ∃ connection, u.site.dealings p.call.client =
        [.connect p.call.client connection, .switchCore p.call.client p.call.request]) ∧
    ∀ p e, t.underway.lookup label = some p →
      let u := (t.settle label e).2
      (∃ result, (t.settle label e).1 = some result ∧ Accounted t.site p e result u.site.store) ∧
      ∃ connection, u.site.dealings p.call.client =
        [.connect p.call.client connection, .switchCore p.call.client p.call.request,
          .close p.call.client] := by
  intro t
  have h : t.Tended := tended rpc now spareToken actions
  refine ⟨fun r q hbegin => ?_, fun r p hbegin => ?_, fun p e hlookup => ?_⟩
  · obtain ⟨b, hbeginning, ht⟩ := begin_error hbegin
    rw [ht]
    exact hbeginning.store
  · obtain ⟨b, hbeginning, ht⟩ := begin_ok hbegin
    rw [ht]
    obtain ⟨hsent, -⟩ := hbeginning.opened
    obtain ⟨connection, hmine⟩ := hsent.mine
    refine ⟨List.lookup_cons_self, hbeginning.logged h.store, connection, ?_⟩
    rw [h.unused _ (Nat.le_refl _), ← hsent.client] at hmine
    exact hmine
  · have hresult : (t.settle label e) = (some ((Work.settle p e).runAt t.site).1,
        { site := ((Work.settle p e).runAt t.site).2,
          underway := t.underway.filter (·.1 != label) }) := by
      simp only [Traffic.settle, hlookup, run]
    have hmem : (label, p) ∈ t.underway :=
      (perm_of_lookup h.labels hlookup).mem_iff.2 List.mem_cons_self
    obtain ⟨connection, hasked⟩ := (h.waiting _ hmem).asked
    rw [hresult]
    refine ⟨⟨_, rfl, settle_accounted h.store p e⟩, connection, ?_⟩
    have hclosed := (Work.settle_hungUp p e t.site).mine
    dsimp only at hasked
    rw [hasked] at hclosed
    exact hclosed

/-- The end of a log that cannot be written is no failure: the outcome has a warning and no time. -/
example :
    let host : NewHost := ⟨"edge", "10.0.0.1", "token", "xray", "1.8.0", [], [], none⟩
    let t := (start .standard ⟨0⟩ "token").after
      [.edit (.createHost host),
        .begin "a" (.replace
          ⟨Work.idOf 1, "main", "xray", ⟨none, some "[]"⟩, none, [], false, none⟩),
        .breakWrites .switchLogs .update none "disk full"]
    (t.settle "a" (.givenUp "enough")).1 = some (.ok (.switched
      ⟨false, "", "", "switch cancelled: enough", Work.idOf 2, "main", "xray",
        ["failed to mark switch log failed: disk full"], none⟩)) := by
  decide +kernel

end Traffic

end ProxyFleet
