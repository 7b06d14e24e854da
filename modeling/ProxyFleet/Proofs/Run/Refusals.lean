import ProxyFleet.Proofs.Call.Settling
import ProxyFleet.Proofs.Run.Store

/-!
# Calls that do not come about

A call fails for what was asked for, or for a conflict, only before anything was
done about it: nothing was written, no client opened and no lock taken. Once a
call is underway it cannot fail for such a reason any more.

Between the two stands the pending log. If it cannot be written the client is
open already and the lock taken, and both are put back.
-/

namespace ProxyFleet

/-- Failures for what was asked for, or for a conflict. -/
def Failure.IsRefusal : Failure → Prop
  | .invalid _ | .missing _ | .incompatible .. | .template .. | .conflict _ => True
  | _ => False

/-- A site where nothing was written, no client was opened, nothing was sent and no lock was taken
or given back. -/
structure Site.Unmoved (a b : Site) : Prop where
  store : b.store = a.store
  opened : b.opened = a.opened
  events : b.events = a.events
  desk : b.desk = a.desk

/-- A site where a client was opened and closed again, and a lock taken and given back. -/
structure Site.Withdrawn (a b : Site) : Prop where
  store : b.store = a.store
  opened : b.opened = a.opened + 1
  events : ∃ c, b.events = a.events ++ [.connect a.opened c, .close a.opened]
  held : b.desk.locks.held = a.desk.locks.held

namespace Work

variable {r : CallRequest} {a b m : Site} {k : CheckedCall}

theorem check_unmoved (r : CallRequest) (a : Site) : a.Unmoved ((check r).runAt a).2 := by
  have hchecked := Within.check r a
  exact ⟨hchecked.store.eq_of_none, hchecked.opened, hchecked.events, hchecked.desk⟩

theorem check_result_unmoved {result : Except Problem CheckedCall}
    (h : (check r).runAt a = (result, b)) : a.Unmoved b := by
  have hunmoved := check_unmoved r a
  rwa [h] at hunmoved

/-- A call that fails in the words of a failure was refused before anything was done. -/
theorem Beginning.unmoved {f : Failure} (h : Beginning r a (.error (.failure f)) b) :
    a.Unmoved b := by
  cases h with
  | refused hcheck => exact check_result_unmoved hcheck
  | present _ hcheck => exact check_result_unmoved hcheck
  | failed hcheck hopening =>
      cases hopening with
      | taken => exact check_result_unmoved hcheck

/-- A write that is refused is that of the pending log. -/
theorem Beginning.withdrawn {e : StoreError} (h : Beginning r a (.error (.refused e)) b) :
    a.Withdrawn b := by
  cases h with
  | refused hcheck => exact (check_breaks r _ _ _ hcheck).elim
  | @failed k m _ _ _ _ hcheck hopening =>
      obtain ⟨hstore, hopened, hevents, hdesk⟩ := check_result_unmoved hcheck
      cases hopening with
      | unlogged hheld hbarrier hlog =>
          refine ⟨hstore, congrArg (· + 1) hopened,
            ⟨m.desk.connection k.host, ?_⟩, ?_⟩
          · change (_ ++ [_]) ++ [_] = _
            rw [hevents, hopened, List.append_assoc]
            rfl
          · change Locks.held (Locks.passed _) = _
            rw [hdesk]
            rfl

/-- Where no pending log can be written, no call comes about. -/
theorem begin_unlogged {text : String} (hcheck : (check r).runAt a = (.ok k, m))
    (hnew : ∀ s, r = .start s → (a.store.instanceNamed? k.host.id k.instanceId).isSome = false)
    (hfree : a.desk.locks.isHeld (instanceKey k.host.id k.instanceId) = false)
    (hbarrier : a.desk.barrier = none)
    (hfault : permit a.store.faults .switchLogs .insert (some SwitchStatus.pending.name)
      = .fail text) :
    ((begin r).runAt a).1 = .error (.refused (.raised text)) := by
  have hm := check_result_unmoved hcheck
  rw [← hm.desk] at hfree hbarrier
  rw [← hm.store] at hfault hnew
  have hbegin := begin_beginning r a
  generalize ((begin r).runAt a).1 = result at hbegin ⊢
  generalize ((begin r).runAt a).2 = b at hbegin
  cases hbegin with
  | refused hcheck' => cases hcheck.symm.trans hcheck'
  | present hstart hcheck' hthere =>
      cases hcheck.symm.trans hcheck'
      rw [hnew _ hstart] at hthere
      cases hthere
  | failed hcheck' hopening =>
      cases hcheck.symm.trans hcheck'
      cases hopening with
      | taken hheld =>
          rw [hfree] at hheld
          cases hheld
      | barred _ hbarred =>
          rw [hbarrier] at hbarred
          cases hbarred
      | unlogged _ _ hlog =>
          rw [Store.createLog_of_fail _ hfault] at hlog
          cases hlog
          rfl
  | sent hcheck' hopening =>
      cases hcheck.symm.trans hcheck'
      cases hopening with
      | sent _ _ hlog =>
          rw [Store.createLog_of_fail _ hfault] at hlog
          cases hlog

/-- A call underway fails only for the agent, or because an instance could not be recorded. -/
theorem settle_no_refusal (p : Pending) (e : CallEnd) (ha : a.store.Orderly a.issued)
    {f : Failure} (h : ((settle p e).runAt a).1 = .error (.failure f)) : ¬f.IsRefusal := by
  cases p with
  | start c instanceId =>
      obtain ⟨result, b, hrun, hfailed, hdone⟩ := settleStart_result c instanceId e ha
      cases hresult : result with
      | ok i =>
          rw [hresult] at hrun
          have hsettle :
              (settle (.start c instanceId) e).runAt a = (.ok (.started i), b.hungUp c) :=
            runAt_bind_of_ok hrun
          rw [hsettle] at h
          cases h
      | error p =>
          rw [hresult] at hrun
          have hsettle : (settle (.start c instanceId) e).runAt a = (.error p, b.hungUp c) :=
            runAt_bind_of_error hrun
          rw [hsettle] at h
          injection h with hp
          cases hsucceeded : e.succeeded with
          | false =>
              rw [hresult, hp] at hfailed
              cases hfailed hsucceeded
              exact id
          | true =>
              obtain ⟨reply, hreply, hsuccess⟩ := CallEnd.exists_reply hsucceeded
              have hrecording := hdone reply hreply hsuccess
              rw [hresult, hp] at hrecording
              generalize b.store = s at hrecording
              cases hrecording
              exact id
  | replace c previous =>
      obtain ⟨o, b, hrun, -⟩ := settleSwitch_ok c previous e ha
      have hsettle : (settle (.replace c previous) e).runAt a = (.ok (.switched o), b.hungUp c) :=
        runAt_bind_of_ok hrun
      rw [hsettle] at h
      cases h

/-- So does a call that is settled at once. -/
theorem perform_unmoved {e : CallEnd} {f : Failure} (ha : a.store.Orderly a.issued)
    (h : ((perform r e).runAt a).1 = .error (.failure f)) (hf : f.IsRefusal) :
    a.Unmoved ((perform r e).runAt a).2 := by
  have hrun : (perform r e).runAt a = (.error (.failure f), ((perform r e).runAt a).2) :=
    Prod.ext h rfl
  rcases runAt_bind_error hrun with hbegin | ⟨p, b, hbegin, hsettle⟩
  · have hbeginning := begin_beginning r a
    rw [hbegin] at hbeginning
    exact hbeginning.unmoved
  · have hgrown := Within.begin r a
    rw [hbegin] at hgrown
    refine absurd hf (settle_no_refusal p e (ha.edited hgrown.issued hgrown.store) ?_)
    rw [hsettle]

end Work

namespace Traffic

/-- A call that is refused, at every moment of every run: if it fails for what was asked for or for
a conflict, it fails as it is opened and nothing was done about it; and if its pending log cannot
be written, nothing is sent, the client is closed again and the lock given back. -/
theorem refused_calls_leave_no_trace (rpc : RpcSettings) (now : Instant) (spareToken : String)
    (actions : List Action) (label : String) :
    let t := (start rpc now spareToken).after actions
    (∀ r f, (t.begin label r).1 = .error (.failure f) → f.IsRefusal →
      t.site.Unmoved (t.begin label r).2.site ∧ (t.begin label r).2.underway = t.underway) ∧
    (∀ r e f, ((Work.perform r e).runAt t.site).1 = .error (.failure f) → f.IsRefusal →
      t.site.Unmoved ((Work.perform r e).runAt t.site).2) ∧
    (∀ e f, (t.settle label e).1 = some (.error (.failure f)) → ¬f.IsRefusal) ∧
    (∀ r e, (t.begin label r).1 = .error (.refused e) →
      t.site.Withdrawn (t.begin label r).2.site ∧ (t.begin label r).2.underway = t.underway) ∧
    ∀ r k text, ((Work.check r).runAt t.site).1 = .ok k →
      (∀ s, r = .start s →
        (t.site.store.instanceNamed? k.host.id k.instanceId).isSome = false) →
      t.site.desk.locks.isHeld (instanceKey k.host.id k.instanceId) = false →
      t.site.desk.barrier = none →
      permit t.site.store.faults .switchLogs .insert (some SwitchStatus.pending.name)
        = .fail text →
      (t.begin label r).1 = .error (.refused (.raised text)) := by
  intro t
  have hstore : t.StoreOrderly := orderly rpc now spareToken actions
  refine ⟨fun r f h _ => ?_, fun r e f h hf => ?_, fun e f h => ?_, fun r e h => ?_,
    fun r k text hcheck hnew hfree hbarrier hfault => ?_⟩
  · obtain ⟨b, hbegin, ht⟩ := begin_error h
    rw [ht]
    exact ⟨hbegin.unmoved, rfl⟩
  · exact Work.perform_unmoved hstore h hf
  · unfold Traffic.settle at h
    cases hlookup : t.underway.lookup label with
    | none =>
        rw [hlookup] at h
        cases h
    | some p =>
        rw [hlookup] at h
        injection h with h
        exact Work.settle_no_refusal p e hstore h
  · obtain ⟨b, hbegin, ht⟩ := begin_error h
    rw [ht]
    exact ⟨hbegin.withdrawn, rfl⟩
  · rw [begin_fst]
    exact Work.begin_unlogged (Prod.ext hcheck rfl) hnew hfree hbarrier hfault

end Traffic

end ProxyFleet
