import ProxyFleet.Proofs.Call.Opening
import ProxyFleet.Proofs.Store.Moves

/-!
# How a call is settled

Settling a call is bookkeeping, after which the client is closed and the lock
given back, whatever came of it. The bookkeeping of a switch never breaks off:
each write that fails leaves a warning, and the time of the end is reported just
if it was written. That of a first start breaks off for the agent's failure, or
because the instance could not be recorded.
-/

namespace ProxyFleet

/-- Whether the agent did what it was asked for. -/
def CallEnd.succeeded (e : CallEnd) : Bool :=
  match e.result with
  | .ok reply => reply.success
  | .error _ => false

theorem CallEnd.exists_reply {e : CallEnd} (h : e.succeeded = true) :
    ∃ reply, e.result = .ok reply ∧ reply.success = true := by
  unfold succeeded at h
  split at h
  · next reply hresult => exact ⟨reply, hresult, h⟩
  · cases h

/-- Why the agent did not do what it was asked for. -/
def CallEnd.reason (e : CallEnd) : String :=
  match e.result with
  | .ok reply => reply.reason
  | .error reason => reason

/-- A site after a call was hung up. -/
def Site.hungUp (a : Site) (c : OpenCall) : Site :=
  (a.signalled (.close c.client)).withLocks (a.desk.locks.release c.claim)

namespace Work

variable {α : Type} {a b : Site} {n : Nat}

theorem runAt_hangUp (c : OpenCall) (a : Site) : (hangUp c).runAt a = (.ok (), a.hungUp c) := rfl

/-- However a call ends, it is hung up. -/
theorem runAt_thenHangUp (c : OpenCall) (w : Work α) (a : Site) :
    (thenTidy (hangUp c) w).runAt a = ((w.runAt a).1, (w.runAt a).2.hungUp c) := by
  cases h : w.runAt a with
  | mk r b =>
    cases r with
    | error p =>
        rw [thenTidy, runAt_bind_of_error (runAt_orTidy_error h (runAt_hangUp c b))]
    | ok x =>
        rw [thenTidy, runAt_bind_of_ok (runAt_orTidy_ok h), runAt_bind_of_ok (runAt_hangUp c b),
          runAt_pure]

/-! ## The end of the log -/

/-- What writing the end of a log comes to: the log as the store tells of it, or a warning and no
time. -/
inductive Ending (l : SwitchLog) (status : SwitchStatus) (s : Store) (e : LogEnd) : Prop
  | written {found : SwitchLog} : s.log? l.id = some found → found.status = status →
      found.completedAt = e.completedAt → e.completedAt.isSome = true → Ending l status s e
  | warned : e.completedAt = none → e.warnings ≠ [] → Ending l status s e

theorem runAt_write_ok {f : Store → Instant → Except StoreError (α × Store)} {x : α} {s : Store}
    (h : f a.store a.now = .ok (x, s)) : (write f).runAt a = (.ok x, { a with store := s }) := by
  simp only [write, runAt_bind, runAt_get, h]
  rfl

theorem runAt_write_error {f : Store → Instant → Except StoreError (α × Store)} {e : StoreError}
    (h : f a.store a.now = .error e) : (write f).runAt a = (.error (.refused e), a) := by
  simp only [write, runAt_bind, runAt_get, h]
  rfl

theorem finishLog_ending (l : SwitchLog) (status : SwitchStatus) (hfinal : status.isFinal = true)
    (message : String) (toInstanceId : Option String) (ha : a.store.Orderly n) :
    ∃ e b, (finishLog l status message toInstanceId).runAt a = (.ok e, b) ∧
      Ending l status b.store e := by
  rw [finishLog, runAt_bind_of_ok (runAt_now a)]
  dsimp only
  rcases Store.moveLog_result ha l.id a.now status
      ⟨some message, toInstanceId, some a.now.text⟩ with
    ⟨hmove, hmovable⟩ | ⟨hmove, -⟩ | ⟨-, -, -, text, -, hmove⟩
  · rw [runAt_bind_of_ok (runAt_attempt _ _), runAt_write_ok hmove]
    obtain ⟨r, -, -, hlog⟩ := Store.log?_movedLog ha hmovable
    refine ⟨_, _, rfl, .written hlog rfl ?_ rfl⟩
    simp [SwitchLogRow.toLog, Store.movedLog, hfinal]
  · rw [runAt_bind_of_ok (runAt_attempt _ _), runAt_write_ok hmove]
    exact ⟨_, _, rfl, .warned rfl (by simp)⟩
  · rw [runAt_bind_of_ok (runAt_attempt _ _), runAt_write_error hmove]
    exact ⟨_, _, rfl, .warned rfl (by simp)⟩

/-! ## Switches -/

theorem reconcile_breaks (c : OpenCall) (previous : Option CoreInstance)
    (newInstanceId : String) : Breaks (fun _ => False) (reconcile c previous newInstanceId) := by
  have hstop : ∀ i, Breaks (fun _ => False) (stopPrevious c i) := by
    refine fun i => .bind (.attempt _) fun r => ?_
    split
    · exact .pure _
    · exact .bind (.tell _ _ _) fun _ => .pure _
  have hrecord : Breaks (fun _ => False) (recordNew c newInstanceId) := by
    refine .bind (.attempt _) fun r => ?_
    split
    · exact .pure _
    · exact .bind (.tell _ _ _) fun _ => .pure _
  have hrest : ∀ stopping, Breaks (fun _ => False)
      (if newInstanceId = "" then pure [] >>= fun recording => pure (stopping ++ recording)
        else recordNew c newInstanceId >>= fun recording => pure (stopping ++ recording)) := by
    intro stopping
    split
    · exact .pure _
    · exact .bind hrecord fun _ => .pure _
  cases previous with
  | none => exact .bind (.pure _) hrest
  | some i => exact .bind (hstop i) hrest

/-- Bringing the records in line writes nothing about logs. -/
theorem reconcile_log? {c : OpenCall} {previous : Option CoreInstance} {newInstanceId : String}
    (ha : a.store.Orderly a.issued) (id : String) :
    ((reconcile c previous newInstanceId).runAt a).2.store.log? id = a.store.log? id := by
  have hwrites := Within.reconcile c previous newInstanceId a
  have hlogs := ha.logs_edited hwrites.issued (fun _ h => h) hwrites.store
  unfold Store.log?
  rw [hlogs]

theorem Ending.of_log? {l : SwitchLog} {status : SwitchStatus} {s t : Store} {e : LogEnd}
    (h : Ending l status s e) (hlog : t.log? l.id = s.log? l.id) : Ending l status t e := by
  cases h with
  | written hfound hstatus htime hthere => exact .written (hlog.trans hfound) hstatus htime hthere
  | warned htime hwarnings => exact .warned htime hwarnings

/-- An outcome tells of the end of the log as it was found. -/
theorem Ending.outcome {c : OpenCall} {status : SwitchStatus} {s : Store} {l : LogEnd}
    (h : Ending c.log status s l) (reply : SwitchReply) (others : List String) :
    Ending c.log status s
      ⟨(c.outcome reply l others).completedAt, (c.outcome reply l others).warnings⟩ := by
  cases h with
  | written hlog hstatus htime hthere => exact .written hlog hstatus htime hthere
  | warned htime hwarnings => exact .warned htime (by simp [OpenCall.outcome, hwarnings])

theorem settleSwitch_ok (c : OpenCall) (previous : Option CoreInstance) (e : CallEnd)
    (ha : a.store.Orderly a.issued) :
    ∃ (o : SwitchOutcome) (b : Site),
      (settleSwitch c previous e).runAt a = (.ok o, b.hungUp c) ∧
      o.logId = c.log.id ∧ o.success = e.succeeded ∧
      Ending c.log (if o.success then .completed else .failed) b.store
        ⟨o.completedAt, o.warnings⟩ := by
  rw [settleSwitch, runAt_thenHangUp]
  unfold CallEnd.succeeded
  cases hresult : e.result with
  | error reason =>
      obtain ⟨l, b, hrun, hending⟩ := finishLog_ending c.log .failed rfl reason none ha
      refine ⟨c.outcome (.none reason) l [], b, ?_, rfl, rfl, hending.outcome _ _⟩
      dsimp only
      rw [runAt_bind_of_ok hrun, runAt_pure]
  | ok reply =>
      dsimp only
      cases hsuccess : reply.success with
      | true =>
          -- the end of the log comes first, and the records come after it
          obtain ⟨l, b, hrun, hending⟩ := finishLog_ending c.log .completed rfl reply.message
            (if reply.newInstanceId = "" then none else some reply.newInstanceId) ha
          have hgrown := Within.finishLog c.log .completed reply.message
            (if reply.newInstanceId = "" then none else some reply.newInstanceId) a
          rw [hrun] at hgrown
          have hb : b.store.Orderly b.issued := ha.edited hgrown.issued hgrown.store
          obtain ⟨others, hothers⟩ := (reconcile_breaks c previous reply.newInstanceId).result b
          have hdone : (c.outcome reply l others).success = true := hsuccess
          refine ⟨c.outcome reply l others, ((reconcile c previous reply.newInstanceId).runAt b).2,
            ?_, rfl, hdone, ?_⟩
          · rw [if_pos rfl, runAt_bind_of_ok hrun, runAt_bind_of_ok hothers, runAt_pure]
          · rw [hdone]
            exact (hending.of_log? (reconcile_log? hb c.log.id)).outcome _ _
      | false =>
          obtain ⟨l, b, hrun, hending⟩ :=
            finishLog_ending c.log .failed rfl reply.reason none ha
          have hfail : (c.outcome reply l []).success = false := hsuccess
          refine ⟨c.outcome reply l [], b, ?_, rfl, hfail, ?_⟩
          · rw [if_neg (by decide), runAt_bind_of_ok hrun, runAt_pure]
          · rw [hfail]
            exact hending.outcome _ _

/-! ## First starts -/

theorem startFailed_error (c : OpenCall) (reason : String) (ha : a.store.Orderly n) :
    ∃ b, (startFailed c reason).runAt a =
      (.error (.failure (.agent ("create instance failed: " ++ reason) (some c.log.id))), b) := by
  obtain ⟨l, b, hrun, -⟩ := finishLog_ending c.log .failed rfl reason none ha
  exact ⟨b, by rw [startFailed, runAt_bind_of_ok hrun]; rfl⟩

/-- What putting in the row of an instance that a call has started comes to at a site, and the
store then. The row is in the store, and the call gives the instance; or the store refuses just
this row and stays as it is, and the call says why. -/
inductive Recording (c : OpenCall) (instanceId : String) (a : Site) :
    Except Problem CoreInstance → Store → Prop
  | done {i : CoreInstance} {row : InstanceRow} {s : Store} :
      a.store.createInstance (idOf (a.issued + 1)) a.now (c.broughtUp instanceId []) = .ok (i, s) →
      i.hostId = c.host.id → i.instanceId = instanceId → row ∈ s.instances → row.id = i.id →
      row.hostId = i.hostId → row.instanceId = i.instanceId →
      Recording c instanceId a (.ok i) s
  | refused {e : StoreError} :
      a.store.createInstance (idOf (a.issued + 1)) a.now (c.broughtUp instanceId []) = .error e →
      Recording c instanceId a
        (.error (.failure (.internal (.notRecorded instanceId e.message) 500 none))) a.store

theorem recordStarted_recording (c : OpenCall) (instanceId : String)
    (ha : a.store.Orderly a.issued) :
    Recording c instanceId a ((recordStarted c instanceId).runAt a).1
      ((recordStarted c instanceId).runAt a).2.store := by
  unfold recordStarted
  rw [runAt_bind_of_ok (runAt_attempt _ _)]
  rcases Store.createInstance_result ha (idOf (a.issued + 1)) a.now
      (c.broughtUp instanceId []) with
    ⟨i, s, hcreate, hid, hhost, hname, row, hrow, hrid, hrhost, hrname⟩ | ⟨e, hcreate⟩
  · rw [runAt_create_ok hcreate]
    exact .done hcreate hhost hname hrow (hrid.trans hid.symm) (hrhost.trans hhost.symm)
      (hrname.trans hname.symm)
  · rw [runAt_create_error hcreate]
    exact .refused hcreate

theorem settleStart_result (c : OpenCall) (instanceId : String) (e : CallEnd)
    (ha : a.store.Orderly a.issued) :
    ∃ (r : Except Problem CoreInstance) (b : Site),
      (settleStart c instanceId e).runAt a = (r, b.hungUp c) ∧
      (e.succeeded = false →
        r = .error (.failure (.agent ("create instance failed: " ++ e.reason)
          (some c.log.id)))) ∧
      ∀ reply, e.result = .ok reply → reply.success = true →
        Recording c instanceId ((finishLog c.log .completed reply.message none).runAt a).2 r
          b.store := by
  rw [settleStart, runAt_thenHangUp]
  unfold CallEnd.succeeded CallEnd.reason
  cases hresult : e.result with
  | error reason =>
      obtain ⟨b, hrun⟩ := startFailed_error c reason ha
      dsimp only
      rw [hrun]
      exact ⟨_, b, rfl, fun _ => rfl, nofun⟩
  | ok reply =>
      dsimp only
      cases hsuccess : reply.success with
      | true =>
          obtain ⟨l, b, hrun, -⟩ := finishLog_ending c.log .completed rfl reply.message none ha
          have hgrown := Within.finishLog c.log .completed reply.message none a
          rw [hrun] at hgrown
          have hb : b.store.Orderly b.issued := ha.edited hgrown.issued hgrown.store
          refine ⟨_, _, by rw [if_pos rfl, runAt_bind_of_ok hrun], nofun, fun r hr _ => ?_⟩
          cases hr
          rw [hrun]
          exact recordStarted_recording c instanceId hb
      | false =>
          obtain ⟨b, hrun⟩ := startFailed_error c reply.reason ha
          rw [if_neg (by decide), hrun]
          refine ⟨_, b, rfl, fun _ => rfl, fun r hr hdone => ?_⟩
          cases hr
          cases hsuccess.symm.trans hdone

end Work

end ProxyFleet
