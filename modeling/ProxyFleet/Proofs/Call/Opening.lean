import ProxyFleet.Proofs.Locks
import ProxyFleet.Proofs.Work.Services

/-!
# How a call is opened

Opening a call can break off at four places, and each leaves its own traces: none
at all where the input is checked and where the key is taken, a claim given out
and taken back where no client can be made, and a client opened and closed again
where the pending log is refused. Only then the request is sent.

`Opening` lists these outcomes with the site each leaves behind. All that is said
about calls that do not come about is read off it.
-/

namespace ProxyFleet

namespace Site

/-- A site with other locks. -/
def withLocks (a : Site) (l : Locks) : Site := { a with desk := { a.desk with locks := l } }

/-- The next client of a site is opened. -/
def connected (a : Site) (h : AgentHost) : Site :=
  { a with
    opened := a.opened + 1
    events := a.events ++ [.connect a.opened (a.desk.connection h)] }

/-- Something was done to an agent. -/
def signalled (a : Site) (e : AgentEvent) : Site := { a with events := a.events ++ [e] }

end Site

namespace Work

variable {α : Type} {a b c : Site} {p : Problem}

/-! ## Single lines -/

theorem runAt_signal (e : AgentEvent) (a : Site) :
    (signal e).runAt a = (.ok (), a.signalled e) := rfl

theorem runAt_giveBack (claim : Claim) (a : Site) :
    (giveBack claim).runAt a = (.ok (), a.withLocks (a.desk.locks.release claim)) := rfl

theorem runAt_ask (f : Store → α) (a : Site) : (ask f).runAt a = (.ok (f a.store), a) := rfl

theorem runAt_now (a : Site) : now.runAt a = (.ok a.now, a) := rfl

theorem runAt_takeLock_held {key : String} {taken : Conflict}
    (h : a.desk.locks.isHeld key = true) :
    (takeLock key taken).runAt a = (.error (.failure (.conflict taken)), a) := by
  simp only [takeLock, runAt_bind, runAt_get, Locks.acquire_of_held h]
  rfl

theorem runAt_takeLock_free {key : String} {taken : Conflict}
    (h : a.desk.locks.isHeld key = false) :
    (takeLock key taken).runAt a =
      (.ok (a.desk.locks.nextClaim key), a.withLocks (a.desk.locks.granted key)) := by
  simp only [takeLock, runAt_bind, runAt_get, Locks.acquire_of_free h]
  rfl

theorem runAt_connect_barred {h : AgentHost} {why : String} (hb : a.desk.barrier = some why) :
    (connect h).runAt a = (.error (.unforeseen why), a) := by
  simp only [connect, runAt_bind, runAt_get, hb]
  rfl

theorem runAt_connect_open {h : AgentHost} (hb : a.desk.barrier = none) :
    (connect h).runAt a = (.ok a.opened, a.connected h) := by
  simp only [connect, runAt_bind, runAt_get, hb]
  rfl

theorem runAt_create_error {f : Store → String → Instant → Except StoreError (α × Store)}
    {e : StoreError} (h : f a.store (idOf (a.issued + 1)) a.now = .error e) :
    (create f).runAt a = (.error (.refused e), { a with issued := a.issued + 1 }) := by
  simp only [create, freshId, write, runAt_bind, runAt_get, runAt_modify, runAt_pure, h]
  rfl

theorem runAt_create_ok {f : Store → String → Instant → Except StoreError (α × Store)} {x : α}
    {s : Store} (h : f a.store (idOf (a.issued + 1)) a.now = .ok (x, s)) :
    (create f).runAt a = (.ok x, { a with issued := a.issued + 1, store := s }) := by
  simp only [create, freshId, write, runAt_bind, runAt_get, runAt_modify, runAt_pure, h]
  rfl

theorem runAt_orTidy_ok {tidy : Work Unit} {w : Work α} {x : α} (h : w.runAt a = (.ok x, b)) :
    (orTidy tidy w).runAt a = (.ok x, b) := by
  rw [orTidy, runAt_tryCatch, h]

theorem runAt_orTidy_error {tidy : Work Unit} {w : Work α} (h : w.runAt a = (.error p, b))
    (ht : tidy.runAt b = (.ok (), c)) : (orTidy tidy w).runAt a = (.error p, c) := by
  rw [orTidy, runAt_tryCatch, h]
  change (tidy >>= fun _ => throw p).runAt b = _
  rw [runAt_bind_of_ok ht]
  rfl

theorem markInProgress_breaks (l : SwitchLog) : Breaks (fun _ => False) (markInProgress l) := by
  refine .bind (.attempt _) fun r => ?_
  split
  · exact .pure _
  · exact .bind (.tell _ _ _) fun _ => .pure _
  · exact .bind (.tell _ _ _) fun _ => .pure _

/-! ## Opening -/

/-- What comes of opening a call at a site, and the site afterwards. -/
inductive Opening (h : AgentHost) (busyId : String) (taken : Conflict) (config : SentConfig)
    (new : NewSwitchLog) (request : SwitchRequest) (a : Site) :
    Except Problem OpenCall → Site → Prop
  | taken : a.desk.locks.isHeld (instanceKey h.id busyId) = true →
      Opening h busyId taken config new request a (.error (.failure (.conflict taken))) a
  | barred {why : String} : a.desk.locks.isHeld (instanceKey h.id busyId) = false →
      a.desk.barrier = some why →
      Opening h busyId taken config new request a (.error (.unforeseen why))
        (a.withLocks a.desk.locks.passed)
  | unlogged {e : StoreError} : a.desk.locks.isHeld (instanceKey h.id busyId) = false →
      a.desk.barrier = none → a.store.createLog (idOf (a.issued + 1)) a.now new = .error e →
      Opening h busyId taken config new request a (.error (.refused e))
        { ((a.connected h).signalled (.close a.opened)).withLocks a.desk.locks.passed with
          issued := a.issued + 1 }
  | sent {log : SwitchLog} {s : Store} {m : Site} {warnings : List String} :
      a.desk.locks.isHeld (instanceKey h.id busyId) = false → a.desk.barrier = none →
      a.store.createLog (idOf (a.issued + 1)) a.now new = .ok (log, s) →
      Site.Recorded (· = .moveLog log.id .inProgress ⟨none, none, none⟩)
        { (a.connected h).withLocks (a.desk.locks.granted (instanceKey h.id busyId)) with
          issued := a.issued + 1
          store := s } m →
      Opening h busyId taken config new request a
        (.ok ⟨h, a.desk.locks.nextClaim (instanceKey h.id busyId), a.opened, log, config, request,
          warnings⟩)
        (m.signalled (.switchCore a.opened request))

section Outcomes

variable {h : AgentHost} {busyId : String} {taken : Conflict} {config : SentConfig}
  {new : NewSwitchLog} {request : SwitchRequest}

theorem openCall_taken (hheld : a.desk.locks.isHeld (instanceKey h.id busyId) = true) :
    (openCall h busyId taken config new request).runAt a =
      (.error (.failure (.conflict taken)), a) :=
  runAt_bind_of_error (runAt_takeLock_held hheld)

theorem openCall_barred {why : String}
    (hheld : a.desk.locks.isHeld (instanceKey h.id busyId) = false)
    (hbarrier : a.desk.barrier = some why) :
    (openCall h busyId taken config new request).runAt a =
      (.error (.unforeseen why), a.withLocks a.desk.locks.passed) := by
  have hback := Locks.release_granted hheld
  have hbarred : (a.withLocks (a.desk.locks.granted (instanceKey h.id busyId))).desk.barrier
      = some why := hbarrier
  rw [openCall, runAt_bind_of_ok (runAt_takeLock_free hheld)]
  refine runAt_orTidy_error (runAt_bind_of_error (runAt_connect_barred hbarred)) ?_
  rw [runAt_giveBack, ← hback]
  rfl

theorem openCall_unlogged {e : StoreError}
    (hheld : a.desk.locks.isHeld (instanceKey h.id busyId) = false)
    (hbarrier : a.desk.barrier = none)
    (hlog : a.store.createLog (idOf (a.issued + 1)) a.now new = .error e) :
    (openCall h busyId taken config new request).runAt a =
      (.error (.refused e),
        { ((a.connected h).signalled (.close a.opened)).withLocks a.desk.locks.passed with
          issued := a.issued + 1 }) := by
  have hback := Locks.release_granted hheld
  have hopen : (a.withLocks (a.desk.locks.granted (instanceKey h.id busyId))).desk.barrier
      = none := hbarrier
  rw [openCall, runAt_bind_of_ok (runAt_takeLock_free hheld)]
  refine runAt_orTidy_error ((runAt_bind_of_ok (runAt_connect_open hopen)).trans
    (runAt_orTidy_error (runAt_bind_of_error (runAt_create_error hlog)) (runAt_signal _ _))) ?_
  rw [runAt_giveBack, ← hback]
  rfl

theorem openCall_sent (taken : Conflict) (config : SentConfig) (request : SwitchRequest)
    {log : SwitchLog} {s : Store}
    (hheld : a.desk.locks.isHeld (instanceKey h.id busyId) = false)
    (hbarrier : a.desk.barrier = none)
    (hlog : a.store.createLog (idOf (a.issued + 1)) a.now new = .ok (log, s)) :
    ∃ warnings m, Site.Recorded (· = .moveLog log.id .inProgress ⟨none, none, none⟩)
        { (a.connected h).withLocks (a.desk.locks.granted (instanceKey h.id busyId)) with
          issued := a.issued + 1
          store := s } m ∧
      (openCall h busyId taken config new request).runAt a =
        (.ok ⟨h, a.desk.locks.nextClaim (instanceKey h.id busyId), a.opened, log, config, request,
          warnings⟩, m.signalled (.switchCore a.opened request)) := by
  have hopen : (a.withLocks (a.desk.locks.granted (instanceKey h.id busyId))).desk.barrier
      = none := hbarrier
  obtain ⟨warnings, hmark⟩ := (markInProgress_breaks log).result
    { (a.connected h).withLocks (a.desk.locks.granted (instanceKey h.id busyId)) with
      issued := a.issued + 1
      store := s }
  refine ⟨warnings, _, Within.markInProgress log _, ?_⟩
  rw [openCall, runAt_bind_of_ok (runAt_takeLock_free hheld)]
  refine runAt_orTidy_ok ((runAt_bind_of_ok (runAt_connect_open hopen)).trans (runAt_orTidy_ok ?_))
  exact (runAt_bind_of_ok (runAt_create_ok hlog)).trans ((runAt_bind_of_ok hmark).trans
    (runAt_bind_of_ok (runAt_signal _ _)))

end Outcomes

theorem openCall_opening (h : AgentHost) (busyId : String) (taken : Conflict)
    (config : SentConfig) (new : NewSwitchLog) (request : SwitchRequest) (a : Site) :
    Opening h busyId taken config new request a
      ((openCall h busyId taken config new request).runAt a).1
      ((openCall h busyId taken config new request).runAt a).2 := by
  cases hheld : a.desk.locks.isHeld (instanceKey h.id busyId) with
  | true =>
      rw [openCall_taken hheld]
      exact .taken hheld
  | false =>
      cases hbarrier : a.desk.barrier with
      | some why =>
          rw [openCall_barred hheld hbarrier]
          exact .barred hheld hbarrier
      | none =>
          cases hlog : a.store.createLog (idOf (a.issued + 1)) a.now new with
          | error e =>
              rw [openCall_unlogged hheld hbarrier hlog]
              exact .unlogged hheld hbarrier hlog
          | ok r =>
              obtain ⟨warnings, m, hm, hrun⟩ :=
                openCall_sent taken config request hheld hbarrier hlog
              rw [hrun]
              exact .sent hheld hbarrier hlog hm

theorem Opening.call {h : AgentHost} {busyId : String} {taken : Conflict} {config : SentConfig}
    {new : NewSwitchLog} {request : SwitchRequest} {call : OpenCall}
    (ho : Opening h busyId taken config new request a (.ok call) b) :
    call.host = h ∧ call.request = request := by
  cases ho
  exact ⟨rfl, rfl⟩

end Work

end ProxyFleet
