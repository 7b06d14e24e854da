import ProxyFleet.Proofs.Run.Begun
import ProxyFleet.Proofs.Run.Underway
import ProxyFleet.Proofs.Store.Ledger

/-!
# The ledger after a call

A call that is settled writes up to three times, and each write can fail on its
own. A switch tells of what failed by its warnings, a first start by breaking off;
so where there are no warnings, and where a first start gives its instance, all of
them went through. Then the table of instances is known to the row
(`Store.Follows`): the instance that was replaced is stopped, a row for the one
that was brought up stands behind all others, and these are as they were.

What is written was put together when the call was opened, and the store may have
changed since. The one thing it needs of that time is that the id of the instance
to be replaced was given out then, so that no row that is put in later is taken
for it.
-/

namespace ProxyFleet

/-- Rows after the instance that was replaced, if there was one, is marked as stopped. -/
def stoppedRows (previous : Option CoreInstance) (now : Instant) (rows : List InstanceRow) :
    List InstanceRow :=
  match previous with
  | some i => Store.mapRow InstanceRow.id i.id (InstanceRow.stopped now) rows
  | none => rows

/-- The instances of a site after the bookkeeping of a call, all of which went through. -/
structure Store.Follows (c : OpenCall) (previous : Option CoreInstance) (name : String)
    (ports : List Number) (a : Site) (t : Store) : Prop where
  rules : t.broken? = none
  rows : ∃ k > a.issued, t.instances = stoppedRows previous a.now a.store.instances ++
    [(c.broughtUp name ports).row (Work.idOf k) a.now .running]

/-- The ledger after a call did what it was asked for at a site: the instance of a name runs as the
request has it, the one that was on record when the call was opened does not run any more, and all
others are as they were. -/
structure Site.Reconciled (opened : Site) (r : CallRequest) (q : SwitchRequest) (name : String)
    (a b : Site) : Prop where
  running : ∃ i e, b.store.instanceNamed? r.target.1 name = some i ∧ i.status = .running ∧
    Engine.ofName? r.coreType = some e ∧ i.coreType = e.name ∧
    i.configHash = digestOf q.configText ∧
    ((∀ n ∈ q.listenPorts, n.IsDouble ∧ n.isWhole = true) → i.listenPorts = q.listenPorts)
  stopped : ∀ i ∈ opened.replaced r, ∀ row ∈ b.store.instances, row.id = i.id →
    row.status = .stopped
  others : ∃ row, row.hostId = r.target.1 ∧ row.instanceId = name ∧
    b.store.instances = stoppedRows (opened.replaced r) a.now a.store.instances ++ [row]

/-- What came of a call brought an instance of a name up, with all of it on record: a first start
that gives its instance, or a switch that succeeded with a name and without a warning. -/
inductive CallResult.BringsUp : CallResult → String → Prop
  | started (i : CoreInstance) : BringsUp (.started i) i.instanceId
  | switched {o : SwitchOutcome} : o.success = true → o.newInstanceId ≠ "" → o.warnings = [] →
      BringsUp (.switched o) o.newInstanceId

namespace Store.Follows

variable {c : OpenCall} {previous : Option CoreInstance} {name : String} {ports : List Number}
  {a m : Site} {t u : Store}

/-- Work that leaves the instances alone may come before the bookkeeping. -/
theorem after (h : t.Follows c previous name ports m) (hnow : m.now = a.now)
    (hissued : a.issued ≤ m.issued) (hsame : m.store.instances = a.store.instances) :
    t.Follows c previous name ports a where
  rules := h.rules
  rows := by
    obtain ⟨k, hk, hrows⟩ := h.rows
    exact ⟨k, Nat.lt_of_le_of_lt hissued hk, by rw [hrows, hnow, hsame]⟩

/-- Marking an instance as stopped comes first, and then the other one is put in. -/
theorem stopping {i : CoreInstance} {s : Store}
    (h : t.Follows c none name ports { a with store := s })
    (hs : s.instances = stoppedRows (some i) a.now a.store.instances) :
    t.Follows c (some i) name ports a where
  rules := h.rules
  rows := by
    obtain ⟨k, hk, hrows⟩ := h.rows
    exact ⟨k, hk, by rw [hrows, ← hs]; rfl⟩

/-- Bookkeeping that went through brings the ledger in line. -/
theorem reconciled {p : Pending} {r : CallRequest} {opened b : Site}
    (h : b.store.Follows p.call p.previous name p.call.request.listenPorts a)
    (hr : r.Makes opened p) (hid : ∀ i ∈ opened.replaced r, ∃ k ≤ a.issued, i.id = Work.idOf k) :
    opened.Reconciled r p.call.request name a b := by
  obtain ⟨k, hk, hrows⟩ := h.rows
  obtain ⟨e, hengine, htold⟩ := hr.engine
  rw [hr.previous] at hrows
  refine ⟨?_, fun i hi row hrow hrid => ?_, _, hr.host, rfl, hrows⟩
  · have hfound := Store.instanceNamed?_of_mem h.rules
      (hrows ▸ List.mem_append_right _ List.mem_cons_self)
    change b.store.instanceNamed? p.call.host.id name = _ at hfound
    rw [hr.host] at hfound
    refine ⟨_, e, hfound, rfl, hengine, htold, ?_, fun hports => ?_⟩
    · rw [hr.text]
      exact hr.digest
    · exact wholesOfText_numbersText hports
  · rw [hrows, Option.mem_def.1 hi] at hrow
    rcases List.mem_append.1 hrow with hold | hnew
    · obtain ⟨q, -, rfl⟩ := Store.mem_mapRow.1 hold
      split at hrid
      · next heq => rw [if_pos heq]; rfl
      · next hne => exact absurd hrid (by simpa using hne)
    · -- the id of the new row was given out after that of the one that was replaced
      obtain ⟨j, hj, hij⟩ := hid i hi
      rw [List.mem_singleton.1 hnew] at hrid
      have hkj := Work.idOf_inj.1 (hrid.trans hij)
      omega

end Store.Follows

namespace Work

variable {a b : Site} {c : OpenCall} {name : String} {previous : Option CoreInstance}

/-! ## Bookkeeping that goes through -/

theorem stopPrevious_silent {i : CoreInstance} (ha : a.store.Orderly a.issued)
    (h : (stopPrevious c i).runAt a = (.ok [], b)) :
    b = { a with store := { a.store with
      instances := stoppedRows (some i) a.now a.store.instances } } := by
  unfold stopPrevious at h
  dsimp only at h
  rw [runAt_bind_of_ok (runAt_attempt _ _)] at h
  cases hwrite : a.store.updateInstance i.id a.now .stop with
  | error e =>
      rw [runAt_write_error hwrite] at h
      cases h
  | ok r =>
      obtain ⟨found, t⟩ := r
      rw [runAt_write_ok hwrite] at h
      cases h
      rw [Store.stop_rows ha hwrite]
      rfl

/-- An instance that is put in follows its call. -/
theorem follows_of_create {ports : List Number} {i : CoreInstance} {t : Store}
    (ha : a.store.Orderly a.issued)
    (h : a.store.createInstance (idOf (a.issued + 1)) a.now (c.broughtUp name ports) =
      .ok (i, t)) :
    i.instanceId = name ∧ t.Follows c none name ports a := by
  obtain ⟨status, hstatus, rfl, hrules, rfl⟩ := Store.createInstance_rows ha.faithful h
  cases hstatus
  exact ⟨rfl, hrules, a.issued + 1, Nat.lt_succ_self _, rfl⟩

theorem recordNew_silent (ha : a.store.Orderly a.issued)
    (h : (recordNew c name).runAt a = (.ok [], b)) :
    b.store.Follows c none name c.request.listenPorts a := by
  unfold recordNew at h
  dsimp only at h
  rw [runAt_bind_of_ok (runAt_attempt _ _)] at h
  cases hwrite : a.store.createInstance (idOf (a.issued + 1)) a.now
      (c.broughtUp name c.request.listenPorts) with
  | error e =>
      rw [runAt_create_error hwrite] at h
      cases h
  | ok r =>
      obtain ⟨i, t⟩ := r
      rw [runAt_create_ok hwrite] at h
      cases h
      exact (follows_of_create ha hwrite).2

theorem reconcile_silent (ha : a.store.Orderly a.issued) (hname : name ≠ "")
    (h : (reconcile c previous name).runAt a = (.ok [], b)) :
    b.store.Follows c previous name c.request.listenPorts a := by
  cases previous with
  | none =>
      obtain ⟨stopping, m, hstop, h⟩ := runAt_bind_ok h
      cases hstop
      dsimp only at h
      rw [if_neg hname] at h
      obtain ⟨recording, n, hrecord, h⟩ := runAt_bind_ok h
      cases h
      exact recordNew_silent ha hrecord
  | some i =>
      obtain ⟨stopping, m, hstop, h⟩ := runAt_bind_ok h
      dsimp only at h
      rw [if_neg hname] at h
      obtain ⟨recording, n, hrecord, h⟩ := runAt_bind_ok h
      rw [runAt_pure] at h
      injection h with hwarnings hb
      injection hwarnings with hwarnings
      obtain ⟨rfl, rfl⟩ := List.append_eq_nil_iff.1 hwarnings
      have hm := Within.stopPrevious c i a
      rw [hstop] at hm
      have hstopped := stopPrevious_silent ha hstop
      have hrecorded := recordNew_silent (ha.edited hm.issued hm.store) hrecord
      rw [hstopped] at hrecorded
      exact hb ▸ hrecorded.stopping rfl

/-! ## Settling -/

/-- To hang up is not to write. -/
theorem runAt_thenHangUp_ok {α : Type} {w : Work α} {x : α}
    (h : (thenTidy (hangUp c) w).runAt a = (.ok x, b)) :
    ∃ m, w.runAt a = (.ok x, m) ∧ b.store = m.store := by
  rw [runAt_thenHangUp] at h
  injection h with hx hb
  exact ⟨_, Prod.ext hx rfl, hb ▸ rfl⟩

/-- The end of the log is written before the bookkeeping, and is no part of it. -/
theorem finishLog_before {status : SwitchStatus} {message : String} {toId : Option String}
    {l : LogEnd} {m : Site} (ha : a.store.Orderly a.issued)
    (h : (finishLog c.log status message toId).runAt a = (.ok l, m)) :
    m.store.Orderly m.issued ∧ ∀ {previous name ports t},
      Store.Follows c previous name ports m t → t.Follows c previous name ports a := by
  have hwrites := Within.finishLog_ofLog c.log status message toId a
  rw [h] at hwrites
  exact ⟨ha.edited hwrites.issued hwrites.store, fun hm =>
    hm.after hwrites.now hwrites.issued (ha.instances_edited hwrites.issued hwrites.store)⟩

/-- A switch that succeeded without a warning. -/
theorem settleSwitch_follows {e : CallEnd} {o : SwitchOutcome} (ha : a.store.Orderly a.issued)
    (h : (settleSwitch c previous e).runAt a = (.ok o, b)) (hsuccess : o.success = true)
    (hname : o.newInstanceId ≠ "") (hsilent : o.warnings = []) :
    b.store.Follows c previous o.newInstanceId c.request.listenPorts a := by
  rw [settleSwitch] at h
  obtain ⟨m, h, hb⟩ := runAt_thenHangUp_ok h
  rw [hb]
  cases hresult : e.result with
  | error reason =>
      rw [hresult] at h
      obtain ⟨l, n, -, h⟩ := runAt_bind_ok h
      cases h
      cases hsuccess
  | ok reply =>
      rw [hresult] at h
      dsimp only at h
      by_cases hdone : reply.success = true
      · rw [if_pos hdone] at h
        obtain ⟨l, n, hfinish, h⟩ := runAt_bind_ok h
        obtain ⟨others, n', hreconcile, h⟩ := runAt_bind_ok h
        cases h
        have hothers : others = [] := (List.append_eq_nil_iff.1 hsilent).2
        rw [hothers] at hreconcile
        obtain ⟨hn, hbefore⟩ := finishLog_before ha hfinish
        exact hbefore (reconcile_silent hn hname hreconcile)
      · rw [if_neg hdone] at h
        obtain ⟨l, n, -, h⟩ := runAt_bind_ok h
        cases h
        exact absurd hsuccess hdone

theorem startFailed_breaks (reason : String) {i : CoreInstance} :
    (startFailed c reason).runAt a ≠ (.ok i, b) := by
  intro h
  obtain ⟨l, m, -, h⟩ := runAt_bind_ok h
  cases h

/-- A first start that gives its instance. -/
theorem settleStart_follows {e : CallEnd} {i : CoreInstance} (ha : a.store.Orderly a.issued)
    (h : (settleStart c name e).runAt a = (.ok i, b)) :
    i.instanceId = name ∧ b.store.Follows c none name [] a := by
  rw [settleStart] at h
  obtain ⟨m, h, hb⟩ := runAt_thenHangUp_ok h
  rw [hb]
  cases hresult : e.result with
  | error reason =>
      rw [hresult] at h
      exact absurd h (startFailed_breaks reason)
  | ok reply =>
      rw [hresult] at h
      dsimp only at h
      by_cases hdone : reply.success = true
      · rw [if_pos hdone] at h
        obtain ⟨l, n, hfinish, h⟩ := runAt_bind_ok h
        obtain ⟨hn, hbefore⟩ := finishLog_before ha hfinish
        unfold recordStarted at h
        rw [runAt_bind_of_ok (runAt_attempt _ _)] at h
        cases hwrite : n.store.createInstance (idOf (n.issued + 1)) n.now (c.broughtUp name []) with
        | error err =>
            rw [runAt_create_error hwrite] at h
            obtain ⟨x, n', -, h⟩ := runAt_bind_ok h
            cases h
        | ok r =>
            obtain ⟨j, t⟩ := r
            rw [runAt_create_ok hwrite] at h
            cases h
            exact (follows_of_create hn hwrite).imp_right hbefore
      · rw [if_neg hdone] at h
        exact absurd h (startFailed_breaks _)

/-- A call that brought an instance up, with all of it on record. A first start brings up the one it
was asked for. -/
theorem settle_follows {opened : Site} {r : CallRequest} {p : Pending} {e : CallEnd}
    {result : CallResult} (hr : r.Makes opened p) (ha : a.store.Orderly a.issued)
    (h : (settle p e).runAt a = (.ok result, b)) (hdone : result.BringsUp name) :
    (∀ first ∈ r.firstName?, name = first) ∧
      b.store.Follows p.call p.previous name p.call.request.listenPorts a := by
  have hfirst := hr.firstName
  cases p with
  | start c first =>
      obtain ⟨i, m, h, hpure⟩ := runAt_bind_ok h
      cases hpure
      cases hdone
      obtain ⟨hname, hfollows⟩ := settleStart_follows ha h
      have hports : c.request.listenPorts = [] := by
        cases r with
        | start r => exact hr.ports
        | replace r => cases hfirst
      refine ⟨fun x hx => ?_, ?_⟩
      · rw [← hfirst] at hx
        exact hname.trans (Option.mem_some.1 hx)
      · change b.store.Follows c none i.instanceId c.request.listenPorts a
        rw [hports, hname]
        exact hfollows
  | replace c previous =>
      obtain ⟨o, m, h, hpure⟩ := runAt_bind_ok h
      cases hpure
      cases hdone with
      | switched hsuccess hnamed hsilent =>
          exact ⟨by rw [← hfirst]; exact nofun, settleSwitch_follows ha h hsuccess hnamed hsilent⟩

end Work

namespace Traffic

variable {t : Traffic} {x : Action} {p : Pending} {e : CallEnd} {m : Site}

/-- A call whose end an action brings in: one that is underway, or one that a tool makes, which its
agent answers at once. -/
inductive Settles (t : Traffic) : Action → Pending → CallEnd → Site → Prop
  | underway {label : String} {p : Pending} {e : CallEnd} : t.underway.lookup label = some p →
      Settles t (.settle label e) p e t.site
  | atOnce {name : String} {arguments : Value} {agent : AgentSide} {r : CallRequest} {p : Pending}
      {m : Site} : (Action.tool name arguments agent).call? = some r →
      (Work.begin r).runAt t.site = (.ok p, m) →
      Settles t (.tool name arguments agent) p agent.switch m

theorem mem_of_lookup {label : String} (ht : t.Tended) (h : t.underway.lookup label = some p) :
    (label, p) ∈ t.underway :=
  (perm_of_lookup ht.labels h).mem_iff.2 List.mem_cons_self

/-- A tool that makes a call leaves the site to it. -/
theorem act_tool_site {name : String} {arguments : Value} {agent : AgentSide} {r : CallRequest}
    (h : (Action.tool name arguments agent).call? = some r) :
    (t.act (.tool name arguments agent)).site = ((Work.perform r agent.switch).runAt t.site).2 := by
  simp only [act, callTool]
  simp only [Action.call?] at h
  cases hname : Tool.ofName? name with
  | none =>
      rw [hname] at h
      cases h
  | some tool =>
      cases arguments with
      | obj a =>
          simp only [hname] at h ⊢
          by_cases hadmits : tool.admits a = true
          · rw [if_pos hadmits] at h ⊢
            exact Work.tool_perform_site h
          · rw [if_neg hadmits] at h
            cases h
      | _ =>
          simp only [hname] at h
          cases h

theorem Settles.site (h : t.Settles x p e m) :
    (t.act x).site = ((Work.settle p e).runAt m).2 := by
  cases h with
  | underway hlookup => exact settle_site hlookup e
  | atOnce hcall hbegin =>
      rw [act_tool_site hcall, Work.perform, Work.runAt_bind_of_ok hbegin]

/-- Nothing but a log is written between an action and the settling it leads to. -/
theorem Settles.grown (h : t.Settles x p e m) : t.site.Grown Edit.OfLog m := by
  cases h with
  | underway => exact refl_of (Site.Grown Edit.OfLog) _
  | @atOnce _ _ _ r _ _ _ hbegin =>
      have hgrown := Work.Within.begin_ofLog r t.site
      rwa [hbegin] at hgrown

/-- The request of a call that is settled is with its agent. -/
theorem Settles.asked (h : t.Settles x p e m) (ht : t.Tended) :
    .switchCore p.call.client p.call.request ∈ m.events := by
  rw [← Site.mem_dealings]
  cases h with
  | underway hlookup =>
      obtain ⟨connection, hasked⟩ := (ht.waiting _ (mem_of_lookup ht hlookup)).asked
      rw [hasked]
      exact List.mem_cons_of_mem _ List.mem_cons_self
  | @atOnce _ _ _ r _ _ _ hbegin =>
      have hbeginning := Work.begin_beginning r t.site
      rw [hbegin] at hbeginning
      obtain ⟨hsent, -⟩ := hbeginning.opened
      obtain ⟨connection, hmine⟩ := hsent.mine
      rw [hsent.client, hmine]
      simp

theorem issued_le_after (t : Traffic) (actions : List Action) :
    t.site.issued ≤ (t.after actions).site.issued :=
  after_of_act (I := fun u => t.site.issued ≤ u.site.issued)
    (fun u a h => Nat.le_trans h (issued_le u a)) actions (Nat.le_refl _)

/-- A call that is settled was opened by an action of the run, this one or one before it. -/
theorem Settles.opened {first : Traffic} {actions : List Action} (hfresh : first.underway = [])
    (ht : (first.after actions).Tended) (h : (first.after actions).Settles x p e m) :
    ∃ before r, first.Opened (actions ++ [x]) before r p ∧
      (first.after before).site.issued ≤ (first.after actions).site.issued := by
  cases h with
  | @underway label _ _ hlookup =>
      obtain ⟨r, a, before, rest, hactions, ha, hbegin⟩ :=
        underway_begun hfresh (mem_of_lookup ht hlookup)
      refine ⟨before, r, ⟨.begin label r, rest ++ [.settle label e], ?_, rfl, ha ▸ hbegin⟩, ?_⟩
      · rw [hactions, List.append_assoc]
        rfl
      · rw [hactions, after_append]
        exact issued_le_after _ _
  | atOnce hcall hbegin =>
      exact ⟨actions, _, ⟨_, [], rfl, hcall, congrArg Prod.fst hbegin⟩, Nat.le_refl _⟩

/-- The ids of instances were given out. -/
theorem numbered (rpc : RpcSettings) (now : Instant) (spareToken : String)
    (actions : List Action) : let t := (start rpc now spareToken).after actions
    t.StoreOrderly ∧ t.site.store.Numbered t.site.issued := by
  refine after_of_act (I := fun t => t.StoreOrderly ∧ t.site.store.Numbered t.site.issued)
    (fun t a h => ⟨act_orderly t a h.1, ?_⟩) actions
    ⟨start_orderly rpc now spareToken, fun _ hr => absurd hr List.not_mem_nil⟩
  rcases act_store t a with hgrown | ⟨faults, -, hstore, hissued⟩
  · exact h.2.edited h.1 hgrown.issued hgrown.store
  · rw [hstore, hissued]
    exact h.2

/-- The ledger in the step in which a call ends, in every run and every interleaving. The call was
made by an action of the run, and its request is with the agent. If it brings an instance up and
nothing is said to be missing on record, then the instance runs on record as the request has it,
the one that was on record under the name of the call when the call was opened does not run any
more or is gone, and no other instance is written. A first start that gives an instance gives the
one it was asked for. -/
theorem ledger_follows_calls (rpc : RpcSettings) (now : Instant) (spareToken : String)
    (actions : List Action) (x : Action) (p : Pending) (e : CallEnd) (m : Site)
    (hsettles : ((start rpc now spareToken).after actions).Settles x p e m) :
    let first := start rpc now spareToken
    let t := first.after actions
    ∃ before r, first.Opened (actions ++ [x]) before r p ∧
      .switchCore p.call.client p.call.request ∈ m.events ∧
      ∀ result name, ((Work.settle p e).runAt m).1 = .ok result → result.BringsUp name →
        (∀ named ∈ r.firstName?, name = named) ∧
        (first.after before).site.Reconciled r p.call.request name t.site (t.act x).site := by
  intro first t
  have htended : t.Tended := tended rpc now spareToken actions
  obtain ⟨before, r, hopened, hissued⟩ := hsettles.opened rfl htended
  have hgrown := hsettles.grown
  have hm := htended.store.edited hgrown.issued hgrown.store
  refine ⟨before, r, hopened, hsettles.asked htended, fun result name hresult hdone => ?_⟩
  obtain ⟨hname, hfollows⟩ :=
    Work.settle_follows hopened.makes hm (Prod.ext hresult hsettles.site.symm) hdone
  refine ⟨hname, ?_⟩
  have hsame := htended.store.instances_edited hgrown.issued hgrown.store
  refine (hfollows.after hgrown.now hgrown.issued hsame).reconciled hopened.makes fun i hi => ?_
  obtain ⟨row, hrow, rfl⟩ := Option.map_eq_some_iff.1 (Option.mem_def.1 hi)
  obtain ⟨k, hk, hid⟩ := (numbered rpc now spareToken before).2 row (List.mem_of_find?_eq_some hrow)
  exact ⟨k, Nat.le_trans hk hissued, hid⟩

/-- A run in which an instance is started, and is then to be replaced. -/
def handoverRun : List Action :=
  [.edit (.createHost ⟨"node", "10.0.0.1", "token", "", "", [], [], none⟩),
    .begin "a" (.start ⟨"id-1", "xray", "main", ⟨none, some "[]"⟩, none⟩),
    .settle "a" (.replied ⟨true, "", "", ""⟩),
    .begin "b" (.replace ⟨"id-1", "main", "sing-box", ⟨none, some "\x7b\x7d"⟩, none,
      [Number.ofInt 8443], true, none⟩)]

/-- The agent's reply to the switch in that run. -/
def handoverReply : CallEnd := .replied ⟨true, "next", "", ""⟩

/-- What comes of it. -/
def handoverOutcome : SwitchOutcome where
  success := true
  newInstanceId := "next"
  message := ""
  error := ""
  logId := "id-4"
  fromInstanceId := "main"
  toCoreType := "sing-box"
  warnings := []
  completedAt := some "1970-01-01T00:00:00.000Z"

theorem ledger_follows_calls_handover :
    let t := (start .standard ⟨0⟩ "token").after handoverRun
    ∃ p before r, t.underway.lookup "b" = some p ∧
      (start .standard ⟨0⟩ "token").Opened (handoverRun ++ [.settle "b" handoverReply]) before r p ∧
      ((start .standard ⟨0⟩ "token").after before).site.Reconciled r p.call.request "next" t.site
        (t.act (.settle "b" handoverReply)).site := by
  intro t
  have hpending : ∃ u ∈ t.underway, t.underway.lookup "b" = some u.2 ∧
      ((Work.settle u.2 handoverReply).runAt t.site).1 = .ok (.switched handoverOutcome) := by
    decide +kernel
  obtain ⟨⟨label, p⟩, -, hlookup, hresult⟩ := hpending
  obtain ⟨before, r, hopened, -, hrecords⟩ := ledger_follows_calls .standard ⟨0⟩ "token" handoverRun
    (.settle "b" handoverReply) p handoverReply t.site (.underway hlookup)
  exact ⟨p, before, r, hlookup, hopened,
    (hrecords _ _ hresult (.switched rfl (by decide) rfl)).2⟩

end Traffic

end ProxyFleet
