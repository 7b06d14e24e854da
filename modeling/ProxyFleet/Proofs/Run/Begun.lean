import ProxyFleet.Proofs.Run.Renderings

/-!
# What a call is made from

A call that comes about is made from what was asked for, from the store and from
the clock, all as they stand at the moment it is opened. `CallRequest.Makes` says
so field by field. Checking a call and opening it need not be looked into again:
what is sent, what is logged and what is taken to be replaced are read off it,
however long ago the call was opened.

That moment is always there: a call is underway because an action of the run
opened it under its label (`Traffic.Begun`).
-/

namespace ProxyFleet

/-- The id its caller gives to a switch; blank if none is given. -/
def CallRequest.givenId : CallRequest → String
  | .start _ => ""
  | .replace r => trim (r.switchId.getD "")

/-- The id of a switch that was given none. -/
def CallRequest.ownId (r : CallRequest) (now : Instant) : String :=
  match r with
  | .start r => "create-" ++ r.hostId ++ "-" ++ trim r.instanceId
  | .replace r => switchIdAt r.hostId now

/-- The ports a call asks for, as they are sent. -/
def CallRequest.ports : CallRequest → List Number
  | .start _ => []
  | .replace r => r.listenPorts.filter (Number.lt 0 ·)

/-- The instance that is on record under the name a call is about. -/
def Site.replaced (a : Site) (r : CallRequest) : Option CoreInstance :=
  a.store.instanceNamed? r.target.1 r.target.2

/-- The instance that settling a call takes to be replaced. -/
def Pending.previous : Pending → Option CoreInstance
  | .start _ _ => none
  | .replace _ previous => previous

/-- The name that a first start is to put on record. -/
def CallRequest.firstName? : CallRequest → Option String
  | .start r => some (trim r.instanceId)
  | .replace _ => none

/-- The name that settling a first start puts on record. -/
def Pending.firstName? : Pending → Option String
  | .start _ instanceId => some instanceId
  | .replace _ _ => none

/-- A call is made from what is asked for at a site. -/
structure CallRequest.Makes (r : CallRequest) (a : Site) (p : Pending) : Prop where
  host : p.call.host.id = r.target.1
  engine : ∃ e, Engine.ofName? r.coreType = some e ∧ p.call.request.toCoreType = e.name
  text : p.call.request.configText = p.call.config.text
  digest : p.call.config.digest = digestOf p.call.config.text
  switchId : p.call.request.switchId = firstText r.givenId (r.ownId a.now)
  ports : p.call.request.listenPorts = r.ports
  logged : p.call.log.switchId = p.call.request.switchId ∧ p.call.log.hostId = p.call.host.id
  previous : p.previous = a.replaced r
  firstName : p.firstName? = r.firstName?

namespace Work

variable {a b : Site} {r : CallRequest} {p : Pending}

/-- The digest of a configuration is that of its text. -/
theorem resolveConfig_digest {h : AgentHost} {source : ConfigSource} {config : SentConfig}
    (hrun : (resolveConfig h source).runAt a = (.ok config, b)) :
    config.digest = digestOf config.text := by
  unfold resolveConfig at hrun
  split at hrun
  · obtain ⟨-, hrun⟩ := runAt_refuseIf_ok hrun
    cases hrun
    rfl
  · obtain ⟨text, m, -, hrun⟩ := runAt_bind_ok hrun
    obtain ⟨-, hrun⟩ := runAt_refuseIf_ok hrun
    cases hrun
    rfl
  · obtain ⟨x, m, hrefuse, -⟩ := runAt_bind_ok hrun
    cases hrefuse

/-- A call that is opened is put together from what it is given, and its log is the one that was
put in. -/
theorem openCall_ok {h : AgentHost} {busyId : String} {taken : Conflict} {config : SentConfig}
    {new : NewSwitchLog} {request : SwitchRequest} {c : OpenCall}
    (hrun : (openCall h busyId taken config new request).runAt a = (.ok c, b)) :
    c.host = h ∧ c.config = config ∧ c.request = request ∧
      c.log.switchId = new.switchId ∧ c.log.hostId = new.hostId := by
  have hopening := openCall_opening h busyId taken config new request a
  rw [hrun] at hopening
  cases hopening with
  | sent _ _ hlog _ =>
      obtain ⟨t, -, hlog⟩ := Store.bind_ok hlog
      cases hlog
      exact ⟨rfl, rfl, rfl, rfl, rfl⟩

/-- What a check finds is about what was asked for, and nothing has changed behind it. -/
theorem check_made {k : CheckedCall} (h : (check r).runAt a = (.ok k, b)) :
    k.host.id = r.target.1 ∧ k.instanceId = r.target.2 ∧
      Engine.ofName? r.coreType = some k.engine ∧ k.config.digest = digestOf k.config.text ∧
      b.store.instanceNamed? k.host.id k.instanceId = a.replaced r ∧ b.now = a.now := by
  obtain ⟨hname, hhost⟩ := check_ok h
  obtain ⟨hengine, hconfig⟩ := check_found h
  have hid := (Store.host?_ok hhost).1
  have hunchanged := Within.check r a
  rw [h] at hunchanged
  refine ⟨hid, hname, hengine, resolveConfig_digest hconfig, ?_, hunchanged.now⟩
  rw [(check_result_unmoved h).store, hid, hname, Site.replaced]

/-- A call opened behind its check is made from what the check found. -/
theorem makes_of_openCall {m : Site} {k : CheckedCall} {busyId : String} {taken : Conflict}
    {new : NewSwitchLog} {request : SwitchRequest} (hcheck : (check r).runAt a = (.ok k, m))
    (hrun : (openCall k.host busyId taken k.config new request).runAt m = (.ok p.call, b))
    (htold : request.toCoreType = k.engine.name ∧ request.configText = k.config.text ∧
      request.listenPorts = r.ports)
    (hid : request.switchId = firstText r.givenId (r.ownId a.now))
    (hnew : new.switchId = request.switchId ∧ new.hostId = k.host.id)
    (hprevious : p.previous = a.replaced r) (hname : p.firstName? = r.firstName?) :
    r.Makes a p := by
  obtain ⟨hhost, -, hengine, hdigest, -⟩ := check_made hcheck
  obtain ⟨hmine, hconfig, hrequest, hlogId, hlogHost⟩ := openCall_ok hrun
  refine ⟨hmine ▸ hhost, ⟨k.engine, hengine, hrequest ▸ htold.1⟩, ?_, hconfig ▸ hdigest,
    hrequest ▸ hid, hrequest ▸ htold.2.2, ⟨?_, ?_⟩, hprevious, hname⟩
  · rw [hrequest, hconfig, htold.2.1]
  · rw [hlogId, hrequest, hnew.1]
  · rw [hlogHost, hmine, hnew.2]

theorem begin_makes (h : (begin r).runAt a = (.ok p, b)) : r.Makes a p := by
  cases r with
  | start r =>
      obtain ⟨c, m, hopen, hpure⟩ := runAt_bind_ok h
      cases hpure
      obtain ⟨k, m, hcheck, hopen⟩ := runAt_bind_ok hopen
      obtain ⟨there, m', hask, hopen⟩ := runAt_bind_ok hopen
      cases hask
      obtain ⟨hnew, hopen⟩ := runAt_refuseIf_ok hopen
      obtain ⟨hhost, hname, -, -, hreplaced, -⟩ := check_made (r := .start r) hcheck
      refine makes_of_openCall (r := .start r) hcheck hopen ⟨rfl, rfl, rfl⟩ ?_ ⟨rfl, rfl⟩ ?_ rfl
      · change "create-" ++ _ ++ "-" ++ _ = _
        rw [hhost, hname]
        rfl
      · rw [← hreplaced]
        exact (Option.not_isSome_iff_eq_none.1 hnew).symm
  | replace r =>
      obtain ⟨⟨c, previous⟩, m, hopen, hpure⟩ := runAt_bind_ok h
      cases hpure
      obtain ⟨k, m, hcheck, hopen⟩ := runAt_bind_ok hopen
      obtain ⟨there, m', hask, hopen⟩ := runAt_bind_ok hopen
      cases hask
      obtain ⟨time, m'', hnow, hopen⟩ := runAt_bind_ok hopen
      cases hnow
      obtain ⟨c', n, hopen, hpair⟩ := runAt_bind_ok hopen
      cases hpair
      obtain ⟨hhost, -, -, -, hreplaced, htime⟩ := check_made (r := .replace r) hcheck
      refine makes_of_openCall (r := .replace r) hcheck hopen ⟨rfl, rfl, rfl⟩ ?_ ⟨rfl, rfl⟩
        hreplaced rfl
      change firstText _ (switchIdAt _ _) = _
      rw [hhost, htime]
      rfl

end Work

/-! ## Calls underway -/

namespace Traffic

variable {t : Traffic} {actions : List Action} {u : String × Pending}

/-- A call was opened by an action of a run, at the site that the actions before it had left. -/
def Begun (t : Traffic) (actions : List Action) (u : String × Pending) (r : CallRequest)
    (a : Site) : Prop :=
  ∃ before rest, actions = before ++ .begin u.1 r :: rest ∧ a = (t.after before).site ∧
    ((Work.begin r).runAt a).1 = .ok u.2

/-- A call was made by an action of a run, behind some actions before it. -/
def Opened (t : Traffic) (actions before : List Action) (r : CallRequest) (p : Pending) : Prop :=
  ∃ x rest, actions = before ++ x :: rest ∧ x.call? = some r ∧
    ((Work.begin r).runAt (t.after before).site).1 = .ok p

theorem Opened.makes {before : List Action} {r : CallRequest} {p : Pending}
    (h : t.Opened actions before r p) : r.Makes (t.after before).site p := by
  obtain ⟨x, rest, -, -, hbegin⟩ := h
  exact Work.begin_makes (Prod.ext hbegin rfl)

theorem Begun.makes {r : CallRequest} {a : Site} (h : t.Begun actions u r a) : r.Makes a u.2 := by
  obtain ⟨before, rest, -, -, hbegin⟩ := h
  exact Work.begin_makes (Prod.ext hbegin rfl)

/-- No action but its opening brings a call underway. -/
theorem act_underway {a : Action} (hu : u ∈ (t.act a).underway) :
    u ∈ t.underway ∨ ∃ r, a = .begin u.1 r ∧
      (Work.begin r).runAt t.site = (.ok u.2, (t.act a).site) := by
  cases a with
  | begin label r =>
      by_cases hbusy : (t.underway.lookup label).isSome = true
      · rw [act, if_pos hbusy] at hu
        exact .inl hu
      · rw [act, if_neg hbusy] at hu ⊢
        cases hresult : (t.begin label r).1 with
        | error q =>
            obtain ⟨b, -, ht⟩ := begin_error hresult
            rw [ht] at hu
            exact .inl hu
        | ok p =>
            obtain ⟨b, -, ht⟩ := begin_ok hresult
            rw [begin_fst] at hresult
            rw [begin_site]
            rw [ht] at hu
            rcases List.mem_cons.1 hu with rfl | hu
            · exact .inr ⟨r, rfl, Prod.ext hresult rfl⟩
            · exact .inl (List.mem_filter.1 hu).1
  | settle label e =>
      simp only [act, settle] at hu
      split at hu
      · exact .inl hu
      · exact .inl (List.mem_filter.1 hu).1
  | tool name arguments agent =>
      simp only [act, callTool] at hu
      split at hu
      · split at hu <;> exact .inl hu
      · exact .inl hu
  | restart => cases hu
  | _ => exact .inl hu

/-- Every call underway was opened by an action of the run. -/
theorem underway_begun (hfresh : t.underway = []) (hu : u ∈ (t.after actions).underway) :
    ∃ r a, t.Begun actions u r a := by
  induction actions using List.reverseRecOn with
  | nil => exact absurd hu (by simp [hfresh])
  | append_singleton actions a ih =>
      rw [after_append] at hu
      rcases act_underway hu with hold | ⟨r, rfl, hbegin⟩
      · obtain ⟨r, b, before, rest, hactions, hbegun⟩ := ih hold
        exact ⟨r, b, before, rest ++ [a], by rw [hactions]; simp, hbegun⟩
      · exact ⟨r, _, actions, [], rfl, rfl, congrArg Prod.fst hbegin⟩

end Traffic

end ProxyFleet
