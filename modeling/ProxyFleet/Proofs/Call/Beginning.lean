import ProxyFleet.Proofs.Call.Opening

/-!
# How a call begins

Before a call is opened its input is checked, which writes nothing, and for a
first instance it is looked up whether there is one of the name already. What is
checked and which conflict a taken key gives depend on the kind of call; the rest
of opening it does not, and `Beginning` says for both kinds what comes of it.

A check fails for what is asked for, never for a conflict or a write. So a call
that is turned away as busy was turned away by a lock, and nothing else.
-/

namespace ProxyFleet

theorem Store.host?_ok {s : Store} {id : String} {h : AgentHost} (hh : s.host? id = some h) :
    h.id = id ∧ ∃ g ∈ s.hosts, g.id = id := by
  obtain ⟨g, hg, rfl⟩ := Option.map_eq_some_iff.1 hh
  have hid : g.id = id := by simpa using List.find?_some hg
  exact ⟨hid, g, List.mem_of_find?_eq_some hg, hid⟩

/-- The conflict of a call whose key is taken. -/
def CallRequest.busy : CallRequest → (instanceId hostId : String) → Conflict
  | .start _ => .instanceBusy
  | .replace _ => .switchRunning

/-- The host and the trimmed instance that a call is about. -/
def CallRequest.target : CallRequest → String × String
  | .start r => (r.hostId, trim r.instanceId)
  | .replace r => (r.hostId, trim r.fromInstanceId)

/-- The host and the instance that a call underway keeps busy. -/
def Pending.target : Pending → String × String
  | .start c instanceId => (c.host.id, instanceId)
  | .replace c _ => (c.host.id, c.request.fromInstanceId)

namespace Work

variable {α : Type} {a b m : Site}

/-- Checks the input of a call. -/
def check : CallRequest → Work CheckedCall
  | .start r => checkStart r
  | .replace r => checkSwitch r

theorem Within.check (r : CallRequest) : Writes (fun _ => False) (Work.check r) := by
  unfold Work.check checkStart checkSwitch
  cases r with
  | start r => exact checkCall _ _ _ _ _
  | replace r => exact checkCall _ _ _ _ _

/-! ## How checks fail -/

/-- A problem with what was asked for. -/
def OfInput : Problem → Prop
  | .failure (.invalid _) | .failure (.missing _) | .failure (.incompatible ..)
  | .failure (.template ..) | .misshapen _ => True
  | _ => False

theorem requireHost_breaks (id : String) : Breaks OfInput (requireHost id) := by
  refine .bind (.ask _) fun h => ?_
  cases h with
  | none => exact .refuse trivial
  | some h => exact .pure h

theorem requireTemplate_breaks (id : String) : Breaks OfInput (requireTemplate id) := by
  refine .bind (.ask _) fun t => ?_
  cases t with
  | none => exact .refuse trivial
  | some t => exact .pure t

theorem render_ofInput {content : String} {context : Value} {f : Failure}
    (h : (Template.render content context).result = .error f) :
    OfInput (.failure f) := by
  have hraw : ∀ {f}, (Template.renderRaw content context).result = .error f →
      OfInput (.failure f) := by
    intro f h
    unfold Template.renderRaw Template.parse at h
    split at h
    · next hparse =>
        split at hparse
        · cases hparse
        · cases hparse
          cases h
          exact trivial
    · dsimp only at h
      split at h
      · cases h
      · cases h
        exact trivial
  unfold Template.render at h
  dsimp only at h
  split at h
  · next hf =>
      cases h
      exact hraw hf
  · split at h
    · cases h
    · cases h
      exact trivial

theorem generate_breaks (h : AgentHost) (t : ConfigTemplate) :
    Breaks OfInput (generate h t) := by
  have hresult : ∀ (s : Store) (now : Instant) {p : Problem},
      (s.generate now h t).result = .error p → OfInput p := by
    intro s now p hp
    unfold Store.generate Generation.ofFitted Generation.ofRendered at hp
    split at hp
    · cases hp
      exact trivial
    · dsimp only at hp
      split at hp
      · split at hp
        · next hf =>
            cases hp
            exact render_ofInput hf
        · split at hp
          · cases hp
          · cases hp
            exact trivial
      · cases hp
        exact trivial
  intro a p b hrun
  simp only [generate, runAt_bind, runAt_get, runAt_set] at hrun
  cases hg : (a.store.generate a.now h t).result with
  | ok text =>
      rw [hg] at hrun
      cases hrun
  | error q =>
      rw [hg] at hrun
      cases hrun
      exact hresult _ _ hg

theorem checkCall_breaks (instanceId coreType hostId : String) (source : ConfigSource)
    (unnamed : Invalid) :
    Breaks OfInput (checkCall instanceId coreType hostId source unnamed) := by
  have hengine : Breaks OfInput (ofResult (Engine.ofName coreType)) := by
    unfold Engine.ofName
    split
    · exact .pure _
    · exact .refuse trivial
  have hconfig : ∀ h, Breaks OfInput (resolveConfig h source) := by
    intro h
    unfold resolveConfig
    split
    · exact .refuseIf trivial (.pure _)
    · exact .bind (.bind (requireHost_breaks _) fun _ => .bind (requireTemplate_breaks _) fun _ =>
        generate_breaks _ _) fun _ => .refuseIf trivial (.pure _)
    · exact .bind (.refuse trivial) fun _ => .refuseIf trivial (.pure _)
  unfold checkCall callHost
  dsimp only
  exact .refuseIf trivial (.bind hengine fun _ => .bind (.refuseIf trivial (requireHost_breaks _))
    fun h => .bind (hconfig h) fun _ => .pure _)

theorem check_breaks (r : CallRequest) : Breaks OfInput (check r) := by
  unfold check checkStart checkSwitch
  cases r with
  | start r => exact checkCall_breaks _ _ _ _ _
  | replace r => exact checkCall_breaks _ _ _ _ _

/-! ## What a check finds -/

/-- Whoever passes a condition goes on. -/
theorem runAt_refuseIf_ok {c : Prop} [Decidable c] {f : Failure} {w : Work α} {x : α}
    (h : (if c then refuse f >>= fun _ : PUnit => w else w).runAt a = (.ok x, b)) :
    ¬c ∧ w.runAt a = (.ok x, b) := by
  split at h
  · cases h
  · next hc => exact ⟨hc, h⟩

theorem requireHost_ok {id : String} {h : AgentHost}
    (hrun : (requireHost id).runAt a = (.ok h, b)) : a.store.host? id = some h ∧ b = a := by
  obtain ⟨found, m, hask, hrun⟩ := runAt_bind_ok hrun
  cases hask
  dsimp only at hrun
  cases hh : a.store.host? id with
  | none =>
      rw [hh] at hrun
      cases hrun
  | some h' =>
      rw [hh] at hrun
      cases hrun
      exact ⟨rfl, rfl⟩

theorem ofResult_ok {r : Except Failure α} {x : α} (h : (ofResult r).runAt a = (.ok x, b)) :
    r = .ok x ∧ b = a := by
  cases r with
  | error f => cases h
  | ok y =>
      cases h
      exact ⟨rfl, rfl⟩

/-- What the check of a call finds: all of it is read off what was asked for and the store. -/
theorem checkCall_ok {instanceId coreType hostId : String} {source : ConfigSource}
    {unnamed : Invalid} {k : CheckedCall}
    (h : (checkCall instanceId coreType hostId source unnamed).runAt a = (.ok k, b)) :
    k.instanceId = trim instanceId ∧ a.store.host? hostId = some k.host ∧
      Engine.ofName coreType = .ok k.engine ∧
      (resolveConfig k.host source).runAt a = (.ok k.config, b) := by
  unfold checkCall callHost at h
  dsimp only at h
  obtain ⟨-, hnamed⟩ := runAt_refuseIf_ok h
  obtain ⟨engine, m, hengine, hrest⟩ := runAt_bind_ok hnamed
  obtain ⟨hengine, hm⟩ := ofResult_ok hengine
  obtain ⟨host, m', hhost, hrest⟩ := runAt_bind_ok hrest
  obtain ⟨-, hhost⟩ := runAt_refuseIf_ok hhost
  obtain ⟨hfound, hm'⟩ := requireHost_ok hhost
  obtain ⟨config, m'', hconfig, hrest⟩ := runAt_bind_ok hrest
  rw [runAt_pure] at hrest
  injection hrest with hk hb
  injection hk with hk
  rw [hm', hm, hb] at hconfig
  rw [← hk]
  exact ⟨rfl, hm ▸ hfound, hengine, hconfig⟩

/-- A call that was found good is about what was asked for. -/
theorem check_ok {r : CallRequest} {k : CheckedCall} (h : (check r).runAt a = (.ok k, b)) :
    k.instanceId = r.target.2 ∧ a.store.host? r.target.1 = some k.host := by
  unfold check checkStart checkSwitch at h
  cases r with
  | start r =>
      obtain ⟨hname, hhost, -⟩ := checkCall_ok h
      exact ⟨hname, hhost⟩
  | replace r =>
      obtain ⟨hname, hhost, -⟩ := checkCall_ok h
      exact ⟨hname, hhost⟩

theorem check_target {r : CallRequest} {k : CheckedCall} (h : (check r).runAt a = (.ok k, b)) :
    (k.host.id, k.instanceId) = r.target :=
  Prod.ext (Store.host?_ok (check_ok h).2).1 (check_ok h).1

/-- The host of a call that was found good is on record. -/
theorem check_host {r : CallRequest} {k : CheckedCall} (h : (check r).runAt a = (.ok k, b)) :
    ∃ g ∈ a.store.hosts, g.id = k.host.id := by
  obtain ⟨hid, g, hg, hgid⟩ := Store.host?_ok (check_ok h).2
  exact ⟨g, hg, hgid.trans hid.symm⟩

/-! ## Beginning -/

/-- What comes of beginning a call at a site, and the site afterwards. -/
inductive Beginning (r : CallRequest) (a : Site) : Except Problem Pending → Site → Prop
  | refused {p : Problem} {b : Site} : (check r).runAt a = (.error p, b) →
      Beginning r a (.error p) b
  | present {s : StartRequest} {k : CheckedCall} {b : Site} : r = .start s →
      (check r).runAt a = (.ok k, b) →
      (b.store.instanceNamed? k.host.id k.instanceId).isSome = true →
      Beginning r a (.error (.failure (.conflict (.instanceExists k.instanceId k.host.id)))) b
  | failed {k : CheckedCall} {m b : Site} {new : NewSwitchLog} {request : SwitchRequest}
      {p : Problem} : (check r).runAt a = (.ok k, m) →
      Opening k.host k.instanceId (r.busy k.instanceId k.host.id) k.config new request m
        (.error p) b →
      Beginning r a (.error p) b
  | sent {k : CheckedCall} {m b : Site} {new : NewSwitchLog} {request : SwitchRequest}
      {c : OpenCall} {p : Pending} : (check r).runAt a = (.ok k, m) →
      Opening k.host k.instanceId (r.busy k.instanceId k.host.id) k.config new request m
        (.ok c) b →
      p.call = c → p.target = (k.host.id, k.instanceId) →
      Beginning r a (.ok p) b

theorem openStart_ok {r : StartRequest} {k : CheckedCall}
    (hcheck : (checkStart r).runAt a = (.ok k, m))
    (hnew : (m.store.instanceNamed? k.host.id k.instanceId).isSome = false) :
    ∃ new request, (openStart r).runAt a = (openCall k.host k.instanceId
      (.instanceBusy k.instanceId k.host.id) k.config new request).runAt m := by
  rw [openStart, runAt_bind_of_ok hcheck, runAt_bind_of_ok (runAt_ask _ _)]
  dsimp only
  rw [if_neg (by simp [hnew])]
  exact ⟨_, _, rfl⟩

theorem openStart_present {r : StartRequest} {k : CheckedCall}
    (hcheck : (checkStart r).runAt a = (.ok k, m))
    (hthere : (m.store.instanceNamed? k.host.id k.instanceId).isSome = true) :
    (openStart r).runAt a =
      (.error (.failure (.conflict (.instanceExists k.instanceId k.host.id))), m) := by
  rw [openStart, runAt_bind_of_ok hcheck, runAt_bind_of_ok (runAt_ask _ _)]
  dsimp only
  rw [if_pos hthere]
  rfl

theorem openSwitch_ok {r : ReplaceRequest} {k : CheckedCall}
    (hcheck : (checkSwitch r).runAt a = (.ok k, m)) :
    ∃ new request previous, request.fromInstanceId = k.instanceId ∧
      (openSwitch r).runAt a = (openCall k.host k.instanceId
        (.switchRunning k.instanceId k.host.id) k.config new request >>= fun c =>
          pure (c, previous)).runAt m := by
  rw [openSwitch, runAt_bind_of_ok hcheck, runAt_bind_of_ok (runAt_ask _ _),
    runAt_bind_of_ok (runAt_now _)]
  exact ⟨_, _, _, rfl, rfl⟩

theorem begin_start (r : StartRequest) (a : Site) :
    Beginning (.start r) a ((begin (.start r)).runAt a).1 ((begin (.start r)).runAt a).2 := by
  cases hcheck : (checkStart r).runAt a with
  | mk result m =>
    cases result with
    | error p =>
        have hrun : (begin (.start r)).runAt a = (.error p, m) :=
          runAt_bind_of_error (runAt_bind_of_error hcheck)
        rw [hrun]
        exact .refused hcheck
    | ok k =>
        cases hthere : (m.store.instanceNamed? k.host.id k.instanceId).isSome with
        | true =>
            have hrun : (begin (.start r)).runAt a = _ :=
              runAt_bind_of_error (openStart_present hcheck hthere)
            rw [hrun]
            exact .present rfl hcheck hthere
        | false =>
            obtain ⟨new, request, hopen⟩ := openStart_ok hcheck hthere
            have hopening := openCall_opening k.host k.instanceId
              (.instanceBusy k.instanceId k.host.id) k.config new request m
            cases hcall : (openCall k.host k.instanceId (.instanceBusy k.instanceId k.host.id)
                k.config new request).runAt m with
            | mk result b =>
              rw [hcall] at hopen hopening
              cases result with
              | error p =>
                  have hrun : (begin (.start r)).runAt a = (.error p, b) :=
                    runAt_bind_of_error hopen
                  rw [hrun]
                  exact .failed hcheck hopening
              | ok c =>
                  have hrun : (begin (.start r)).runAt a =
                      (.ok (.start c (trim r.instanceId)), b) := runAt_bind_of_ok hopen
                  rw [hrun]
                  have hname : k.instanceId = trim r.instanceId := (check_ok (r := .start r) hcheck).1
                  refine .sent hcheck hopening rfl (Prod.ext ?_ hname.symm)
                  exact congrArg AgentHost.id hopening.call.1

theorem begin_replace (r : ReplaceRequest) (a : Site) :
    Beginning (.replace r) a ((begin (.replace r)).runAt a).1
      ((begin (.replace r)).runAt a).2 := by
  cases hcheck : (checkSwitch r).runAt a with
  | mk result m =>
    cases result with
    | error p =>
        have hrun : (begin (.replace r)).runAt a = (.error p, m) :=
          runAt_bind_of_error (runAt_bind_of_error hcheck)
        rw [hrun]
        exact .refused hcheck
    | ok k =>
        obtain ⟨new, request, previous, hfrom, hopen⟩ := openSwitch_ok hcheck
        have hopening := openCall_opening k.host k.instanceId
          (.switchRunning k.instanceId k.host.id) k.config new request m
        cases hcall : (openCall k.host k.instanceId (.switchRunning k.instanceId k.host.id)
            k.config new request).runAt m with
        | mk result b =>
          rw [hcall] at hopening
          cases result with
          | error p =>
              have hrun : (begin (.replace r)).runAt a = (.error p, b) :=
                runAt_bind_of_error (hopen.trans (runAt_bind_of_error hcall))
              rw [hrun]
              exact .failed hcheck hopening
          | ok c =>
              have hrun : (begin (.replace r)).runAt a = (.ok (.replace c previous), b) :=
                runAt_bind_of_ok (hopen.trans (runAt_bind_of_ok hcall))
              rw [hrun]
              obtain ⟨hhost, hrequest⟩ := hopening.call
              refine .sent hcheck hopening rfl (Prod.ext (congrArg AgentHost.id hhost) ?_)
              exact (congrArg SwitchRequest.fromInstanceId hrequest).trans hfrom

theorem begin_beginning (r : CallRequest) (a : Site) :
    Beginning r a ((begin r).runAt a).1 ((begin r).runAt a).2 := by
  cases r with
  | start r => exact begin_start r a
  | replace r => exact begin_replace r a

end Work

end ProxyFleet
