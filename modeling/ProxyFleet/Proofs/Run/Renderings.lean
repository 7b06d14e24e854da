import Mathlib.Data.List.Induction
import ProxyFleet.Proofs.Call.Dealings
import ProxyFleet.Proofs.Run.Refusals

/-!
# Configurations that come from templates

A call that names a template sends what the template on record at that moment
gives for the host of the call. Which engine the agent is told to start is up to
the call alone, and which engine the configuration is for is up to the template
alone. They are the same if the call asks for the engine of its template, and
only then: no other word on an engine, such as what the host reports, has a part
in either of the two.

The check of a call is where both are found, so what a call sends is read off a
check that passes. What agents were sent is then traced back to the calls: to ask
an agent for a switch is left to the opening of a call, and all other work is
`Quiet`.
-/

namespace ProxyFleet

/-- The template that a configuration is made from: the one that is named, if no text is given. -/
def ConfigSource.template? (s : ConfigSource) : Option String :=
  match nonBlank? s.text with
  | some _ => none
  | none => nonBlank? s.templateId

/-- Where the configuration of a call comes from. -/
def CallRequest.source : CallRequest → ConfigSource
  | .start r => r.source
  | .replace r => r.source

/-- The engine a call asks for, in the words of its caller. -/
def CallRequest.coreType : CallRequest → String
  | .start r => r.coreType
  | .replace r => r.toCoreType

/-- A request as a call makes it at a site from a template: the configuration is what the template
gives for the host, found good as one of the template's own engine, and the engine told is that of
the call. -/
structure Site.Renders (a : Site) (r : CallRequest) (h : AgentHost) (t : ConfigTemplate)
    (e : Engine) (q : SwitchRequest) : Prop where
  host : a.store.host? r.target.1 = some h
  template : r.source.template?.bind a.store.template? = some t
  engine : Engine.ofName? r.coreType = some e
  told : q.toCoreType = e.name
  rendered : (a.store.generate a.now h t).result = .ok q.configText
  checked : (checkConfig q.configText t.type.name).valid = true
  alike : t.type.name = q.toCoreType ↔ t.type = e

theorem Engine.name_inj {d e : Engine} : d.name = e.name ↔ d = e := by
  cases d <;> cases e <;> decide

theorem Engine.ofName_ok {name : String} {e : Engine} (h : ofName name = .ok e) :
    ofName? name = some e := by
  unfold ofName at h
  split at h
  · next he =>
      cases h
      exact he
  · cases h

/-- A configuration that is made has passed its check. -/
theorem Store.generate_checked {s : Store} {now : Instant} {h : AgentHost} {t : ConfigTemplate}
    {text : String} (hg : (s.generate now h t).result = .ok text) :
    (checkConfig text t.type.name).valid = true := by
  unfold Store.generate Generation.ofFitted Generation.ofRendered at hg
  split at hg
  · cases hg
  · dsimp only at hg
    split at hg
    · split at hg
      · cases hg
      · split at hg
        · next hvalid =>
            cases hg
            exact hvalid
        · cases hg
    · cases hg

namespace Work

variable {a b : Site} {r : CallRequest} {p : Pending}

theorem requireTemplate_ok {id : String} {t : ConfigTemplate}
    (hrun : (requireTemplate id).runAt a = (.ok t, b)) : a.store.template? id = some t ∧ b = a := by
  obtain ⟨found, m, hask, hrun⟩ := runAt_bind_ok hrun
  cases hask
  dsimp only at hrun
  cases ht : a.store.template? id with
  | none =>
      rw [ht] at hrun
      cases hrun
  | some t' =>
      rw [ht] at hrun
      cases hrun
      exact ⟨rfl, rfl⟩

theorem generate_ok {h : AgentHost} {t : ConfigTemplate} {text : String}
    (hrun : (generate h t).runAt a = (.ok text, b)) :
    (a.store.generate a.now h t).result = .ok text := by
  simp only [generate, runAt_bind, runAt_get, runAt_set] at hrun
  cases hg : (a.store.generate a.now h t).result with
  | error p =>
      rw [hg] at hrun
      cases hrun
  | ok found =>
      rw [hg] at hrun
      cases hrun
      rfl

theorem renderFor_ok {hostId templateId text : String}
    (hrun : (renderFor hostId templateId).runAt a = (.ok text, b)) :
    ∃ h t, a.store.host? hostId = some h ∧ a.store.template? templateId = some t ∧
      (a.store.generate a.now h t).result = .ok text := by
  obtain ⟨h, m, hask, hrest⟩ := runAt_bind_ok hrun
  obtain ⟨hhost, hm⟩ := requireHost_ok hask
  obtain ⟨t, n, hask, hrest⟩ := runAt_bind_ok hrest
  obtain ⟨htemplate, hn⟩ := requireTemplate_ok hask
  have hgenerated := generate_ok hrest
  rw [hn, hm] at hgenerated
  exact ⟨h, t, hhost, hm ▸ htemplate, hgenerated⟩

/-- A configuration is made from a template only where no text is given. -/
theorem resolveConfig_ok {h : AgentHost} {source : ConfigSource} {config : SentConfig}
    (hrun : (resolveConfig h source).runAt a = (.ok config, b)) :
    config.templateId = source.template? ∧
      ∀ id, source.template? = some id → ∃ g t, a.store.host? h.id = some g ∧
        a.store.template? id = some t ∧ (a.store.generate a.now g t).result = .ok config.text := by
  unfold resolveConfig at hrun
  unfold ConfigSource.template?
  split at hrun
  · next htext =>
      obtain ⟨-, hrun⟩ := runAt_refuseIf_ok hrun
      cases hrun
      rw [htext]
      exact ⟨rfl, nofun⟩
  · next htext hid =>
      obtain ⟨text, m, hrender, hrun⟩ := runAt_bind_ok hrun
      obtain ⟨-, hrun⟩ := runAt_refuseIf_ok hrun
      cases hrun
      rw [htext, hid]
      refine ⟨rfl, fun id h => ?_⟩
      cases h
      exact renderFor_ok hrender
  · obtain ⟨x, m, hrefuse, -⟩ := runAt_bind_ok hrun
    cases hrefuse

/-- What a check finds of the engine and the configuration of a call. -/
theorem check_found {k : CheckedCall} (h : (check r).runAt a = (.ok k, b)) :
    Engine.ofName? r.coreType = some k.engine ∧
      (resolveConfig k.host r.source).runAt a = (.ok k.config, b) := by
  unfold check checkStart checkSwitch at h
  cases r with
  | start r =>
      obtain ⟨-, -, hengine, hconfig⟩ := checkCall_ok h
      exact ⟨Engine.ofName_ok hengine, hconfig⟩
  | replace r =>
      obtain ⟨-, -, hengine, hconfig⟩ := checkCall_ok h
      exact ⟨Engine.ofName_ok hengine, hconfig⟩

/-- The request of a call underway is made from what its check found. -/
theorem begin_request (h : (begin r).runAt a = (.ok p, b)) :
    ∃ k m, (check r).runAt a = (.ok k, m) ∧ p.call.config = k.config ∧
      p.call.request.toCoreType = k.engine.name ∧ p.call.request.configText = k.config.text := by
  have hcall : ∀ {h busyId taken config new request} {m n : Site} {c : OpenCall},
      (openCall h busyId taken config new request).runAt m = (.ok c, n) →
      c.config = config ∧ c.request = request := by
    intro h busyId taken config new request m n c hrun
    have hopening := openCall_opening h busyId taken config new request m
    rw [hrun] at hopening
    cases hopening
    exact ⟨rfl, rfl⟩
  cases r with
  | start r =>
      obtain ⟨c, m, hopen, hpure⟩ := runAt_bind_ok h
      cases hpure
      obtain ⟨k, m, hcheck, hopen⟩ := runAt_bind_ok hopen
      obtain ⟨there, m', hask, hopen⟩ := runAt_bind_ok hopen
      obtain ⟨-, hopen⟩ := runAt_refuseIf_ok hopen
      obtain ⟨hconfig, hrequest⟩ := hcall hopen
      exact ⟨k, m, hcheck, hconfig, congrArg SwitchRequest.toCoreType hrequest,
        congrArg SwitchRequest.configText hrequest⟩
  | replace r =>
      obtain ⟨⟨c, previous⟩, m, hopen, hpure⟩ := runAt_bind_ok h
      cases hpure
      obtain ⟨k, m, hcheck, hopen⟩ := runAt_bind_ok hopen
      obtain ⟨there, m', hask, hopen⟩ := runAt_bind_ok hopen
      obtain ⟨time, m'', hnow, hopen⟩ := runAt_bind_ok hopen
      obtain ⟨c', n, hopen, hpair⟩ := runAt_bind_ok hopen
      cases hpair
      obtain ⟨hconfig, hrequest⟩ := hcall hopen
      exact ⟨k, m, hcheck, hconfig, congrArg SwitchRequest.toCoreType hrequest,
        congrArg SwitchRequest.configText hrequest⟩

/-- A call that comes about with a template sends what the template gives. -/
theorem begin_renders (h : (begin r).runAt a = (.ok p, b)) :
    p.call.config.templateId = r.source.template? ∧
      (r.source.template?.isSome = true → ∃ h t e, a.Renders r h t e p.call.request) := by
  obtain ⟨k, m, hcheck, hconfig, htold, htext⟩ := begin_request h
  obtain ⟨hengine, hresolve⟩ := check_found hcheck
  obtain ⟨-, hhost⟩ := check_ok hcheck
  obtain ⟨hid, hmade⟩ := resolveConfig_ok hresolve
  refine ⟨hconfig ▸ hid, fun hsome => ?_⟩
  obtain ⟨id, hsource⟩ := Option.isSome_iff_exists.1 hsome
  obtain ⟨g, t, hg, ht, hgenerate⟩ := hmade id hsource
  -- the host is looked up by the caller's id first, and then by its own
  rw [(Store.host?_ok hhost).1, hhost] at hg
  cases hg
  rw [← htext] at hgenerate
  exact ⟨k.host, t, k.engine, hhost, by rw [hsource]; exact ht, hengine, htold, hgenerate,
    Store.generate_checked hgenerate, by rw [htold]; exact Engine.name_inj⟩

end Work

/-! ## What is sent -/

/-- The call to an agent that an action makes, if it makes one. -/
def Action.call? : Action → Option CallRequest
  | .begin _ r => some r
  | .tool name arguments _ =>
    match Tool.ofName? name, arguments with
    | some t, .obj a => if t.admits a then t.call? a else none
    | _, _ => none
  | _ => none

namespace Site

variable {a b c : Site} {n : Nat} {q : SwitchRequest} {call : OpenCall}

/-- A site after work that asks no agent for a switch. -/
def Quiet (a b : Site) : Prop := ∀ n q, .switchCore n q ∈ b.events → .switchCore n q ∈ a.events

instance : Std.Refl Quiet := ⟨fun _ _ _ => id⟩

instance : IsTrans Site Quiet := ⟨fun _ _ _ h1 h2 n q hmem => h1 n q (h2 n q hmem)⟩

theorem mem_dealings : .switchCore n q ∈ a.dealings n ↔ .switchCore n q ∈ a.events := by
  simp [dealings, AgentEvent.client]

theorem Recorded.quiet {P : Edit → Prop} (h : Recorded P a b) : Quiet a b :=
  fun _ _ hmem => h.events ▸ hmem

theorem Sent.switch (h : Sent call a b) (hmem : .switchCore n q ∈ b.events) :
    .switchCore n q ∈ a.events ∨ call.client = n ∧ call.request = q := by
  rw [← mem_dealings] at hmem
  by_cases hn : a.opened = n
  · obtain ⟨connection, hmine⟩ := h.mine
    rw [← hn, hmine] at hmem
    rcases List.mem_append.1 hmem with hold | hnew
    · exact .inl (mem_dealings.1 (hn ▸ hold))
    · have hq : q = call.request := by simpa using hnew
      exact .inr ⟨h.client.trans hn, hq.symm⟩
  · rw [h.others n hn] at hmem
    exact .inl (mem_dealings.1 hmem)

theorem HungUp.quiet (h : HungUp call a b) : Quiet a b := by
  intro n q hmem
  rw [← mem_dealings] at hmem ⊢
  by_cases hn : call.client = n
  · rw [← hn, h.mine] at hmem
    rcases List.mem_append.1 hmem with hold | hnew
    · exact hn ▸ hold
    · simp at hnew
  · rw [h.others n hn] at hmem
    exact hmem

end Site

namespace Work

variable {a b : Site} {r : CallRequest} {n : Nat} {q : SwitchRequest}

theorem Beginning.switch {result : Except Problem Pending} (h : Beginning r a result b)
    (hmem : .switchCore n q ∈ b.events) :
    .switchCore n q ∈ a.events ∨
      ∃ p, result = .ok p ∧ p.call.client = n ∧ p.call.request = q := by
  cases result with
  | ok p =>
      rcases h.opened.1.switch hmem with hold | hnew
      · exact .inl hold
      · exact .inr ⟨p, rfl, hnew⟩
  | error z =>
      refine .inl ?_
      cases h with
      | refused hcheck => exact (check_result_unmoved hcheck).events ▸ hmem
      | present _ hcheck => exact (check_result_unmoved hcheck).events ▸ hmem
      | @failed k m _ _ _ _ hcheck hopening =>
          rw [← (check_result_unmoved hcheck).events]
          cases hopening with
          | taken => exact hmem
          | barred => exact hmem
          | unlogged =>
              -- the client was opened and closed, with nothing in between
              have hevents : .switchCore n q ∈
                  (m.events ++ [.connect m.opened (m.desk.connection k.host)]) ++
                    [.close m.opened] := hmem
              simpa using hevents

theorem perform_switch {e : CallEnd}
    (hmem : .switchCore n q ∈ ((perform r e).runAt a).2.events) :
    .switchCore n q ∈ a.events ∨
      ∃ p, ((begin r).runAt a).1 = .ok p ∧ p.call.client = n ∧ p.call.request = q := by
  have hbegin := begin_beginning r a
  cases h : (begin r).runAt a with
  | mk result b =>
    rw [h] at hbegin
    refine hbegin.switch ?_
    cases result with
    | error z =>
        have hrun : (perform r e).runAt a = (.error z, b) := runAt_bind_of_error h
        rw [hrun] at hmem
        exact hmem
    | ok p =>
        have hrun : (perform r e).runAt a = (settle p e).runAt b := runAt_bind_of_ok h
        rw [hrun] at hmem
        exact (settle_hungUp p e b).quiet n q hmem

theorem getCores_quiet {α : Type} (hostId : String) (answer : Except Problem α) :
    Within Site.Quiet (getCores hostId answer) := by
  refine Within.bind (Within.callHost hostId) fun host a => ?_
  cases hbarrier : a.desk.barrier with
  | some why =>
      rw [runAt_bind_of_error (runAt_connect_barred hbarrier)]
      exact refl_of Site.Quiet a
  | none =>
      rw [runAt_bind_of_ok (runAt_connect_open hbarrier), runAt_bind_of_ok (runAt_signal _ _),
        runAt_bind_of_ok (runAt_signal _ _)]
      have hend : a.Quiet
          (((a.connected host).signalled (.getCores a.opened)).signalled (.close a.opened)) := by
        intro n q hmem
        simpa [Site.signalled, Site.connected] using hmem
      cases answer with
      | ok cores => exact hend
      | error p => exact hend

/-- A tool that makes a call leaves the site to it. -/
theorem tool_perform_site {tool : Tool} {arguments : Fields} {agent : AgentSide}
    (h : tool.call? arguments = some r) :
    ((tool.perform arguments agent).runAt a).2 = ((perform r agent.switch).runAt a).2 := by
  cases tool <;> cases h <;> rw [Tool.perform, runAt_map_snd]

/-- A tool asks for a switch by the call that it makes. -/
theorem tool_switch {tool : Tool} {arguments : Fields} {agent : AgentSide}
    (hmem : .switchCore n q ∈ ((tool.perform arguments agent).runAt a).2.events) :
    .switchCore n q ∈ a.events ∨ ∃ r p, tool.call? arguments = some r ∧
      ((begin r).runAt a).1 = .ok p ∧ p.call.client = n ∧ p.call.request = q := by
  cases hcall : tool.call? arguments with
  | none =>
      have hquiet : Within Site.Quiet (tool.perform arguments agent) :=
        Within.tool Site.Recorded.quiet getCores_quiet tool arguments agent fun r hr =>
          nomatch hcall.symm.trans hr
      exact .inl (hquiet a n q hmem)
  | some r =>
      rw [tool_perform_site hcall] at hmem
      rcases perform_switch hmem with hold | ⟨p, hp⟩
      · exact .inl hold
      · exact .inr ⟨r, p, rfl, hp⟩

end Work

namespace Traffic

variable {n : Nat} {q : SwitchRequest}

theorem act_switch {t : Traffic} {a : Action} (hmem : .switchCore n q ∈ (t.act a).site.events) :
    .switchCore n q ∈ t.site.events ∨ ∃ r p, a.call? = some r ∧
      ((Work.begin r).runAt t.site).1 = .ok p ∧ p.call.client = n ∧ p.call.request = q := by
  cases a with
  | begin label r =>
      simp only [act] at hmem
      split at hmem
      · exact .inl hmem
      · rw [begin_site] at hmem
        rcases (Work.begin_beginning r t.site).switch hmem with hold | ⟨p, hp⟩
        · exact .inl hold
        · exact .inr ⟨r, p, rfl, hp⟩
  | settle label e =>
      simp only [act] at hmem
      cases hlookup : t.underway.lookup label with
      | none =>
          simp only [settle, hlookup] at hmem
          exact .inl hmem
      | some p =>
          rw [settle_site hlookup] at hmem
          exact .inl ((Work.settle_hungUp p e t.site).quiet n q hmem)
  | deleteInstance hostId instanceId =>
      exact .inl ((Work.Within.deleteInstance hostId instanceId t.site).quiet n q hmem)
  | tool name arguments agent =>
      simp only [act, callTool] at hmem
      simp only [Action.call?]
      cases hname : Tool.ofName? name with
      | none =>
          simp only [hname] at hmem
          exact .inl hmem
      | some tool =>
          simp only [hname] at hmem ⊢
          cases arguments with
          | obj a =>
              by_cases hadmits : tool.admits a = true
              · simp only [if_pos hadmits] at hmem ⊢
                exact Work.tool_switch hmem
              · simp only [if_neg hadmits] at hmem
                exact .inl hmem
          | _ => exact .inl hmem
  | edit e =>
      exact .inl ((Work.Within.edit (P := fun _ => True) trivial t.site).quiet n q hmem)
  | restart => cases hmem
  | _ => exact .inl hmem

/-- Every request that an agent was sent is that of a call, which an action of the run made. -/
theorem switch_begun (t : Traffic) (actions : List Action)
    (hfresh : .switchCore n q ∉ t.site.events)
    (hmem : .switchCore n q ∈ (t.after actions).site.events) :
    ∃ before a rest r p, actions = before ++ a :: rest ∧ a.call? = some r ∧
      ((Work.begin r).runAt (t.after before).site).1 = .ok p ∧
      p.call.client = n ∧ p.call.request = q := by
  induction actions using List.reverseRecOn with
  | nil => exact absurd hmem hfresh
  | append_singleton actions a ih =>
      rw [after_append] at hmem
      rcases act_switch hmem with hold | ⟨r, p, hcall, hbegin⟩
      · obtain ⟨before, a', rest, r, p, hactions, hbegin⟩ := ih hold
        exact ⟨before, a', rest ++ [a], r, p, by rw [hactions]; simp, hbegin⟩
      · exact ⟨actions, a, [], r, p, rfl, hcall, hbegin⟩

/-- In every run and every interleaving, a request that an agent was sent is that of a call made by
an action of the run. If the call names a template, then the configuration is what the template on
record at that moment gave for the host of the call, found good as one of the template's own engine.
The engine the agent is told is the one the call asks for: it is the template's if the call asks for
that one, and only then. -/
theorem templates_give_what_is_sent (rpc : RpcSettings) (now : Instant) (spareToken : String)
    (actions : List Action) (n : Nat) (q : SwitchRequest)
    (hmem : .switchCore n q ∈ ((start rpc now spareToken).after actions).site.events) :
    ∃ before a rest r p, actions = before ++ a :: rest ∧ a.call? = some r ∧
      let site := ((start rpc now spareToken).after before).site
      ((Work.begin r).runAt site).1 = .ok p ∧ p.call.client = n ∧ p.call.request = q ∧
        p.call.config.templateId = r.source.template? ∧
        (r.source.template?.isSome = true → ∃ h t e, site.Renders r h t e q) := by
  obtain ⟨before, a, rest, r, p, hactions, hcall, hbegin, hclient, hrequest⟩ :=
    switch_begun (start rpc now spareToken) actions List.not_mem_nil hmem
  obtain ⟨hid, hrenders⟩ := Work.begin_renders (Prod.ext hbegin rfl)
  exact ⟨before, a, rest, r, p, hactions, hcall, hbegin, hclient, hrequest, hid,
    hrequest ▸ hrenders⟩

/-- A run in which a call asks for one engine and names a template of the other. -/
def crossedRun : List Action :=
  [.edit (.createHost ⟨"node", "10.0.0.1", "token", "", "", [], [], none⟩),
    .edit (.createTemplate ⟨"plain", "sing-box",
      "\x7b\"inbounds\":[\x7b\"type\":\"tun\",\"tag\":\"t\"\x7d],\"outbounds\":[]\x7d",
      "", "", [], 1, true, ""⟩),
    .begin "call" (.start ⟨"id-1", "xray", "main", ⟨some "id-2", none⟩, none⟩)]

/-- What the agent is sent in that run. -/
def crossedRequest : SwitchRequest where
  fromInstanceId := ""
  toCoreType := "xray"
  configText := "\x7b\n  \"inbounds\": [\n    \x7b\n      \"type\": \"tun\",\n" ++
    "      \"tag\": \"t\"\n    \x7d\n  ],\n  \"outbounds\": []\n\x7d"
  switchId := "create-id-1-main"
  listenPorts := []
  zeroDowntime := false

/-- An agent is told to start one engine with a configuration made from a template of the other,
which is no good for the one it is told. -/
theorem crossed_request_sent :
    let t := (start .standard ⟨0⟩ "token").after crossedRun
    (t.site.store.template? "id-2").map (·.type) = some .singBox ∧
      .switchCore 0 crossedRequest ∈ t.site.events ∧
      Engine.ofName? crossedRequest.toCoreType = some .xray ∧
      (checkConfig crossedRequest.configText "xray").valid = false := by
  decide +kernel

theorem templates_give_what_is_sent_crossed :
    ∃ before a rest r p, crossedRun = before ++ a :: rest ∧ a.call? = some r ∧
      let site := ((start .standard ⟨0⟩ "token").after before).site
      ((Work.begin r).runAt site).1 = .ok p ∧ p.call.client = 0 ∧
        p.call.request = crossedRequest ∧ p.call.config.templateId = r.source.template? ∧
        (r.source.template?.isSome = true → ∃ h t e, site.Renders r h t e crossedRequest) :=
  templates_give_what_is_sent .standard ⟨0⟩ "token" crossedRun 0 crossedRequest
    (by decide +kernel)

end Traffic

end ProxyFleet
