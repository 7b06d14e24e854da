import ProxyFleet.Proofs.Run.Renderings

/-!
# The compatibility of a template and the configurations it gives

Whether a host may use a template is decided at two places: by the check that an operator
asks for, and on the way to a configuration. Both hold what the template asks for against
the core of the host, and on that they agree, reasons included. But what came of checking
the template itself, when it was written, is looked at by the first only. So a template
that fails for the sample context is never compatible, and gives a configuration all the
same where what is stored about the host suits it (`invalid_template_configures`). For all
other templates the check is right (`compatible_iff_valid_of_configures`).
-/

namespace ProxyFleet

/-! ## Making a configuration -/

/-- A failure to render is one of the template. -/
theorem Template.render_error {content : String} {context : Value} {f : Failure}
    (h : (render content context).result = .error f) : ∃ stage message, f = .template stage message := by
  have hraw : ∀ {f}, (renderRaw content context).result = .error f →
      ∃ stage message, f = .template stage message := by
    intro f h
    unfold renderRaw at h
    split at h
    · next g hparse =>
        cases h
        unfold parse at hparse
        split at hparse
        · cases hparse
        · cases hparse
          exact ⟨_, _, rfl⟩
    · dsimp only at h
      split at h
      · cases h
      · cases h
        exact ⟨_, _, rfl⟩
  unfold render at h
  dsimp only at h
  split at h
  · next hresult =>
      cases h
      exact hraw hresult
  · split at h
    · cases h
    · cases h
      exact ⟨_, _, rfl⟩

namespace Store

variable {s : Store} {now : Instant} {h : AgentHost} {t : ConfigTemplate}

/-- What a template asks for and a core has, as the way to a configuration sees it. -/
theorem generate_compatible {text : String} (hg : (s.generate now h t).result = .ok text) :
    ((h.agent t).compatibility t.minVersion t.capabilities).compatible = true := by
  unfold Store.generate Generation.ofFitted at hg
  split at hg
  · cases hg
  · dsimp only at hg
    split at hg
    · assumption
    · cases hg

/-- A configuration is refused as incompatible for what the template asks for, and for nothing
else. -/
theorem generate_incompatible {message : String} {reasons : List String}
    (hg : (s.generate now h t).result = .error (.failure (.incompatible message reasons))) :
    let c := (h.agent t).compatibility t.minVersion t.capabilities
    c.compatible = false ∧ reasons = c.errors ++ c.warnings := by
  unfold Store.generate Generation.ofFitted Generation.ofRendered at hg
  split at hg
  · cases hg
  · dsimp only at hg ⊢
    split at hg
    · split at hg
      · next f hf =>
          cases hg
          obtain ⟨stage, message, hstage⟩ := Template.render_error hf
          cases hstage
      · split at hg <;> cases hg
    · next hcompatible =>
        cases hg
        exact ⟨Bool.eq_false_iff.2 hcompatible, rfl⟩

end Store

/-! ## The check and the configurations -/

/-- A template gives a host a configuration, asked for by name or because it is assigned. -/
inductive Site.Configures (a : Site) (hostId templateId text : String) : Prop
  | named (h : ((Work.renderFor hostId templateId).runAt a).1 = .ok text)
  | assigned {host : AgentHost} (hhost : a.store.host? hostId = some host)
      (htemplate : host.templateId = some templateId)
      (h : ((Work.generateConfig hostId).runAt a).1 = .ok (some text))

namespace Work

variable {a : Site} {hostId templateId : String} {h : AgentHost} {t : ConfigTemplate}

theorem requireHost_runAt (hhost : a.store.host? hostId = some h) :
    (requireHost hostId).runAt a = (.ok h, a) := by
  simp only [requireHost, ask, runAt_bind, runAt_get, runAt_pure, hhost]

theorem requireTemplate_runAt (htemplate : a.store.template? templateId = some t) :
    (requireTemplate templateId).runAt a = (.ok t, a) := by
  simp only [requireTemplate, ask, runAt_bind, runAt_get, runAt_pure, htemplate]

theorem requireHost_missing (hhost : a.store.host? hostId = none) :
    (requireHost hostId).runAt a = (.error (.failure (.missing (.agentHost hostId))), a) := by
  simp only [requireHost, ask, runAt_bind, runAt_get, runAt_pure, hhost]
  rfl

theorem requireTemplate_missing (htemplate : a.store.template? templateId = none) :
    (requireTemplate templateId).runAt a =
      (.error (.failure (.missing (.template templateId))), a) := by
  simp only [requireTemplate, ask, runAt_bind, runAt_get, runAt_pure, htemplate]
  rfl

theorem generate_fst (h : AgentHost) (t : ConfigTemplate) :
    ((generate h t).runAt a).1 = (a.store.generate a.now h t).result := by
  simp only [generate, runAt_bind, runAt_get, runAt_set]
  cases (a.store.generate a.now h t).result <;> rfl

/-- The check answers for what is on record, and changes nothing. -/
theorem checkCompatibility_runAt (hhost : a.store.host? hostId = some h)
    (htemplate : a.store.template? templateId = some t) :
    (checkCompatibility hostId templateId).runAt a = (.ok (h.compatibility t), a) := by
  rw [checkCompatibility, runAt_bind_of_ok (requireHost_runAt hhost),
    runAt_bind_of_ok (requireTemplate_runAt htemplate)]
  rfl

/-- Whatever comes of making a configuration, unless something is not on record, comes of what is. -/
theorem renderFor_found {r : Except Problem String}
    (hrun : ((renderFor hostId templateId).runAt a).1 = r)
    (hr : ∀ what, r ≠ .error (.failure (.missing what))) :
    ∃ h t, a.store.host? hostId = some h ∧ a.store.template? templateId = some t ∧
      (a.store.generate a.now h t).result = r := by
  cases hhost : a.store.host? hostId with
  | none =>
      simp only [renderFor, requireHost, ask, runAt_bind, runAt_get, runAt_pure, hhost] at hrun
      exact absurd hrun.symm (hr _)
  | some h =>
      rw [renderFor, runAt_bind_of_ok (requireHost_runAt hhost)] at hrun
      cases htemplate : a.store.template? templateId with
      | none =>
          simp only [requireTemplate, ask, runAt_bind, runAt_get, runAt_pure, htemplate] at hrun
          exact absurd hrun.symm (hr _)
      | some t =>
          rw [runAt_bind_of_ok (requireTemplate_runAt htemplate), generate_fst] at hrun
          exact ⟨h, t, rfl, rfl, hrun⟩

/-- The configuration of a host is that of the template assigned to it. -/
theorem generateConfig_fst (hhost : a.store.host? hostId = some h)
    (hassigned : h.templateId = some templateId) : ((generateConfig hostId).runAt a).1 =
      ((renderFor hostId templateId).runAt a).1.map some := by
  rw [generateConfig, renderFor, runAt_bind_of_ok (requireHost_runAt hhost),
    runAt_bind_of_ok (requireHost_runAt hhost), hassigned]
  dsimp only
  rw [runAt_bind, runAt_bind]
  rcases (requireTemplate templateId).runAt a with ⟨_ | t, b⟩
  · rfl
  · dsimp only
    rw [runAt_bind]
    rcases (generate h t).runAt b with ⟨_ | text, c⟩ <;> rfl

end Work

theorem Site.Configures.generated {a : Site} {hostId templateId text : String}
    (hconf : a.Configures hostId templateId text) : ∃ h t, a.store.host? hostId = some h ∧
      a.store.template? templateId = some t ∧ (a.store.generate a.now h t).result = .ok text := by
  cases hconf with
  | named hrun => exact Work.renderFor_found hrun nofun
  | assigned hhost hassigned hrun =>
      rw [Work.generateConfig_fst hhost hassigned] at hrun
      refine Work.renderFor_found ?_ nofun
      cases hresult : ((Work.renderFor hostId templateId).runAt a).1 with
      | error p =>
          rw [hresult] at hrun
          cases hrun
      | ok text' =>
          rw [hresult] at hrun
          cases hrun
          rfl

namespace AgentHost

variable {h : AgentHost} {t : ConfigTemplate}

theorem compatibility_of_valid (hvalid : t.isValid = true) :
    h.compatibility t = (h.agent t).compatibility t.minVersion t.capabilities := if_pos hvalid

theorem compatibility_of_invalid (hvalid : t.isValid = false) : h.compatibility t =
    ⟨false, [], ["Template has validation errors: " ++ t.validationError]⟩ :=
  if_neg (Bool.eq_false_iff.1 hvalid)

end AgentHost

/-- At any site, if a template gives a host a configuration, by whichever of the two services, then
the check for the two finds them compatible exactly if the template itself passed its check, and
otherwise has nothing against them but that. If on the other hand a configuration is refused as
incompatible, then the check finds so too, and if the template passed its own check, for the same
reasons. -/
theorem compatible_iff_valid_of_configures (a : Site) (hostId templateId : String) :
    (∀ text, a.Configures hostId templateId text →
      ∃ t c, a.store.template? templateId = some t ∧
        (Work.checkCompatibility hostId templateId).runAt a = (.ok c, a) ∧
        c.compatible = t.isValid ∧ (t.isValid = false →
          c = ⟨false, [], ["Template has validation errors: " ++ t.validationError]⟩)) ∧
    (∀ message reasons, ((Work.renderFor hostId templateId).runAt a).1 =
        .error (.failure (.incompatible message reasons)) →
      ∃ t c, a.store.template? templateId = some t ∧
        (Work.checkCompatibility hostId templateId).runAt a = (.ok c, a) ∧
        c.compatible = false ∧ (t.isValid = true → reasons = c.errors ++ c.warnings)) := by
  constructor
  · intro text hconf
    obtain ⟨h, t, hhost, htemplate, hgenerated⟩ := hconf.generated
    refine ⟨t, _, htemplate, Work.checkCompatibility_runAt hhost htemplate, ?_,
      AgentHost.compatibility_of_invalid⟩
    cases hvalid : t.isValid with
    | true =>
        rw [AgentHost.compatibility_of_valid hvalid]
        exact Store.generate_compatible hgenerated
    | false => rw [AgentHost.compatibility_of_invalid hvalid]
  · intro message reasons hrun
    obtain ⟨h, t, hhost, htemplate, hgenerated⟩ := Work.renderFor_found hrun nofun
    obtain ⟨hcompatible, hreasons⟩ := Store.generate_incompatible hgenerated
    refine ⟨t, _, htemplate, Work.checkCompatibility_runAt hhost htemplate, ?_, fun hvalid => ?_⟩
    · cases hvalid : t.isValid with
      | true => rw [AgentHost.compatibility_of_valid hvalid, hcompatible]
      | false => rw [AgentHost.compatibility_of_invalid hvalid]
    · rw [AgentHost.compatibility_of_valid hvalid, hreasons]

/-! ## A template that fails for the sample context -/

namespace Traffic

/-- A template that gives data only where there are no users. The sample context has some. -/
def quietTemplate : String :=
  "\x7b\x7b#if users\x7d\x7dbusy\x7b\x7b/if\x7d\x7d" ++
    "\x7b\"inbounds\": [], \"outbounds\": [], \"log\": \x7b\x7d\x7d"

/-- An agent that would refuse any switch. -/
def idleAgent : AgentSide := ⟨.ok [], .failed "idle"⟩

/-- A run in which a host is registered, and that template is written and assigned to it. -/
def quietRun : List Action :=
  [.tool "create_agent_host" (.obj [("name", .str "node"), ("host", .str "10.0.0.1")]) idleAgent,
    .tool "create_template" (.obj [("name", .str "quiet"), ("type", .str "xray"),
      ("content", .str quietTemplate)]) idleAgent,
    .tool "assign_template" (.obj [("agentHostId", .str "id-1"), ("templateId", .str "id-2")])
      idleAgent]

/-- The site after that run. -/
def quietSite : Site := ((start .standard ⟨0⟩ "token").after quietRun).site

/-- What the template gives for a host without servers. -/
def quietConfig : String :=
  "\x7b\n  \"inbounds\": [],\n  \"outbounds\": [],\n  \"log\": \x7b\x7d\n\x7d"

/-- A template that is never compatible gives a configuration, asked for or assigned. -/
theorem invalid_template_configures :
    ((Work.checkCompatibility "id-1" "id-2").runAt quietSite).1 = .ok ⟨false, [],
      ["Template has validation errors: Template render error: invalid JSON output: invalid JSON"]⟩ ∧
    ((Work.renderFor "id-1" "id-2").runAt quietSite).1 = .ok quietConfig ∧
    ((Work.generateConfig "id-1").runAt quietSite).1 = .ok (some quietConfig) := by
  decide +kernel

/-- Nothing but the check of the template speaks against that configuration. -/
theorem compatible_iff_valid_of_configures_quiet :
    quietSite.Configures "id-1" "id-2" quietConfig ∧
    ∃ t c, quietSite.store.template? "id-2" = some t ∧
      (Work.checkCompatibility "id-1" "id-2").runAt quietSite = (.ok c, quietSite) ∧
      c.compatible = t.isValid ∧ (t.isValid = false →
        c = ⟨false, [], ["Template has validation errors: " ++ t.validationError]⟩) := by
  have hconf : quietSite.Configures "id-1" "id-2" quietConfig := .named (by decide +kernel)
  exact ⟨hconf, (compatible_iff_valid_of_configures quietSite "id-1" "id-2").1 quietConfig hconf⟩

end Traffic

end ProxyFleet
