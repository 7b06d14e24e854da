import ProxyFleet.Proofs.Run.Compatibility
import ProxyFleet.Proofs.Store.View

/-!
# Hosts do not see each other

What a template gives for a host is decided by the host's view of the store and by the
clock: two sites that differ in anything else give the same configuration, or refuse it
for the same reason. So nothing that is written about other hosts, about users they alone
serve, or about instances and switches has a part in it, however much of it is written.
-/

namespace ProxyFleet

/-- A store after edits of what a host does not see, with any ids and at any times. Edits that are
refused change nothing and are left out. -/
inductive Store.EditedUnseen (hostId : String) (s : Store) : Store → Prop
  | refl : Store.EditedUnseen hostId s s
  | step {t u : Store} {e : Edit} {id : String} {now : Instant} :
      Store.EditedUnseen hostId s t → t.Unseen hostId id e → t.edit e id now = .ok u →
      Store.EditedUnseen hostId s u

theorem Store.EditedUnseen.view {s t : Store} {hostId : String} (h : s.EditedUnseen hostId t)
    (templateId : String) : s.view hostId templateId = t.view hostId templateId := by
  induction h with
  | refl => rfl
  | step _ hunseen hedit ih => exact ih.trans (Store.view_edit hunseen hedit).symm

namespace Work

variable {a b : Site} {hostId templateId : String}

theorem renderFor_congr (hnow : a.now = b.now)
    (hview : a.store.view hostId templateId = b.store.view hostId templateId) :
    ((renderFor hostId templateId).runAt a).1 = ((renderFor hostId templateId).runAt b).1 := by
  have hhosts := Store.host?_congr hview
  have htemplates := Store.template?_congr hview
  cases hhost : a.store.host? hostId with
  | none =>
      rw [renderFor, runAt_bind_of_error (requireHost_missing hhost),
        runAt_bind_of_error (requireHost_missing (hhosts.symm.trans hhost))]
  | some h =>
      rw [renderFor, runAt_bind_of_ok (requireHost_runAt hhost),
        runAt_bind_of_ok (requireHost_runAt (hhosts.symm.trans hhost))]
      cases htemplate : a.store.template? templateId with
      | none =>
          rw [runAt_bind_of_error (requireTemplate_missing htemplate),
            runAt_bind_of_error (requireTemplate_missing (htemplates.symm.trans htemplate))]
      | some t =>
          have hid : h.id = hostId := (Store.host?_ok hhost).1
          rw [runAt_bind_of_ok (requireTemplate_runAt htemplate),
            runAt_bind_of_ok (requireTemplate_runAt (htemplates.symm.trans htemplate)),
            generate_fst, generate_fst, hnow, Store.generate_congr (hid.symm ▸ hview)]

theorem generateConfig_congr (hnow : a.now = b.now)
    (hviews : ∀ templateId, a.store.view hostId templateId = b.store.view hostId templateId) :
    ((generateConfig hostId).runAt a).1 = ((generateConfig hostId).runAt b).1 := by
  have hhosts := Store.host?_congr (hviews "")
  cases hhost : a.store.host? hostId with
  | none =>
      rw [generateConfig, runAt_bind_of_error (requireHost_missing hhost),
        runAt_bind_of_error (requireHost_missing (hhosts.symm.trans hhost))]
  | some h =>
      have hhost' := hhosts.symm.trans hhost
      cases hassigned : h.templateId with
      | none =>
          rw [generateConfig, runAt_bind_of_ok (requireHost_runAt hhost),
            runAt_bind_of_ok (requireHost_runAt hhost'), hassigned]
          rfl
      | some templateId =>
          rw [generateConfig_fst hhost hassigned, generateConfig_fst hhost' hassigned,
            renderFor_congr hnow (hviews templateId)]

end Work

/-- At two sites with the same clock, if a host sees the same of both stores for a template, then
the template gives it the same text at both, or both refuse it with the same error. So after any
number of edits of what the host does not see, every template gives it what it gave before, and
its configuration is the same. -/
theorem configurations_isolated (a b : Site) (hostId : String) (hnow : a.now = b.now) :
    (∀ templateId, a.store.view hostId templateId = b.store.view hostId templateId →
      ((Work.renderFor hostId templateId).runAt a).1 =
        ((Work.renderFor hostId templateId).runAt b).1) ∧
    (a.store.EditedUnseen hostId b.store →
      (∀ templateId, ((Work.renderFor hostId templateId).runAt a).1 =
        ((Work.renderFor hostId templateId).runAt b).1) ∧
      ((Work.generateConfig hostId).runAt a).1 = ((Work.generateConfig hostId).runAt b).1) := by
  refine ⟨fun templateId hview => Work.renderFor_congr hnow hview, fun hedited => ?_⟩
  exact ⟨fun templateId => Work.renderFor_congr hnow (hedited.view templateId),
    Work.generateConfig_congr hnow hedited.view⟩

namespace Traffic

/-- A host is registered, and a template is written down and assigned to it. -/
def ownEdits : List Action :=
  [.edit (.createHost ⟨"node", "10.0.0.1", "token", "", "", [], [], none⟩),
    .edit (.createTemplate ⟨"quiet", "xray", quietTemplate, "", "", [], 1, false, ""⟩),
    .edit (.assignTemplate "id-1" (some "id-2"))]

/-- Another host is registered, and gets a server and a user. -/
def otherEdits : List Action :=
  [.edit (.createHost ⟨"other", "10.0.0.2", "token", "", "", [], [], none⟩),
    .edit (.createServer ⟨"id-3", some "group", "server", []⟩),
    .edit (.createUser ⟨"u", "ann@example.org", some "group", true, none⟩)]

/-- The site after the edits of the one host, and some of those of the other. -/
def sharedSite (count : Nat) : Site :=
  ((start .standard ⟨0⟩ "token").after (ownEdits ++ otherEdits.take count)).site

/-- The first host has the configuration that it had alone. -/
theorem configurations_isolated_shared :
    (sharedSite 3).store.hosts.length = 2 ∧ (sharedSite 3).store.users.length = 1 ∧
    ((Work.generateConfig "id-1").runAt (sharedSite 0)).1 = .ok (some quietConfig) ∧
    ((Work.generateConfig "id-1").runAt (sharedSite 0)).1 =
      ((Work.generateConfig "id-1").runAt (sharedSite 3)).1 := by
  have hhost : (sharedSite 0).store.edit
      (.createHost ⟨"other", "10.0.0.2", "token", "", "", [], [], none⟩) "id-3" ⟨0⟩ =
      .ok (sharedSite 1).store := by decide +kernel
  have hserver : (sharedSite 1).store.edit (.createServer ⟨"id-3", some "group", "server", []⟩)
      "id-4" ⟨0⟩ = .ok (sharedSite 2).store := by decide +kernel
  have huser : (sharedSite 2).store.edit
      (.createUser ⟨"u", "ann@example.org", some "group", true, none⟩) "id-5" ⟨0⟩ =
      .ok (sharedSite 3).store := by decide +kernel
  have hother : "id-3" ≠ "id-1" := by decide
  have hgroup : ∀ g ∈ some "group", g ∉ (sharedSite 2).store.groupsOf "id-1" := by decide +kernel
  have hedited : (sharedSite 0).store.EditedUnseen "id-1" (sharedSite 3).store := by
    refine .step (.step (.step .refl ?_ hhost) ?_ hserver) ?_ huser
    · exact hother
    · exact hother
    · exact hgroup
  exact ⟨by decide +kernel, by decide +kernel, by decide +kernel,
    ((configurations_isolated (sharedSite 0) (sharedSite 3) "id-1" (by decide +kernel)).2
      hedited).2⟩

end Traffic

end ProxyFleet
