import ProxyFleet.Generation
import ProxyFleet.Proofs.Context.Fitting
import ProxyFleet.Proofs.Template.Documents

/-!
# What templates are told an agent can do

What an agent can do is answered twice while a configuration is made. The context is
fitted to the set that is made out of the report: names are normalised, unknown ones are
dropped, and if nothing is left the version decides (`Agent.resolve`). A template that
tests for a capability asks the report itself, which stands in the context as it came.

So the test tells of the report, whatever the set is, and the two answer alike for all
names exactly if there was nothing to make out of the report (`AgentHost.ReportsSet`).
-/

namespace ProxyFleet

/-! ## Sets made out of reports -/

namespace Capability

variable {c : Capability} {cs : List Capability} {n : String} {reported : List String}

theorem mem_all (c : Capability) : c ∈ all := by cases c <;> decide

theorem ofName?_name (c : Capability) : ofName? c.name = some c := by cases c <;> decide

theorem ofName?_eq_some : ofName? n = some c ↔ c.name = n := by
  refine ⟨fun h => ?_, ?_⟩
  · simpa using List.find?_some h
  · rintro rfl
    exact ofName?_name c

theorem mem_sorted : c ∈ sorted cs ↔ c ∈ cs := by simp [sorted, mem_all]

theorem mem_ofNames : c ∈ ofNames reported ↔ ∃ n ∈ reported, c.name = normalizeName n := by
  simp [ofNames, mem_sorted, ofName?_eq_some]

end Capability

namespace Agent

/-- The names of what a core can do. -/
def names (a : Agent) : List String := a.capabilities.map Capability.name

variable {coreType coreVersion : String} {reported buildTags : List String}

/-- A report of names as they are is the set that is made out of it. -/
theorem mem_names_resolve (hnamed : ∀ n ∈ reported, ∃ c : Capability, c.name = n)
    (hsome : reported ≠ []) (n : String) :
    n ∈ (resolve coreType coreVersion reported buildTags).names ↔ n ∈ reported := by
  have hmem : ∀ c : Capability, c ∈ Capability.ofNames reported ↔ c.name ∈ reported := by
    intro c
    rw [Capability.mem_ofNames]
    constructor
    · rintro ⟨m, hm, hc⟩
      obtain ⟨d, rfl⟩ := hnamed m hm
      rwa [hc, Capability.normalizeName_name]
    · exact fun hc => ⟨c.name, hc, (Capability.normalizeName_name c).symm⟩
  have hresolve : (resolve coreType coreVersion reported buildTags).capabilities =
      Capability.ofNames reported := by
    obtain ⟨m, hm⟩ := List.exists_mem_of_ne_nil reported hsome
    obtain ⟨d, rfl⟩ := hnamed m hm
    have hne : Capability.ofNames reported ≠ [] := List.ne_nil_of_mem ((hmem d).2 hm)
    simp [resolve, hne]
  rw [names, hresolve, List.mem_map]
  constructor
  · rintro ⟨c, hc, rfl⟩
    exact (hmem c).1 hc
  · intro hn
    obtain ⟨c, rfl⟩ := hnamed n hn
    exact ⟨c, (hmem c).2 hn, rfl⟩

end Agent

/-- Nothing is to be made out of the report of a host: it lists capabilities by their names, or it
lists nothing and nothing is known of the version either. -/
structure AgentHost.ReportsSet (h : AgentHost) (t : ConfigTemplate) : Prop where
  named : ∀ n ∈ h.capabilities, ∃ c : Capability, c.name = n
  nothing : h.capabilities = [] → (h.agent t).capabilities = []

theorem AgentHost.mem_names_iff {h : AgentHost} {t : ConfigTemplate} :
    (∀ n, n ∈ h.capabilities ↔ n ∈ (h.agent t).names) ↔ h.ReportsSet t := by
  constructor
  · intro hsame
    refine ⟨fun n hn => ?_, fun hnone => ?_⟩
    · obtain ⟨c, -, hc⟩ := List.mem_map.1 ((hsame n).1 hn)
      exact ⟨c, hc⟩
    · refine List.eq_nil_iff_forall_not_mem.2 fun c hc => ?_
      have hlisted := (hsame c.name).2 (List.mem_map_of_mem hc)
      rw [hnone] at hlisted
      cases hlisted
  · rintro ⟨hnamed, hnothing⟩ n
    by_cases hnone : h.capabilities = []
    · rw [Agent.names, hnone, hnothing hnone, List.map_nil]
    · exact (Agent.mem_names_resolve hnamed hnone n).symm

/-! ## Tests in templates -/

namespace Template

variable {n : Nat} {s : Scope} {fs : Fields} {names : List String} {o : Operand} {c : String}

/-- The test whether the capabilities in a context some blocks further out list a name. -/
def capabilityTest (depth : Nat) (place : Place) (name : Operand) : Operand :=
  .of .hasCap [.way ⟨.context depth, ["agent", "capabilities"], place⟩, name]

/-- Wherever a template tests for a name in sight of a context, it is told whether that is one of
certain names. -/
def TestsFor (fs : Fields) (names : List String) : Prop :=
  ∀ (n : Nat) (s : Scope) (depth : Nat) (place : Place) (o : Operand) (c : String),
    IsData (.obj fs) (s.outward depth) → Gives (evalOperand (n + 1) s o) (IsData (.str c)) →
      Gives (evalOperand (n + 3) s (capabilityTest depth place o))
        (IsData (.bool (names.contains c)))

theorem textsOf_texts (names : List String) (o : Origin) :
    Helper.textsOf (.data (.texts names) o) = .ok names := by
  have hdisplay : ∀ (ms : List String) (k : Nat),
      (((ms.map Value.str).zipIdx k).map fun x => Item.data x.1 (o.child (toString x.2))).mapM
        Item.display = .ok ms := by
    intro ms
    induction ms with
    | nil => exact fun _ => rfl
    | cons m ms ih =>
        intro k
        have hm : (Item.data (.str m) (o.child (toString k))).display = .ok m :=
          Value.display_str m
        rw [List.map_cons, List.zipIdx_cons, List.map_cons, List.mapM_cons, hm, ih]
        rfl
  exact hdisplay names 0

/-- A test asks the capabilities as they stand in the context. -/
theorem testsFor_listed (h : (Fields.get fs "agent").get "capabilities" = .texts names) :
    TestsFor fs names := by
  intro n s depth place o c hs ho
  have hwalk : (Value.obj fs).walk ["agent", "capabilities"] = some (.texts names) :=
    Value.walk_cons rfl (Value.walk_of_get h nofun)
  refine gives_call (helper_gives (.cons (gives_context hs hwalk) (.cons ho .nil)) ?_)
  rintro _ (_ | ⟨⟨o₁, rfl⟩, (_ | ⟨⟨o₂, rfl⟩, (_ | _)⟩)⟩) k
  refine ⟨pure (.plain (.bool (names.contains c))), ?_, _, rfl⟩
  simp only [Helper.apply, List.getD_cons_zero, List.getD_cons_succ, textsOf_texts, textOf_str,
    bind, Except.bind]

/-- What a test is told does not depend on who asks for what: it is one answer. -/
theorem TestsFor.mem_iff {names' : List String} (h : TestsFor fs names) (h' : TestsFor fs names')
    (c : String) : c ∈ names ↔ c ∈ names' := by
  have hroot : IsData (.obj fs) ((Scope.whole fs).outward 0) := isData_root
  have hname : Gives (evalOperand 1 (Scope.whole fs) (.literal (.string c))) (IsData (.str c)) :=
    gives_literal _
  obtain ⟨i, ⟨o, rfl⟩, ⟨o', hi⟩⟩ := Gives.both (h 0 _ 0 ⟨1, 0⟩ _ c hroot hname)
    (h' 0 _ 0 ⟨1, 0⟩ _ c hroot hname)
  injection hi with hvalue
  injection hvalue with hbool
  rw [← List.contains_iff_mem, hbool, List.contains_iff_mem]

end Template

/-! ## Contexts of hosts -/

namespace Context

variable {a : Agent} {ctx : Fields} {fitted : Noted Fields}

/-- Fitting leaves everything alone but listeners and experimental settings. -/
theorem fit_others (h : fit a ctx = .ok fitted) {n : String} (hin : n ≠ "inbounds")
    (hex : n ≠ "experimental") : Fields.get fitted.value n = Fields.get ctx n := by
  have hkept : ∀ xs e : Value,
      Fields.get (Fields.put (Fields.put ctx "inbounds" xs) "experimental" e) n =
        Fields.get ctx n := by
    intro xs e
    rw [Fields.get_put_of_ne _ _ hex, Fields.get_put_of_ne _ _ hin]
  simp only [fit, bind, Except.bind] at h
  -- every stage that fails ends the fitting
  repeat' split at h
  all_goals cases h
  all_goals exact hkept _ _

end Context

namespace Store

open Template

variable {s : Store} {now : Instant} {h : AgentHost} {t : ConfigTemplate} {fitted : Noted Fields}

/-- In the context that a configuration is made with, tests tell of the report. -/
theorem testsFor_report (hfit : Context.fit (h.agent t) (s.contextFor now h t) = .ok fitted) :
    TestsFor fitted.value h.capabilities := by
  refine testsFor_listed ?_
  rw [Context.fit_others hfit (by decide) (by decide)]
  rfl

/-- In the context that a configuration for a host is made with, a template that tests for a
capability is told whether the host reported that very name. It is told whether the name is in the
set of capabilities that the same context was fitted to, for every name, exactly if nothing was to
be made out of the report. -/
theorem tests_tell_set_iff (hfit : Context.fit (h.agent t) (s.contextFor now h t) = .ok fitted) :
    TestsFor fitted.value h.capabilities ∧
      (TestsFor fitted.value (h.agent t).names ↔ h.ReportsSet t) := by
  have hreport := testsFor_report hfit
  refine ⟨hreport, fun hset => AgentHost.mem_names_iff.1 (hreport.mem_iff hset), fun hsettled => ?_⟩
  intro n s depth place o c hs ho
  have hsame : (h.agent t).names.contains c = h.capabilities.contains c := by
    rw [Bool.eq_iff_iff, List.contains_iff_mem, List.contains_iff_mem]
    exact (AgentHost.mem_names_iff.2 hsettled c).symm
  rw [hsame]
  exact hreport n s depth place o c hs ho

/-- A template for Xray that is more talkative with Reality. -/
def talkative : ConfigTemplate where
  id := "id-2"
  name := "talkative"
  type := .xray
  content := "\x7b\"log\": \x7b\"loglevel\": \"" ++
    "\x7b\x7b#if (hasCap agent.capabilities \"reality\")\x7d\x7ddebug" ++
    "\x7b\x7belse\x7d\x7dnone\x7b\x7b/if\x7d\x7d" ++
    "\"\x7d, \"inbounds\": [], \"outbounds\": []\x7d"
  description := ""
  minVersion := ""
  capabilities := []
  schemaVersion := 1
  isValid := true
  validationError := ""
  createdAt := ""
  updatedAt := ""

/-- A host with Xray 1.8.0 that reports certain capabilities. -/
def reporting (capabilities : List String) : AgentHost where
  id := "id-1"
  name := "node"
  host := "10.0.0.1"
  token := "token"
  coreType := "xray"
  coreVersion := "1.8.0"
  capabilities := capabilities
  buildTags := []
  templateId := none
  createdAt := ""
  updatedAt := ""

/-- Without servers there are no listeners, and the context is fitted. -/
theorem fit_reporting (capabilities : List String) : ∃ fitted,
    Context.fit ((reporting capabilities).agent talkative)
      (empty.contextFor ⟨0⟩ (reporting capabilities) talkative) = .ok fitted := by
  have hnone : empty.serversOf (reporting capabilities).id = [] := by
    simp [serversOf, empty, sortBy]
  have hinbounds : Fields.get (empty.contextFor ⟨0⟩ (reporting capabilities) talkative)
      "inbounds" = .arr [] := by
    simp only [contextFor, hnone]
    rfl
  obtain ⟨out, _, notes, hfit, -, -⟩ :=
    Context.fit_fitted ((reporting capabilities).agent talkative) _ [] "xray" hinbounds nofun rfl
  exact ⟨⟨out, notes⟩, hfit⟩

theorem tests_tell_set_iff_named : ∃ fitted,
    Context.fit ((reporting ["reality", "stats"]).agent talkative)
      (empty.contextFor ⟨0⟩ (reporting ["reality", "stats"]) talkative) = .ok fitted ∧
    TestsFor fitted.value ["reality", "stats"] ∧
    TestsFor fitted.value ((reporting ["reality", "stats"]).agent talkative).names := by
  obtain ⟨fitted, hfit⟩ := fit_reporting ["reality", "stats"]
  obtain ⟨hreport, hset⟩ := tests_tell_set_iff hfit
  have hnamed : ∀ n ∈ ["reality", "stats"], ∃ c : Capability, c.name = n :=
    List.forall_mem_cons.2 ⟨⟨.reality, rfl⟩, List.forall_mem_singleton.2 ⟨.stats, rfl⟩⟩
  exact ⟨fitted, hfit, hreport, hset.2 ⟨hnamed, nofun⟩⟩

/-- A version that brings Reality, without a report: the context is fitted to an agent that has it,
and the template is told that the agent does not. -/
theorem derived_capability_untold :
    let h := reporting []
    .reality ∈ (h.agent talkative).capabilities ∧
    (∃ fitted, Context.fit (h.agent talkative) (empty.contextFor ⟨0⟩ h talkative) = .ok fitted ∧
      ¬TestsFor fitted.value (h.agent talkative).names) ∧
    (empty.generate ⟨0⟩ h talkative).result =
      .ok ("\x7b\n  \"log\": \x7b\n    \"loglevel\": \"none\"\n  \x7d,\n" ++
        "  \"inbounds\": [],\n  \"outbounds\": []\n\x7d") := by
  intro h
  have hreality : .reality ∈ (h.agent talkative).capabilities := by decide +kernel
  obtain ⟨fitted, hfit⟩ := fit_reporting []
  refine ⟨hreality, ⟨fitted, hfit, fun hset => ?_⟩, by decide +kernel⟩
  have hlisted := ((testsFor_report hfit).mem_iff hset Capability.reality.name).2
    (List.mem_map_of_mem hreality)
  cases hlisted

end Store

end ProxyFleet
