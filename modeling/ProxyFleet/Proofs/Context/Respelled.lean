import ProxyFleet.Proofs.Context.Capabilities
import ProxyFleet.Proofs.Text.Case

/-!
# Reports in other spellings

Two reports say the same if each name of one is a respelling of a name of the other
(`SameReport`), whatever their order and however often they say it. What an agent can do
is made out of normal forms, which are the same exactly for respellings, so it does not
depend on the spelling.

Fitting a context asks for the capabilities and, at one place, for the build tags once
more: the statistics interface of sing-box is kept if its tag is listed as it is spelled
in the rules. There, and nowhere else, two reports that say the same can come apart
(`Context.fit_respelled_iff`).
-/

namespace ProxyFleet

/-! ## Respellings -/

/-- Texts that differ by no more than blanks around them and letter case; where underscores may stand
for hyphens, by these too. -/
inductive Respelled (underscores : Bool) : String → String → Prop
  | blanks {a b : String} : trim a = trim b → Respelled underscores a b
  | case {a b : String} : lower a = lower b → Respelled underscores a b
  | hyphens {a b : String} : underscores = true →
      a.toList.map unhyphened = b.toList.map unhyphened → Respelled underscores a b
  | symm {a b : String} : Respelled underscores a b → Respelled underscores b a
  | trans {a b c : String} : Respelled underscores a b → Respelled underscores b c →
      Respelled underscores a c

namespace Respelled

variable {a b : String}

theorem lower_trim (s : String) : lower (trim s) = trim (lower s) := by
  simp only [lower, trim, String.toList_ofList, trimChars_lowerChars]

theorem normalizeName_eq (s : String) :
    Capability.normalizeName s = String.ofList ((lower (trim s)).toList.map unhyphened) := rfl

/-- The normal form can be made of the text with underscores. -/
theorem normalizeName_unhyphened (s : String) : Capability.normalizeName s =
    lower (trim (String.ofList (s.toList.map unhyphened))) := by
  rw [normalizeName_eq]
  simp only [lower, trim, String.toList_ofList, trimChars_unhyphened]
  exact congrArg String.ofList (lowerAux_unhyphened [] _).symm

/-- Respellings of a tag are the texts of one normal form. -/
theorem tag_iff : Respelled false a b ↔ lower (trim a) = lower (trim b) := by
  constructor
  · intro h
    induction h with
    | blanks h => rw [h]
    | case h => rw [lower_trim, lower_trim, h]
    | hyphens h => cases h
    | symm _ ih => exact ih.symm
    | trans _ _ ih ih' => exact ih.trans ih'
  · intro h
    have ha : Respelled false a (trim a) := .blanks (trim_trim a).symm
    have hb : Respelled false (trim b) b := .blanks (trim_trim b)
    exact ha.trans ((Respelled.case h).trans hb)

/-- Respellings of a name are the texts of one normal form. -/
theorem name_iff :
    Respelled true a b ↔ Capability.normalizeName a = Capability.normalizeName b := by
  constructor
  · intro h
    induction h with
    | blanks h => rw [normalizeName_eq, normalizeName_eq, h]
    | case h => rw [normalizeName_eq, normalizeName_eq, lower_trim, lower_trim, h]
    | hyphens _ h => rw [normalizeName_unhyphened, normalizeName_unhyphened, h]
    | symm _ ih => exact ih.symm
    | trans _ _ ih ih' => exact ih.trans ih'
  · intro h
    have hmarks : ∀ s : String, Respelled true s (String.ofList (s.toList.map unhyphened)) := by
      intro s
      refine .hyphens rfl ?_
      rw [String.toList_ofList, List.map_map]
      exact List.map_congr_left fun c _ => (unhyphened_unhyphened c).symm
    have hcase : Respelled true (trim (String.ofList (a.toList.map unhyphened)))
        (trim (String.ofList (b.toList.map unhyphened))) := by
      rw [normalizeName_unhyphened, normalizeName_unhyphened] at h
      exact .case h
    have hblanks : ∀ s : String, Respelled true s (trim s) := fun s => .blanks (trim_trim s).symm
    exact (hmarks a).trans
      ((hblanks _).trans (hcase.trans ((hblanks _).symm.trans (hmarks b).symm)))

instance : Decidable (Respelled false a b) := decidable_of_iff _ tag_iff.symm

instance : Decidable (Respelled true a b) := decidable_of_iff _ name_iff.symm

end Respelled

/-- Lists that say the same, whatever the order, the spelling, and how often they say it. -/
def SameReport (underscores : Bool) (xs ys : List String) : Prop :=
  (∀ x ∈ xs, ∃ y ∈ ys, Respelled underscores x y) ∧ ∀ y ∈ ys, ∃ x ∈ xs, Respelled underscores x y

namespace SameReport

variable {xs ys : List String}

instance (underscores : Bool) [∀ a b, Decidable (Respelled underscores a b)] :
    Decidable (SameReport underscores xs ys) :=
  inferInstanceAs (Decidable (_ ∧ _))

/-- The normal forms in lists that say the same are the same. -/
theorem mem_map_iff {underscores : Bool} {f : String → String} (h : SameReport underscores xs ys)
    (hf : ∀ a b, Respelled underscores a b → f a = f b) (n : String) :
    n ∈ xs.map f ↔ n ∈ ys.map f := by
  constructor
  · intro hn
    obtain ⟨x, hx, rfl⟩ := List.mem_map.1 hn
    obtain ⟨y, hy, hxy⟩ := h.1 x hx
    exact List.mem_map.2 ⟨y, hy, (hf x y hxy).symm⟩
  · intro hn
    obtain ⟨y, hy, rfl⟩ := List.mem_map.1 hn
    obtain ⟨x, hx, hxy⟩ := h.2 y hy
    exact List.mem_map.2 ⟨x, hx, hf x y hxy⟩

theorem tags (h : SameReport false xs ys) (n : String) :
    n ∈ xs.map (fun t => lower (trim t)) ↔ n ∈ ys.map fun t => lower (trim t) :=
  h.mem_map_iff (fun _ _ => Respelled.tag_iff.1) n

theorem names (h : SameReport true xs ys) (n : String) :
    n ∈ xs.map Capability.normalizeName ↔ n ∈ ys.map Capability.normalizeName :=
  h.mem_map_iff (fun _ _ => Respelled.name_iff.1) n

end SameReport

/-! ## Capabilities -/

namespace Capability

variable {xs ys : List String}

theorem sorted_congr {cs ds : List Capability} (h : ∀ c, c ∈ cs ↔ c ∈ ds) :
    sorted cs = sorted ds := by
  refine List.filter_congr fun c _ => ?_
  rw [Bool.eq_iff_iff, List.contains_iff_mem, List.contains_iff_mem]
  exact h c

theorem ofNames_respelled (h : SameReport true xs ys) : ofNames xs = ofNames ys := by
  refine sorted_congr fun c => ?_
  have hnamed : ∀ zs : List String, (c ∈ zs.filterMap fun n => ofName? (normalizeName n)) ↔
      c.name ∈ zs.map normalizeName := by
    intro zs
    simp only [List.mem_filterMap, ofName?_eq_some, List.mem_map]
    exact exists_congr fun n => and_congr_right fun _ => eq_comm
  rw [hnamed, hnamed]
  exact h.names c.name

theorem derive_respelled (coreType coreVersion : String) (h : SameReport false xs ys) :
    derive coreType coreVersion xs = derive coreType coreVersion ys := by
  have hcontains : ∀ t, (xs.map fun t => lower (trim t)).contains t =
      (ys.map fun t => lower (trim t)).contains t := by
    intro t
    rw [Bool.eq_iff_iff, List.contains_iff_mem, List.contains_iff_mem]
    exact h.tags t
  unfold derive
  simp only [hcontains]

end Capability

namespace Agent

theorem resolve_coreType (coreType coreVersion : String) (names tags : List String) :
    (resolve coreType coreVersion names tags).coreType = coreType := rfl

theorem resolve_buildTags (coreType coreVersion : String) (names tags : List String) :
    (resolve coreType coreVersion names tags).buildTags = tags := rfl

/-- An agent's capabilities do not depend on how its report is spelled. -/
theorem resolve_respelled (coreType coreVersion : String) {names names' tags tags' : List String}
    (hnames : SameReport true names names') (htags : SameReport false tags tags') :
    (resolve coreType coreVersion names tags).capabilities =
      (resolve coreType coreVersion names' tags').capabilities := by
  simp only [resolve, Capability.ofNames_respelled hnames,
    Capability.derive_respelled coreType coreVersion htags]

end Agent

/-! ## Contexts -/

namespace Context

variable {a b : Agent}

/-- Whether a context has a statistics interface in its experimental settings. -/
def asksStatistics (ctx : Fields) : Bool :=
  !(Fields.get ((Fields.get ctx "experimental").fields?.getD []) "v2rayApi").isAbsent

/-- The listeners of a context, fitted to an agent. -/
def fitListeners (a : Agent) (ctx : Fields) : Except ShapeFault (Noted (List Value)) := do
  let inbounds ← (Fields.get ctx "inbounds").itemsOrFault
  let target ← match inbounds with
    | [] => pure (.str "")
    | _ => do (← (Value.obj ctx).field "agent").field "coreType"
  let served ← servableOnly target inbounds
  let fitted ← fitInbounds a served.value
  pure ⟨fitted.value, served.notes ++ fitted.notes⟩

/-- A context with fitted listeners, and with the experimental settings fitted too. -/
def withListeners (a : Agent) (ctx : Fields) (r : Noted (List Value)) : Noted Fields :=
  let experimental := fitExperimental a (Fields.get ctx "experimental")
  ⟨Fields.put (Fields.put ctx "inbounds" (.arr r.value)) "experimental" experimental.value,
    r.notes ++ experimental.notes⟩

/-- Fitting is fitting the listeners, and then the experimental settings, which cannot fail. -/
theorem fit_eq (a : Agent) (ctx : Fields) :
    fit a ctx = (fitListeners a ctx).map (withListeners a ctx) := by
  change _ = withListeners a ctx <$> fitListeners a ctx
  rw [fit, fitListeners, map_bind]
  refine bind_congr fun inbounds => ?_
  cases inbounds with
  | nil =>
      simp only [map_bind, map_pure, pure_bind]
      rfl
  | cons v vs =>
      simp only [map_bind, map_pure]
      rfl

theorem fitInbounds_congr (htype : a.coreType = b.coreType)
    (hcaps : a.capabilities = b.capabilities) (vs : List Value) :
    fitInbounds a vs = fitInbounds b vs := by
  have hsupports : ∀ n, a.supports n = b.supports n := fun n => by
    rw [Agent.supports, Agent.supports, hcaps]
  have hrequirement : ∀ c, a.requirement c = b.requirement c := fun c => by
    unfold Agent.requirement
    rw [htype]
  induction vs with
  | nil => rfl
  | cons v vs ih =>
      have hv : fitInbound a v = fitInbound b v := by
        cases v with
        | obj fs =>
            simp only [fitInbound, fitReality, fitMultiplex, removal, hsupports, hrequirement]
        | _ => rfl
      rw [fitInbounds, fitInbounds, hv, ih]

theorem fitExperimental_asks (a : Agent) (ctx : Fields) :
    fitExperimental a (Fields.get ctx "experimental") =
      if (asksStatistics ctx && !keepsV2rayApi a) = true then
        ⟨.obj (Fields.erase ((Fields.get ctx "experimental").fields?.getD []) "v2rayApi"),
          ["Removing v2ray_api from experimental - not supported by agent (requires build tag "
            ++ v2rayApiTag ++ ")"]⟩
      else ⟨.obj ((Fields.get ctx "experimental").fields?.getD []), []⟩ := rfl

/-- Agents that can do the same fit a context alike if it has no statistics interface or they both keep
it or both do not. Else they note it differently. -/
theorem fit_congr_iff (htype : a.coreType = b.coreType) (hcaps : a.capabilities = b.capabilities)
    (ctx : Fields) :
    fit a ctx = fit b ctx ↔ ((∃ fitted, fit a ctx = .ok fitted) → asksStatistics ctx = true →
      keepsV2rayApi a = keepsV2rayApi b) := by
  have hlisteners : fitListeners a ctx = fitListeners b ctx := by
    simp only [fitListeners, fitInbounds_congr htype hcaps]
  rw [fit_eq, fit_eq, hlisteners]
  cases fitListeners b ctx with
  | error e =>
      rw [Except.map, Except.map]
      exact iff_of_true rfl nofun
  | ok r =>
      rw [Except.map, Except.map, Except.ok.injEq]
      constructor
      · intro h _ hasks
        have hnotes := List.append_cancel_left (congrArg Noted.notes h)
        rw [fitExperimental_asks, fitExperimental_asks, hasks] at hnotes
        cases ha : keepsV2rayApi a <;> cases hb : keepsV2rayApi b <;> simp_all
      · intro h
        have hsame : fitExperimental a (Fields.get ctx "experimental") =
            fitExperimental b (Fields.get ctx "experimental") := by
          rw [fitExperimental_asks, fitExperimental_asks]
          by_cases hasks : asksStatistics ctx = true
          · rw [h ⟨_, rfl⟩ hasks]
          · rw [Bool.eq_false_iff.2 hasks, Bool.false_and, Bool.false_and]
        rw [withListeners, withListeners, hsame]

theorem keepsV2rayApi_iff (a : Agent) : keepsV2rayApi a = true ↔
    Engine.ofName? a.coreType = some .xray ∨ Engine.ofName? a.coreType = some .singBox ∧
      .v2rayApi ∈ a.capabilities ∧ v2rayApiTag ∈ a.buildTags := by
  unfold keepsV2rayApi
  cases Engine.ofName? a.coreType with
  | none => simp
  | some e => cases e <;> simp [Agent.supports_name]

theorem keepsV2rayApi_congr_iff (htype : a.coreType = b.coreType)
    (hcaps : a.capabilities = b.capabilities) :
    keepsV2rayApi a = keepsV2rayApi b ↔ (Engine.ofName? a.coreType = some .singBox →
      .v2rayApi ∈ a.capabilities → (v2rayApiTag ∈ a.buildTags ↔ v2rayApiTag ∈ b.buildTags)) := by
  rw [Bool.eq_iff_iff, keepsV2rayApi_iff, keepsV2rayApi_iff, ← htype, ← hcaps]
  cases Engine.ofName? a.coreType with
  | none => simp
  | some e =>
      cases e with
      | xray => simp
      | singBox => simp [and_congr_right_iff]

/-- Agents of one core whose reports say the same have the same capabilities. A context is fitted to
both alike, the notes included, unless it has a statistics interface, the core is a sing-box that can
offer it, and just one of the two lists its build tag as it is spelled in the rules. -/
theorem fit_respelled_iff (coreType coreVersion : String) {names names' tags tags' : List String}
    (hnames : SameReport true names names') (htags : SameReport false tags tags') :
    let a := Agent.resolve coreType coreVersion names tags
    let b := Agent.resolve coreType coreVersion names' tags'
    a.capabilities = b.capabilities ∧ ∀ ctx : Fields,
      (fit a ctx = fit b ctx ↔ ((∃ fitted, fit a ctx = .ok fitted) → asksStatistics ctx = true →
        Engine.ofName? coreType = some .singBox → .v2rayApi ∈ a.capabilities →
          (v2rayApiTag ∈ tags ↔ v2rayApiTag ∈ tags'))) := by
  intro a b
  have htype : a.coreType = b.coreType := by
    rw [Agent.resolve_coreType, Agent.resolve_coreType]
  have hcaps : a.capabilities = b.capabilities :=
    Agent.resolve_respelled coreType coreVersion hnames htags
  refine ⟨hcaps, fun ctx => ?_⟩
  rw [fit_congr_iff htype hcaps, keepsV2rayApi_congr_iff htype hcaps, Agent.resolve_coreType,
    Agent.resolve_buildTags, Agent.resolve_buildTags]

/-- The tag is in both lists as it is in the rules, and once more in another spelling. -/
theorem fit_respelled_iff_thrice :
    let a := Agent.resolve "sing-box" "1.8.0" ["V2RAY-API", "Tun"] ["with_v2ray_api", "with_quic"]
    let b := Agent.resolve "sing-box" "1.8.0" ["tun ", "v2ray_api"]
      ["WITH_QUIC", "with_v2ray_api", "With_V2ray_Api "]
    a.capabilities = b.capabilities ∧ ∀ ctx : Fields, fit a ctx = fit b ctx := by
  intro a b
  obtain ⟨hcaps, hfit⟩ := fit_respelled_iff "sing-box" "1.8.0"
    (by decide +kernel : SameReport true ["V2RAY-API", "Tun"] ["tun ", "v2ray_api"])
    (by decide +kernel : SameReport false ["with_v2ray_api", "with_quic"]
      ["WITH_QUIC", "with_v2ray_api", "With_V2ray_Api "])
  exact ⟨hcaps, fun ctx => (hfit ctx).2 fun _ _ _ _ => iff_of_true (by decide) (by decide)⟩

/-- A build tag in capitals: the same capabilities come of it, the statistics interface among them, but
the interface is removed. -/
theorem capital_tag_loses_statistics :
    let a := Agent.resolve "sing-box" "1.8.0" [] ["WITH_V2RAY_API"]
    let b := Agent.resolve "sing-box" "1.8.0" [] ["with_v2ray_api"]
    let ctx : Fields := [("inbounds", .arr []), ("experimental", .obj [("v2rayApi", .obj [])])]
    SameReport false ["WITH_V2RAY_API"] ["with_v2ray_api"] ∧ a.capabilities = b.capabilities ∧
      .v2rayApi ∈ a.capabilities ∧ fit a ctx ≠ fit b ctx := by
  intro a b ctx
  have hnotes : (fit a ctx).map Noted.notes = .ok
      ["Removing v2ray_api from experimental - not supported by agent (requires build tag "
        ++ v2rayApiTag ++ ")"] := by
    decide +kernel
  have hnone : (fit b ctx).map Noted.notes = .ok [] := by decide +kernel
  refine ⟨by decide +kernel, by decide +kernel, by decide +kernel, fun hsame => ?_⟩
  rw [hsame, hnone] at hnotes
  cases hnotes

/-- Where the interface is not asked for, the tag in capitals is no loss. -/
example :
    let ctx : Fields := [("inbounds", .arr []), ("experimental", .obj [])]
    (fit (Agent.resolve "sing-box" "1.8.0" [] ["WITH_V2RAY_API"]) ctx).map Noted.notes =
      (fit (Agent.resolve "sing-box" "1.8.0" [] ["with_v2ray_api"]) ctx).map Noted.notes := by
  decide +kernel

end Context

end ProxyFleet
