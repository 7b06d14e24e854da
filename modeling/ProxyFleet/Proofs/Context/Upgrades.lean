import Mathlib.Data.List.TakeWhile
import ProxyFleet.Proofs.Context.Capabilities

/-!
# Newer versions can do no less

The texts that hold a version are ordered by it, up to texts of one version
(`Version.TextLe`). All that an agent's version decides is decided by lower bounds: rules
of capabilities and templates ask for a least version, and nothing asks for a greatest.
So an agent with a later version, all else being the same, has the capabilities it had,
serves the templates it served, and is warned of no more.

A report of capabilities takes the place of all rules, for both versions alike.
-/

namespace ProxyFleet

namespace Version

variable {u v w : Version} {a b c : String}

/-! ## The order of versions -/

theorem compare_swap (v w : Version) : (v.compare w).swap = w.compare v := by
  simp only [compare, Ordering.swap_then, Nat.compare_swap]

theorem compare_self (v : Version) : v.compare v = .eq := by
  simp only [compare, Nat.compare_eq_eq.2, Ordering.then]

theorem compare_ne_gt : v.compare w ≠ .gt ↔ v.major < w.major ∨ v.major = w.major ∧
    (v.minor < w.minor ∨ v.minor = w.minor ∧ v.patch ≤ w.patch) := by
  simp only [compare, ne_eq, Ordering.then_eq_gt, Nat.compare_eq_gt, Nat.compare_eq_eq]
  omega

theorem compare_trans (h : u.compare v ≠ .gt) (h' : v.compare w ≠ .gt) : u.compare w ≠ .gt := by
  rw [compare_ne_gt] at h h' ⊢
  omega

theorem compare_total (v w : Version) : v.compare w ≠ .gt ∨ w.compare v ≠ .gt := by
  rw [compare_ne_gt, compare_ne_gt]
  omega

/-! ## Texts with a version -/

/-- Both texts have a version, and that of the first is not above that of the second. -/
def TextLe (a b : String) : Prop := ∃ o, compareVersions? a b = some o ∧ o ≠ .gt

theorem compareVersions?_eq_some {o : Ordering} : compareVersions? a b = some o ↔
    ∃ v w, ofText? a = some v ∧ ofText? b = some w ∧ v.compare w = o := by
  unfold compareVersions?
  cases ofText? a <;> cases ofText? b <;> simp

theorem textLe_iff :
    TextLe a b ↔ ∃ v w, ofText? a = some v ∧ ofText? b = some w ∧ v.compare w ≠ .gt := by
  constructor
  · rintro ⟨o, ho, hle⟩
    obtain ⟨v, w, hv, hw, rfl⟩ := compareVersions?_eq_some.1 ho
    exact ⟨v, w, hv, hw, hle⟩
  · rintro ⟨v, w, hv, hw, hle⟩
    exact ⟨_, compareVersions?_eq_some.2 ⟨v, w, hv, hw, rfl⟩, hle⟩

theorem compareVersions?_swap (a b : String) :
    compareVersions? b a = (compareVersions? a b).map Ordering.swap := by
  unfold compareVersions?
  cases ofText? a <;> cases ofText? b <;> simp [compare_swap]

theorem TextLe.trans (h : TextLe a b) (h' : TextLe b c) : TextLe a c := by
  obtain ⟨u, v, hu, hv, huv⟩ := textLe_iff.1 h
  obtain ⟨v', w, hv', hw, hvw⟩ := textLe_iff.1 h'
  obtain rfl : v = v' := Option.some.inj (hv.symm.trans hv')
  exact textLe_iff.2 ⟨u, w, hu, hw, compare_trans huv hvw⟩

theorem textLe_total (ha : (ofText? a).isSome) (hb : (ofText? b).isSome) :
    TextLe a b ∨ TextLe b a := by
  obtain ⟨v, hv⟩ := Option.isSome_iff_exists.1 ha
  obtain ⟨w, hw⟩ := Option.isSome_iff_exists.1 hb
  exact (compare_total v w).imp (fun h => textLe_iff.2 ⟨v, w, hv, hw, h⟩)
    (fun h => textLe_iff.2 ⟨w, v, hw, hv, h⟩)

/-- A text is at least a version if it has one and the other is not above it. -/
theorem versionAtLeast_iff : versionAtLeast a b = true ↔ TextLe b a := by
  rw [TextLe, compareVersions?_swap, versionAtLeast]
  cases compareVersions? a b with
  | none => simp
  | some o => cases o <;> simp

theorem isAllBlank_of_ofText? (h : ofText? a = some v) : isAllBlank a = false := by
  rw [Bool.eq_false_iff]
  intro hblank
  have hnone : trimChars a.toList = [] := by
    rw [trimChars, List.dropWhile_eq_nil_iff.2 (List.all_eq_true.1 hblank)]
    rfl
  rw [ofText?, hnone] at h
  cases h

theorem TextLe.not_blank (h : TextLe a b) : isAllBlank a = false ∧ isAllBlank b = false := by
  obtain ⟨v, w, hv, hw, -⟩ := textLe_iff.1 h
  exact ⟨isAllBlank_of_ofText? hv, isAllBlank_of_ofText? hw⟩

end Version

/-! ## Capabilities -/

namespace Capability

variable {c : Capability} {coreType coreVersion : String} {buildTags : List String}

/-- A capability is derived by a rule that asks for a least version, or for a tag alone. -/
theorem mem_derive : c ∈ derive coreType coreVersion buildTags ↔
    ∃ e v, Engine.ofName? coreType = some e ∧ Version.ofText? coreVersion = some v ∧
      ((∃ r ∈ e.versionRules, r.capability = c ∧ versionAtLeast coreVersion r.minVersion = true ∧
        ∀ t ∈ r.buildTag, t ∈ buildTags.map fun b => lower (trim b)) ∨
      ∃ r ∈ e.tagRules, r.2 = c ∧ r.1 ∈ buildTags.map fun b => lower (trim b)) := by
  unfold derive
  cases Engine.ofName? coreType with
  | none => simp
  | some e =>
      cases Version.ofText? coreVersion with
      | none => simp
      | some v =>
          generalize buildTags.map (fun b => lower (trim b)) = tags
          simp [mem_sorted, Option.all_eq_true, and_assoc, and_comm, and_left_comm]

/-- What a version brings, a later one brings too. -/
theorem derive_mono {older newer : String} (h : Version.TextLe older newer) :
    derive coreType older buildTags ⊆ derive coreType newer buildTags := by
  intro c hc
  obtain ⟨e, v, he, hv, hrule⟩ := mem_derive.1 hc
  obtain ⟨-, w, -, hw, -⟩ := Version.textLe_iff.1 h
  refine mem_derive.2 ⟨e, w, he, hw, hrule.imp_left ?_⟩
  rintro ⟨r, hr, hcap, hversion, htag⟩
  refine ⟨r, hr, hcap, Version.versionAtLeast_iff.2 ?_, htag⟩
  exact (Version.versionAtLeast_iff.1 hversion).trans h

end Capability

namespace Agent

variable {older newer minVersion : String} {capabilities : List String} {a b : Agent}

theorem resolve_mono (h : Version.TextLe older newer) (coreType : String)
    (reported buildTags : List String) :
    (resolve coreType older reported buildTags).capabilities ⊆
      (resolve coreType newer reported buildTags).capabilities := by
  obtain ⟨holder, hnewer⟩ := h.not_blank
  simp only [resolve, holder, hnewer]
  split
  · exact Capability.derive_mono h
  · exact List.Subset.refl _

theorem supports_mono (hcaps : a.capabilities ⊆ b.capabilities) {n : String}
    (h : a.supports n = true) : b.supports n = true := by
  obtain ⟨c, hc, hname⟩ := List.any_eq_true.1 h
  exact List.any_eq_true.2 ⟨c, hcaps hc, hname⟩

/-! ## Templates -/

theorem supportsVersion_mono (h : Version.TextLe a.coreVersion b.coreVersion)
    (ha : a.supportsVersion minVersion = true) : b.supportsVersion minVersion = true := by
  obtain ⟨hblank, hblank'⟩ := h.not_blank
  rw [supportsVersion, hblank']
  rw [supportsVersion, hblank] at ha
  split
  · rfl
  · next hmin =>
    rw [if_neg hmin, if_neg Bool.false_ne_true, Version.versionAtLeast_iff] at ha
    rw [if_neg Bool.false_ne_true, Version.versionAtLeast_iff]
    exact ha.trans h

/-- The warnings of a core with a known version are on capabilities that it does not have. -/
theorem compatibility_known (minVersion : String) (capabilities : List String)
    (hblank : isAllBlank a.coreVersion = false) :
    (a.compatibility minVersion capabilities).compatible = a.supportsVersion minVersion ∧
    (a.compatibility minVersion capabilities).warnings =
      (capabilities.filter fun c => !a.supports c).map fun c =>
        "Template requires capability '" ++ c ++ "', which the agent does not support" := by
  have hblank' : ¬isAllBlank a.coreVersion = true := by rw [hblank]; exact Bool.false_ne_true
  rw [compatibility]
  by_cases hmin : isAllBlank minVersion = true
  · rw [if_pos hmin, supportsVersion, if_pos hmin]
    exact ⟨rfl, rfl⟩
  · rw [if_neg hmin, if_neg hblank']
    by_cases hversion : a.supportsVersion minVersion = true
    · rw [if_pos hversion, hversion]
      exact ⟨rfl, rfl⟩
    · rw [if_neg hversion, Bool.eq_false_iff.2 hversion]
      exact ⟨rfl, rfl⟩

/-- Where a template can be used there are no errors. -/
theorem compatibility_errors
    (h : (a.compatibility minVersion capabilities).compatible = true) :
    (a.compatibility minVersion capabilities).errors = [] := by
  unfold compatibility at h ⊢
  dsimp only at h ⊢
  repeat' split at h
  all_goals simp_all

theorem compatibility_mono (h : Version.TextLe a.coreVersion b.coreVersion)
    (hcaps : a.capabilities ⊆ b.capabilities)
    (ha : (a.compatibility minVersion capabilities).compatible = true) :
    (b.compatibility minVersion capabilities).compatible = true ∧
      (b.compatibility minVersion capabilities).errors = [] ∧
      (b.compatibility minVersion capabilities).warnings.Sublist
        (a.compatibility minVersion capabilities).warnings := by
  obtain ⟨hblank, hblank'⟩ := h.not_blank
  obtain ⟨hcompatible, hwarnings⟩ := compatibility_known minVersion capabilities hblank
  obtain ⟨hcompatible', hwarnings'⟩ := compatibility_known minVersion capabilities hblank'
  have hb : (b.compatibility minVersion capabilities).compatible = true := by
    rw [hcompatible']
    exact supportsVersion_mono h (hcompatible ▸ ha)
  refine ⟨hb, compatibility_errors hb, ?_⟩
  rw [hwarnings, hwarnings']
  refine (List.monotone_filter_right capabilities fun n hn => ?_).map _
  rw [Bool.not_eq_true'] at hn ⊢
  rw [Bool.eq_false_iff] at hn ⊢
  exact fun hsupports => hn (supports_mono hcaps hsupports)

/-- The texts that have a version are ordered by how they compare: any two of them compare, the other
way round with the opposite result, and what is not above another is not above what that one is not
above. An agent whose version is replaced by one that it is not above has the capabilities that it
had, and each template that could be used still can be, without any warning that was not there. -/
theorem upgrade_keeps :
    (∀ a b, (Version.ofText? a).isSome → (Version.ofText? b).isSome →
      ∃ o, compareVersions? a b = some o ∧ compareVersions? b a = some o.swap) ∧
    (∀ a, (Version.ofText? a).isSome → compareVersions? a a = some .eq) ∧
    (∀ a b c, Version.TextLe a b → Version.TextLe b c → Version.TextLe a c) ∧
    (∀ a b, (Version.ofText? a).isSome → (Version.ofText? b).isSome →
      Version.TextLe a b ∨ Version.TextLe b a) ∧
    ∀ coreType older newer reported buildTags, Version.TextLe older newer →
      let a := resolve coreType older reported buildTags
      let b := resolve coreType newer reported buildTags
      a.capabilities ⊆ b.capabilities ∧ ∀ minVersion capabilities,
        (a.compatibility minVersion capabilities).compatible = true →
          (b.compatibility minVersion capabilities).compatible = true ∧
          (b.compatibility minVersion capabilities).errors = [] ∧
          (b.compatibility minVersion capabilities).warnings.Sublist
            (a.compatibility minVersion capabilities).warnings := by
  refine ⟨fun a b ha hb => ?_, fun a ha => ?_, fun a b c => .trans, fun a b => Version.textLe_total,
    fun coreType older newer reported buildTags h => ?_⟩
  · obtain ⟨v, hv⟩ := Option.isSome_iff_exists.1 ha
    obtain ⟨w, hw⟩ := Option.isSome_iff_exists.1 hb
    have hcompare := Version.compareVersions?_eq_some.2 ⟨v, w, hv, hw, rfl⟩
    exact ⟨_, hcompare, by rw [Version.compareVersions?_swap, hcompare]; rfl⟩
  · obtain ⟨v, hv⟩ := Option.isSome_iff_exists.1 ha
    exact Version.compareVersions?_eq_some.2 ⟨v, v, hv, hv, Version.compare_self v⟩
  · have hcaps := resolve_mono h coreType reported buildTags
    exact ⟨hcaps, fun minVersion capabilities => compatibility_mono h hcaps⟩

/-- From 1.7.9 to 1.10, where comparing texts would have it the other way round. -/
theorem upgrade_keeps_tenth :
    let a := resolve "sing-box" "v1.7.9-beta.1" [] ["with_quic"]
    let b := resolve "sing-box" "1.10" [] ["with_quic"]
    Version.TextLe "v1.7.9-beta.1" "1.10" ∧ a.capabilities ⊆ b.capabilities ∧
      (b.compatibility "1.7" ["ech", "tun"]).compatible = true ∧
      (b.compatibility "1.7" ["ech", "tun"]).warnings.Sublist
        (a.compatibility "1.7" ["ech", "tun"]).warnings := by
  intro a b
  have hle : Version.TextLe "v1.7.9-beta.1" "1.10" := ⟨.lt, by decide, by decide⟩
  obtain ⟨-, -, -, -, hkeeps⟩ := upgrade_keeps
  obtain ⟨hcaps, htemplates⟩ := hkeeps "sing-box" _ _ [] ["with_quic"] hle
  obtain ⟨hcompatible, -, hwarnings⟩ := htemplates "1.7" ["ech", "tun"] (by decide)
  exact ⟨hle, hcaps, hcompatible, hwarnings⟩

end Agent

end ProxyFleet
