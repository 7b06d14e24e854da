import ProxyFleet.Context.Filter
import ProxyFleet.Inbound.Unchecked
import ProxyFleet.Proofs.Inbound.Record

/-!
# What is left of a context

Fitting a context of well-shaped listeners to an agent always comes about. What
is left of a listener is told by comparing it with what it was (`Fits`): parts
that were switched on and that the agent cannot do are gone, everything else is
as it was, and what the listener is said to need is what it then needs. The notes
are one for each removal that the comparison shows (`Value.removed`), so nothing
is lost in silence and nothing is said that was not done.

What is left needs no fitting: a second time changes nothing.
-/

namespace ProxyFleet

theorem Capability.normalizeName_name (c : Capability) : normalizeName c.name = c.name := by
  cases c <;> decide +kernel

theorem Capability.name_inj {c d : Capability} : c.name = d.name ↔ c = d := by
  cases c <;> cases d <;> decide

theorem Agent.supports_name (a : Agent) (c : Capability) :
    a.supports c.name = a.capabilities.contains c := by
  rw [supports, Capability.normalizeName_name, Bool.eq_iff_iff]
  simp [Capability.name_inj]

/-- A record without a field. -/
def Value.without (v : Value) (name : String) : Value :=
  .obj (Fields.erase (v.fields?.getD []) name)

/-- The names of fields that fitting has no business with. -/
def Context.leavesAlone (name : String) : Bool :=
  !(["requiredCapabilities", "tls", "multiplex"].contains name)

/-- The fields of a listener's record that fitting has no business with, in their order. -/
def Value.others (v : Value) : Fields :=
  (v.fields?.getD []).filter fun f => Context.leavesAlone f.1

/-- Whether an engine can write a record only by leaving it out. -/
def Engine.refuses (e : Engine) (v : Value) (index : Nat) : Bool :=
  match e.writeRecord v index with
  | .ok r => r.value.isNone
  | .error _ => false

/-- The parts that were removed from a record, by what is left of it: those that were switched on
and are no more. A fixed rate goes with the multiplexing it is part of. -/
def Value.removed (v w : Value) : List Capability :=
  let gone := v.requirements.filter (!w.requirements.contains ·)
  if gone.contains .multiplex then gone.filter (· != .brutal) else gone

namespace Context

/-- How notes name a part. -/
def partName : Capability → String
  | .reality => "Reality"
  | .multiplex => "Multiplex"
  | .brutal => "Brutal"
  | c => c.name

/-- The note on a part that was removed from a listener. -/
def partNote (a : Agent) (v : Value) (c : Capability) : String :=
  "Removing " ++ partName c ++ " from inbound '" ++ (v.get "tag").asText
    ++ "' - not supported by agent (" ++ a.requirement c ++ ")"

/-- The note on a listener that was removed. -/
def listenerNote (v : Value) : String :=
  "Removing inbound '" ++ (v.get "tag").asText ++ "' - protocol '" ++ (v.get "type").asText
    ++ "' is not supported by xray"

/-- What is left of a listener. -/
structure Fits (a : Agent) (v w : Value) : Prop where
  shaped : w.isInbound = true
  needs : ∃ j, Inbound.ofValue? w = some j ∧
    w.get "requiredCapabilities" = .texts (j.requirements.map Capability.name) ∧
      ∀ c ∈ j.requirements, c ∈ a.capabilities
  others : w.others = v.others
  tls : w.get "tls" = v.get "tls" ∨ .reality ∈ v.requirements ∧ .reality ∉ a.capabilities ∧
    w.get "tls" = (v.get "tls").without "reality"
  multiplex : w.get "multiplex" = v.get "multiplex" ∨
    .multiplex ∈ v.requirements ∧ .multiplex ∉ a.capabilities ∧ w.get "multiplex" = .absent ∨
    .brutal ∈ v.requirements ∧ .brutal ∉ a.capabilities ∧
      w.get "multiplex" = (v.get "multiplex").without "brutal"

end Context

/-! ## Listeners without parts -/

namespace Inbound

variable {a : Agent} {v : Value} {i : Inbound} {c : Capability}

/-- Whether a listener needs something that an agent does not have. -/
def lacks (a : Agent) (i : Inbound) (c : Capability) : Bool :=
  i.requirements.contains c && !a.capabilities.contains c

/-- A listener without what an agent does not have. -/
def fitted (a : Agent) (i : Inbound) : Inbound :=
  { i with
    tls := if i.lacks a .reality then i.tls.map fun t => { t with reality := none } else i.tls
    multiplex :=
      if i.lacks a .multiplex then none
      else if i.lacks a .brutal then i.multiplex.map fun m => { m with brutal := none }
      else i.multiplex }

/-- What a listener is to lose. -/
def losses (a : Agent) (i : Inbound) : List Capability :=
  (if i.lacks a .reality then [.reality] else [])
    ++ (if i.lacks a .multiplex then [.multiplex]
      else if i.lacks a .brutal then [.brutal] else [])

theorem mem_requirements : c ∈ i.requirements ↔ c = .reality ∧ i.realityOn = true ∨
    c = .multiplex ∧ i.multiplexOn = true ∨ c = .brutal ∧ i.brutalOn = true := by
  simp only [requirements, List.mem_append, List.mem_ite_nil_right, List.mem_singleton, or_assoc,
    and_comm]

theorem lacks_reality :
    i.lacks a .reality = (i.realityOn && !a.supports Capability.reality.name) := by
  rw [lacks, Agent.supports_name, Bool.eq_iff_iff]
  simp [mem_requirements]

theorem lacks_multiplex :
    i.lacks a .multiplex = (i.multiplexOn && !a.supports Capability.multiplex.name) := by
  rw [lacks, Agent.supports_name, Bool.eq_iff_iff]
  simp [mem_requirements]

theorem lacks_brutal :
    i.lacks a .brutal = (i.brutalOn && !a.supports Capability.brutal.name) := by
  rw [lacks, Agent.supports_name, Bool.eq_iff_iff]
  simp [mem_requirements]

theorem lacks_iff : i.lacks a c = true ↔ c ∈ i.requirements ∧ c ∉ a.capabilities := by
  simp [lacks]

theorem fitted_realityOn : (i.fitted a).realityOn = (i.realityOn && !i.lacks a .reality) := by
  unfold fitted realityOn
  dsimp only
  split
  · next h => cases i.tls <;> simp [h]
  · next h => simp [h]

theorem fitted_multiplexOn :
    (i.fitted a).multiplexOn = (i.multiplexOn && !i.lacks a .multiplex) := by
  unfold fitted multiplexOn
  dsimp only
  split
  · next h => simp [h]
  · next h =>
      split
      · cases i.multiplex <;> simp [h]
      · simp [h]

theorem fitted_brutalOn : (i.fitted a).brutalOn =
    (i.brutalOn && !i.lacks a .multiplex && !i.lacks a .brutal) := by
  unfold fitted brutalOn
  dsimp only
  split
  · next h => simp [h]
  · next h =>
      split
      · next hb => cases i.multiplex <;> simp [h, hb]
      · next hb => simp [h, hb]

/-- What is left needs nothing that the agent does not have. -/
theorem fitted_owned (h : c ∈ (i.fitted a).requirements) : c ∈ a.capabilities := by
  have hkept : ∀ {d : Capability}, d ∈ i.requirements → i.lacks a d = false →
      d ∈ a.capabilities := by
    intro d hd hlacks
    simpa [lacks, hd] using hlacks
  rcases mem_requirements.1 h with ⟨rfl, hon⟩ | ⟨rfl, hon⟩ | ⟨rfl, hon⟩
  · simp only [fitted_realityOn, Bool.and_eq_true, Bool.not_eq_true'] at hon
    exact hkept (mem_requirements.2 (.inl ⟨rfl, hon.1⟩)) hon.2
  · simp only [fitted_multiplexOn, Bool.and_eq_true, Bool.not_eq_true'] at hon
    exact hkept (mem_requirements.2 (.inr (.inl ⟨rfl, hon.1⟩))) hon.2
  · simp only [fitted_brutalOn, Bool.and_eq_true, Bool.not_eq_true'] at hon
    exact hkept (mem_requirements.2 (.inr (.inr ⟨rfl, hon.1.1⟩))) hon.2

theorem fitted_lacks (a : Agent) (i : Inbound) (c : Capability) :
    (i.fitted a).lacks a c = false := by
  rw [Bool.eq_false_iff]
  intro h
  exact (lacks_iff.1 h).2 (fitted_owned (lacks_iff.1 h).1)

end Inbound

namespace Context

variable {a : Agent} {v w : Value} {fs gs : Fields} {i j : Inbound}

theorem switchedOn_ok {p : Value} {b : Bool} (h : p.Switched b) : switchedOn p = .ok b := by
  rcases h with ⟨rfl, rfl⟩ | h
  · rfl
  · cases p with
    | obj fs =>
        change Fields.get fs "enabled" = .bool b at h
        simp [switchedOn, Value.field, Value.get, h, Value.isTruthy, bind, Except.bind, pure,
          Except.pure]
    | _ => cases h

theorem removal_ok {tag : String} (h : v.get "tag" = .str tag) (c : Capability) :
    removal a (partName c) c (v.get "tag") = .ok (partNote a v c) := by
  unfold removal partNote
  rw [h, Value.display_str]
  rfl

/-! ### Removing parts from records -/

theorem fitReality_ok (h : Inbound.Reads (.obj fs) i) : fitReality a fs = .ok
    (if i.lacks a .reality then
      ⟨Fields.overwrite "tls" (((Value.obj fs).get "tls").without "reality") fs,
        [partNote a (.obj fs) .reality]⟩
    else ⟨fs, []⟩) := by
  have hon : switchedOn ((Fields.get fs "tls").get "reality") = .ok i.realityOn :=
    switchedOn_ok h.reality
  have hnote : removal a "Reality" .reality (Fields.get fs "tag")
      = .ok (partNote a (.obj fs) .reality) := removal_ok h.tag .reality
  unfold fitReality
  dsimp only
  rw [hon, hnote]
  change (if (i.realityOn && !a.supports Capability.reality.name) = true then _ else _) = _
  rw [← Inbound.lacks_reality]
  split <;> rfl

theorem fitMultiplex_ok (h : Inbound.Reads (.obj fs) i) : fitMultiplex a fs = .ok
    (if i.lacks a .multiplex then
      ⟨Fields.erase fs "multiplex", [partNote a (.obj fs) .multiplex]⟩
    else if i.lacks a .brutal then
      ⟨Fields.overwrite "multiplex" (((Value.obj fs).get "multiplex").without "brutal") fs,
        [partNote a (.obj fs) .brutal]⟩
    else ⟨fs, []⟩) := by
  have hon : switchedOn (Fields.get fs "multiplex") = .ok i.multiplexOn :=
    switchedOn_ok h.multiplexing
  have hbrutal : switchedOn ((Fields.get fs "multiplex").get "brutal") = .ok i.brutalOn :=
    switchedOn_ok h.brutal
  have hnote : ∀ c, removal a (partName c) c (Fields.get fs "tag")
      = .ok (partNote a (.obj fs) c) := removal_ok h.tag
  have hmultiplexNote : removal a "Multiplex" .multiplex (Fields.get fs "tag") = _ :=
    hnote .multiplex
  have hbrutalNote : removal a "Brutal" .brutal (Fields.get fs "tag") = _ := hnote .brutal
  unfold fitMultiplex
  dsimp only
  rw [hon, hbrutal, hmultiplexNote, hbrutalNote]
  split
  · next habsent =>
      -- without the part there is nothing in it that could be switched on
      have hnone : Fields.get fs "multiplex" = .absent := by
        cases hm : Fields.get fs "multiplex" with
        | absent => rfl
        | _ =>
            rw [hm] at habsent
            cases habsent
      rw [hnone] at hon hbrutal
      rw [Inbound.lacks_multiplex, Inbound.lacks_brutal, ← Except.ok.inj hon,
        ← Except.ok.inj hbrutal]
      rfl
  · change (if (i.multiplexOn && !a.supports Capability.multiplex.name) = true then _ else
      if (i.brutalOn && !a.supports Capability.brutal.name) = true then _ else _) = _
    rw [← Inbound.lacks_multiplex, ← Inbound.lacks_brutal]
    split
    · rfl
    · split <;> rfl

/-- The fields of a listener without a Reality that the agent does not have. -/
def cutReality (a : Agent) (i : Inbound) (fs : Fields) : Fields :=
  if i.lacks a .reality then
    Fields.overwrite "tls" (((Value.obj fs).get "tls").without "reality") fs
  else fs

/-- The fields of a listener without a multiplexing, or a fixed rate, that the agent does not
have. -/
def cutMultiplex (a : Agent) (i : Inbound) (fs : Fields) : Fields :=
  if i.lacks a .multiplex then Fields.erase fs "multiplex"
  else if i.lacks a .brutal then
    Fields.overwrite "multiplex" (((Value.obj fs).get "multiplex").without "brutal") fs
  else fs

theorem get_without (v : Value) {n m : String} (h : m ≠ n) : (v.without n).get m = v.get m := by
  cases v with
  | obj fs => exact Fields.get_erase_of_ne fs h
  | _ => rfl

theorem get_without_self (v : Value) (n : String) : (v.without n).get n = .absent :=
  Fields.get_erase_self _ n

theorem without_reality (h : Inbound.Reads v i) (hon : i.realityOn = true) :
    v.get "tls" ≠ .absent ∧ optionalPart Tls.ofValue? ((v.get "tls").without "reality") =
      some (i.tls.map fun t => { t with reality := none }) := by
  unfold Inbound.realityOn at hon
  cases ht : i.tls with
  | none =>
      rw [ht] at hon
      cases hon
  | some t =>
      have hread := optionalPart_eq_some h.tls ht
      have htls := Tls.reads_iff.1 hread
      refine ⟨fun habsent => ?_, optionalPart_of_some rfl (Tls.reads_iff.2 ?_)⟩
      · rw [habsent] at hread
        cases hread
      · exact
          { enabled := (get_without _ (by decide)).trans htls.enabled
            serverName := (get_without _ (by decide)).trans htls.serverName
            alpn := (congrArg _ (get_without _ (by decide))).trans htls.alpn
            certificatePath := (get_without _ (by decide)).trans htls.certificatePath
            keyPath := (get_without _ (by decide)).trans htls.keyPath
            reality := by rw [get_without_self, optionalPart_absent] }

theorem without_brutal (h : Inbound.Reads v i) (hon : i.brutalOn = true) :
    v.get "multiplex" ≠ .absent ∧
      optionalPart Multiplex.ofValue? ((v.get "multiplex").without "brutal") =
        some (i.multiplex.map fun m => { m with brutal := none }) := by
  unfold Inbound.brutalOn at hon
  cases hm : i.multiplex with
  | none =>
      rw [hm] at hon
      cases hon
  | some m =>
      have hread := optionalPart_eq_some h.multiplex hm
      have hmultiplex := Multiplex.reads_iff.1 hread
      refine ⟨fun habsent => ?_, optionalPart_of_some rfl (Multiplex.reads_iff.2 ?_)⟩
      · rw [habsent] at hread
        cases hread
      · exact
          { enabled := (get_without _ (by decide)).trans hmultiplex.enabled
            padding := (get_without _ (by decide)).trans hmultiplex.padding
            brutal := by rw [get_without_self, optionalPart_absent] }

theorem cutReality_other {n : String} (h : n ≠ "tls") :
    Fields.get (cutReality a i fs) n = Fields.get fs n := by
  unfold cutReality
  split
  · exact Fields.get_overwrite_of_ne fs _ h
  · rfl

theorem cutReality_tls (h : Inbound.Reads (.obj fs) i) :
    Fields.get (cutReality a i fs) "tls" =
      if i.lacks a .reality then ((Value.obj fs).get "tls").without "reality"
      else (Value.obj fs).get "tls" := by
  unfold cutReality
  split
  · next hlacks =>
      have hon : i.realityOn = true := by
        rw [Inbound.lacks_reality, Bool.and_eq_true] at hlacks
        exact hlacks.1
      exact Fields.get_overwrite_self (Fields.has_of_get_ne_absent (without_reality h hon).1)
  · rfl

theorem cutMultiplex_other {n : String} (h : n ≠ "multiplex") :
    Fields.get (cutMultiplex a i fs) n = Fields.get fs n := by
  unfold cutMultiplex
  split
  · exact Fields.get_erase_of_ne fs h
  · split
    · exact Fields.get_overwrite_of_ne fs _ h
    · rfl

theorem cutMultiplex_multiplex (h : Inbound.Reads (.obj fs) i) :
    Fields.get (cutMultiplex a i fs) "multiplex" =
      if i.lacks a .multiplex then .absent
      else if i.lacks a .brutal then ((Value.obj fs).get "multiplex").without "brutal"
      else (Value.obj fs).get "multiplex" := by
  unfold cutMultiplex
  split
  · exact Fields.get_erase_self fs _
  · split
    · next hlacks =>
        have hon : i.brutalOn = true := by
          rw [Inbound.lacks_brutal, Bool.and_eq_true] at hlacks
          exact hlacks.1
        exact Fields.get_overwrite_self (Fields.has_of_get_ne_absent (without_brutal h hon).1)
    · rfl

theorem cutReality_reads (h : Inbound.Reads (.obj fs) i) :
    Inbound.Reads (.obj (cutReality a i fs)) { i with tls := (i.fitted a).tls } := by
  refine h.of_parts (fun n _ hn _ => cutReality_other hn) ?_ ?_
  · rw [Value.get, cutReality_tls h, Inbound.fitted]
    split
    · next hlacks =>
        rw [Inbound.lacks_reality, Bool.and_eq_true] at hlacks
        simpa only [*, if_true] using (without_reality h hlacks.1).2
    · simpa only [*] using h.tls
  · rw [Value.get, cutReality_other (by decide)]
    exact h.multiplex

theorem cutMultiplex_reads (h : Inbound.Reads (.obj fs) i) :
    Inbound.Reads (.obj (cutMultiplex a i fs)) { i with multiplex := (i.fitted a).multiplex } := by
  refine h.of_parts (fun n _ _ hn => cutMultiplex_other hn) ?_ ?_
  · rw [Value.get, cutMultiplex_other (by decide)]
    exact h.tls
  · rw [Value.get, cutMultiplex_multiplex h, Inbound.fitted]
    split
    · simp only [*]
      rfl
    · split
      · next hlacks =>
          rw [Inbound.lacks_brutal, Bool.and_eq_true] at hlacks
          simpa only [*, if_true] using (without_brutal h hlacks.1).2
      · simpa only [*] using h.multiplex

/-- The fields of a listener fitted to an agent. -/
def cut (a : Agent) (i : Inbound) (fs : Fields) : Fields :=
  (cutMultiplex a { i with tls := (i.fitted a).tls } (cutReality a i fs)).withRequirements

theorem lacks_multiplex_tls (t : Option Tls) :
    ({ i with tls := t } : Inbound).lacks a .multiplex = i.lacks a .multiplex := by
  rw [Inbound.lacks_multiplex, Inbound.lacks_multiplex]
  rfl

theorem lacks_brutal_tls (t : Option Tls) :
    ({ i with tls := t } : Inbound).lacks a .brutal = i.lacks a .brutal := by
  rw [Inbound.lacks_brutal, Inbound.lacks_brutal]
  rfl

theorem fitInbound_ok (h : Inbound.Reads (.obj fs) i) : fitInbound a (.obj fs) =
    .ok ⟨.obj (cut a i fs), (i.losses a).map (partNote a (.obj fs))⟩ := by
  have hcut := cutReality_reads (a := a) h
  have htag : partNote a (.obj (cutReality a i fs)) = partNote a (.obj fs) := by
    funext c
    unfold partNote
    rw [hcut.tag, h.tag]
  unfold fitInbound
  dsimp only
  have hreality : fitReality a fs = .ok ⟨cutReality a i fs,
      if i.lacks a .reality then [partNote a (.obj fs) .reality] else []⟩ := by
    rw [fitReality_ok h, cutReality]
    split <;> rfl
  have hmultiplex : fitMultiplex a (cutReality a i fs) =
      .ok ⟨cutMultiplex a { i with tls := (i.fitted a).tls } (cutReality a i fs),
        if i.lacks a .multiplex then [partNote a (.obj fs) .multiplex]
        else if i.lacks a .brutal then [partNote a (.obj fs) .brutal] else []⟩ := by
    rw [fitMultiplex_ok hcut, cutMultiplex, lacks_multiplex_tls, lacks_brutal_tls, htag]
    split
    · rfl
    · split <;> rfl
  rw [hreality]
  change (fitMultiplex a (cutReality a i fs) >>= _) = _
  rw [hmultiplex]
  change Except.ok _ = _
  refine congrArg (fun notes => Except.ok (Noted.mk (Value.obj (cut a i fs)) notes)) ?_
  unfold Inbound.losses
  rw [List.map_append]
  split <;> split <;> try split
  all_goals rfl

/-! ### What is left of a listener -/

theorem cut_others (a : Agent) (i : Inbound) (fs : Fields) :
    (Value.obj (cut a i fs)).others = (Value.obj fs).others := by
  have hreality : (Value.obj (cutReality a i fs)).others = (Value.obj fs).others := by
    unfold cutReality
    split
    · exact Fields.overwrite_filter (p := leavesAlone) fs _ rfl
    · rfl
  rw [← hreality]
  refine (Fields.put_filter (p := leavesAlone) _ _ rfl).trans ?_
  unfold cutMultiplex
  split
  · exact Fields.erase_filter (p := leavesAlone) _ rfl
  · split
    · exact Fields.overwrite_filter (p := leavesAlone) _ _ rfl
    · rfl

theorem cut_tls (h : Inbound.Reads (.obj fs) i) : Fields.get (cut a i fs) "tls" =
    if i.lacks a .reality then ((Value.obj fs).get "tls").without "reality"
    else (Value.obj fs).get "tls" := by
  rw [cut, Fields.withRequirements, Fields.get_put_of_ne _ _ (by decide),
    cutMultiplex_other (by decide), cutReality_tls h]

theorem cut_multiplex (h : Inbound.Reads (.obj fs) i) : Fields.get (cut a i fs) "multiplex" =
    if i.lacks a .multiplex then .absent
    else if i.lacks a .brutal then ((Value.obj fs).get "multiplex").without "brutal"
    else (Value.obj fs).get "multiplex" := by
  rw [cut, Fields.withRequirements, Fields.get_put_of_ne _ _ (by decide),
    cutMultiplex_multiplex (cutReality_reads h), lacks_multiplex_tls, lacks_brutal_tls, Value.get,
    cutReality_other (by decide)]
  rfl

theorem cutParts_reads (h : Inbound.Reads (.obj fs) i) : Inbound.Reads
    (.obj (cutMultiplex a { i with tls := (i.fitted a).tls } (cutReality a i fs)))
    (i.fitted a) := by
  have hmultiplex : (({ i with tls := (i.fitted a).tls } : Inbound).fitted a).multiplex =
      (i.fitted a).multiplex := by
    unfold Inbound.fitted
    dsimp only
    rw [lacks_multiplex_tls, lacks_brutal_tls]
  have hparts := cutMultiplex_reads (a := a) (cutReality_reads (a := a) h)
  rw [hmultiplex] at hparts
  exact hparts

theorem cut_eq (h : Inbound.Reads (.obj fs) i) : cut a i fs =
    Fields.put (cutMultiplex a { i with tls := (i.fitted a).tls } (cutReality a i fs))
      "requiredCapabilities" (.texts ((i.fitted a).requirements.map Capability.name)) := by
  rw [cut, Fields.withRequirements, (cutParts_reads h).requirements]

theorem cut_reads (h : Inbound.Reads (.obj fs) i) :
    Inbound.Reads (.obj (cut a i fs)) (i.fitted a) := by
  have hparts := cutParts_reads (a := a) h
  have hget : ∀ n, n ≠ "requiredCapabilities" → Fields.get (cut a i fs) n = Fields.get
      (cutMultiplex a { i with tls := (i.fitted a).tls } (cutReality a i fs)) n := by
    intro n hn
    rw [cut_eq h, Fields.get_put_of_ne _ _ hn]
  refine hparts.of_parts (fun n hn _ _ => hget n hn) ?_ ?_
  · rw [Value.get, hget _ (by decide)]
    exact hparts.tls
  · rw [Value.get, hget _ (by decide)]
    exact hparts.multiplex

theorem cut_needs (h : Inbound.Reads (.obj fs) i) :
    Fields.get (cut a i fs) "requiredCapabilities" =
      .texts ((i.fitted a).requirements.map Capability.name) := by
  rw [cut_eq h, Fields.get_put_self]

theorem cut_fits (h : Inbound.Reads (.obj fs) i) : Fits a (.obj fs) (.obj (cut a i fs)) where
  shaped := (cut_reads h).isInbound (cut_needs h)
  needs := ⟨i.fitted a, Inbound.reads_iff.2 (cut_reads h), cut_needs h,
    fun _ => Inbound.fitted_owned⟩
  others := cut_others a i fs
  tls := by
    have htls : (Value.obj (cut a i fs)).get "tls" = _ := cut_tls h
    rw [htls, h.requirements]
    split
    · next hlacks => exact .inr ⟨(Inbound.lacks_iff.1 hlacks).1, (Inbound.lacks_iff.1 hlacks).2, rfl⟩
    · exact .inl rfl
  multiplex := by
    have hmultiplex : (Value.obj (cut a i fs)).get "multiplex" = _ := cut_multiplex h
    rw [hmultiplex, h.requirements]
    split
    · next hlacks =>
        exact .inr (.inl ⟨(Inbound.lacks_iff.1 hlacks).1, (Inbound.lacks_iff.1 hlacks).2, rfl⟩)
    · split
      · next hlacks =>
          exact .inr (.inr ⟨(Inbound.lacks_iff.1 hlacks).1, (Inbound.lacks_iff.1 hlacks).2, rfl⟩)
      · exact .inl rfl

/-- What a listener is to lose is what it is seen to have lost. -/
theorem cut_removed (h : Inbound.Reads (.obj fs) i) :
    (Value.obj fs).removed (.obj (cut a i fs)) = i.losses a := by
  unfold Value.removed Inbound.losses
  rw [h.requirements, (cut_reads h).requirements]
  unfold Inbound.requirements
  rw [Inbound.fitted_realityOn, Inbound.fitted_multiplexOn, Inbound.fitted_brutalOn,
    Inbound.lacks_reality, Inbound.lacks_multiplex, Inbound.lacks_brutal]
  generalize i.realityOn = r
  generalize i.multiplexOn = m
  generalize i.brutalOn = b
  generalize a.supports _ = sr
  generalize a.supports _ = sm
  generalize a.supports _ = sb
  revert r m b sr sm sb
  decide

/-- A listener that was fitted needs no fitting. -/
theorem cut_cut (h : Inbound.Reads (.obj fs) i) :
    fitInbound a (.obj (cut a i fs)) = .ok ⟨.obj (cut a i fs), []⟩ := by
  have hlacks := Inbound.fitted_lacks a i
  have hagain := cut_reads (a := a) h
  have hreality : cutReality a (i.fitted a) (cut a i fs) = cut a i fs := by
    simp [cutReality, hlacks]
  have hmultiplex : cutMultiplex a { i.fitted a with tls := ((i.fitted a).fitted a).tls }
      (cut a i fs) = cut a i fs := by
    simp [cutMultiplex, lacks_multiplex_tls, lacks_brutal_tls, hlacks]
  have hcut : cut a (i.fitted a) (cut a i fs) = cut a i fs := by
    rw [cut, hreality, hmultiplex, Fields.withRequirements, hagain.requirements, cut_eq h,
      Fields.put_put]
  have hlosses : (i.fitted a).losses a = [] := by simp [Inbound.losses, hlacks]
  rw [fitInbound_ok hagain, hcut, hlosses]
  rfl

/-! ## Contexts -/

/-- Whether a listener is no good for the target core: the core is Xray, which refuses it. -/
def leftOut (target : String) (index : Nat) (v : Value) : Bool :=
  Engine.ofName? target == some .xray && Engine.xray.refuses v index

theorem refuses_eq (h : Inbound.Reads v i) (index : Nat) :
    Engine.xray.refuses v index = Xray.unservable.contains i.type := by
  rw [Engine.refuses, Engine.writeRecord, Inbound.reads_iff.2 h]
  change (Xray.writeInbound i index).value.isNone = _
  unfold Xray.writeInbound
  dsimp only
  split
  · next hrefused =>
      rw [hrefused]
      rfl
  · next hserved =>
      rw [Bool.not_eq_true] at hserved
      rw [hserved]
      rfl

theorem servable_ok (h : Inbound.Reads v i) (target : String) (index : Nat) :
    servable (.str target) v = .ok (!leftOut target index v) := by
  obtain ⟨fs, rfl⟩ := h.isRecord
  have htype : (Value.obj fs).field "type" = .ok (.str i.type) := congrArg Except.ok h.type
  rw [leftOut, refuses_eq h]
  unfold servable
  dsimp only
  rw [htype]
  by_cases he : Engine.ofName? target = some .xray
  · rw [if_pos he, he]
    rfl
  · rw [if_neg he]
    have hother : (Engine.ofName? target == some .xray) = false := by simpa using he
    rw [hother]
    rfl

theorem listenerNote_eq {tag type : String} (htag : v.get "tag" = .str tag)
    (htype : v.get "type" = .str type) : listenerNote v = "Removing inbound '" ++ tag
      ++ "' - protocol '" ++ type ++ "' is not supported by xray" := by
  unfold listenerNote
  rw [htag, htype, Value.asText, Value.asText]

theorem servableOnly_cons {target : Value} {vs : List Value} {b : Bool} {tag type : String}
    {rest : Noted (List Value)} (htag : v.get "tag" = .str tag) (htype : v.get "type" = .str type)
    (hv : servable target v = .ok b) (hvs : servableOnly target vs = .ok rest) :
    servableOnly target (v :: vs) = .ok (if b then ⟨v :: rest.value, rest.notes⟩
      else ⟨rest.value, listenerNote v :: rest.notes⟩) := by
  unfold servableOnly
  rw [listenerNote_eq htag htype, hv, hvs, htag, htype]
  cases b with
  | true => rfl
  | false =>
      simp only [bind, Except.bind, pure, Except.pure, Value.display_str, Bool.false_eq_true,
        if_false]

/-- Listeners go as a whole only if the target core refuses them, and the others keep their
order. -/
theorem servableOnly_ok (target : String) (index : Nat) : ∀ {vs : List Value},
    (∀ v ∈ vs, ∃ i, Inbound.Reads v i) → servableOnly (.str target) vs =
      .ok ⟨vs.filter (!leftOut target index ·),
        (vs.filter (leftOut target index)).map listenerNote⟩
  | [], _ => rfl
  | v :: vs, h => by
      obtain ⟨i, hv⟩ := h v List.mem_cons_self
      have hrest := servableOnly_ok target index fun w hw => h w (List.mem_cons_of_mem v hw)
      rw [servableOnly_cons hv.tag hv.type (servable_ok hv target index) hrest]
      cases hout : leftOut target index v with
      | true =>
          rw [List.filter_cons_of_neg (by simp [hout]), List.filter_cons_of_pos hout]
          rfl
      | false =>
          rw [List.filter_cons_of_pos (by simp [hout]), List.filter_cons_of_neg (by simp [hout])]
          rfl

theorem fitInbound_fits (h : Inbound.Reads v i) : ∃ w, Fits a v w ∧
    fitInbound a v = .ok ⟨w, (v.removed w).map (partNote a v)⟩ ∧ fitInbound a w = .ok ⟨w, []⟩ := by
  obtain ⟨fs, rfl⟩ := h.isRecord
  refine ⟨.obj (cut a i fs), cut_fits h, ?_, cut_cut h⟩
  rw [fitInbound_ok h, cut_removed h]

theorem fitInbounds_cons {vs : List Value} {one : Noted Value} {rest : Noted (List Value)}
    (hv : fitInbound a v = .ok one) (hvs : fitInbounds a vs = .ok rest) :
    fitInbounds a (v :: vs) = .ok ⟨one.value :: rest.value, one.notes ++ rest.notes⟩ := by
  unfold fitInbounds
  rw [hv, hvs]
  rfl

/-- Every listener that is kept is fitted, and each loss is noted. -/
theorem fitInbounds_fits : ∀ {vs : List Value}, (∀ v ∈ vs, ∃ i, Inbound.Reads v i) →
    ∃ kept : List (Value × Value), kept.map Prod.fst = vs ∧ (∀ p ∈ kept, Fits a p.1 p.2) ∧
      fitInbounds a vs = .ok ⟨kept.map Prod.snd,
        kept.flatMap fun p => (p.1.removed p.2).map (partNote a p.1)⟩ ∧
      fitInbounds a (kept.map Prod.snd) = .ok ⟨kept.map Prod.snd, []⟩
  | [], _ => ⟨[], rfl, nofun, rfl, rfl⟩
  | v :: vs, h => by
      obtain ⟨i, hv⟩ := h v List.mem_cons_self
      obtain ⟨w, hfits, hone, hagain⟩ := fitInbound_fits (a := a) hv
      obtain ⟨kept, rfl, hall, hrest, hsame⟩ :=
        fitInbounds_fits fun w hw => h w (List.mem_cons_of_mem v hw)
      refine ⟨(v, w) :: kept, rfl, List.forall_mem_cons.2 ⟨hfits, hall⟩, ?_, ?_⟩
      · rw [fitInbounds_cons hone hrest]
        rfl
      · rw [List.map_cons, fitInbounds_cons hagain hsame]
        rfl

theorem Fits.leftOut (hw : Fits a v w) (hv : ∃ i, Inbound.Reads v i) (target : String)
    (index : Nat) : Context.leftOut target index w = Context.leftOut target index v := by
  obtain ⟨i, hi⟩ := hv
  obtain ⟨j, hj, -⟩ := hw.needs
  have hj := Inbound.reads_iff.1 hj
  have htype : j.type = i.type := by
    obtain ⟨fs, rfl⟩ := hi.isRecord
    obtain ⟨gs, rfl⟩ := hj.isRecord
    have hfields : gs.filter (leavesAlone ·.1) = fs.filter (leavesAlone ·.1) := hw.others
    have hget : Fields.get? gs "type" = Fields.get? fs "type" := by
      rw [← Fields.get?_filter (p := leavesAlone) gs rfl, hfields, Fields.get?_filter fs rfl]
    have htypes : Value.str j.type = .str i.type :=
      hj.type.symm.trans ((congrArg (·.getD .absent) hget).trans hi.type)
    injection htypes
  rw [Context.leftOut, Context.leftOut, refuses_eq hi, refuses_eq hj, htype]

/-! ### Experimental settings -/

/-- The note on a statistics interface that was removed, by what is left of the settings. -/
def experimentalNotes (v w : Value) : List String :=
  if !(v.get "v2rayApi").isAbsent && (w.get "v2rayApi").isAbsent then
    ["Removing v2ray_api from experimental - not supported by agent (requires build tag "
      ++ v2rayApiTag ++ ")"]
  else []

theorem fitExperimental_ok (a : Agent) (v : Value) :
    let fs := v.fields?.getD []
    (((Fields.get fs "v2rayApi").isAbsent || keepsV2rayApi a) = true ∧
      fitExperimental a v = ⟨.obj fs, []⟩) ∨
    (((Fields.get fs "v2rayApi").isAbsent || keepsV2rayApi a) = false ∧
      fitExperimental a v = ⟨.obj (Fields.erase fs "v2rayApi"),
        ["Removing v2ray_api from experimental - not supported by agent (requires build tag "
          ++ v2rayApiTag ++ ")"]⟩) := by
  intro fs
  unfold fitExperimental
  dsimp only
  rw [← Bool.not_or]
  cases ((Fields.get fs "v2rayApi").isAbsent || keepsV2rayApi a) with
  | true => exact .inl ⟨rfl, rfl⟩
  | false => exact .inr ⟨rfl, rfl⟩

/-- The settings that are kept: all but a statistics interface that the agent does not have. -/
theorem fitExperimental_value (a : Agent) (v : Value) : (fitExperimental a v).value =
    let fs := v.fields?.getD []
    .obj (if (Fields.get fs "v2rayApi").isAbsent || keepsV2rayApi a then fs
      else Fields.erase fs "v2rayApi") := by
  rcases fitExperimental_ok a v with ⟨hcond, hkept⟩ | ⟨hcond, hgone⟩
  · rw [hkept]
    dsimp only
    rw [hcond, if_pos rfl]
  · rw [hgone]
    dsimp only
    rw [hcond, if_neg Bool.false_ne_true]

theorem fitExperimental_notes (a : Agent) (v : Value) :
    (fitExperimental a v).notes = experimentalNotes v (fitExperimental a v).value := by
  have hget : v.get "v2rayApi" = Fields.get (v.fields?.getD []) "v2rayApi" := by
    cases v <;> rfl
  unfold experimentalNotes
  rw [hget]
  rcases fitExperimental_ok a v with ⟨-, hkept⟩ | ⟨hcond, hgone⟩
  · -- what was kept is there afterwards just as before
    rw [hkept, Value.get, Bool.not_and_self, if_neg Bool.false_ne_true]
  · rw [Bool.or_eq_false_iff] at hcond
    rw [hgone, hcond.1, Value.get, Fields.get_erase_self]
    rfl

theorem fitExperimental_again (a : Agent) (v : Value) :
    fitExperimental a (fitExperimental a v).value = ⟨(fitExperimental a v).value, []⟩ := by
  rcases fitExperimental_ok a v with ⟨hcond, hkept⟩ | ⟨-, hgone⟩
  · rw [hkept]
    rcases fitExperimental_ok a (.obj (v.fields?.getD [])) with ⟨-, hagain⟩ | ⟨hcond', -⟩
    · exact hagain
    · exact absurd (hcond.symm.trans hcond') (by decide)
  · rw [hgone]
    rcases fitExperimental_ok a (.obj (Fields.erase (v.fields?.getD []) "v2rayApi")) with
      ⟨-, hagain⟩ | ⟨hcond', -⟩
    · exact hagain
    · -- an interface that was removed is not there to be removed again
      change ((Fields.get (Fields.erase _ _) _).isAbsent || _) = false at hcond'
      rw [Fields.get_erase_self] at hcond'
      cases hcond'

/-! ### Whole contexts -/

/-- A context before and after it was fitted to an agent: the listeners that were kept, each with
what is left of it, and the notes. -/
structure Fitted (a : Agent) (target : String) (vs : List Value) (ctx out : Fields)
    (kept : List (Value × Value)) (notes : List String) : Prop where
  served : ∀ index, kept.map Prod.fst = vs.filter (!leftOut target index ·)
  inbounds : Fields.get out "inbounds" = .arr (kept.map Prod.snd)
  fits : ∀ p ∈ kept, Fits a p.1 p.2
  experimental : Fields.get out "experimental" =
    let fs := (Fields.get ctx "experimental").fields?.getD []
    .obj (if (Fields.get fs "v2rayApi").isAbsent || keepsV2rayApi a then fs
      else Fields.erase fs "v2rayApi")
  others : ∀ n, n ≠ "inbounds" → n ≠ "experimental" → Fields.get out n = Fields.get ctx n
  notes : ∀ index, notes = (vs.filter (leftOut target index)).map listenerNote
    ++ (kept.flatMap fun p => (p.1.removed p.2).map (partNote a p.1))
    ++ experimentalNotes (Fields.get ctx "experimental") (Fields.get out "experimental")

/-- What fitting gives for a context whose listeners can be read. -/
theorem fit_ok {ctx : Fields} {vs : List Value} {target : String} {index : Nat}
    {fitted : Noted (List Value)} (hinbounds : Fields.get ctx "inbounds" = .arr vs)
    (htarget : (Fields.get ctx "agent").get "coreType" = .str target)
    (hreads : ∀ v ∈ vs, ∃ i, Inbound.Reads v i)
    (hfitted : fitInbounds a (vs.filter (!leftOut target index ·)) = .ok fitted) :
    let experimental := fitExperimental a (Fields.get ctx "experimental")
    fit a ctx = .ok ⟨Fields.put (Fields.put ctx "inbounds" (.arr fitted.value)) "experimental"
      experimental.value, (vs.filter (leftOut target index)).map listenerNote ++ fitted.notes
        ++ experimental.notes⟩ := by
  intro experimental
  have hserved := servableOnly_ok target index hreads
  have hagent : (Fields.get ctx "agent").field "coreType" = .ok (.str target) := by
    cases hrecord : Fields.get ctx "agent" with
    | obj fs =>
        rw [hrecord] at htarget
        exact congrArg Except.ok htarget
    | _ =>
        rw [hrecord] at htarget
        cases htarget
  unfold fit
  rw [hinbounds]
  cases vs with
  | nil =>
      cases hfitted
      rfl
  | cons v vs =>
      have hfield : (Value.obj ctx).field "agent" = .ok (Fields.get ctx "agent") := rfl
      simp only [Value.itemsOrFault, bind, Except.bind, hfield, hagent, hserved, hfitted, pure,
        Except.pure]
      rfl

/-- Which listeners are left out does not depend on the place they are counted from. -/
theorem filter_leftOut {vs : List Value} (hreads : ∀ v ∈ vs, ∃ i, Inbound.Reads v i)
    (target : String) (index : Nat) :
    vs.filter (!leftOut target index ·) = vs.filter (!leftOut target 0 ·) ∧
      vs.filter (leftOut target index) = vs.filter (leftOut target 0) := by
  have hindex : ∀ v ∈ vs, leftOut target index v = leftOut target 0 v := by
    intro v hv
    obtain ⟨i, hi⟩ := hreads v hv
    rw [leftOut, leftOut, refuses_eq hi, refuses_eq hi]
  exact ⟨List.filter_congr fun v hv => congrArg (! ·) (hindex v hv), List.filter_congr hindex⟩

/-- A context whose listeners are all served and fitted, and whose experimental settings are
fitted, is left as it is. -/
theorem fit_settled {ctx : Fields} {vs : List Value} {target : String}
    (hinbounds : Fields.get ctx "inbounds" = .arr vs)
    (htarget : (Fields.get ctx "agent").get "coreType" = .str target)
    (hreads : ∀ v ∈ vs, ∃ i, Inbound.Reads v i)
    (hserved : ∀ v ∈ vs, leftOut target 0 v = false)
    (hfitted : fitInbounds a vs = .ok ⟨vs, []⟩)
    (hexperimental : fitExperimental a (Fields.get ctx "experimental") =
      ⟨Fields.get ctx "experimental", []⟩)
    (hput : Fields.put (Fields.put ctx "inbounds" (.arr vs)) "experimental"
      (Fields.get ctx "experimental") = ctx) :
    fit a ctx = .ok ⟨ctx, []⟩ := by
  have hall : vs.filter (!leftOut target 0 ·) = vs :=
    List.filter_eq_self.2 fun v hv => by rw [hserved v hv]; rfl
  have hnone : vs.filter (leftOut target 0) = [] :=
    List.filter_eq_nil_iff.2 fun v hv => by rw [hserved v hv]; exact Bool.false_ne_true
  rw [← hall] at hfitted
  rw [fit_ok hinbounds htarget hreads hfitted, hall, hnone, hexperimental, hput]
  rfl

/-- Fitting a context of well-shaped listeners to an agent comes about: listeners that the target
core refuses are left out, the others stay in their order and lose what the agent does not have, and
each removal is noted once. Fitting what is left again changes nothing and notes nothing. -/
theorem fit_fitted (a : Agent) (ctx : Fields) (vs : List Value) (target : String)
    (hinbounds : Fields.get ctx "inbounds" = .arr vs)
    (hshaped : ∀ v ∈ vs, ∃ i, Inbound.ofValue? v = some i)
    (htarget : (Fields.get ctx "agent").get "coreType" = .str target) :
    ∃ out kept notes, fit a ctx = .ok ⟨out, notes⟩ ∧ Fitted a target vs ctx out kept notes ∧
      fit a out = .ok ⟨out, []⟩ := by
  have hreads : ∀ v ∈ vs, ∃ i, Inbound.Reads v i := by
    intro v hv
    obtain ⟨i, hi⟩ := hshaped v hv
    exact ⟨i, Inbound.reads_iff.1 hi⟩
  have hkept : ∀ v ∈ vs.filter (!leftOut target 0 ·), ∃ i, Inbound.Reads v i := fun v hv =>
    hreads v (List.mem_filter.1 hv).1
  obtain ⟨kept, hserved, hfits, hfitted, hagain⟩ := fitInbounds_fits (a := a) hkept
  have hfit := fit_ok hinbounds htarget hreads hfitted
  dsimp only at hfit
  generalize hout : Fields.put (Fields.put ctx "inbounds" (.arr (kept.map Prod.snd)))
    "experimental" (fitExperimental a (Fields.get ctx "experimental")).value = out at hfit
  have houtInbounds : Fields.get out "inbounds" = .arr (kept.map Prod.snd) := by
    rw [← hout, Fields.get_put_of_ne _ _ (by decide), Fields.get_put_self]
  have houtExperimental : Fields.get out "experimental" =
      (fitExperimental a (Fields.get ctx "experimental")).value := by
    rw [← hout, Fields.get_put_self]
  have houtOthers : ∀ n, n ≠ "inbounds" → n ≠ "experimental" →
      Fields.get out n = Fields.get ctx n := by
    intro n h1 h2
    rw [← hout, Fields.get_put_of_ne _ _ h2, Fields.get_put_of_ne _ _ h1]
  have htargetOut : (Fields.get out "agent").get "coreType" = .str target := by
    rw [houtOthers _ (by decide) (by decide)]
    exact htarget
  have hkeptReads : ∀ w ∈ kept.map Prod.snd, ∃ i, Inbound.Reads w i := by
    intro w hw
    obtain ⟨p, hp, rfl⟩ := List.mem_map.1 hw
    obtain ⟨j, hj, -⟩ := (hfits p hp).needs
    exact ⟨j, Inbound.reads_iff.1 hj⟩
  -- what is left of a listener is served by the core, as the listener was
  have hkeptServed : ∀ w ∈ kept.map Prod.snd, leftOut target 0 w = false := by
    intro w hw
    obtain ⟨p, hp, rfl⟩ := List.mem_map.1 hw
    have hmem : p.1 ∈ vs.filter (!leftOut target 0 ·) := hserved ▸ List.mem_map_of_mem hp
    obtain ⟨hv, hserves⟩ := List.mem_filter.1 hmem
    rw [(hfits p hp).leftOut (hreads p.1 hv)]
    simpa using hserves
  have hput : Fields.put (Fields.put out "inbounds" (.arr (kept.map Prod.snd))) "experimental"
      (Fields.get out "experimental") = out := by
    rw [houtExperimental, ← hout, Fields.put_put_put _ _ _ (by decide),
      Fields.put_put_put _ _ _ (by decide)]
  have hsettled := fit_settled houtInbounds htargetOut hkeptReads hkeptServed hagain
    (by rw [houtExperimental, fitExperimental_again]) hput
  refine ⟨out, kept, _, hfit, ⟨fun index => ?_, houtInbounds, hfits, ?_, houtOthers,
    fun index => ?_⟩, hsettled⟩
  · rw [(filter_leftOut hreads target index).1, hserved]
  · rw [houtExperimental, fitExperimental_value]
  · rw [(filter_leftOut hreads target index).2, houtExperimental, fitExperimental_notes]

/-- An agent whose core can do nothing beyond its protocols. -/
def plainAgent : Agent := ⟨"sing-box", "1.12.0", [], []⟩

/-- A listener that only sing-box can serve, and one with a fixed rate in a multiplexing that is
switched off. -/
def mixedListeners : List Inbound :=
  [⟨"tuic", "a", "::", 443, none, none, none, [], []⟩,
    ⟨"vless", "b", "::", 443, none, none, some ⟨false, false, some ⟨true, 100, 100⟩⟩, [], []⟩]

theorem fit_fitted_mixed :
    let ctx : Fields := [("agent", .obj [("coreType", .str "xray")]),
      ("inbounds", .arr (mixedListeners.map Inbound.toValue)),
      ("experimental", .obj [("v2rayApi", .obj [])])]
    ∃ out kept notes, fit plainAgent ctx = .ok ⟨out, notes⟩ ∧
      Fitted plainAgent "xray" (mixedListeners.map Inbound.toValue) ctx out kept notes ∧
      fit plainAgent out = .ok ⟨out, []⟩ :=
  fit_fitted plainAgent _ _ "xray" rfl
    (fun v hv => by
      obtain ⟨i, -, rfl⟩ := List.mem_map.1 hv
      exact ⟨i, i.ofValue?_toValue⟩)
    rfl

end Context

end ProxyFleet
