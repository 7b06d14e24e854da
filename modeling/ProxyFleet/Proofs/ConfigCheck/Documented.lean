import ProxyFleet.Proofs.ConfigCheck
import ProxyFleet.Proofs.Inbound.Complaints

/-!
# What the check demands, and what is documented

Every inbound and every outbound of a configuration is documented to be a record with a
type and a tag, and a port to be from 1 to 65535. The check falls short of that in two
places. It takes any port above zero, so one that is a fraction of one passes; and the
check for Xray does not look at outbounds at all, while that for sing-box does. In all
else the two agree.
-/

namespace ProxyFleet

/-- The field in which an engine has the port of an inbound. -/
def Engine.portField : Engine → String
  | .singBox => "listen_port"
  | .xray => "port"

namespace ConfigCheck

open Fields

/-- A record with a type and a tag. -/
def IsTagged (e : Engine) (v : Value) : Prop :=
  ∃ fs, v = .obj fs ∧ has fs e.typeField = true ∧ has fs "tag" = true

/-- The ports of some inbounds, as far as they are numbers. -/
def portsOf (e : Engine) (inbounds : List Value) : List Number :=
  inbounds.filterMap fun x => (x.get e.portField).number?

/-- The ports of the inbounds of a configuration, as far as they are numbers. -/
def ports (e : Engine) (fs : Fields) : List Number :=
  portsOf e ((get fs "inbounds").items?.getD [])

/-- The documented structure of a configuration. -/
structure Documented (e : Engine) (fs : Fields) : Prop where
  inbounds : Lists (IsTagged e) (get fs "inbounds")
  outbounds : Lists (IsTagged e) (get fs "outbounds")
  ports : ∀ n ∈ ports e fs, Number.le 1 n = true ∧ n.le 65535 = true

/-- The ports that the check takes. -/
def Passes (n : Number) : Prop := Number.lt 0 n = true ∧ n.le 65535 = true

/-! ## What the check demands -/

theorem badPort?_eq_none {v : Value} : badPort? v = none ↔ ∀ n ∈ v.number?, Passes n := by
  cases v with
  | num n =>
    unfold badPort?
    split <;> simp_all [Value.number?, Passes]
  | _ => simp [badPort?, Value.number?]

theorem isTagged_obj {e : Engine} {fs : Fields} :
    IsTagged e (.obj fs) ↔ has fs e.typeField = true ∧ has fs "tag" = true := by
  simp [IsTagged]

theorem inboundFits_iff {e : Engine} {v : Value} : InboundFits e.typeField e.portField v ↔
    IsTagged e v ∧ ∀ n ∈ (v.get e.portField).number?, Passes n := by
  cases v with
  | obj fs =>
    rw [InboundFits, badPort?_eq_none, ← and_assoc, isTagged_obj]
    rfl
  | _ => simp [InboundFits, IsTagged]

theorem outboundFits_iff {v : Value} : OutboundFits v ↔ IsTagged .singBox v := by
  cases v with
  | obj fs =>
    rw [isTagged_obj]
    rfl
  | _ => simp [OutboundFits, IsTagged]

theorem lists_inboundFits {e : Engine} {v : Value} :
    Lists (InboundFits e.typeField e.portField) v ↔
      Lists (IsTagged e) v ∧ ∀ n ∈ portsOf e (v.items?.getD []), Passes n := by
  cases v with
  | arr xs =>
    have hports : (∀ n ∈ portsOf e xs, Passes n) ↔
        ∀ x ∈ xs, ∀ n ∈ (x.get e.portField).number?, Passes n := by
      simp only [portsOf, List.mem_filterMap]
      exact ⟨fun h x hx n hn => h n ⟨x, hx, hn⟩, fun h n ⟨x, hx, hn⟩ => h x hx n hn⟩
    refine Iff.trans ?_ (and_congr_right fun _ => hports.symm)
    exact (forall₂_congr fun _ _ => inboundFits_iff).trans forall₂_and
  | absent => exact iff_of_true trivial ⟨trivial, nofun⟩
  | _ => exact iff_of_false id fun h => h.1

theorem fits_iff {e : Engine} {fs : Fields} : Fits e fs ↔
    Lists (IsTagged e) (get fs "inbounds") ∧ (∀ n ∈ ports e fs, Passes n) ∧
      (e = .singBox → Lists (IsTagged e) (get fs "outbounds")) := by
  rw [← and_assoc, ports, ← lists_inboundFits]
  cases e with
  | singBox =>
    have houtbound : OutboundFits = IsTagged .singBox := funext fun _ => propext outboundFits_iff
    rw [Fits, houtbound]
    exact and_congr_right fun _ => ⟨fun h _ => h, fun h => h rfl⟩
  | xray => simp [Fits, Engine.typeField, Engine.portField]

/-! ## The difference -/

theorem documentedPort_iff {n : Number} :
    Number.le 1 n = true ∧ n.le 65535 = true ↔ Passes n ∧ Number.le 1 n = true := by
  have hzero : (0 : Number) = .finite 0 := by decide +kernel
  have hone : (1 : Number) = .finite Number.unitsPerOne := by decide +kernel
  have hunits : (0 : Int) < Number.unitsPerOne := Int.natCast_pos.2 Number.unitsPerOne_pos
  have hpositive : Number.le 1 n = true → Number.lt 0 n = true := by
    rw [hzero, hone]
    exact Number.lt_of_le_of_pos hunits
  exact ⟨fun h => ⟨⟨hpositive h.1, h.2⟩, h.1⟩, fun h => ⟨h.2, h.1.2⟩⟩

theorem documented_iff {e : Engine} {fs : Fields} : Documented e fs ↔
    Fits e fs ∧ (∀ n ∈ ports e fs, Number.le 1 n = true) ∧
      (e = .xray → Lists (IsTagged e) (get fs "outbounds")) := by
  have hports : (∀ n ∈ ports e fs, Number.le 1 n = true ∧ n.le 65535 = true) ↔
      (∀ n ∈ ports e fs, Passes n) ∧ ∀ n ∈ ports e fs, Number.le 1 n = true :=
    (forall₂_congr fun _ _ => documentedPort_iff).trans forall₂_and
  rw [fits_iff]
  constructor
  · rintro ⟨hin, hout, hdocumented⟩
    obtain ⟨hpasses, hlow⟩ := hports.1 hdocumented
    exact ⟨⟨hin, hpasses, fun _ => hout⟩, hlow, fun _ => hout⟩
  · rintro ⟨⟨hin, hpasses, hsingBox⟩, hlow, hxray⟩
    refine ⟨hin, ?_, hports.2 ⟨hpasses, hlow⟩⟩
    cases e with
    | singBox => exact hsingBox rfl
    | xray => exact hxray rfl

/-- For either engine, by any of its names, and for any text: the check passes just what is data
for a record whose inbounds and, for sing-box, outbounds are arrays of records with type and tag,
if they are there, and whose ports are above 0 and up to 65535; all else has errors. What it passes
is as documented just if besides no port is below one and, for Xray, outbounds are such an array
too. -/
theorem valid_iff_demanded {e : Engine} {type : String} (htype : Engine.ofName? type = some e)
    (text : String) :
    ((checkConfig text type).valid = true ↔ ∃ fs, Value.ofText? text = some (.obj fs) ∧
      Lists (IsTagged e) (get fs "inbounds") ∧ (∀ n ∈ ports e fs, Passes n) ∧
      (e = .singBox → Lists (IsTagged e) (get fs "outbounds"))) ∧
    (∀ fs, Value.ofText? text = some (.obj fs) →
      (Documented e fs ↔ (checkConfig text type).valid = true ∧
        (∀ n ∈ ports e fs, Number.le 1 n = true) ∧
        (e = .xray → Lists (IsTagged e) (get fs "outbounds")))) ∧
    ((checkConfig text type).valid = false ↔ (checkConfig text type).errors ≠ []) := by
  have hvalid : (checkConfig text type).valid = true ↔
      ∃ fs, Value.ofText? text = some (.obj fs) ∧ Fits e fs := checkConfig_valid_of_name htype
  refine ⟨hvalid.trans (exists_congr fun fs => and_congr_right fun _ => fits_iff),
    fun fs hfs => ?_, ?_⟩
  · have hrecord : (checkConfig text type).valid = true ↔ Fits e fs := by
      rw [hvalid, hfs]
      exact ⟨fun ⟨gs, hgs, h⟩ => by cases hgs; exact h, fun h => ⟨fs, rfl, h⟩⟩
    rw [hrecord]
    exact documented_iff
  · rw [← Bool.not_eq_true, Verdict.valid_iff]

/-- A configuration for sing-box with half a port. -/
def halfPort : String :=
  "\x7b\"inbounds\":[\x7b\"type\":\"vless\",\"tag\":\"in\",\"listen_port\":0.5\x7d]\x7d"

/-- A configuration for Xray with an outbound that has no protocol and no tag. -/
def bareOutbound : String := "\x7b\"outbounds\":[\x7b\x7d]\x7d"

theorem valid_iff_demanded_half_port :
    Engine.ofName? " Sing_Box " = some .singBox ∧
    ∀ fs, Value.ofText? halfPort = some (.obj fs) →
      (Documented .singBox fs ↔ (checkConfig halfPort " Sing_Box ").valid = true ∧
        (∀ n ∈ ports .singBox fs, Number.le 1 n = true) ∧
        (Engine.singBox = .xray → Lists (IsTagged .singBox) (get fs "outbounds"))) := by
  have hname : Engine.ofName? " Sing_Box " = some .singBox := by decide +kernel
  exact ⟨hname, (valid_iff_demanded hname halfPort).2.1⟩

/-- Both pass, and neither is as documented. -/
theorem half_port_and_bare_outbound_pass :
    ((checkConfig halfPort "sing-box").valid = true ∧
      ∃ fs, Value.ofText? halfPort = some (.obj fs) ∧ ¬ Documented .singBox fs) ∧
    (checkConfig bareOutbound "xray").valid = true ∧
      ∃ fs, Value.ofText? bareOutbound = some (.obj fs) ∧ ¬ Documented .xray fs := by
  refine ⟨⟨by decide +kernel, ?_⟩, by decide +kernel, ?_⟩
  · have hports : ((Value.ofText? halfPort).bind Value.fields?).map
        (fun fs => (ports .singBox fs).all (Number.le 1)) = some false := by decide +kernel
    obtain ⟨fs, hfs, hlow⟩ := Option.map_eq_some_iff.1 hports
    obtain ⟨v, hv, hfields⟩ := Option.bind_eq_some_iff.1 hfs
    refine ⟨fs, ?_, fun h => ?_⟩
    · cases v <;> simp_all [Value.fields?]
    · rw [List.all_eq_false] at hlow
      obtain ⟨n, hn, hbelow⟩ := hlow
      exact hbelow (h.ports n hn).1
  · refine ⟨[("outbounds", .arr [.obj []])], by rfl, fun h => ?_⟩
    obtain ⟨fs, hfs, hprotocol, -⟩ := h.outbounds _ (List.mem_singleton_self _)
    cases hfs
    cases hprotocol

end ConfigCheck

end ProxyFleet
