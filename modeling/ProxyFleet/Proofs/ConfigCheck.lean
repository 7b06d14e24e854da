import Mathlib.Data.List.Basic
import ProxyFleet.ConfigCheck
import ProxyFleet.Proofs.Number.Grid
import ProxyFleet.Proofs.Value.Fields

/-!
# Configurations that pass the check

A verdict is put together from those of the parts of a configuration, so its errors
are theirs. What a configuration without errors is like can therefore be said part by
part (`ConfigCheck.Fits`), whatever the texts of the errors.
-/

namespace ProxyFleet

namespace Verdict

variable {b : Bool} {text : String} {v w : Verdict}

theorem valid_iff : v.valid = true ↔ v.errors = [] := List.isEmpty_iff

@[simp] theorem all_errors {vs : List Verdict} : (all vs).errors = [] ↔ ∀ v ∈ vs, v.errors = [] :=
  List.flatMap_eq_nil_iff

@[simp] theorem errorIf_errors : (errorIf b text).errors = [] ↔ b = false := by
  cases b <;> simp [errorIf, clear]

@[simp] theorem warningIf_errors : (warningIf b text).errors = [] := by
  cases b <;> rfl

end Verdict

/-! ## Ports -/

namespace Number

-- powers this large are never evaluated
attribute [local irreducible] unitsPerOne unitsLimit

/-- A whole number of few bits is a double itself. -/
theorem ofInt_exact {n : Int} (h : n.natAbs < 2 ^ 53) : ofInt n = .finite (n * unitsPerOne) := by
  have hlt : n.natAbs * unitsPerOne < unitsLimit := by
    rw [unitsPerOne_eq, unitsLimit_eq]
    calc n.natAbs * 2 ^ 1074 < 2 ^ 53 * 2 ^ 1074 :=
          Nat.mul_lt_mul_of_pos_right h (Nat.two_pow_pos _)
      _ ≤ 2 ^ 2098 := by
          rw [← Nat.pow_add]
          exact Nat.pow_le_pow_right (by decide) (by decide)
  have hdouble : IsDouble (.finite (n.natAbs * unitsPerOne : Nat)) :=
    ⟨⟨n.natAbs, 1074, h, by rw [Int.natAbs_natCast, unitsPerOne_eq]⟩, hlt⟩
  have hexact := ofRatio_exact hdouble Nat.one_pos (decide (n < 0))
  rw [Nat.one_mul] at hexact
  refine hexact.trans (congrArg Number.finite ?_)
  rw [Int.natCast_mul]
  by_cases hn : n < 0
  · rw [if_pos (decide_eq_true hn), Int.ofNat_natAbs_of_nonpos (Int.le_of_lt hn), Int.neg_mul,
      Int.neg_neg]
  · rw [if_neg (by simpa using hn), Int.natAbs_of_nonneg (Int.not_lt.1 hn)]

theorem le_ofInt {m n : Int} (hm : m.natAbs < 2 ^ 53) (hn : n.natAbs < 2 ^ 53) (h : m ≤ n) :
    (ofInt m).le (ofInt n) = true := by
  have hunits : (0 : Int) ≤ unitsPerOne := Int.natCast_nonneg _
  have hle : m * (unitsPerOne : Int) ≤ n * unitsPerOne := Int.mul_le_mul_of_nonneg_right h hunits
  rw [ofInt_exact hm, ofInt_exact hn]
  simp only [le, lt, eq, Bool.or_eq_true, decide_eq_true_eq, finite.injEq]
  exact Int.lt_or_eq_of_le hle

/-- A double from 1 to 65535. -/
structure InPorts (n : Number) : Prop where
  isDouble : n.IsDouble
  low : Number.le 1 n = true
  high : n.le 65535 = true

theorem lt_of_le_of_pos {u : Int} {n : Number} (hu : 0 < u)
    (h : Number.le (.finite u) n = true) : Number.lt (.finite 0) n = true := by
  cases n with
  | finite v =>
      have hle : u < v ∨ u = v := by simpa [le, lt, eq] using h
      exact decide_eq_true (by omega : 0 < v)
  | infinite negative => simpa [le, lt, eq] using h
  | nan => simp [le, lt, eq] at h

theorem isFinite_of_le {u v : Int} {n : Number} (hlow : Number.le (.finite u) n = true)
    (hhigh : n.le (.finite v) = true) : n.isFinite = true := by
  cases n with
  | finite w => rfl
  | infinite negative => cases negative <;> simp [le, lt, eq] at hlow hhigh
  | nan => simp [le, lt, eq] at hlow

theorem InPorts.isFinite {n : Number} (h : n.InPorts) : n.isFinite = true := by
  have hone : (1 : Number) = .finite (1 * unitsPerOne) := ofInt_exact (by decide)
  have hlimit : (65535 : Number) = .finite (65535 * unitsPerOne) := ofInt_exact (by decide)
  exact isFinite_of_le (hone ▸ h.low) (hlimit ▸ h.high)

theorem inPorts_ofInt {n : Int} (hlow : 1 ≤ n) (hhigh : n ≤ 65535) : (ofInt n).InPorts where
  isDouble := isDouble_ofInt n
  low := le_ofInt (by decide) (by omega) hlow
  high := le_ofInt (by omega) (by decide) hhigh

end Number

namespace ConfigCheck

open Verdict Fields

variable {fs : Fields} {place name : String}

theorem badPort?_inPorts {n : Number} (h : n.InPorts) : badPort? (.num n) = none := by
  have hzero : (0 : Number) = .finite (0 * Number.unitsPerOne) := Number.ofInt_exact (by decide)
  have hone : (1 : Number) = .finite (1 * Number.unitsPerOne) := Number.ofInt_exact (by decide)
  have hunits : (0 : Int) < 1 * Number.unitsPerOne := by
    rw [Int.one_mul]
    exact Int.natCast_pos.2 Number.unitsPerOne_pos
  have hpos : Number.lt 0 n = true := by
    rw [hzero, Int.zero_mul]
    exact Number.lt_of_le_of_pos hunits (hone ▸ h.low)
  rw [badPort?, hpos, h.high]
  rfl

/-! ## Parts -/

@[simp] theorem required_errors : (required fs place name).errors = [] ↔ has fs name = true := by
  simp [required]

@[simp] theorem port_errors :
    (port fs place name).errors = [] ↔ badPort? (get fs name) = none := by
  unfold port
  cases badPort? (get fs name) <;> simp [clear]

@[simp] theorem expected_errors {advice : String} : (expected fs name advice).errors = [] :=
  warningIf_errors

@[simp] theorem singBoxProtocol_errors : (singBoxProtocol fs place).errors = [] := by
  unfold singBoxProtocol
  dsimp only
  split
  · exact warningIf_errors
  · split
    · exact warningIf_errors
    · split
      · exact warningIf_errors
      · rfl

/-- What a listener must be like, by the names that an engine has for its type and its port. -/
def InboundFits (type port : String) : Value → Prop
  | .obj fs => has fs type = true ∧ has fs "tag" = true ∧ badPort? (get fs port) = none
  | _ => False

/-- What an outbound for sing-box must be like. -/
def OutboundFits : Value → Prop
  | .obj fs => has fs "type" = true ∧ has fs "tag" = true
  | _ => False

theorem singBoxInbound_errors (i : Nat) (v : Value) :
    (singBoxInbound i v).errors = [] ↔ InboundFits "type" "listen_port" v := by
  cases v with
  | obj fs => simp [singBoxInbound, InboundFits]
  | _ => simp [singBoxInbound, InboundFits]

theorem singBoxOutbound_errors (i : Nat) (v : Value) :
    (singBoxOutbound i v).errors = [] ↔ OutboundFits v := by
  cases v with
  | obj fs => simp [singBoxOutbound, OutboundFits]
  | _ => simp [singBoxOutbound, OutboundFits]

theorem xrayInbound_errors (i : Nat) (v : Value) :
    (xrayInbound i v).errors = [] ↔ InboundFits "protocol" "port" v := by
  cases v with
  | obj fs => simp [xrayInbound, InboundFits]
  | _ => simp [xrayInbound, InboundFits]

/-! ## Configurations -/

/-- A section that is not there, or an array of items of a kind. -/
def Lists (P : Value → Prop) : Value → Prop
  | .absent => True
  | .arr xs => ∀ x ∈ xs, P x
  | _ => False

theorem checkSection_errors {item : Nat → Value → Verdict} {P : Value → Prop}
    (hitem : ∀ i v, (item i v).errors = [] ↔ P v) :
    (checkSection fs name item).errors = [] ↔ Lists P (get fs name) := by
  unfold checkSection
  cases get fs name with
  | arr xs =>
      dsimp only
      rw [all_errors, List.forall_mem_map]
      refine ⟨fun h x hx => ?_, fun h e he => ?_⟩
      · rw [← List.zipIdx_map_fst 0 xs] at hx
        obtain ⟨e, he, rfl⟩ := List.mem_map.1 hx
        exact (hitem e.2 e.1).1 (h e he)
      · exact (hitem e.2 e.1).2 (h e.1 (List.fst_mem_of_mem_zipIdx he))
  | absent => simp [Lists, clear]
  | _ => simp [Lists]

/-- What a configuration must be like for an engine. -/
def Fits : Engine → Fields → Prop
  | .singBox, fs => Lists (InboundFits "type" "listen_port") (get fs "inbounds") ∧
      Lists OutboundFits (get fs "outbounds")
  | .xray, fs => Lists (InboundFits "protocol" "port") (get fs "inbounds")

theorem record_errors {check : Fields → Verdict} {v : Value} :
    (record check v).errors = [] ↔ ∃ fs, v = .obj fs ∧ (check fs).errors = [] := by
  cases v <;> simp [record]

theorem checkStructure_errors {e : Engine} {type : String} (htype : Engine.ofName? type = some e)
    (kind : String) (v : Value) :
    (checkStructure kind type v).errors = [] ↔ ∃ fs, v = .obj fs ∧ Fits e fs := by
  unfold checkStructure
  rw [htype]
  cases e with
  | singBox =>
      simp only [record_errors, singBox, all_errors, List.forall_mem_cons, expected_errors,
        checkSection_errors singBoxInbound_errors, checkSection_errors singBoxOutbound_errors,
        List.not_mem_nil, false_implies, implies_true, true_and, and_true, Fits]
  | xray =>
      simp only [record_errors, xray, all_errors, List.forall_mem_cons, expected_errors,
        checkSection_errors xrayInbound_errors, List.not_mem_nil, false_implies, implies_true,
        true_and, and_true, Fits]

end ConfigCheck

/-- What passes the check is data for a record with sections that fit. -/
theorem checkConfig_valid_of_name {e : Engine} {type : String}
    (htype : Engine.ofName? type = some e) {text : String} :
    (checkConfig text type).valid = true ↔
      ∃ fs, Value.ofText? text = some (.obj fs) ∧ ConfigCheck.Fits e fs := by
  unfold checkConfig
  rw [Verdict.valid_iff]
  cases h : Value.ofText? text with
  | none => simp
  | some v =>
      simp [ConfigCheck.checkStructure_errors htype]

theorem checkConfig_valid {e : Engine} {text : String} :
    (checkConfig text e.name).valid = true ↔
      ∃ fs, Value.ofText? text = some (.obj fs) ∧ ConfigCheck.Fits e fs :=
  checkConfig_valid_of_name (by cases e <;> decide +kernel)

end ProxyFleet
