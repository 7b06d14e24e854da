import ProxyFleet.Proofs.Inbound.Record
import ProxyFleet.Proofs.Value.Stable
import ProxyFleet.Store.Instances
import ProxyFleet.Store.Servers

/-!
# Lists in a column

A list is kept as the text of an array. Whoever reads it takes what has the right form
and passes over the rest, so that a column that was written over by hand is still read.
A list that was written as one is read back whole, if its items have that form and come
back from a text themselves.
-/

namespace ProxyFleet

/-! ## Items of the right form -/

theorem Number.isFinite_of_isWhole {n : Number} (h : n.isWhole = true) : n.isFinite = true := by
  cases n with
  | finite u => rfl
  | infinite s => cases h
  | nan => cases h

namespace Value

def IsText (v : Value) : Prop := ∃ s, v = .str s

def IsWholeNumber (v : Value) : Prop := ∃ n : Number, v = .num n ∧ n.isWhole = true

/-- A record with the fields that a listener has at its top. -/
def IsListener (v : Value) : Prop :=
  ∃ fs, v = .obj fs ∧ (∀ name ∈ ["type", "tag", "listen"], ∃ s, Fields.get fs name = .str s) ∧
    (∃ n, Fields.get fs "listenPort" = .num n) ∧ (∃ os, Fields.get fs "options" = .obj os) ∧
    ∀ name ∈ ["users", "requiredCapabilities"], ∃ vs, Fields.get fs name = .arr vs

theorem isInbound_iff {v : Value} : v.isInbound = true ↔ v.IsListener := by
  cases v with
  | obj fs =>
    have hshape : (obj fs).isInbound = ((Fields.get fs "type").text?.isSome &&
        (Fields.get fs "tag").text?.isSome && (Fields.get fs "listen").text?.isSome &&
        (Fields.get fs "listenPort").number?.isSome && (Fields.get fs "users").items?.isSome &&
        (Fields.get fs "options").isRecord &&
        (Fields.get fs "requiredCapabilities").items?.isSome) := by
      rw [isInbound]
      cases Fields.get fs "listenPort" <;> rfl
    simp only [hshape, Bool.and_eq_true, Option.isSome_iff_exists, text?_eq_some, number?_eq_some,
      items?_eq_some, isRecord_iff, IsListener, obj.injEq, exists_eq_left', List.forall_mem_cons,
      List.not_mem_nil, false_implies, implies_true, and_true]
    tauto
  | _ => exact iff_of_false nofun fun ⟨fs, hfs, _⟩ => nomatch hfs

/-! ## Reading -/

/-- What the text of an array lists; other texts list nothing. -/
def listedIn (s : String) : List Value :=
  match ofText? s with
  | some (.arr vs) => vs
  | _ => []

theorem arrayOfText_eq (keep : Value → Bool) (s : String) :
    arrayOfText keep s = (listedIn s).filter keep := by
  rw [arrayOfText, listedIn]
  cases ofText? s with
  | none => rfl
  | some v => cases v <;> rfl

theorem listedIn_tightText {vs : List Value} (h : ∀ v ∈ vs, v.Stable) :
    listedIn (arr vs).tightText = vs := by
  have hread : ofText? (arr vs).tightText = some (arr vs) := by
    rw [tightText, ofText?_written, (stable_arr h).same]
  rw [listedIn, hread]

/-- Items that have the right form and come back from a text are read back, all of them. -/
theorem arrayOfText_tightText {keep : Value → Bool} {vs : List Value} (h : ∀ v ∈ vs, v.Stable)
    (hkeep : ∀ v ∈ vs, keep v = true) : arrayOfText keep (arr vs).tightText = vs := by
  rw [arrayOfText_eq, listedIn_tightText h, List.filter_eq_self.2 hkeep]

end Value

/-- A list of whole numbers is read back from its text. -/
theorem wholesOfText_numbersText {ns : List Number}
    (h : ∀ n ∈ ns, n.IsDouble ∧ n.isWhole = true) : wholesOfText (numbersText ns) = ns := by
  have hitems : ∀ v ∈ ns.map Value.num, v.Stable ∧ v.isWhole = true := by
    intro v hv
    obtain ⟨n, hn, rfl⟩ := List.mem_map.1 hv
    obtain ⟨hdouble, hwhole⟩ := h n hn
    have hcounted : n.Counted := ⟨hdouble, fun _ => hwhole⟩
    exact ⟨hcounted.stable (Number.isFinite_of_isWhole hwhole), hwhole⟩
  rw [wholesOfText, numbersText, Value.arrayOfText_tightText (fun v hv => (hitems v hv).1)
    fun v hv => (hitems v hv).2, List.filterMap_map]
  exact List.filterMap_some

end ProxyFleet
