import ProxyFleet.Conversion
import ProxyFleet.Proofs.Inbound.Files
import ProxyFleet.Proofs.Inbound.Parts

/-!
# The texts of a conversion

A conversion refuses a blank text before it looks at the engines, but such a text
cannot be read anyway. So what is converted is what is read, and the notes of writing
follow those of reading (`convertConfig_ok_iff`). What comes out of a conversion is read
as the listeners that went into it, read back.
-/

namespace ProxyFleet

/-! ## Blank texts -/

/-- A blank character between tokens is passed over or not allowed. -/
theorem Token.start_blank {c : Char} (h : isBlank c = true) {s : Scan}
    (hs : start [] c = some s) : s = ⟨.between, []⟩ := by
  have hrange := blank_ranges h
  have hdigit : ¬c.isDigit = true := by
    simp only [Char.isDigit, Bool.and_eq_true, decide_eq_true_eq, ge_iff_le,
      UInt32.le_iff_toNat_le]
    rintro ⟨hlow, hhigh⟩
    have hlow : 48 ≤ c.toNat := hlow
    have hhigh : c.toNat ≤ 57 := hhigh
    omega
  have hlower : ¬c.isLower = true := fun hlower => by
    obtain ⟨hlow, hhigh⟩ := Bool.and_eq_true_iff.1 hlower
    have hlow : 97 ≤ c.toNat := UInt32.le_iff_toNat_le.1 (of_decide_eq_true hlow)
    have hhigh : c.toNat ≤ 122 := UInt32.le_iff_toNat_le.1 (of_decide_eq_true hhigh)
    omega
  have hne : ∀ d ∈ ['[', ']', '{', '}', ',', ':', '"', '-'], c ≠ d := fun d hd =>
    blank_ne h (by simpa using List.all_eq_true.1 (by rfl : ['[', ']', '{', '}', ',', ':', '"',
      '-'].all fun d => decide (32 < d.toNat ∧ d.toNat < 160)) d hd)
  simp only [List.forall_mem_cons] at hne
  obtain ⟨h1, h2, h3, h4, h5, h6, h7, h8, -⟩ := hne
  have hsign : ¬(c = '-' || c.isDigit) = true := by simp [h8, hdigit]
  unfold start at hs
  split at hs
  · cases hs
    rfl
  · -- a blank character begins no token
    cases hs

theorem Token.scan_blank {cs : List Char} (h : ∀ c ∈ cs, isBlank c = true) {ts : List Token}
    (hts : scan cs = some ts) : ts = [] := by
  obtain ⟨s, hrun, hfinish⟩ := Option.bind_eq_some_iff.1 hts
  have hs : s = ⟨.between, []⟩ := by
    refine foldlM_keeps (P := fun s => s = ⟨.between, []⟩) ?_ h rfl hrun
    rintro s c s' rfl hc hstep
    exact start_blank hc hstep
  rw [hs] at hfinish
  cases hfinish
  rfl

/-- Without a character that is not blank there is no value. -/
theorem Value.ofCommentedText?_blank {s : String} (h : isAllBlank s = true) :
    ofCommentedText? s = none := by
  have hblank : ∀ c ∈ s.toList, isBlank c = true := List.all_eq_true.1 h
  obtain ⟨hstrip, hcommas⟩ := Comments.Inert.of_plain (fun c hc =>
    ⟨blank_ne (hblank c hc) (by decide), blank_ne (hblank c hc) (by decide),
      blank_ne (hblank c hc) (by decide)⟩) []
  rw [List.append_nil] at hstrip hcommas
  have hstrip : Comments.strip .plain s.toList = s.toList := by
    refine hstrip.trans ?_
    rw [Comments.place, if_neg Bool.false_ne_true, Comments.strip, List.append_nil]
  have hcommas : Comments.stripCommas false s.toList = s.toList := by
    refine hcommas.trans ?_
    rw [Comments.stripCommas, List.append_nil]
  rw [ofCommentedText?, hstrip, hcommas, ofChars?]
  cases hts : Token.scan s.toList with
  | none => rfl
  | some ts =>
      rw [Token.scan_blank hblank hts]
      rfl

/-- What can be read is not blank. -/
theorem Engine.not_blank_of_read {e : Engine} {file text : String} {found : Noted (List Inbound)}
    (h : e.read file text = .ok found) : isAllBlank text = false := by
  have hnone : isAllBlank text = true → ∀ els, ConfigFile.elements e file text ≠ .ok els := by
    intro hblank els hels
    rw [ConfigFile.elements, Value.ofCommentedText?_blank hblank] at hels
    cases hels
  refine Bool.eq_false_iff.2 fun hblank => ?_
  cases e with
  | singBox =>
      cases hels : ConfigFile.elements .singBox file text with
      | error _ =>
          rw [read, SingBox.read, hels] at h
          cases h
      | ok els => exact hnone hblank els hels
  | xray =>
      cases hels : ConfigFile.elements .xray file text with
      | error _ =>
          rw [read, Xray.read, hels] at h
          cases h
      | ok els => exact hnone hblank els hels

/-! ## Files that are written out -/

/-- The listeners of a file, by its characters. -/
def ConfigFile.elementsOfChars (e : Engine) (file : String) (cs : List Char) :
    Except Failure (List Value) :=
  match Value.ofChars? (Comments.stripCommas false (Comments.strip .plain cs)) with
  | none => .error (.unreadable (.badText e.name file badTextReason))
  | some (.arr xs) => .ok xs
  | some (.obj fs) =>
    match Fields.get fs "inbounds" with
    | .absent => .ok []
    | .arr xs => .ok xs
    | _ => .error (.unreadable (.inboundsNotArray e.name file))
  | some _ => .error (.unreadable (.notContainer e.name file))

theorem ConfigFile.elements_of_chars {e : Engine} {file text : String} {cs : List Char}
    (h : text.toList = cs) : elements e file text = elementsOfChars e file cs := by
  subst h
  rfl

/-- What an engine reads of a file, by its characters. -/
def Engine.readChars (e : Engine) (file : String) (cs : List Char) :
    Except Failure (Noted (List Inbound)) :=
  (ConfigFile.elementsOfChars e file cs).map fun els =>
    match e with
    | .singBox => SingBox.readElements els
    | .xray => Xray.readElements els

theorem Engine.read_of_chars {e : Engine} {file text : String} {cs : List Char}
    (h : text.toList = cs) : e.read file text = e.readChars file cs := by
  subst h
  cases e <;> rfl

/-! ## Conversions -/

theorem Engine.ofName_name (e : Engine) : ofName e.name = .ok e ∧ isAllBlank e.name = false := by
  cases e <;> decide +kernel

/-- Whatever can be read of one engine is converted to any other. -/
theorem convertConfig_ok_iff {s t : Engine} {text : String} {out : Noted String} :
    convertConfig s.name t.name text = .ok out ↔
      ∃ found, s.read defaultFile text = .ok found ∧ out = found >>= (convert · t) := by
  obtain ⟨hs, hsblank⟩ := s.ofName_name
  obtain ⟨ht, htblank⟩ := t.ofName_name
  have hread : convertConfig s.name t.name text =
      if isAllBlank text then .error (.invalid .configRequired)
      else (s.read defaultFile text).map (· >>= (convert · t)) := by
    unfold convertConfig
    rw [hs, ht, hsblank, htblank]
    rw [if_neg Bool.false_ne_true, if_neg Bool.false_ne_true]
    rfl
  rw [hread]
  constructor
  · intro h
    split at h
    · cases h
    · cases hfound : s.read defaultFile text with
      | error _ =>
          rw [hfound] at h
          cases h
      | ok found =>
          rw [hfound] at h
          cases h
          exact ⟨found, rfl, rfl⟩
  · rintro ⟨found, hfound, rfl⟩
    rw [Engine.not_blank_of_read hfound, if_neg Bool.false_ne_true, hfound]
    rfl

/-- Written listeners are found in the text of a conversion, read back. -/
theorem ConfigFile.elements_inboundsText (e : Engine) (file : String) (natives : List Value) :
    elements e file (inboundsText natives) = .ok (natives.map Value.reread) :=
  (HasListeners.alone natives).elements_written e file .spread 0

/-- What is read of a file is read of its records, which were read from a text themselves. -/
theorem Engine.mem_read {e : Engine} {file text : String} {found : Noted (List Inbound)}
    {i : Inbound} (h : e.read file text = .ok found) (hi : i ∈ found.value) :
    ∃ el index, (Value.obj el).Settled ∧ (e.readInbound el index).value = some i := by
  cases hels : ConfigFile.elements e file text with
  | error _ => cases e <;> simp [read, SingBox.read, Xray.read, hels, Except.map] at h
  | ok els =>
      have hread : ∃ v ∈ els, ∃ index el, v = .obj el ∧ (e.readInbound el index).value = some i := by
        cases e with
        | singBox =>
            rw [read, SingBox.read, hels] at h
            cases h
            obtain ⟨v, hv, index, hread⟩ := Noted.mem_filterMap hi
            cases v with
            | obj el => exact ⟨_, hv, index, el, rfl, hread⟩
            | _ => cases hread
        | xray =>
            rw [read, Xray.read, hels] at h
            cases h
            obtain ⟨v, hv, index, hread⟩ := Noted.mem_filterMap hi
            cases v with
            | obj el => exact ⟨_, hv, index, el, rfl, hread⟩
            | _ => cases hread
      obtain ⟨_, hv, index, el, rfl, hread⟩ := hread
      exact ⟨el, index, ConfigFile.elements_settled hels _ hv, hread⟩

end ProxyFleet
