import ProxyFleet.Proofs.Store.Step
import ProxyFleet.Site.Templates

/-!
# Templates and what came of checking them

A stored template carries what came of checking it. The two fit (`TemplateRow.Sound`)
for as long as whoever writes the text or the type writes the verdict on both with it,
taking from the row what is not written. Here it is said what the three writes to the
table of templates do to its rows.
-/

namespace ProxyFleet

/-! ## Texts that are not blank -/

theorem exists_not_of_dropWhile {p : Char → Bool} {cs : List Char} (h : cs.dropWhile p ≠ []) :
    ∃ c ∈ cs.dropWhile p, p c = false := by
  induction cs with
  | nil => exact absurd rfl h
  | cons c cs ih =>
      rw [List.dropWhile_cons] at h ⊢
      cases hc : p c with
      | false => exact ⟨c, by simp, hc⟩
      | true =>
          rw [hc, if_pos rfl] at h
          simpa [hc] using ih h

theorem isAllBlank_trim {s : String} (h : trim s ≠ "") : isAllBlank (trim s) = false := by
  have htext : trim s =
      String.ofList ((s.toList.dropWhile isBlank).reverse.dropWhile isBlank).reverse := rfl
  rw [htext] at h ⊢
  have hne : (s.toList.dropWhile isBlank).reverse.dropWhile isBlank ≠ [] := by
    intro hnil
    rw [hnil] at h
    exact h rfl
  obtain ⟨c, hc, hblank⟩ := exists_not_of_dropWhile hne
  rw [isAllBlank, String.toList_ofList, List.all_eq_false]
  exact ⟨c, List.mem_reverse.2 hc, by rw [hblank]; exact Bool.false_ne_true⟩

/-! ## Rows -/

/-- What is kept with a template is what came of checking it, and nothing that must be said of it is
left blank. -/
structure TemplateRow.Sound (r : TemplateRow) : Prop where
  type : r.type.name = "sing-box" ∨ r.type.name = "xray"
  isValid : r.isValid = (Template.check r.content r.type.name).valid
  validationError : r.validationError = (Template.check r.content r.type.name).firstError
  name : isAllBlank r.name = false
  content : isAllBlank r.content = false
  minVersion : r.minVersion = "" ∨ (Version.ofText? r.minVersion).isSome = true

theorem Engine.name_cases (e : Engine) : e.name = "sing-box" ∨ e.name = "xray" := by
  cases e
  · exact Or.inl rfl
  · exact Or.inr rfl

theorem Engine.ofWord?_name (e : Engine) : ofWord? e.name = some e := by
  cases e <;> rfl

theorem checkMinVersion_ok {text m : String} (h : checkMinVersion text = .ok m) :
    m = "" ∨ (Version.ofText? m).isSome = true := by
  unfold checkMinVersion at h
  dsimp only at h
  split at h
  · cases h
  · next hnot =>
      cases h
      rw [not_and_or, not_not] at hnot
      exact hnot.imp_right Option.ne_none_iff_isSome.1

namespace Store

variable {s t : Store} {id : String} {now : Instant}

/-- A template that is put in is kept as told, behind the others. -/
theorem createTemplate_rows {new : NewTemplate} {e : Engine} {x : ConfigTemplate}
    (htype : new.type = e.name) (h : s.createTemplate id now new = .ok (x, t)) :
    t.templates = s.templates ∨ ∃ row : TemplateRow, t.templates = s.templates ++ [row] ∧
      row.type = e ∧ row.name = new.name ∧ row.content = new.content ∧
      row.minVersion = new.minVersion ∧ row.isValid = new.isValid ∧
      row.validationError = new.validationError := by
  obtain ⟨u, hput, hr⟩ := bind_ok h
  obtain ⟨w, hw, hu⟩ := bind_ok hput
  cases hr
  cases hu
  rcases write_ok hw with rfl | ⟨v, htarget, rfl, -⟩
  · exact Or.inl rfl
  · obtain ⟨row, hrow, hv⟩ := bind_ok htarget
    cases hv
    rw [htype, Engine.ofWord?_name] at hrow
    obtain rfl := Except.ok.inj hrow
    exact Or.inr ⟨_, rfl, rfl, rfl, rfl, rfl, rfl, rfl⟩

/-- A change of a template is passed over, and then no template is returned; or it is made to the
row of the template, and what is not told stays. -/
theorem updateTemplate_rows {change : TemplateChange} (type : Option Engine)
    {x : Option ConfigTemplate} (htype : change.type = type.map Engine.name)
    (h : s.updateTemplate id now change = .ok (x, t)) :
    x = none ∧ t = s ∨ x.isSome = true ∧ ∃ old row : TemplateRow,
      s.templates.find? (·.id == id) = some old ∧
      t.templates = mapRow TemplateRow.id id (fun _ => row) s.templates ∧
      row.type = type.getD old.type ∧ row.name = change.name.getD old.name ∧
      row.content = change.content.getD old.content ∧
      row.minVersion = change.minVersion.getD old.minVersion ∧
      row.isValid = change.isValid.getD old.isValid ∧
      row.validationError = change.validationError.getD old.validationError := by
  obtain ⟨w, hw, hr⟩ := bind_ok h
  unfold changeTemplate at hw
  split at hw
  · cases hw
    cases hr
    exact Or.inl ⟨rfl, rfl⟩
  · next old hold =>
      rcases write_ok hw with rfl | ⟨u, htarget, rfl, -⟩
      · cases hr
        exact Or.inl ⟨rfl, rfl⟩
      · obtain ⟨row, hrow, hu⟩ := bind_ok htarget
        cases hu
        cases hr
        dsimp only at hrow
        rw [htype] at hrow
        have hfields : row.id = old.id ∧ row.type = type.getD old.type ∧
            row.name = change.name.getD old.name ∧
            row.content = change.content.getD old.content ∧
            row.minVersion = change.minVersion.getD old.minVersion ∧
            row.isValid = change.isValid.getD old.isValid ∧
            row.validationError = change.validationError.getD old.validationError := by
          cases type with
          | none =>
              obtain rfl := Except.ok.inj hrow
              exact ⟨rfl, rfl, rfl, rfl, rfl, rfl, rfl⟩
          | some e =>
              dsimp only [Option.map_some] at hrow
              rw [Engine.ofWord?_name] at hrow
              obtain rfl := Except.ok.inj hrow
              exact ⟨rfl, rfl, rfl, rfl, rfl, rfl, rfl⟩
        obtain ⟨hid, hfields⟩ := hfields
        refine Or.inr ⟨?_, old, row, hold, rfl, hfields⟩
        -- the row is found again, under the id it kept
        have hfound : old.id = id := by simpa using List.find?_some hold
        have hmem : row ∈ mapRow TemplateRow.id id (fun _ => row) s.templates :=
          mem_mapRow.2 ⟨old, List.mem_of_find?_eq_some hold, by rw [if_pos (beq_iff_eq.2 hfound)]⟩
        rw [if_pos rfl, template?, Option.isSome_map, List.find?_isSome]
        exact ⟨row, hmem, beq_iff_eq.2 (hid.trans hfound)⟩

theorem removeTemplate_rows {removed : Bool} (h : s.removeTemplate id = .ok (t, removed)) :
    removed = false ∧ t = s ∨ removed = true ∧ t.templates = s.templates.filter (·.id != id) := by
  unfold removeTemplate at h
  split at h
  · rcases write_ok h with heq | ⟨u, hu, heq, -⟩
    · cases heq
      exact Or.inl ⟨rfl, rfl⟩
    · obtain ⟨instances, -, hu⟩ := bind_ok hu
      obtain ⟨hosts, -, hu⟩ := bind_ok hu
      cases hu
      cases heq
      exact Or.inr ⟨rfl, rfl⟩
  · cases h
    exact Or.inl ⟨rfl, rfl⟩

end Store

end ProxyFleet
