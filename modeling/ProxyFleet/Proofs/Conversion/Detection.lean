import Mathlib.Data.List.Forall2
import ProxyFleet.Proofs.Conversion.Texts
import ProxyFleet.Proofs.SingBox.Quiet
import ProxyFleet.Proofs.Xray.Quiet

/-!
# Files show which engine they were written for

Detection looks at the names of fields, reading at what they hold, and writing decides on
both. A listener may have any options and a transport of any name, but what is written of
it for sing-box has none of the fields by which Xray is known, and what is written for Xray
has one of them always (`looks_written` of either engine). So a file that was written with
a listener in it is detected as one of its engine, and read as such each of its listeners
is found, in order and without a note (`formats_agree`).
-/

namespace ProxyFleet

/-! ## Detection -/

namespace ConfigFile

variable {text : String} {e : Engine}

theorem not_singBox_of_xray (h : looksLike .xray text = true) :
    looksLike .singBox text = false := by
  rw [looksLike] at h
  rw [looksLike, h, Bool.not_true, Bool.and_false]

/-- A file looks like one of at most one engine, and this one is detected. -/
theorem detect_eq_some_iff : detect text = some e ↔ looksLike e text = true := by
  unfold detect
  cases hxray : looksLike .xray text with
  | true =>
      have hsingBox := not_singBox_of_xray hxray
      cases e <;> simp [hxray, hsingBox]
  | false =>
      cases hsingBox : looksLike .singBox text <;> cases e <;> simp [hxray, hsingBox]

/-- The records of a file are those among its listeners, if it can be read at all. -/
theorem records_eq (e : Engine) (file text : String) : records text =
    ((elements e file text).toOption.getD []).filterMap Value.fields? := by
  unfold records elements
  cases Value.ofCommentedText? text with
  | none => rfl
  | some v =>
      cases v with
      | obj fs =>
          dsimp only
          cases Fields.get fs "inbounds" <;> rfl
      | _ => rfl

theorem mem_records {vs : List Value} {el : Fields} :
    el ∈ records (inboundsText vs) ↔ ∃ v ∈ vs, v.reread = .obj el := by
  have hfields : ∀ v : Value, v.fields? = some el ↔ v = .obj el := by
    intro v
    cases v <;> simp [Value.fields?]
  rw [records_eq .xray "", elements_inboundsText]
  change el ∈ List.filterMap _ (vs.map Value.reread) ↔ _
  simp only [List.mem_filterMap, List.mem_map, exists_exists_and_eq_and, hfields]

/-- What looks like a file of an engine has listeners, so it can be read. -/
theorem elements_of_looksLike (h : looksLike e text = true) (e' : Engine) (file : String) :
    ∃ els, elements e' file text = .ok els := by
  cases hels : elements e' file text with
  | ok els => exact ⟨els, rfl⟩
  | error why =>
      have hnone : records text = [] := by
        rw [records_eq e' file, hels]
        rfl
      cases e <;> simp [looksLike, hnone] at h

end ConfigFile

/-! ## Reading what was written -/

namespace Noted

variable {α β γ κ : Type}

/-- If each result of a function is fit for something, the results are, one by one. Those of the
items that give a result keep their order. -/
theorem filterMap_forall₂ {f : Nat → α → Noted (Option β)} {R : β → γ → Prop} {key : α → κ}
    {key' : γ → κ} {as : List α}
    (h : ∀ a ∈ as, ∀ n b, (f n a).value = some b → ∃ c, key' c = key a ∧ R b c) :
    ∃ cs, (cs.map key').Sublist (as.map key) ∧ List.Forall₂ R (filterMap f as).value cs := by
  have hfrom : ∀ n, ∃ cs, (cs.map key').Sublist (as.map key) ∧
      List.Forall₂ R (filterMapFrom f n as).value cs := by
    induction as with
    | nil => exact fun _ => ⟨[], .slnil, .nil⟩
    | cons a as ih =>
        intro n
        obtain ⟨cs, horder, hcs⟩ := ih (fun b hb => h b (List.mem_cons_of_mem a hb)) (n + 1)
        change ∃ cs, _ ∧ List.Forall₂ R
          ((f n a).value.toList ++ (filterMapFrom f (n + 1) as).value) cs
        cases hvalue : (f n a).value with
        | none => exact ⟨cs, horder.cons _, hcs⟩
        | some b =>
            obtain ⟨c, hkey, hc⟩ := h a List.mem_cons_self n b hvalue
            refine ⟨c :: cs, ?_, .cons hc hcs⟩
            rw [List.map_cons, List.map_cons, hkey]
            exact horder.cons_cons _
  exact hfrom 0

/-- What is read without a note one by one is read so as a list. -/
theorem filterMap_of_forall₂ {g : Nat → β → Noted (Option γ)} {bs : List β} {cs : List γ}
    (h : List.Forall₂ (fun b c => ∀ n, g n b = pure (some c)) bs cs) :
    filterMap g bs = pure cs := by
  have hfrom : ∀ n, filterMapFrom g n bs = pure cs := by
    induction h with
    | nil => exact fun _ => rfl
    | cons hb _ ih =>
        intro n
        rw [filterMapFrom, hb, ih]
        rfl
  exact hfrom 0

end Noted

namespace Engine

variable {e : Engine} {i : Inbound} {is : List Inbound}

/-- Whether an engine reads something as a certain listener, without a note. -/
def Takes (e : Engine) (native : Value) (j : Inbound) : Prop :=
  ∃ el, native = .obj el ∧ ∀ n, e.readInbound (Value.rereadFields [] el) n = pure (some j)

theorem takes_written (hnamed : i.type ≠ "") {n : Nat} {native : Fields}
    (h : (e.writeInbound i n).value = some native) :
    ∃ j, (j.type, j.tag) = (i.type, i.tag) ∧ e.Takes (.obj native) j := by
  cases e with
  | singBox =>
      cases h
      obtain ⟨j, ⟨htype, htag⟩, hread⟩ := SingBox.readInbound_quietly i n hnamed
      exact ⟨j, Prod.ext htype htag, _, rfl, hread⟩
  | xray =>
      have hserved := Xray.servable_of_written h
      change (Xray.writeInbound i n).value = some native at h
      rw [Xray.writeInbound_written hserved] at h
      cases h
      obtain ⟨j, ⟨htype, htag⟩, hread⟩ := Xray.readInbound_quietly hnamed
      exact ⟨j, Prod.ext htype htag, _, rfl, hread⟩

theorem write_eq (e : Engine) (is : List Inbound) : e.write is =
    Noted.filterMap (fun n i => do pure ((← e.writeInbound i n).map .obj)) is := by
  cases e with
  | singBox =>
      refine congrArg (Noted.filterMap · is) (funext₂ fun n i => ?_)
      rw [writeInbound]
      simp only [bind_assoc, pure_bind]
      rfl
  | xray => rfl

theorem mem_write {v : Value} (h : v ∈ (e.write is).value) : ∃ native, v = .obj native ∧
    ∃ i ∈ is, ∃ n, (e.writeInbound i n).value = some native := by
  rw [write_eq] at h
  obtain ⟨i, hi, n, hv⟩ := Noted.mem_filterMap h
  obtain ⟨native, hnative, rfl⟩ := Option.map_eq_some_iff.1 hv
  exact ⟨native, rfl, i, hi, n, hnative⟩

/-- Each listener that is written is read as one of its type and its tag. -/
theorem takes_write (hnamed : ∀ i ∈ is, i.type ≠ "") : ∃ js : List Inbound,
    (js.map fun j => (j.type, j.tag)).Sublist (is.map fun i => (i.type, i.tag)) ∧
      List.Forall₂ e.Takes (e.write is).value js := by
  rw [write_eq]
  refine Noted.filterMap_forall₂ fun i hi n v hv => ?_
  obtain ⟨native, hnative, rfl⟩ := Option.map_eq_some_iff.1 hv
  exact takes_written (hnamed i hi) hnative

/-- Listeners that are read without a note on their own are read so from one file. -/
theorem read_of_takes {natives : List Value} {js : List Inbound}
    (h : List.Forall₂ e.Takes natives js) (file : String) :
    e.read file (inboundsText natives) = .ok ⟨js, []⟩ := by
  cases e with
  | singBox =>
      rw [read, SingBox.read, ConfigFile.elements_inboundsText]
      refine congrArg Except.ok (Noted.filterMap_of_forall₂ (List.forall₂_map_left_iff.2 ?_))
      refine h.imp fun v j htakes n => ?_
      obtain ⟨el, rfl, hel⟩ := htakes
      rw [Value.reread]
      exact hel n
  | xray =>
      rw [read, Xray.read, ConfigFile.elements_inboundsText]
      refine congrArg Except.ok (Noted.filterMap_of_forall₂ (List.forall₂_map_left_iff.2 ?_))
      refine h.imp fun v j htakes n => ?_
      obtain ⟨el, rfl, hel⟩ := htakes
      rw [Value.reread]
      exact hel n

/-- A file that was written with a listener in it looks like one of its engine. -/
theorem looksLike_written (h : (e.write is).value ≠ []) :
    ConfigFile.looksLike e (inboundsText (e.write is).value) = true := by
  obtain ⟨v, hv⟩ := List.exists_mem_of_ne_nil _ h
  obtain ⟨native, rfl, i, -, n, hnative⟩ := mem_write hv
  have hlisted : Value.rereadFields [] native ∈
      ConfigFile.records (inboundsText (e.write is).value) :=
    ConfigFile.mem_records.2 ⟨_, hv, by rw [Value.reread]⟩
  cases e with
  | singBox =>
      rw [ConfigFile.looksLike, Bool.and_eq_true, Bool.not_eq_true']
      constructor
      · cases hnative
        exact List.any_eq_true.2 ⟨_, hlisted, (SingBox.looks_written i n).1⟩
      · refine List.any_eq_false.2 fun el hel => ?_
        obtain ⟨w, hw, hreread⟩ := ConfigFile.mem_records.1 hel
        obtain ⟨other, rfl, j, -, m, hother⟩ := mem_write hw
        cases hother
        rw [Value.reread] at hreread
        cases hreread
        exact Bool.eq_false_iff.1 (SingBox.looks_written j m).2
  | xray =>
      have hserved := Xray.servable_of_written hnative
      change (Xray.writeInbound i n).value = some native at hnative
      rw [Xray.writeInbound_written hserved] at hnative
      cases hnative
      exact List.any_eq_true.2 ⟨_, hlisted, Xray.looks_written i⟩

end Engine

/-! ## Files of an engine that is not named -/

section

variable {file text : String} {e : Engine}

/-- What is detected as a file of an engine can be read as one. -/
theorem parseAny_detected (h : ConfigFile.detect text = some e) :
    ∃ found, parseAny file text = .ok (e, found) := by
  obtain ⟨els, hels⟩ :=
    ConfigFile.elements_of_looksLike (ConfigFile.detect_eq_some_iff.1 h) e file
  rw [parseAny, h]
  cases e with
  | singBox =>
      dsimp only [Engine.read]
      rw [SingBox.read, hels]
      exact ⟨_, rfl⟩
  | xray =>
      dsimp only [Engine.read]
      rw [Xray.read, hels]
      exact ⟨_, rfl⟩

theorem parseAny_undetected (h : ConfigFile.detect text = none) :
    parseAny file text = .error (.unreadable (.formatUnknown file)) := by
  rw [parseAny, h]

end

/-- A text looks like a file of at most one engine, the one that is detected. Exactly if one is
detected can the text be read without its engine being named, and it is read as a file of that
engine; otherwise reading ends with the complaint that the format is unknown.

Listeners that have a type, whatever else they hold, are written for either engine so that their
file is detected as one of that engine, if any of them is written at all. Read as such, the file
has as many listeners as were written. Each is read as if it stood in a file of its own, there is
no note, and their order is that of the listeners they come from. -/
theorem formats_agree (file text : String) (is : List Inbound) (e : Engine) :
    (∀ e', ConfigFile.looksLike e' text = true ↔ ConfigFile.detect text = some e') ∧
    (∀ e', (∃ found, parseAny file text = .ok (e', found)) ↔
      ConfigFile.detect text = some e') ∧
    (∀ why, parseAny file text = .error why ↔
      ConfigFile.detect text = none ∧ why = .unreadable (.formatUnknown file)) ∧
    ((∀ i ∈ is, i.type ≠ "") → (e.write is).value ≠ [] →
      ConfigFile.detect (convert is e).value = some e ∧
      ∃ js : List Inbound, e.read file (convert is e).value = .ok ⟨js, []⟩ ∧
        (js.map fun j => (j.type, j.tag)).Sublist (is.map fun i => (i.type, i.tag)) ∧
        List.Forall₂ (fun native j => e.read file (inboundsText [native]) = .ok ⟨[j], []⟩)
          (e.write is).value js) := by
  refine ⟨fun e' => ConfigFile.detect_eq_some_iff.symm, fun e' => ⟨?_, parseAny_detected⟩,
    fun why => ⟨?_, ?_⟩, fun hnamed hwritten => ?_⟩
  · rintro ⟨found, hfound⟩
    cases hdetected : ConfigFile.detect text with
    | none =>
        rw [parseAny_undetected hdetected] at hfound
        cases hfound
    | some e =>
        obtain ⟨found', hread⟩ : ∃ found', parseAny file text = .ok (e, found') :=
          parseAny_detected hdetected
        rw [hread] at hfound
        cases hfound
        rfl
  · intro herror
    cases hdetected : ConfigFile.detect text with
    | none =>
        rw [parseAny_undetected hdetected] at herror
        cases herror
        exact ⟨rfl, rfl⟩
    | some e =>
        obtain ⟨found, hread⟩ : ∃ found, parseAny file text = .ok (e, found) :=
          parseAny_detected hdetected
        rw [hread] at herror
        cases herror
  · rintro ⟨hdetected, rfl⟩
    exact parseAny_undetected hdetected
  · obtain ⟨js, horder, htakes⟩ := Engine.takes_write (e := e) hnamed
    have hlooks := Engine.looksLike_written hwritten
    refine ⟨ConfigFile.detect_eq_some_iff.2 hlooks, js, Engine.read_of_takes htakes file, horder, ?_⟩
    exact htakes.imp fun native j h => Engine.read_of_takes (.cons h .nil) file

/-- Listeners that could pass for those of the other engine: one has options that are called like
the fields of Xray, and the transport of one is called like its security. -/
def misleading : List Inbound :=
  [{ type := "tuic", tag := "in", listen := "::", listenPort := 443
     transport := none, tls := none, multiplex := none, users := []
     options := [("protocol", .str "vless"), ("streamSettings", .obj [])] },
   { type := "trojan", tag := "in", listen := "::", listenPort := 444
     transport := some (Transport.ofType "tls"), tls := some { Tls.off with enabled := true }
     multiplex := none, users := [⟨"", "", "p", "", ""⟩], options := [] }]

theorem formats_agree_misleading : (∀ i ∈ misleading, i.type ≠ "") ∧
    (Engine.xray.write misleading).value ≠ [] ∧
    ConfigFile.detect (convert misleading .xray).value = some .xray ∧
    ∃ js : List Inbound, Engine.xray.read "a.json" (convert misleading .xray).value = .ok ⟨js, []⟩ ∧
      (js.map fun j => (j.type, j.tag)).Sublist [("tuic", "in"), ("trojan", "in")] ∧
      List.Forall₂ (fun native j =>
        Engine.xray.read "a.json" (inboundsText [native]) = .ok ⟨[j], []⟩)
        (Engine.xray.write misleading).value js := by
  have hnamed : ∀ i ∈ misleading, i.type ≠ "" := by decide
  have hwritten : (Engine.xray.write misleading).value ≠ [] := List.cons_ne_nil _ _
  exact ⟨hnamed, hwritten, (formats_agree "a.json" "" misleading .xray).2.2.2 hnamed hwritten⟩

/-- An option that is called like a field of Xray is not written, so it misleads nobody. -/
example : ConfigFile.detect (convert [misleading[0]] .singBox).value = some .singBox := by
  decide +kernel

end ProxyFleet
