import Mathlib.Data.List.Forall2
import ProxyFleet.Proofs.Inbound.Complaints
import ProxyFleet.Proofs.SingBox.Listeners

/-!
# What becomes of the elements of a file

An element that is a record with a text for its type becomes one listener, the others
become one note each. The notes on elements that are passed over are told from the
complaints about listeners by how they end: a tag can be any text, so how a note begins
does not tell.
-/

namespace ProxyFleet

/-! ## What a listener needs -/

theorem Value.isEnabled_obj (fs : Fields) :
    (Value.obj fs).isEnabled = (Fields.get fs "enabled").asBool := by
  have hget : (Value.obj fs).get "enabled" = Fields.get fs "enabled" := rfl
  unfold Value.isEnabled
  rw [hget]
  cases Fields.get fs "enabled" <;> rfl

namespace SingBox

theorem readReality_enabled (v : Value) (serverName place : String) :
    (readReality v serverName place).value.any (·.enabled) = v.isEnabled := by
  rcases v with _ | _ | _ | _ | _ | _ | _ | ⟨f, fs⟩
  case obj.cons => exact (Value.isEnabled_obj _).symm
  all_goals rfl

theorem readTls_reality (v : Value) (place : String) :
    ((readTls v place).value.any fun t => t.reality.any (·.enabled)) =
      (v.get "reality").isEnabled := by
  rcases v with _ | _ | _ | _ | _ | _ | _ | ⟨f, fs⟩
  case obj.cons => exact readReality_enabled _ _ place
  all_goals rfl

theorem readMultiplex_enabled (v : Value) (place : String) :
    (readMultiplex v place).value.any (·.enabled) = v.isEnabled := by
  rcases v with _ | _ | _ | _ | _ | _ | _ | ⟨f, fs⟩
  case obj.cons => exact (Value.isEnabled_obj _).symm
  all_goals rfl

theorem readBrutal_enabled (v : Value) (place : String) :
    (readBrutal v place).value.any (·.enabled) = v.isEnabled := by
  cases v with
  | obj fs => exact (Value.isEnabled_obj fs).symm
  | _ => rfl

theorem readMultiplex_brutal (v : Value) (place : String) :
    ((readMultiplex v place).value.any fun m => m.brutal.any (·.enabled)) =
      (v.get "brutal").isEnabled := by
  rcases v with _ | _ | _ | _ | _ | _ | _ | ⟨f, fs⟩
  case obj.cons => exact readBrutal_enabled _ place
  all_goals rfl

end SingBox

namespace Xray

variable {el : Fields}

/-- A listener with a protocol is read part by part. -/
theorem readInbound_value (h : textOf el "protocol" ≠ "") (index : Nat) : ∃ place,
    let settings := fieldsOf (Fields.get el "settings")
    let clients := (readSettings (textOf el "protocol") settings place).value
    let stream := (readStream (Fields.get el "streamSettings") place).value
    (readInbound el index).value = some {
      type := textOf el "protocol"
      tag := textOf el "tag"
      listen := textOf el "listen"
      listenPort := (Fields.get el "port").asInt
      transport := stream.1
      tls := stream.2
      multiplex := none
      users := clients.1
      options := clients.2 } := by
  refine ⟨Inbound.label (textOf el "tag") index, ?_⟩
  unfold readInbound
  dsimp only
  rw [if_neg h]
  split <;> rfl

theorem readSecurity_reality (stream : Fields) (security place : String) :
    ((readSecurity stream security place).value.any fun t => t.reality.any (·.enabled)) =
      (security = "reality" && (Fields.get stream "realitySettings").isRecord) := by
  unfold readSecurity
  dsimp only
  split
  · next hnone => rcases Bool.or_eq_true_iff.1 hnone with h | h <;> simp [of_decide_eq_true h]
  split
  · next htls =>
      subst htls
      split <;> rfl
  split
  · next hreality =>
      subst hreality
      cases Fields.get stream "realitySettings" <;> rfl
  · next hother => simp [hother]

theorem readStream_reality (v : Value) (place : String) :
    ((readStream v place).value.2.any fun t => t.reality.any (·.enabled)) =
      ((v.get "security").asText = "reality" && (v.get "realitySettings").isRecord) := by
  cases v with
  | obj stream => exact readSecurity_reality stream (textOf stream "security") place
  | _ => rfl

end Xray

/-! ## Notes on elements that are passed over -/

/-- How complaints about parts of a listener end. -/
def complaintEndings : List String :=
  [" is not an object; skipped", " is not an array; users skipped", " TLS skipped",
    " Reality skipped", " handshake skipped", " brutal skipped", " multiplex skipped",
    " transport skipped", " settings skipped", "\" is not an object; using defaults",
    "'; TLS skipped"]

/-- A text that ends like a complaint. -/
def EndsAsComplaint (c : String) : Prop := ∃ s, ∃ ending ∈ complaintEndings, c = s ++ ending

theorem ends_objection {fine : Bool} {c : String} (h : EndsAsComplaint c) :
    ∀ d ∈ objection fine c, EndsAsComplaint d := by
  intro d hd
  cases fine with
  | true => cases hd
  | false => rwa [List.mem_singleton.1 hd]

theorem ends_itemComplaints (name : Nat → String) (v : Value) :
    ∀ c ∈ itemComplaints name v, EndsAsComplaint c := by
  intro c hc
  cases v with
  | arr xs =>
      obtain ⟨x, -, hx⟩ := List.mem_flatMap.1 hc
      exact ends_objection ⟨name x.2, _, by decide, rfl⟩ c hx
  | _ => cases hc

theorem ends_listComplaints (name : String) (item : Nat → String) (v : Value) :
    ∀ c ∈ listComplaints name item v, EndsAsComplaint c :=
  List.forall_mem_append.2 ⟨ends_objection ⟨name, _, by decide, rfl⟩, ends_itemComplaints item v⟩

theorem SingBox.ends_complaints (el : Value) : ∀ c ∈ complaints el, EndsAsComplaint c := by
  simp only [complaints, tlsComplaints, realityComplaints, handshakeComplaints,
    multiplexComplaints, brutalComplaints, transportComplaints, recordComplaints,
    List.forall_mem_append]
  exact ⟨⟨⟨ends_listComplaints _ _ _,
      ends_objection ⟨"\"tls\" is not an object;", " TLS skipped", by decide, rfl⟩,
      ends_objection ⟨"\"tls.reality\" is not an object;", " Reality skipped", by decide, rfl⟩,
      ends_objection
        ⟨"\"tls.reality.handshake\" is not an object;", " handshake skipped", by decide, rfl⟩⟩,
      ends_objection ⟨"\"multiplex\" is not an object;", " multiplex skipped", by decide, rfl⟩,
      ends_objection ⟨"\"multiplex.brutal\" is not an object;", " brutal skipped", by decide, rfl⟩⟩,
    ends_objection ⟨"\"transport\" is not an object;", " transport skipped", by decide, rfl⟩,
    ends_objection ⟨"\"transport.type\" is missing;", " transport skipped", by decide, rfl⟩⟩

theorem Xray.ends_securityComplaints (stream : Value) :
    ∀ c ∈ securityComplaints stream, EndsAsComplaint c := by
  unfold securityComplaints
  dsimp only
  split
  · nofun
  split
  · exact ends_objection ⟨"\"streamSettings.tlsSettings\" is not an object; TLS",
      " settings skipped", by decide, rfl⟩
  split
  · exact ends_objection ⟨"\"streamSettings.realitySettings\" is missing or not an object;",
      " Reality skipped", by decide, rfl⟩
  · intro c hc
    generalize (stream.get "security").asText = security at hc
    exact ⟨"unknown security '" ++ security, _, by decide, List.mem_singleton.1 hc⟩

theorem Xray.ends_complaints (el : Value) : ∀ c ∈ complaints el, EndsAsComplaint c := by
  simp only [complaints, settingsComplaints, recordComplaints, List.forall_mem_append]
  refine ⟨⟨⟨ends_objection ⟨"\"settings\" is not an object;", " settings skipped", by decide, rfl⟩,
    ends_listComplaints _ _ _⟩,
    ends_objection ⟨"\"streamSettings\" is not an object; transport and", " TLS skipped",
      by decide, rfl⟩⟩, ?_, ends_securityComplaints _⟩
  intro c hc
  obtain ⟨name, -, hname⟩ := List.mem_flatMap.1 hc
  exact ends_objection ⟨"\"streamSettings." ++ name, _, by decide, rfl⟩ c hname

namespace Engine

variable {e : Engine} {el : Value}

theorem ends_complaints (e : Engine) (el : Value) : ∀ c ∈ e.complaints el, EndsAsComplaint c := by
  cases e with
  | singBox => exact SingBox.ends_complaints el
  | xray => exact Xray.ends_complaints el

/-- How the notes on elements that are passed over end. -/
def skipEndings (e : Engine) : List String :=
  [": not an object; skipped", ": missing \"" ++ e.typeField ++ "\"; skipped"]

/-- A note on an element that is passed over. -/
def isSkipNote (e : Engine) (note : String) : Bool :=
  e.skipEndings.any fun ending => ending.toList.isSuffixOf note.toList

theorem isSkipNote_skipNote (e : Engine) (el : Value) (index : Nat) :
    e.isSkipNote (e.skipNote el index) = true := by
  rw [isSkipNote, List.any_eq_true, skipNote]
  split
  · refine ⟨": missing \"" ++ e.typeField ++ "\"; skipped", by simp [skipEndings], ?_⟩
    rw [List.isSuffixOf_iff_suffix]
    simp only [String.toList_append, List.append_assoc]
    exact List.suffix_append _ _
  · refine ⟨": not an object; skipped", by simp [skipEndings], ?_⟩
    rw [List.isSuffixOf_iff_suffix, String.toList_append]
    exact List.suffix_append _ _

theorem isSkipNote_complaint {c : String} (h : EndsAsComplaint c) (place : String) :
    e.isSkipNote (place ++ ": " ++ c) = false := by
  obtain ⟨s, ending, hending, rfl⟩ := h
  have hdiffer : ∀ a ∈ e.skipEndings, ∀ b ∈ complaintEndings,
      ¬a.toList <:+ b.toList ∧ ¬b.toList <:+ a.toList := by cases e <;> decide
  rw [isSkipNote, List.any_eq_false]
  intro a ha hsuffix
  rw [List.isSuffixOf_iff_suffix, ← String.append_assoc, String.toList_append] at hsuffix
  rcases List.suffix_or_suffix_of_suffix hsuffix (List.suffix_append _ _) with h | h
  · exact (hdiffer a ha ending hending).1 h
  · exact (hdiffer a ha ending hending).2 h

/-! ## Elements -/

/-- What an element asks of the core. -/
def asks (e : Engine) (el : Value) : List Capability :=
  match e with
  | .singBox => el.requirements
  | .xray =>
    let stream := el.get "streamSettings"
    if (stream.get "security").asText = "reality" && (stream.get "realitySettings").isRecord then
      [.reality]
    else []

/-- A listener that an element is read as. -/
structure ReadsAs (e : Engine) (el : Value) (index : Nat) (i : Inbound) : Prop where
  read : (e.readElement el index).value = some i
  type : i.type = (el.get e.typeField).asText
  tag : i.tag = (el.get "tag").asText
  requirements : i.requirements = e.asks el

theorem readElement_kept (h : e.keeps el = true) (index : Nat) : ∃ i, e.ReadsAs el index i := by
  cases el with
  | obj fs =>
      have hnamed : textOf fs e.typeField ≠ "" := by
        simpa [keeps, Value.isRecord, textOf, Value.get] using h
      cases e with
      | singBox =>
          obtain ⟨place, hread⟩ := SingBox.readInbound_value rfl hnamed index
          refine ⟨_, hread, rfl, rfl, ?_⟩
          unfold Inbound.requirements asks Value.requirements Inbound.realityOn
            Inbound.multiplexOn Inbound.brutalOn
          dsimp only
          rw [SingBox.readTls_reality, SingBox.readMultiplex_enabled, SingBox.readMultiplex_brutal]
          rfl
      | xray =>
          obtain ⟨place, hread⟩ := Xray.readInbound_value hnamed index
          refine ⟨_, hread, rfl, rfl, ?_⟩
          unfold Inbound.requirements asks Inbound.realityOn Inbound.multiplexOn Inbound.brutalOn
          dsimp only
          rw [Xray.readStream_reality]
          exact (List.append_nil _).trans (List.append_nil _)
  | _ => cases h

/-- What is found in the elements, and in which order. -/
theorem readElements_value (e : Engine) (xs : List (Value × Nat)) :
    List.Forall₂ (fun x i => e.ReadsAs x.1 x.2 i) (xs.filter (e.keeps ·.1))
      (xs.filterMap fun x => (e.readElement x.1 x.2).value) := by
  induction xs with
  | nil => exact .nil
  | cons x xs ih =>
      cases hkeeps : e.keeps x.1 with
      | true =>
          obtain ⟨i, hi⟩ := readElement_kept hkeeps x.2
          rw [List.filter_cons, if_pos hkeeps, List.filterMap_cons, hi.read]
          exact .cons hi ih
      | false =>
          rw [List.filter_cons, if_neg (by simp [hkeeps]), List.filterMap_cons,
            readElement_skipped hkeeps]
          exact ih

/-- Which of the notes are on elements that are passed over. -/
theorem readElements_notes (e : Engine) (xs : List (Value × Nat)) :
    (xs.flatMap fun x => (e.readElement x.1 x.2).notes).filter e.isSkipNote =
      (xs.filter (!e.keeps ·.1)).map fun x => e.skipNote x.1 x.2 := by
  induction xs with
  | nil => rfl
  | cons x xs ih =>
      rw [List.flatMap_cons, List.filter_append, ih]
      cases hkeeps : e.keeps x.1 with
      | true =>
          have hnone : (e.readElement x.1 x.2).notes.filter e.isSkipNote = [] := by
            rw [readElement_notes hkeeps, List.filter_eq_nil_iff, notedOf, List.forall_mem_map]
            intro c hc
            rw [isSkipNote_complaint (e.ends_complaints x.1 c hc)]
            decide
          rw [hnone, List.filter_cons, hkeeps]
          rfl
      | false =>
          rw [readElement_skipped hkeeps, List.filter_cons, if_pos (e.isSkipNote_skipNote x.1 x.2),
            List.filter_cons, hkeeps]
          rfl

end Engine

theorem Inbound.toValue_requirements (i : Inbound) : i.toValue.get "requiredCapabilities" =
    .texts (i.toValue.requirements.map Capability.name) := by
  rw [i.reads_toValue.requirements]
  obtain ⟨type, tag, listen, port, _ | _, _ | _, _ | _, users, options⟩ := i <;> rfl

/-- The listeners of a file are, one for one and in order, the records with a text for their type;
every other element is passed over with one note of its own. What a listener needs is what its
parts need, and these are switched on in the element it is read from. -/
theorem Engine.read_accounts {e : Engine} {file text : String} {found : Noted (List Inbound)}
    (h : e.read file text = .ok found) : ∃ els, ConfigFile.elements e file text = .ok els ∧
      List.Forall₂ (fun x i => e.ReadsAs x.1 x.2 i) (els.zipIdx.filter (e.keeps ·.1)) found.value ∧
      found.notes.filter e.isSkipNote =
        (els.zipIdx.filter (!e.keeps ·.1)).map (fun x => e.skipNote x.1 x.2) ∧
      ∀ i ∈ found.value, i.toValue.get "requiredCapabilities" =
        .texts (i.toValue.requirements.map Capability.name) := by
  rw [read_eq] at h
  cases hels : ConfigFile.elements e file text with
  | error => simp [hels, Except.map] at h
  | ok els =>
      rw [hels] at h
      cases h
      exact ⟨els, rfl, e.readElements_value _, e.readElements_notes _,
        fun i _ => i.toValue_requirements⟩

/-- A listener with Reality, between something that is no record and a record without a type. -/
def mixedFile : String :=
  "[true, \x7b\"type\": \"vless\", \"tls\": \x7b\"reality\": \x7b\"enabled\": true\x7d\x7d\x7d, "
    ++ "\x7b\"tag\": \"in\"\x7d]"

theorem Engine.read_accounts_mixed : ∃ found els,
    singBox.read "config.json" mixedFile = .ok found ∧
      ConfigFile.elements .singBox "config.json" mixedFile = .ok els ∧
      List.Forall₂ (fun x i => singBox.ReadsAs x.1 x.2 i) (els.zipIdx.filter (singBox.keeps ·.1))
        found.value ∧
      found.value.map Inbound.requirements = [[.reality]] ∧
      (els.zipIdx.filter (!singBox.keeps ·.1)).map (fun x => singBox.skipNote x.1 x.2) =
        ["inbound #0: not an object; skipped", "inbound 'in': missing \"type\"; skipped"] ∧
      ∀ i ∈ found.value, i.toValue.get "requiredCapabilities" =
        .texts (i.toValue.requirements.map Capability.name) := by
  have hseen : (singBox.read "config.json" mixedFile).toOption.map (fun found =>
      (found.value.map Inbound.requirements, found.notes.filter singBox.isSkipNote)) =
      some ([[.reality]],
        ["inbound #0: not an object; skipped", "inbound 'in': missing \"type\"; skipped"]) := by
    decide +kernel
  obtain ⟨found, hread, hfound⟩ := exists_ok_of_seen hseen
  obtain ⟨hneeds, hskipped⟩ := Prod.mk.inj hfound
  obtain ⟨els, hels, hvalues, hnotes, hrequired⟩ := read_accounts hread
  exact ⟨found, els, hread, hels, hvalues, hneeds, hnotes.symm.trans hskipped, hrequired⟩

end ProxyFleet
