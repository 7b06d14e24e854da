import Mathlib.Data.List.Basic
import ProxyFleet.Proofs.Inbound.Complaints

/-!
# Parts of the wrong shape

A part of a listener that has the wrong shape costs the part only, and there is a note
that names the listener and the part. This holds for the parts that a guard of their own
looks at (`Engine.toldParts`). Header fields and certificates are picked out of whatever
stands there, and what is no such thing gives none: `Engine.untoldParts` are read as if
null stood for them, and no note tells of it.
-/

namespace ProxyFleet

/-! ## Parts -/

/-- The part of a value that a path of names leads to. -/
def Value.at : Value → List String → Value
  | v, [] => v
  | v, n :: ns => (v.get n).at ns

/-- The value with another part at the end of a path, if there are records along it. -/
def Value.withAt : Value → List String → Value → Value
  | _, [], w => w
  | .obj fs, n :: ns, w => .obj (Fields.put fs n ((Fields.get fs n).withAt ns w))
  | v, _ :: _, _ => v

theorem Value.at_obj (fs : Fields) (n : String) (ns : List String) :
    (Value.obj fs).at (n :: ns) = (Fields.get fs n).at ns := rfl

theorem Value.withAt_nil (v w : Value) : v.withAt [] w = w := by
  cases v <;> rfl

theorem Value.withAt_obj (fs : Fields) (n : String) (ns : List String) (w : Value) :
    (Value.obj fs).withAt (n :: ns) w = .obj (Fields.put fs n ((Fields.get fs n).withAt ns w)) :=
  rfl

/-- What a part is to be. -/
inductive Shape where
  | array
  | record
  deriving DecidableEq

def Shape.fits : Shape → Value → Bool
  | .array, v => v.items?.isSome
  | .record, v => v.isRecord

/-- A part of a listener: where it is, and what it is to be. -/
structure Part where
  path : List String
  shape : Shape

namespace Part

/-- How notes name a part. -/
def name (p : Part) : String := "\"" ++ String.intercalate "." p.path ++ "\""

/-- The part is there, is not null and has the wrong shape. -/
def Malformed (p : Part) (el : Value) : Prop :=
  (el.at p.path).isNothing = false ∧ p.shape.fits (el.at p.path) = false

instance (p : Part) (el : Value) : Decidable (p.Malformed el) := inferInstanceAs (Decidable (_ ∧ _))

/-- One of the complaints is about the part. -/
def Told (p : Part) (complaints : List String) : Prop :=
  ∃ rest, p.name ++ " is " ++ rest ∈ complaints

variable {el : Value} {path : List String} {cs : List String}

theorem Malformed.array (h : Malformed ⟨path, .array⟩ el) :
    ((el.at path).items?.isSome || (el.at path).isNothing) = false := by
  obtain ⟨hthere, hshape⟩ := h
  rw [hthere, Bool.or_false]
  exact hshape

theorem Malformed.record (h : Malformed ⟨path, .record⟩ el) :
    ((el.at path).isRecord || (el.at path).isNothing) = false := by
  obtain ⟨hthere, hshape⟩ := h
  rw [hthere, Bool.or_false]
  exact hshape

theorem Malformed.guarded (h : Malformed ⟨path, .record⟩ el) :
    ((el.at path).isRecord || (el.at path).isAbsent) = false := by
  obtain ⟨hthere, hshape⟩ := h
  have hgiven : (el.at path).isAbsent = false := by
    cases hv : el.at path with
    | absent => rw [hv] at hthere; cases hthere
    | _ => rfl
  rw [hgiven, Bool.or_false]
  exact hshape

/-- A part is told of if there is an objection to it. -/
theorem Told.of_objection {p : Part} {fine : Bool} {c : String} (rest : String)
    (hfine : fine = false) (hsub : objection fine c ⊆ cs) (hc : p.name ++ " is " ++ rest = c) :
    p.Told cs := by
  subst hfine
  exact ⟨rest, hsub (List.mem_singleton.2 hc)⟩

end Part

/-! ## What is read of a listener -/

namespace SingBox

/-- The parts that are looked at before they are read. -/
def toldParts : List Part :=
  [⟨["users"], .array⟩, ⟨["tls"], .record⟩, ⟨["tls", "reality"], .record⟩,
    ⟨["tls", "reality", "handshake"], .record⟩, ⟨["multiplex"], .record⟩,
    ⟨["multiplex", "brutal"], .record⟩, ⟨["transport"], .record⟩]

/-- The parts of which is taken what there is. -/
def untoldParts : List Part := [⟨["transport", "headers"], .record⟩]

variable {el : Value}

theorem toldParts_told : ∀ p ∈ toldParts, p.Malformed el → p.Told (complaints el) := by
  have hall : complaints el ⊆ complaints el := List.Subset.refl _
  conv at hall => lhs; unfold complaints
  simp only [listComplaints, tlsComplaints, realityComplaints, multiplexComplaints,
    transportComplaints, List.append_subset] at hall
  obtain ⟨⟨⟨⟨husers, -⟩, htls, hreality, hhandshake⟩, hmultiplex, hbrutal⟩, htransport, -⟩ := hall
  simp only [toldParts, List.forall_mem_cons]
  exact ⟨fun h => .of_objection "not an array; users skipped" h.array husers rfl,
    fun h => .of_objection "not an object; TLS skipped" h.record htls rfl,
    fun h => .of_objection "not an object; Reality skipped" h.record hreality rfl,
    fun h => .of_objection "not an object; handshake skipped" h.guarded hhandshake rfl,
    fun h => .of_objection "not an object; multiplex skipped" h.record hmultiplex rfl,
    fun h => .of_objection "not an object; brutal skipped" h.guarded hbrutal rfl,
    fun h => .of_objection "not an object; transport skipped" h.record htransport rfl,
    List.forall_mem_nil _⟩

end SingBox

namespace Xray

variable {el : Value}

/-- The parts that are looked at before they are read. Which these are depends on the protocol, the
transport and the security. -/
def toldParts (el : Value) : List Part :=
  let stream := el.get "streamSettings"
  [⟨["settings"], .record⟩, ⟨["settings", clientsName (el.get "protocol").asText], .array⟩,
      ⟨["streamSettings"], .record⟩]
    ++ (transportName? stream).toList.map (fun n => ⟨["streamSettings", n], .record⟩)
    ++ (if (stream.get "security").asText = "tls" then
      [⟨["streamSettings", "tlsSettings"], .record⟩] else [])
    ++ (if (stream.get "security").asText = "reality" then
      [⟨["streamSettings", "realitySettings"], .record⟩] else [])

/-- The parts of which is taken what there is. -/
def untoldParts (el : Value) : List Part :=
  let stream := el.get "streamSettings"
  (transportName? stream).toList.map (fun n => ⟨["streamSettings", n, "headers"], .record⟩)
    ++ (if (stream.get "security").asText = "tls" then
      [⟨["streamSettings", "tlsSettings", "certificates"], .array⟩] else [])

theorem name_pair (a b : String) (shape : Shape) :
    (⟨[a, b], shape⟩ : Part).name = "\"" ++ (a ++ "." ++ b) ++ "\"" := rfl

theorem toldParts_told : ∀ p ∈ toldParts el, p.Malformed el → p.Told (complaints el) := by
  have hall : complaints el ⊆ complaints el := List.Subset.refl _
  conv at hall => lhs; unfold complaints
  simp only [settingsComplaints, listComplaints, List.append_subset] at hall
  obtain ⟨⟨⟨hsettings, hclients, -⟩, hstream⟩, htransport, hsecurity⟩ := hall
  simp only [toldParts, List.forall_mem_append, List.forall_mem_cons, List.forall_mem_map]
  refine ⟨⟨⟨⟨fun h => ?_, fun h => ?_, fun h => ?_, List.forall_mem_nil _⟩, fun n hn h => ?_⟩,
    ?_⟩, ?_⟩
  · exact .of_objection "not an object; settings skipped" h.record hsettings rfl
  · refine .of_objection "not an array; users skipped" h.array hclients ?_
    rw [name_pair]
    simp only [String.append_assoc]
    rfl
  · exact .of_objection "not an object; transport and TLS skipped" h.record hstream rfl
  · refine .of_objection "not an object; using defaults" h.record
      (fun c hc => htransport (List.mem_flatMap.2 ⟨n, hn, hc⟩)) ?_
    rw [name_pair]
    simp only [String.append_assoc]
    rfl
  · split
    · next htls =>
        rw [securityComplaints, htls] at hsecurity
        refine List.forall_mem_singleton.2 fun h => ?_
        exact .of_objection "not an object; TLS settings skipped" h.guarded hsecurity rfl
    · exact List.forall_mem_nil _
  · split
    · next hreality =>
        rw [securityComplaints, hreality] at hsecurity
        refine List.forall_mem_singleton.2 fun h => ?_
        exact .of_objection "missing or not an object; Reality skipped" h.2 hsecurity rfl
    · exact List.forall_mem_nil _

end Xray

theorem mem_itemComplaints (name : Nat → String) {xs : List Value} {i : Nat} {v : Value}
    (hv : xs[i]? = some v) (hrecord : v.isRecord = false) :
    name i ++ " is not an object; skipped" ∈ itemComplaints name (.arr xs) := by
  refine List.mem_flatMap.2 ⟨(v, i), List.mem_zipIdx_iff_getElem?.2 hv, ?_⟩
  rw [hrecord]
  exact List.mem_singleton_self _

/-! ## Parts that nothing is told of -/

/-- Where there is something, records lead to it. -/
theorem Value.record_of_at {v : Value} {n : String} {path : List String}
    (h : (v.at (n :: path)).isNothing = false) : ∃ fs, v = .obj fs := by
  have habsent : ∀ path : List String, Value.absent.at path = .absent := by
    intro path
    induction path with
    | nil => rfl
    | cons n path ih => exact ih
  cases v with
  | obj fs => exact ⟨fs, rfl⟩
  | _ =>
      change (Value.absent.at path).isNothing = false at h
      rw [habsent] at h
      cases h

theorem Value.textMap_of_not_record {v : Value} (h : v.isRecord = false) : v.textMap = [] := by
  cases v with
  | obj => cases h
  | _ => rfl

theorem Transport.hostAndHeaders_nulled {fs : Fields}
    (h : (Fields.get fs "headers").isRecord = false) :
    hostAndHeaders (Fields.put fs "headers" .null) = hostAndHeaders fs := by
  have hhost := Fields.get_put_of_ne fs .null (show "host" ≠ "headers" by decide)
  unfold hostAndHeaders
  rw [hhost, Fields.get_put_self, Value.textMap_of_not_record h]
  rfl

namespace SingBox

variable {el el' : Fields}

theorem readInbound_congr (hother : ∀ n, n ≠ "transport" → Fields.get el' n = Fields.get el n)
    (htransport : ∀ place, readTransport (Fields.get el' "transport") place =
      readTransport (Fields.get el "transport") place) (index : Nat) :
    readInbound el' index = readInbound el index := by
  have htext : ∀ n, n ≠ "transport" → textOf el' n = textOf el n := fun n hn =>
    congrArg Value.asText (hother n hn)
  have hoptions : readOptions el' = readOptions el := by
    refine List.filterMap_congr fun n hn => ?_
    rw [hother n]
    rintro rfl
    exact absurd hn (by decide)
  unfold readInbound
  simp (disch := decide) only [hother, htext, htransport, hoptions]

theorem recordOr_obj {fs : Fields} {n : String} (h : Fields.get fs n ≠ .absent) (note : String) :
    recordOr (.obj fs) note = pure (some fs) := by
  cases fs with
  | nil => exact absurd rfl h
  | cons => rfl

/-- Of header fields that are no record nothing is read. -/
theorem readTransport_headers {fs : Fields}
    (hhas : (Fields.get fs "headers").isNothing = false)
    (hshape : (Fields.get fs "headers").isRecord = false) (place : String) :
    readTransport (.obj (Fields.put fs "headers" .null)) place = readTransport (.obj fs) place := by
  have hother : ∀ n, n ≠ "headers" → textOf (Fields.put fs "headers" .null) n = textOf fs n :=
    fun n hn => congrArg Value.asText (Fields.get_put_of_ne fs .null hn)
  have hgiven : Fields.get fs "headers" ≠ .absent := by
    intro h
    rw [h] at hhas
    cases hhas
  have hgiven' : Fields.get (Fields.put fs "headers" .null) "headers" ≠ .absent := by
    rw [Fields.get_put_self]
    nofun
  unfold readTransport
  rw [recordOr_obj hgiven, recordOr_obj hgiven', pure_bind, pure_bind]
  simp only [Transport.hostAndHeaders_nulled hshape, hother _ (show "type" ≠ "headers" by decide),
    hother _ (show "path" ≠ "headers" by decide),
    hother _ (show "service_name" ≠ "headers" by decide)]

end SingBox

namespace Xray

variable {el el' stream stream' fs gs : Fields}

/-- Records of which the same is read, whatever else is in them. -/
structure Alike (fs gs : Fields) : Prop where
  hosts : Transport.hostAndHeaders gs = Transport.hostAndHeaders fs
  certificate : firstCertificate gs = firstCertificate fs
  others : ∀ n, n ≠ "headers" → n ≠ "certificates" → Fields.get gs n = Fields.get fs n

/-- Streams that have the same fields, or fields of which the same is read. -/
def StreamsAlike (stream stream' : Fields) : Prop :=
  ∀ n, Fields.get stream' n = Fields.get stream n ∨
    ∃ fs gs, Fields.get stream n = .obj fs ∧ Fields.get stream' n = .obj gs ∧ Alike fs gs

theorem Alike.text (h : Alike fs gs) {n : String} (hheaders : n ≠ "headers")
    (hcertificates : n ≠ "certificates") : textOf gs n = textOf fs n :=
  congrArg Value.asText (h.others n hheaders hcertificates)

theorem StreamsAlike.text (h : StreamsAlike stream stream') (n : String) :
    textOf stream' n = textOf stream n := by
  rcases h n with hsame | ⟨fs, gs, hfs, hgs, -⟩
  · rw [textOf, hsame, textOf]
  · rw [textOf, hgs, textOf, hfs]
    rfl

theorem readTransport_congr (h : StreamsAlike stream stream') (network place : String) :
    readTransport stream' network place = readTransport stream network place := by
  unfold readTransport
  split
  · rfl
  · dsimp only
    rcases h ((if network = "h2" then "http" else network) ++ "Settings") with
      hsame | ⟨fs, gs, hfs, hgs, halike⟩
    · rw [hsame]
    · rw [hfs, hgs]
      dsimp only
      rw [halike.hosts, halike.text (by decide) (by decide), halike.text (by decide) (by decide)]

theorem readReality_congr (h : Alike fs gs) : readReality gs = readReality fs := by
  unfold readReality destinationOf
  simp (disch := decide) only [h.others, h.text]

theorem readSecurity_congr (h : StreamsAlike stream stream') (security place : String) :
    readSecurity stream' security place = readSecurity stream security place := by
  unfold readSecurity
  dsimp only
  split
  · rfl
  split
  · rcases h "tlsSettings" with hsame | ⟨fs, gs, hfs, hgs, halike⟩
    · rw [hsame]
    · rw [hfs, hgs]
      simp (disch := decide) only [fieldsOf, Value.isAbsent, Value.isRecord, halike.certificate,
        halike.others, halike.text]
      rfl
  split
  · rcases h "realitySettings" with hsame | ⟨fs, gs, hfs, hgs, halike⟩
    · rw [hsame]
    · rw [hfs, hgs]
      dsimp only
      rw [readReality_congr halike]
  · rfl

theorem readStream_congr (h : StreamsAlike stream stream') (place : String) :
    readStream (.obj stream') place = readStream (.obj stream) place := by
  unfold readStream
  dsimp only
  rw [h.text, h.text, readTransport_congr h, readSecurity_congr h]

theorem readInbound_congr
    (hother : ∀ n, n ≠ "streamSettings" → Fields.get el' n = Fields.get el n)
    (hstream : ∀ place, readStream (Fields.get el' "streamSettings") place =
      readStream (Fields.get el "streamSettings") place) (index : Nat) :
    readInbound el' index = readInbound el index := by
  have htext : ∀ n, n ≠ "streamSettings" → textOf el' n = textOf el n := fun n hn =>
    congrArg Value.asText (hother n hn)
  unfold readInbound
  simp (disch := decide) only [hother, htext, hstream]

/-- What stands in place of a field of the stream is read the same if it is alike. -/
theorem readInbound_put {n : String} (hstream : Fields.get el "streamSettings" = .obj stream)
    (hfs : Fields.get stream n = .obj fs) (halike : Alike fs gs) (index : Nat) :
    readInbound (Fields.put el "streamSettings" (.obj (Fields.put stream n (.obj gs)))) index =
      readInbound el index := by
  have hstreams : StreamsAlike stream (Fields.put stream n (.obj gs)) := by
    intro m
    by_cases hm : m = n
    · subst hm
      exact .inr ⟨fs, gs, hfs, Fields.get_put_self _ _ _, halike⟩
    · exact .inl (Fields.get_put_of_ne stream _ hm)
  refine readInbound_congr (fun m hm => Fields.get_put_of_ne el _ hm) (fun place => ?_) index
  rw [Fields.get_put_self, hstream, readStream_congr hstreams]

theorem alike_headers (h : (Fields.get fs "headers").isRecord = false) :
    Alike fs (Fields.put fs "headers" .null) where
  hosts := Transport.hostAndHeaders_nulled h
  certificate := by
    unfold firstCertificate
    rw [Fields.get_put_of_ne fs .null (show "certificates" ≠ "headers" by decide)]
  others n hn _ := Fields.get_put_of_ne fs .null hn

theorem alike_certificates {v : Value}
    (h : firstCertificate (Fields.put fs "certificates" v) = firstCertificate fs) :
    Alike fs (Fields.put fs "certificates" v) where
  hosts := by
    unfold Transport.hostAndHeaders
    rw [Fields.get_put_of_ne fs v (show "headers" ≠ "certificates" by decide),
      Fields.get_put_of_ne fs v (show "host" ≠ "certificates" by decide)]
  certificate := h
  others n _ hn := Fields.get_put_of_ne fs v hn

theorem firstCertificate_nulled (h : (Fields.get fs "certificates").items?.isSome = false) :
    firstCertificate (Fields.put fs "certificates" .null) = firstCertificate fs := by
  unfold firstCertificate
  rw [Fields.get_put_self]
  cases hv : Fields.get fs "certificates" with
  | arr => simp [hv, Value.items?] at h
  | _ => rfl

/-- Certificates that are no records are passed over. -/
theorem firstCertificate_records {xs : List Value} (h : Fields.get fs "certificates" = .arr xs) :
    firstCertificate (Fields.put fs "certificates" (.arr (xs.filter (·.isRecord)))) =
      firstCertificate fs := by
  have hrecords : (xs.filter (·.isRecord)).filterMap Value.fields? =
      xs.filterMap Value.fields? := by
    rw [List.filterMap_filter]
    refine List.filterMap_congr fun v _ => ?_
    cases v <;> rfl
  unfold firstCertificate
  rw [Fields.get_put_self, h]
  exact congrArg (·.head?.getD []) hrecords

end Xray

namespace Engine

variable {e : Engine} {el : Value}

/-- The parts that are looked at before they are read. -/
def toldParts (e : Engine) (el : Value) : List Part :=
  match e with
  | .singBox => SingBox.toldParts
  | .xray => Xray.toldParts el

/-- The parts of which is taken what there is. -/
def untoldParts (e : Engine) (el : Value) : List Part :=
  match e with
  | .singBox => SingBox.untoldParts
  | .xray => Xray.untoldParts el

/-- Where the clients of a listener are listed. -/
def clientsPath (e : Engine) (el : Value) : List String :=
  match e with
  | .singBox => ["users"]
  | .xray => ["settings", Xray.clientsName (el.get "protocol").asText]

/-- How notes name one client of a listener. -/
def clientName (e : Engine) (el : Value) (i : Nat) : String :=
  match e with
  | .singBox => SingBox.userName i
  | .xray => Xray.itemName (Xray.clientsName (el.get "protocol").asText) i

theorem toldParts_told : ∀ p ∈ e.toldParts el, p.Malformed el → p.Told (e.complaints el) := by
  cases e with
  | singBox => exact SingBox.toldParts_told
  | xray => exact Xray.toldParts_told

theorem clients_told {xs : List Value} (h : el.at (e.clientsPath el) = .arr xs) {i : Nat}
    {v : Value} (hv : xs[i]? = some v) (hrecord : v.isRecord = false) :
    e.clientName el i ++ " is not an object; skipped" ∈ e.complaints el := by
  cases e with
  | singBox =>
      have hin := mem_itemComplaints SingBox.userName hv hrecord
      rw [← h] at hin
      simp only [complaints, SingBox.complaints, listComplaints, List.mem_append]
      exact .inl (.inl (.inl (.inr hin)))
  | xray =>
      have hin := mem_itemComplaints
        (Xray.itemName (Xray.clientsName (el.get "protocol").asText)) hv hrecord
      rw [← h] at hin
      simp only [complaints, Xray.complaints, Xray.settingsComplaints, listComplaints,
        List.mem_append]
      exact .inl (.inl (.inr (.inr hin)))

/-- The lists whose items are passed over if they are no records, and nothing is told. -/
def untoldLists (e : Engine) (el : Value) : List (List String) :=
  match e with
  | .singBox => []
  | .xray =>
    if ((el.get "streamSettings").get "security").asText = "tls" then
      [["streamSettings", "tlsSettings", "certificates"]]
    else []

/-- A part of the stream that is replaced by one of which the same is read. -/
theorem xray_readElement_withAt {n m : String} {w : Value}
    (hthere : (el.at ["streamSettings", n, m]).isNothing = false)
    (halike : ∀ fs, Fields.get fs m = el.at ["streamSettings", n, m] →
      Xray.Alike fs (Fields.put fs m w)) (index : Nat) :
    xray.readElement (el.withAt ["streamSettings", n, m] w) index = xray.readElement el index := by
  obtain ⟨el, rfl⟩ := Value.record_of_at hthere
  rw [Value.at_obj] at hthere halike
  obtain ⟨stream, hstream⟩ := Value.record_of_at hthere
  rw [hstream, Value.at_obj] at hthere halike
  obtain ⟨fs, hfs⟩ := Value.record_of_at hthere
  rw [hfs, Value.at_obj] at halike
  rw [Value.withAt_obj, hstream, Value.withAt_obj, hfs, Value.withAt_obj, Value.withAt_nil]
  exact Xray.readInbound_put hstream hfs (halike fs rfl) index

/-- A part that nothing is told of is read as if null stood for it. -/
theorem untoldParts_nulled : ∀ p ∈ e.untoldParts el, p.Malformed el → ∀ index,
    e.readElement (el.withAt p.path .null) index = e.readElement el index := by
  cases e with
  | singBox =>
      refine List.forall_mem_singleton.2 fun ⟨hthere, hshape⟩ index => ?_
      obtain ⟨el, rfl⟩ := Value.record_of_at hthere
      rw [Value.at_obj] at hthere hshape
      obtain ⟨fs, hfs⟩ := Value.record_of_at hthere
      rw [hfs, Value.at_obj] at hthere hshape
      rw [Value.withAt_obj, hfs, Value.withAt_obj, Value.withAt_nil]
      refine SingBox.readInbound_congr (fun n hn => Fields.get_put_of_ne el _ hn)
        (fun place => ?_) index
      rw [Fields.get_put_self, hfs]
      exact SingBox.readTransport_headers hthere hshape place
  | xray =>
      refine List.forall_mem_append.2 ⟨List.forall_mem_map.2 fun n _ h => ?_, ?_⟩
      · exact xray_readElement_withAt h.1 fun fs hfs => Xray.alike_headers (hfs ▸ h.2)
      · split
        · refine List.forall_mem_singleton.2 fun h => xray_readElement_withAt h.1 fun fs hfs => ?_
          exact Xray.alike_certificates (Xray.firstCertificate_nulled (hfs ▸ h.2))
        · nofun

theorem untoldLists_records : ∀ path ∈ e.untoldLists el, ∀ xs, el.at path = .arr xs → ∀ index,
    e.readElement (el.withAt path (.arr (xs.filter (·.isRecord)))) index =
      e.readElement el index := by
  cases e with
  | singBox => nofun
  | xray =>
      unfold untoldLists
      dsimp only
      split
      · refine List.forall_mem_singleton.2 fun xs hxs => ?_
        refine xray_readElement_withAt (by rw [hxs]; rfl) fun fs hfs => ?_
        exact Xray.alike_certificates (Xray.firstCertificate_records (hfs.trans hxs))
      · nofun

/-- A part of a listener that has the wrong shape is told of by the name of the listener and its
own, and so is a client that is no record; this is so for all parts but header fields and
certificates. These are read as if null stood for them, and nothing is told. -/
theorem read_malformed {file text : String} {found : Noted (List Inbound)}
    (h : e.read file text = .ok found) : ∃ els, ConfigFile.elements e file text = .ok els ∧
      ∀ el index, els[index]? = some el → e.keeps el = true →
        (∀ p ∈ e.toldParts el, p.Malformed el →
          ∃ rest, place el index ++ ": " ++ (p.name ++ " is " ++ rest) ∈ found.notes) ∧
        (∀ xs, el.at (e.clientsPath el) = .arr xs → ∀ i v, xs[i]? = some v → v.isRecord = false →
          place el index ++ ": " ++ (e.clientName el i ++ " is not an object; skipped") ∈
            found.notes) ∧
        (∀ p ∈ e.untoldParts el, p.Malformed el → ∀ n,
          e.readElement (el.withAt p.path .null) n = e.readElement el n) ∧
        ∀ path ∈ e.untoldLists el, ∀ xs, el.at path = .arr xs → ∀ n,
          e.readElement (el.withAt path (.arr (xs.filter (·.isRecord)))) n =
            e.readElement el n := by
  rw [read_eq] at h
  cases hels : ConfigFile.elements e file text with
  | error => simp [hels, Except.map] at h
  | ok els =>
      rw [hels] at h
      cases h
      refine ⟨els, rfl, fun el index hel hkept => ?_⟩
      have hnoted : ∀ c ∈ e.complaints el, place el index ++ ": " ++ c ∈
          els.zipIdx.flatMap fun x => (e.readElement x.1 x.2).notes := by
        intro c hc
        refine List.mem_flatMap.2 ⟨(el, index), List.mem_zipIdx_iff_getElem?.2 hel, ?_⟩
        rw [readElement_notes hkept]
        exact List.mem_map_of_mem hc
      refine ⟨fun p hp hmalformed => ?_, fun xs hxs i v hv hrecord => ?_, untoldParts_nulled,
        untoldLists_records⟩
      · obtain ⟨rest, hrest⟩ := toldParts_told p hp hmalformed
        exact ⟨rest, hnoted _ hrest⟩
      · exact hnoted _ (clients_told hxs hv hrecord)

/-- A listener with security of the wrong shape, and a client that is no record. -/
def brokenFile : String :=
  "[\x7b\"type\": \"vless\", \"tag\": \"in\", \"users\": [true], \"tls\": \"on\"\x7d]"

theorem read_malformed_tls : ∃ found els el, singBox.read "config.json" brokenFile = .ok found ∧
    ConfigFile.elements .singBox "config.json" brokenFile = .ok els ∧ els[0]? = some el ∧
    singBox.keeps el = true ∧ (⟨["tls"], .record⟩ : Part).Malformed el ∧
    (∃ rest, place el 0 ++ ": " ++ ("\"tls\" is " ++ rest) ∈ found.notes) ∧
    ∃ xs v, el.at ["users"] = .arr xs ∧ xs[0]? = some v ∧ v.isRecord = false ∧
      place el 0 ++ ": " ++ "user #0 is not an object; skipped" ∈ found.notes := by
  have hseen : (ConfigFile.elements .singBox "config.json" brokenFile).toOption.map (fun els =>
      els[0]?.any fun el => singBox.keeps el
        && decide ((⟨["tls"], .record⟩ : Part).Malformed el)
        && ((el.at ["users"]).items?.bind (·[0]?)).any (!·.isRecord)) = some true := by
    decide +kernel
  have hread : (singBox.read "config.json" brokenFile).toOption.map (·.value.length) = some 1 := by
    decide +kernel
  obtain ⟨els, hels, helsSeen⟩ := exists_ok_of_seen hseen
  obtain ⟨found, hfound, -⟩ := exists_ok_of_seen hread
  obtain ⟨els', hels', hall⟩ := read_malformed hfound
  obtain rfl := Except.ok.inj (hels.symm.trans hels')
  simp only [Option.any_eq_true, Bool.and_eq_true, decide_eq_true_eq, Option.bind_eq_some_iff,
    Bool.not_eq_true'] at helsSeen
  obtain ⟨el, hel, ⟨hkept, htls⟩, v, ⟨xs, hxs, hv⟩, hrecord⟩ := helsSeen
  have hlist : el.at ["users"] = .arr xs := Value.items?_eq_some.1 hxs
  obtain ⟨htold, hclients, -⟩ := hall el 0 hel hkept
  exact ⟨found, els, el, hfound, hels, hel, hkept, htls,
    htold _ (by simp [toldParts, SingBox.toldParts]) htls, xs, v, hlist, hv, hrecord,
    hclients xs hlist 0 v hv hrecord⟩

/-- Some element of a file that is read has this part in the wrong shape, and nothing is noted. -/
def Unnoted (e : Engine) (text : String) (p : Part) : Prop :=
  ∃ els found, ConfigFile.elements e "config.json" text = .ok els ∧
    e.read "config.json" text = .ok found ∧ found.notes = [] ∧
    ∃ el ∈ els, e.keeps el = true ∧ p.Malformed el

theorem unnoted_of_seen {text : String} {p : Part}
    (hels : (ConfigFile.elements e "config.json" text).toOption.map (·.any fun el =>
      e.keeps el && decide (p.Malformed el)) = some true)
    (hnotes : (e.read "config.json" text).toOption.map (·.notes) = some []) :
    Unnoted e text p := by
  obtain ⟨els, helements, hany⟩ := exists_ok_of_seen hels
  obtain ⟨found, hread, hquiet⟩ := exists_ok_of_seen hnotes
  obtain ⟨el, hel, hseen⟩ := List.any_eq_true.1 hany
  obtain ⟨hkept, hmalformed⟩ := Bool.and_eq_true_iff.1 hseen
  exact ⟨els, found, helements, hread, hquiet, el, hel, hkept, of_decide_eq_true hmalformed⟩

/-- Header fields that are no record and certificates that are no list vanish without a note. -/
theorem malformed_unnoted :
    Unnoted .singBox
      ("[\x7b\"type\": \"vless\", \"transport\": "
        ++ "\x7b\"type\": \"ws\", \"headers\": \"Host\"\x7d\x7d]")
      ⟨["transport", "headers"], .record⟩ ∧
    Unnoted .xray
      ("[\x7b\"protocol\": \"vless\", \"streamSettings\": \x7b\"security\": \"tls\", "
        ++ "\"tlsSettings\": \x7b\"certificates\": \x7b\"certificateFile\": \"c\"\x7d\x7d\x7d\x7d]")
      ⟨["streamSettings", "tlsSettings", "certificates"], .array⟩ :=
  ⟨unnoted_of_seen (by decide +kernel) (by decide +kernel),
    unnoted_of_seen (by decide +kernel) (by decide +kernel)⟩

end Engine

end ProxyFleet
