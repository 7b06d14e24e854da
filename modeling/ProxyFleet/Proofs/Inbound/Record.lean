import ProxyFleet.Inbound.Record
import ProxyFleet.Inbound.Rules
import ProxyFleet.Proofs.Value.Fields
import ProxyFleet.Value.Display

/-!
# Records that are listeners

Reading a record looks at each of its parts by name and asks of each that it be
well shaped. `Inbound.Reads` says the same part by part, so that a record with
one part changed is read as the listener with that part changed.
-/

namespace ProxyFleet

namespace Value

variable {v : Value}

@[simp] theorem text?_str (s : String) : (str s).text? = some s := rfl

@[simp] theorem display_str (s : String) : (str s).display = .ok s := by
  simp [display, displayChars, Except.map]

@[simp] theorem bool?_bool (b : Bool) : (bool b).bool? = some b := rfl

@[simp] theorem fields?_obj (fs : Fields) : (obj fs).fields? = some fs := rfl

@[simp] theorem text?_eq_some {s : String} : v.text? = some s ↔ v = .str s := by
  cases v <;> simp [text?]

@[simp] theorem number?_eq_some {n : Number} : v.number? = some n ↔ v = .num n := by
  cases v <;> simp [number?]

@[simp] theorem bool?_eq_some {b : Bool} : v.bool? = some b ↔ v = .bool b := by
  cases v <;> simp [bool?]

@[simp] theorem items?_eq_some {vs : List Value} : v.items? = some vs ↔ v = .arr vs := by
  cases v <;> simp [items?]

@[simp] theorem fields?_eq_some {fs : Fields} : v.fields? = some fs ↔ v = .obj fs := by
  cases v <;> simp [fields?]

theorem isRecord_iff : v.isRecord = true ↔ ∃ fs, v = .obj fs := by
  cases v <;> simp [isRecord]

/-- A part that is not there or says whether it is switched on. -/
def Switched (v : Value) (b : Bool) : Prop := v = .absent ∧ b = false ∨ v.get "enabled" = .bool b

theorem Switched.isEnabled {b : Bool} (h : v.Switched b) : v.isEnabled = b := by
  rcases h with ⟨rfl, rfl⟩ | h
  · rfl
  · rw [Value.isEnabled, h]

end Value

variable {v w : Value}

/-! ## Parts that need not be there -/

@[simp] theorem optionalPart_absent {α : Type} (read : Value → Option α) :
    optionalPart read .absent = some none := rfl

/-- A part that is there is read as it is. -/
theorem optionalPart_of_some {α : Type} {read : Value → Option α} {x : α}
    (habsent : read .absent = none) (h : read v = some x) :
    optionalPart read v = some (some x) := by
  cases v with
  | absent => exact nomatch habsent.symm.trans h
  | _ => exact congrArg (Option.map some) h

theorem optionalPart_eq_none {α : Type} {read : Value → Option α} {o : Option α}
    (h : optionalPart read v = some o) (ho : o = none) : v = .absent := by
  subst ho
  cases v with
  | absent => rfl
  | _ => exact absurd h (by simp [optionalPart])

theorem optionalPart_eq_some {α : Type} {read : Value → Option α} {o : Option α} {x : α}
    (h : optionalPart read v = some o) (ho : o = some x) : read v = some x := by
  subst ho
  cases v with
  | absent => cases h
  | _ => simpa [optionalPart] using h

/-! ## Reality, security, multiplexing -/

/-- Reality as it is read. -/
theorem Reality.ofValue?_enabled {r : Reality} (h : ofValue? v = some r) :
    v.get "enabled" = .bool r.enabled := by
  simp only [ofValue?, bind, Option.bind_eq_some_iff, pure, Option.some.injEq] at h
  obtain ⟨b, hb, -, -, -, -, -, -, -, -, -, -, -, -, -, -, rfl⟩ := h
  exact Value.bool?_eq_some.1 hb

/-- A record whose parts are read as those of a security. -/
structure Tls.Reads (v : Value) (t : Tls) : Prop where
  enabled : v.get "enabled" = .bool t.enabled
  serverName : v.get "serverName" = .str t.serverName
  alpn : (v.get "alpn").texts? = some t.alpn
  certificatePath : v.get "certificatePath" = .str t.certificatePath
  keyPath : v.get "keyPath" = .str t.keyPath
  reality : optionalPart Reality.ofValue? (v.get "reality") = some t.reality

theorem Tls.reads_iff {t : Tls} : ofValue? v = some t ↔ Reads v t := by
  simp only [ofValue?, bind, Option.bind_eq_some_iff, pure, Option.some.injEq,
    Value.bool?_eq_some, Value.text?_eq_some]
  constructor
  · rintro ⟨_, h1, _, h2, _, h3, _, h4, _, h5, _, h6, rfl⟩
    exact ⟨h1, h2, h3, h4, h5, h6⟩
  · intro h
    exact ⟨_, h.enabled, _, h.serverName, _, h.alpn, _, h.certificatePath, _, h.keyPath, _,
      h.reality, rfl⟩

/-- A record whose parts are read as those of a multiplexing. -/
structure Multiplex.Reads (v : Value) (m : Multiplex) : Prop where
  enabled : v.get "enabled" = .bool m.enabled
  padding : v.get "padding" = .bool m.padding
  brutal : optionalPart Brutal.ofValue? (v.get "brutal") = some m.brutal

theorem Multiplex.reads_iff {m : Multiplex} : ofValue? v = some m ↔ Reads v m := by
  simp only [ofValue?, bind, Option.bind_eq_some_iff, pure, Option.some.injEq,
    Value.bool?_eq_some]
  constructor
  · rintro ⟨_, h1, _, h2, _, h3, rfl⟩
    exact ⟨h1, h2, h3⟩
  · intro h
    exact ⟨_, h.enabled, _, h.padding, _, h.brutal, rfl⟩

theorem Brutal.ofValue?_enabled {b : Brutal} (h : ofValue? v = some b) :
    v.get "enabled" = .bool b.enabled := by
  simp only [ofValue?, bind, Option.bind_eq_some_iff, pure, Option.some.injEq,
    Value.bool?_eq_some] at h
  obtain ⟨_, hb, -, -, -, -, rfl⟩ := h
  exact hb

/-! ## Listeners -/

/-- A record whose parts are read as those of a listener. -/
structure Inbound.Reads (v : Value) (i : Inbound) : Prop where
  type : v.get "type" = .str i.type
  tag : v.get "tag" = .str i.tag
  listen : v.get "listen" = .str i.listen
  listenPort : v.get "listenPort" = .num i.listenPort
  transport : optionalPart Transport.ofValue? (v.get "transport") = some i.transport
  tls : optionalPart Tls.ofValue? (v.get "tls") = some i.tls
  multiplex : optionalPart Multiplex.ofValue? (v.get "multiplex") = some i.multiplex
  users : ∃ us, v.get "users" = .arr us ∧ us.mapM User.ofValue? = some i.users
  options : v.get "options" = .obj i.options

theorem Inbound.reads_iff {i : Inbound} : ofValue? v = some i ↔ Reads v i := by
  simp only [ofValue?, bind, Option.bind_eq_some_iff, pure, Option.some.injEq,
    Value.text?_eq_some, Value.number?_eq_some, Value.items?_eq_some, Value.fields?_eq_some]
  constructor
  · rintro ⟨us, h8, _, h1, _, h2, _, h3, _, h4, _, h5, _, h6, _, h7, _, h9, _, h10, rfl⟩
    exact ⟨h1, h2, h3, h4, h5, h6, h7, ⟨us, h8, h9⟩, h10⟩
  · intro h
    obtain ⟨us, h8, h9⟩ := h.users
    exact ⟨us, h8, _, h.type, _, h.tag, _, h.listen, _, h.listenPort, _, h.transport, _, h.tls, _,
      h.multiplex, _, h9, _, h.options, rfl⟩

namespace Inbound.Reads

variable {i : Inbound}

theorem isRecord (h : Reads v i) : ∃ fs, v = .obj fs := by
  have htype := h.type
  cases v with
  | obj fs => exact ⟨fs, rfl⟩
  | _ => cases htype

/-- A record that differs in its security, its multiplexing and what it is said to need. -/
theorem of_parts {t : Option Tls} {m : Option Multiplex} (h : Reads v i)
    (hget : ∀ n, n ≠ "requiredCapabilities" → n ≠ "tls" → n ≠ "multiplex" → w.get n = v.get n)
    (htls : optionalPart Tls.ofValue? (w.get "tls") = some t)
    (hmultiplex : optionalPart Multiplex.ofValue? (w.get "multiplex") = some m) :
    Reads w { i with tls := t, multiplex := m } where
  type := (hget _ (by decide) (by decide) (by decide)).trans h.type
  tag := (hget _ (by decide) (by decide) (by decide)).trans h.tag
  listen := (hget _ (by decide) (by decide) (by decide)).trans h.listen
  listenPort := (hget _ (by decide) (by decide) (by decide)).trans h.listenPort
  transport := (congrArg _ (hget _ (by decide) (by decide) (by decide))).trans h.transport
  tls := htls
  multiplex := hmultiplex
  users := by
    rw [hget _ (by decide) (by decide) (by decide)]
    exact h.users
  options := (hget _ (by decide) (by decide) (by decide)).trans h.options

/-- The top of a record that is read is that of a listener. -/
theorem isInbound {needs : List Value} (h : Reads v i)
    (hneeds : v.get "requiredCapabilities" = .arr needs) : v.isInbound = true := by
  obtain ⟨fs, rfl⟩ := h.isRecord
  obtain ⟨us, husers, -⟩ := h.users
  have hget : ∀ n, (Value.obj fs).get n = Fields.get fs n := fun _ => rfl
  simp only [hget] at husers hneeds
  have htype := h.type
  have htag := h.tag
  have hlisten := h.listen
  have hport := h.listenPort
  have hoptions := h.options
  simp only [hget] at htype htag hlisten hport hoptions
  simp [Value.isInbound, htype, htag, hlisten, hport, husers, hoptions, hneeds, Value.text?,
    Value.items?, Value.isRecord]

/-! ### What is switched on -/

theorem reality (h : Reads v i) : Value.Switched ((v.get "tls").get "reality") i.realityOn := by
  unfold realityOn
  cases ht : i.tls with
  | none =>
      rw [optionalPart_eq_none h.tls ht]
      exact .inl ⟨rfl, rfl⟩
  | some t =>
      have htls := Tls.reads_iff.1 (optionalPart_eq_some h.tls ht)
      rw [Option.any_some]
      cases hr : t.reality with
      | none => exact .inl ⟨optionalPart_eq_none htls.reality hr, rfl⟩
      | some r =>
          exact .inr (Reality.ofValue?_enabled (optionalPart_eq_some htls.reality hr))

theorem multiplexing (h : Reads v i) : Value.Switched (v.get "multiplex") i.multiplexOn := by
  unfold multiplexOn
  cases hm : i.multiplex with
  | none => exact .inl ⟨optionalPart_eq_none h.multiplex hm, rfl⟩
  | some m => exact .inr (Multiplex.reads_iff.1 (optionalPart_eq_some h.multiplex hm)).enabled

theorem brutal (h : Reads v i) : Value.Switched ((v.get "multiplex").get "brutal") i.brutalOn := by
  unfold brutalOn
  cases hm : i.multiplex with
  | none =>
      rw [optionalPart_eq_none h.multiplex hm]
      exact .inl ⟨rfl, rfl⟩
  | some m =>
      have hmultiplex := Multiplex.reads_iff.1 (optionalPart_eq_some h.multiplex hm)
      rw [Option.any_some]
      cases hb : m.brutal with
      | none => exact .inl ⟨optionalPart_eq_none hmultiplex.brutal hb, rfl⟩
      | some b =>
          exact .inr (Brutal.ofValue?_enabled (optionalPart_eq_some hmultiplex.brutal hb))

/-- What a record needs is what the listener it is read as needs. -/
theorem requirements (h : Reads v i) : v.requirements = i.requirements := by
  unfold Value.requirements Inbound.requirements
  rw [h.reality.isEnabled, h.multiplexing.isEnabled, h.brutal.isEnabled]

end Inbound.Reads

/-! ## Listeners as values -/

/-- Items that are each read as what they were made from. -/
theorem mapM_map {α β : Type} {f : α → β} {read : β → Option α} (h : ∀ x, read (f x) = some x)
    (xs : List α) : (xs.map f).mapM read = some xs := by
  induction xs with
  | nil => rfl
  | cons x xs ih =>
      rw [List.map_cons, List.mapM_cons, ih, h]
      rfl

theorem texts?_texts (ts : List String) : (Value.texts ts).texts? = some ts :=
  mapM_map (f := Value.str) (fun _ => rfl) ts

theorem Brutal.ofValue?_toValue (b : Brutal) : ofValue? b.toValue = some b := rfl

theorem User.ofValue?_toValue (u : User) : ofValue? u.toValue = some u := rfl

theorem Multiplex.ofValue?_toValue (m : Multiplex) : ofValue? m.toValue = some m := by
  obtain ⟨enabled, padding, brutal⟩ := m
  cases brutal <;> rfl

theorem Reality.ofValue?_toValue (r : Reality) : ofValue? r.toValue = some r := by
  obtain ⟨enabled, shortIds, serverName, others, fingerprint, publicKey, privateKey, handshake⟩ := r
  have hhandshake : ∀ h : Handshake, optionalPart Handshake.ofValue? h.toValue = some (some h) :=
    fun _ => rfl
  cases handshake <;>
    simp [ofValue?, toValue, Value.get, Fields.get_cons, texts?_texts, hhandshake]

theorem Tls.ofValue?_toValue (t : Tls) : ofValue? t.toValue = some t := by
  obtain ⟨enabled, serverName, alpn, certificatePath, keyPath, reality⟩ := t
  have hreality : ∀ r : Reality, optionalPart Reality.ofValue? r.toValue = some (some r) :=
    fun r => optionalPart_of_some rfl r.ofValue?_toValue
  cases reality <;>
    simp [ofValue?, toValue, Value.get, Fields.get_cons, texts?_texts, hreality]

theorem Transport.ofValue?_toValue (t : Transport) : ofValue? t.toValue = some t := by
  obtain ⟨type, path, host, serviceName, headers⟩ := t
  have hheaders : (headers.map fun h => (h.1, Value.str h.2)).mapM
      (fun h => h.2.text?.map (h.1, ·)) = some headers :=
    mapM_map (f := fun h => (h.1, Value.str h.2)) (fun _ => rfl) headers
  simp only [ofValue?, toValue, headersValue, Value.get, Fields.get_cons, Value.fields?_obj,
    Value.text?_str, String.reduceEq, if_true, if_false, Option.bind_eq_bind, Option.bind_some,
    hheaders, Option.pure_def]

/-- Every listener is a record that is read as it. -/
theorem Inbound.reads_toValue (i : Inbound) : Reads i.toValue i := by
  obtain ⟨type, tag, listen, listenPort, transport, tls, multiplex, users, options⟩ := i
  have htransport : ∀ t : Transport, optionalPart Transport.ofValue? t.toValue = some (some t) :=
    fun t => optionalPart_of_some rfl t.ofValue?_toValue
  have htls : ∀ t : Tls, optionalPart Tls.ofValue? t.toValue = some (some t) :=
    fun t => optionalPart_of_some rfl t.ofValue?_toValue
  have hmultiplex : ∀ m : Multiplex, optionalPart Multiplex.ofValue? m.toValue = some (some m) :=
    fun m => optionalPart_of_some rfl m.ofValue?_toValue
  have husers : ∃ us, Value.arr (users.map User.toValue) = .arr us ∧
      us.mapM User.ofValue? = some users :=
    ⟨_, rfl, mapM_map User.ofValue?_toValue users⟩
  cases transport <;> cases tls <;> cases multiplex <;> constructor <;>
    simp only [toValue, Value.get, Option.toList, List.map_nil, List.map_cons, List.nil_append,
      List.cons_append, Fields.get_nil, Fields.get_cons, String.reduceEq, if_true, if_false,
      optionalPart_absent, htransport, htls, hmultiplex, husers]

theorem Inbound.ofValue?_toValue (i : Inbound) : ofValue? i.toValue = some i :=
  reads_iff.2 i.reads_toValue

/-! ## Clients of shadowsocks listeners -/

/-- A client of a shadowsocks listener as it is read: all have the method of the listener. -/
def User.underMethod (method : String) (u : User) : User := ⟨"", u.email, u.password, "", method⟩

/-- Whom a shadowsocks listener lets in once it has been written and read. What becomes of a
client that is alone depends on the engine; without clients, the password of the listener itself
lets one in. -/
def Inbound.admitted (alone : User → List User) (i : Inbound) : List User :=
  let password := textOf i.options "password"
  if password = "" then
    match i.users with
    | [u] => alone u
    | us => us
  else if i.users = [] then [{ User.empty with password := password }]
  else i.users

end ProxyFleet
