import ProxyFleet.Proofs.Inbound.Parts
import ProxyFleet.SingBox.Writing

/-!
# Security, multiplexing and transport of a sing-box listener

Each of these parts is read and written on its own. What reading makes of a part
has a shape that writing respects: Reality has the server name of the security
around it and nothing that sing-box cannot write, numbers are whole, and the host of
a transport is not among its header fields. A part of that shape is written without a
note and read back: security and multiplexing as they were, the transport with what is
kept of it.
-/

namespace ProxyFleet

namespace SingBox

open Fields

variable {v : Value} {place : String}

theorem recordOr_some {note : String} {fs : Fields} (h : (recordOr v note).value = some fs) :
    v = .obj fs := by
  unfold recordOr at h
  split at h
  · cases h
  · cases h
  · cases h
  · cases h
    rfl
  · cases h

/-! ## Security -/

/-- Reality as it is read: there is one server name, that of the security around it, and nothing
that only clients need. -/
structure RealityRead (serverName : String) (r : Reality) : Prop where
  serverName : r.serverName = serverName
  others : r.alternateServerNames = []
  fingerprint : r.fingerprint = ""
  publicKey : r.publicKey = ""
  port : ∀ h ∈ r.handshake, h.serverPort.Counted

theorem RealityRead.eq {serverName : String} {r : Reality} (h : RealityRead serverName r) :
    ⟨r.enabled, r.shortIds, serverName, [], "", "", r.privateKey, r.handshake⟩ = r := by
  obtain ⟨rfl, hothers, hfingerprint, hkey, -⟩ := h
  cases r
  dsimp only at hothers hfingerprint hkey ⊢
  rw [hothers, hfingerprint, hkey]

/-- Security as it is read. -/
def TlsRead (t : Tls) : Prop := ∀ r ∈ t.reality, RealityRead t.serverName r

theorem readHandshake_counted {h : Handshake} (hv : v = .absent ∨ v.Settled)
    (hread : (readHandshake v place).value = some h) : h.serverPort.Counted := by
  unfold readHandshake at hread
  split at hread
  · cases hread
  · cases hread
    exact Value.counted_asInt ((hv.resolve_left nofun).get _)
  · cases hread

theorem readReality_read {r : Reality} {serverName : String} (hv : v = .absent ∨ v.Settled)
    (hread : (readReality v serverName place).value = some r) : RealityRead serverName r := by
  unfold readReality at hread
  rw [Noted.bind_value] at hread
  split at hread
  · cases hread
  · next fs hfs =>
      rw [recordOr_some hfs] at hv
      cases hread
      exact {
        serverName := rfl
        others := rfl
        fingerprint := rfl
        publicKey := rfl
        port := fun h hh => readHandshake_counted ((hv.resolve_left nofun).get _) hh }

theorem readTls_read {t : Tls} (hv : v = .absent ∨ v.Settled)
    (hread : (readTls v place).value = some t) : TlsRead t := by
  unfold readTls at hread
  rw [Noted.bind_value] at hread
  split at hread
  · cases hread
  · next fs hfs =>
      rw [recordOr_some hfs] at hv
      cases hread
      exact fun r hr => readReality_read ((hv.resolve_left nofun).get _) hr

theorem recordOr_fields {fs : Fields} (h : fs ≠ []) (note : String) :
    recordOr (.obj fs) note = pure (some fs) := by
  cases fs with
  | nil => exact absurd rfl h
  | cons f fs => rfl

/-- A handshake as it is written. -/
def handshakeValue (h : Handshake) : Value :=
  .obj [("server", .str h.server), ("server_port", .num h.serverPort)]

/-- The fields of Reality, before those that tell nothing are left out. -/
def realityFields (r : Reality) : Fields :=
  [("enabled", .bool r.enabled), ("private_key", .str r.privateKey),
    ("short_id", .texts r.shortIds), ("handshake", .ofOption handshakeValue r.handshake)]

/-- The fields of security, before those that tell nothing are left out. -/
def tlsFields (t : Tls) : Fields :=
  [("enabled", .bool t.enabled), ("server_name", .str (serverNameInForce t)),
    ("alpn", .texts t.alpn), ("certificate_path", .str t.certificatePath),
    ("key_path", .str t.keyPath), ("reality", .ofOption writeReality t.reality)]

theorem writeReality_eq (r : Reality) : writeReality r = .obj (compact (realityFields r)) :=
  congrArg Value.obj (compact_append_part (fun _ => rfl) r.handshake)

theorem writeTls_value (t : Tls) (place : String) :
    (writeTls t place).value = .obj (compact (tlsFields t)) := by
  have hparts : (writeTls t place).value = .obj (compact [("enabled", .bool t.enabled),
      ("server_name", .str (serverNameInForce t)), ("alpn", .texts t.alpn),
      ("certificate_path", .str t.certificatePath), ("key_path", .str t.keyPath)]
      ++ t.reality.toList.map fun r => ("reality", writeReality r)) := by
    unfold writeTls
    cases t.reality <;> rfl
  rw [hparts, compact_append_part fun r => (rfl : (writeReality r).tells = true)]
  rfl

theorem reality_reread (t : Tls) :
    get (Value.rereadFields [] (compact (tlsFields t))) "reality" =
      .ofOption (fun r => .obj (Value.rereadFields [] (compact (realityFields r)))) t.reality :=
  get_written_part (by decide : ["enabled", "server_name", "alpn", "certificate_path", "key_path",
    "reality"].Nodup) (congrArg (Value.ofOption · t.reality) (funext writeReality_eq))

theorem handshake_reread (r : Reality) :
    get (Value.rereadFields [] (compact (realityFields r))) "handshake" =
      .ofOption (fun h => .obj (Value.rereadFields [] [("server", .str h.server),
        ("server_port", .num h.serverPort)])) r.handshake :=
  get_written_part (by decide : ["enabled", "private_key", "short_id", "handshake"].Nodup) rfl

/-- Of security that was read nothing is lost. -/
theorem writeTls_eq {t : Tls} (h : TlsRead t) (place : String) :
    writeTls t place = pure (.obj (compact (tlsFields t))) := by
  refine Noted.eq_pure (writeTls_value t place) ?_
  unfold writeTls
  cases hr : t.reality with
  | none => rfl
  | some r =>
      obtain ⟨-, hothers, hfingerprint, hkey, -⟩ := h r hr
      simp [realityNotes, hothers, hfingerprint, hkey]

theorem serverNameInForce_read {t : Tls} (h : TlsRead t) : serverNameInForce t = t.serverName := by
  unfold serverNameInForce
  split
  · next r hr =>
      have hname := (h r hr).serverName
      split
      · rw [hname, firstText]
        split <;> rfl
      · rfl
  · rfl

section Finite

variable {t : Tls} (h : TlsRead t)
  (hfinite : ∀ s ∈ t.reality.bind (·.handshake), s.serverPort.isFinite = true)

include h hfinite

theorem handshake_stable {r : Reality} (hr : r ∈ t.reality) :
    ∀ s ∈ r.handshake, (handshakeValue s).Stable ∧ (Value.num s.serverPort).asInt = s.serverPort := by
  intro s hs
  have hport := (h r hr).port s hs
  have hfinite := hfinite s (Option.mem_bind_iff.2 ⟨r, hr, hs⟩)
  refine ⟨(stable_of_names ["server", "server_port"] rfl (by decide) ?_).obj, hport.asInt hfinite⟩
  simp [Value.stable_str, hport.stable hfinite]

theorem writeReality_stable {r : Reality} (hr : r ∈ t.reality) : (writeReality r).Stable := by
  have hhandshake := Value.stable_part fun s hs => (handshake_stable h hfinite hr s hs).1
  rw [writeReality_eq]
  refine (stable_compact ["enabled", "private_key", "short_id", "handshake"] rfl (by decide) ?_).obj
  simp only [realityFields, List.forall_mem_cons]
  exact ⟨.inr (Value.stable_bool _), .inr (Value.stable_str _), .inr (Value.stable_texts _),
    hhandshake, nofun⟩

theorem tlsFields_stable : (Value.obj (compact (tlsFields t))).Stable := by
  have hreality := Value.stable_part fun r (hr : r ∈ t.reality) => writeReality_stable h hfinite hr
  refine (stable_compact ["enabled", "server_name", "alpn", "certificate_path", "key_path",
    "reality"] rfl (by decide) ?_).obj
  simp only [tlsFields, List.forall_mem_cons]
  exact ⟨.inr (Value.stable_bool _), .inr (Value.stable_str _), .inr (Value.stable_texts _),
    .inr (Value.stable_str _), .inr (Value.stable_str _), hreality, nofun⟩

theorem readReality_written {r : Reality} (hr : r ∈ t.reality) (place : String) :
    readReality (writeReality r) t.serverName place = pure (some r) := by
  have hnames : ((realityFields r).map Prod.fst).Nodup :=
    (by decide : ["enabled", "private_key", "short_id", "handshake"].Nodup)
  have henabled : (get (compact (realityFields r)) "enabled").asBool = r.enabled :=
    asBool_compact hnames _
  have hids : (get (compact (realityFields r)) "short_id").textList = r.shortIds :=
    (textList_compact hnames _).trans (Value.textList_texts r.shortIds)
  have hsecret : textOf (compact (realityFields r)) "private_key" = r.privateKey :=
    textOf_compact hnames _
  have hhandshake : readHandshake (get (compact (realityFields r)) "handshake") place =
      pure r.handshake := by
    have hpart : get (compact (realityFields r)) "handshake" = .ofOption handshakeValue r.handshake :=
      (get_compact hnames _).trans (Value.told_part (fun _ => rfl) r.handshake)
    rw [hpart]
    cases hs : r.handshake with
    | none => rfl
    | some s =>
        change Noted.of (some (Handshake.mk s.server (Value.num s.serverPort).asInt)) = _
        rw [(handshake_stable h hfinite hr s hs).2]
        rfl
  have hthere : compact (realityFields r) ≠ [] := List.cons_ne_nil _ _
  rw [writeReality_eq, readReality, recordOr_fields hthere, pure_bind]
  dsimp only
  rw [hhandshake, pure_bind, henabled, hids, hsecret, (h r hr).eq]

theorem readTls_written (place : String) :
    readTls (.obj (compact (tlsFields t))) place = pure (some t) := by
  have hnames : ((tlsFields t).map Prod.fst).Nodup := (by decide : ["enabled", "server_name",
    "alpn", "certificate_path", "key_path", "reality"].Nodup)
  have henabled : (get (compact (tlsFields t)) "enabled").asBool = t.enabled :=
    asBool_compact hnames _
  have hname : textOf (compact (tlsFields t)) "server_name" = t.serverName :=
    (textOf_compact hnames _).trans (serverNameInForce_read h)
  have halpn : (get (compact (tlsFields t)) "alpn").textList = t.alpn :=
    (textList_compact hnames _).trans (Value.textList_texts t.alpn)
  have hcertificate : textOf (compact (tlsFields t)) "certificate_path" = t.certificatePath :=
    textOf_compact hnames _
  have hkey : textOf (compact (tlsFields t)) "key_path" = t.keyPath :=
    textOf_compact hnames _
  have hreality : readReality (get (compact (tlsFields t)) "reality") t.serverName place =
      pure t.reality := by
    have hpart : get (compact (tlsFields t)) "reality" = .ofOption writeReality t.reality :=
      (get_compact hnames _).trans (Value.told_part (fun _ => rfl) t.reality)
    rw [hpart]
    cases hr : t.reality with
    | none => rfl
    | some r => exact readReality_written h hfinite hr place
  have hthere : compact (tlsFields t) ≠ [] := List.cons_ne_nil _ _
  rw [readTls, recordOr_fields hthere, pure_bind]
  dsimp only
  rw [hname, hreality, pure_bind, henabled, halpn, hcertificate, hkey]

end Finite

/-! ## Multiplexing -/

/-- A fixed rate as it is read. -/
structure BrutalRead (b : Brutal) : Prop where
  up : b.upMbps.Counted
  down : b.downMbps.Counted

theorem readMultiplex_read {m : Multiplex} (hv : v = .absent ∨ v.Settled)
    (hread : (readMultiplex v place).value = some m) : ∀ b ∈ m.brutal, BrutalRead b := by
  unfold readMultiplex at hread
  rw [Noted.bind_value] at hread
  split at hread
  · cases hread
  · next fs hfs =>
      rw [recordOr_some hfs] at hv
      cases hread
      have hbrutal := (hv.resolve_left nofun).get "brutal"
      intro b hb
      change (readBrutal _ _).value = some b at hb
      unfold readBrutal at hb
      split at hb
      · cases hb
      · next gs hgs =>
          rw [hgs] at hbrutal
          cases hb
          exact ⟨Value.counted_asInt ((hbrutal.resolve_left nofun).get _),
            Value.counted_asInt ((hbrutal.resolve_left nofun).get _)⟩
      · cases hb

/-- A fixed rate as it is written. -/
def brutalValue (b : Brutal) : Value :=
  .obj [("enabled", .bool b.enabled), ("up_mbps", .num b.upMbps), ("down_mbps", .num b.downMbps)]

/-- The fields of multiplexing, the rate being absent if there is none. -/
def multiplexFields (m : Multiplex) : Fields :=
  [("enabled", .bool m.enabled), ("padding", .bool m.padding),
    ("brutal", .ofOption brutalValue m.brutal)]

theorem writeMultiplex_eq (m : Multiplex) :
    writeMultiplex m = .obj (compact (multiplexFields m)) := by
  have hparts : writeMultiplex m = .obj (compact [("enabled", .bool m.enabled),
      ("padding", .bool m.padding)] ++ m.brutal.toList.map fun b => ("brutal", brutalValue b)) :=
    rfl
  rw [hparts, compact_append_part fun b => (rfl : (brutalValue b).tells = true)]
  rfl

theorem brutal_reread (m : Multiplex) :
    get (Value.rereadFields [] (compact (multiplexFields m))) "brutal" =
      .ofOption (fun b => .obj (Value.rereadFields [] [("enabled", .bool b.enabled),
        ("up_mbps", .num b.upMbps), ("down_mbps", .num b.downMbps)])) m.brutal :=
  get_written_part (by decide : ["enabled", "padding", "brutal"].Nodup) rfl

section Finite

variable {m : Multiplex} (h : ∀ b ∈ m.brutal, BrutalRead b)
  (hfinite : ∀ b ∈ m.brutal, b.upMbps.isFinite = true ∧ b.downMbps.isFinite = true)

include h hfinite

theorem writeMultiplex_stable : (writeMultiplex m).Stable := by
  have hbrutal := Value.stable_part fun b (hb : b ∈ m.brutal) => show (brutalValue b).Stable by
    refine (stable_of_names ["enabled", "up_mbps", "down_mbps"] rfl (by decide) ?_).obj
    simp [Value.stable_bool, (h b hb).up.stable (hfinite b hb).1,
      (h b hb).down.stable (hfinite b hb).2]
  rw [writeMultiplex_eq]
  refine (stable_compact ["enabled", "padding", "brutal"] rfl (by decide) ?_).obj
  simp only [multiplexFields, List.forall_mem_cons]
  exact ⟨.inr (Value.stable_bool _), .inr (Value.stable_bool _), hbrutal, nofun⟩

theorem readMultiplex_written (place : String) :
    readMultiplex (writeMultiplex m) place = pure (some m) := by
  have hnames : ((multiplexFields m).map Prod.fst).Nodup :=
    (by decide : ["enabled", "padding", "brutal"].Nodup)
  have henabled : (get (compact (multiplexFields m)) "enabled").asBool = m.enabled :=
    asBool_compact hnames _
  have hpadding : (get (compact (multiplexFields m)) "padding").asBool = m.padding :=
    asBool_compact hnames _
  have hbrutal : readBrutal (get (compact (multiplexFields m)) "brutal") place =
      pure m.brutal := by
    have hpart : get (compact (multiplexFields m)) "brutal" = .ofOption brutalValue m.brutal :=
      (get_compact hnames _).trans (Value.told_part (fun _ => rfl) m.brutal)
    rw [hpart]
    cases hb : m.brutal with
    | none => rfl
    | some b =>
        change pure (some (Brutal.mk b.enabled (Value.num b.upMbps).asInt
          (Value.num b.downMbps).asInt)) = _
        rw [(h b hb).up.asInt (hfinite b hb).1, (h b hb).down.asInt (hfinite b hb).2]
  have hthere : compact (multiplexFields m) ≠ [] := List.cons_ne_nil _ _
  rw [writeMultiplex_eq, readMultiplex, recordOr_fields hthere, pure_bind]
  dsimp only
  rw [hbrutal, pure_bind, henabled, hpadding]

end Finite

/-! ## Transports -/

theorem readTransport_read {t : Transport} (hv : v = .absent ∨ v.Settled)
    (hread : (readTransport v place).value = some t) :
    t.type ≠ "" ∧ Transport.HeadersRead t.headers := by
  unfold readTransport at hread
  rw [Noted.bind_value] at hread
  split at hread
  · cases hread
  · next fs hfs =>
      rw [recordOr_some hfs] at hv
      dsimp only at hread
      split at hread
      · cases hread
      · next htype =>
          cases hread
          exact ⟨htype, Transport.hostAndHeaders_read (hv.resolve_left nofun)⟩

theorem readTransport_fields {fs : Fields} {type host : String} {headers : List (String × String)}
    (htype : textOf fs "type" = type) (hnamed : type ≠ "")
    (hhost : Transport.hostAndHeaders fs = (host, headers)) (place : String) :
    readTransport (.obj fs) place =
      pure (some ⟨type, textOf fs "path", host, textOf fs "service_name", headers⟩) := by
  have hthere : fs ≠ [] := by
    rintro rfl
    exact hnamed htype.symm
  rw [readTransport, recordOr_fields hthere, pure_bind]
  dsimp only
  rw [htype, if_neg hnamed, hhost]

variable {t : Transport}

/-- The fields of a transport that sing-box has, before those that tell nothing are left out. -/
def transportFields (t : Transport) : Fields :=
  if t.type = "ws" then
    [("type", .str "ws"), ("path", .str t.path), ("headers", t.headersPart)]
  else if t.type = "grpc" then [("type", .str "grpc"), ("service_name", .str t.serviceName)]
  else if t.type = "http" then
    [("type", .str "http"), ("path", .str t.path),
      ("host", .texts (if t.host = "" then [] else [t.host]))]
  else if t.type = "httpupgrade" then
    [("type", .str "httpupgrade"), ("path", .str t.path), ("host", .str t.host)]
  else [("type", .str t.type)]

theorem writeTransport_eq (ht : t.type ∈ transportNames) (place : String) :
    writeTransport t place = pure (some (.obj (compact (transportFields t)))) := by
  have hheaders : ∀ fs, compact fs ++ recordField "headers" t.headerFields =
      compact (fs ++ [("headers", t.headersPart)]) := fun fs => compact_append_record t.headerFields
  simp only [transportNames, List.mem_cons, List.not_mem_nil, or_false] at ht
  unfold writeTransport transportFields
  rw [hheaders]
  rcases ht with h | h | h | h | h <;> rw [h] <;> rfl

theorem writeTransport_value (t : Transport) (place : String) : (writeTransport t place).value =
    if t.type ∈ transportNames then some (.obj (compact (transportFields t))) else none := by
  split
  · next ht => rw [writeTransport_eq ht place, Noted.pure_value]
  · next ht =>
      have hunknown : ¬transportNames.contains t.type = true := by simpa using ht
      simp only [transportNames, List.mem_cons, List.not_mem_nil, or_false, not_or] at ht
      obtain ⟨hws, hgrpc, hhttp, hupgrade, -⟩ := ht
      unfold writeTransport
      rw [if_neg hws, if_neg hgrpc, if_neg hhttp, if_neg hupgrade, if_neg hunknown]
      rfl

theorem transportFields_stable (h : Transport.HeadersRead t.headers) :
    (Value.obj (compact (transportFields t))).Stable := by
  refine Stable.obj ?_
  unfold transportFields
  split
  · refine stable_compact ["type", "path", "headers"] rfl (by decide) ?_
    simp only [List.forall_mem_cons]
    exact ⟨.inr (Value.stable_str _), .inr (Value.stable_str _), Transport.headersPart_stable h,
      nofun⟩
  · split
    · refine stable_compact ["type", "service_name"] rfl (by decide) ?_
      simp [Value.stable_str]
    · split
      · refine stable_compact ["type", "path", "host"] rfl (by decide) ?_
        simp [Value.stable_str, Value.stable_texts]
      · split
        · refine stable_compact ["type", "path", "host"] rfl (by decide) ?_
          simp [Value.stable_str]
        · refine stable_compact ["type"] rfl (by decide) ?_
          simp [Value.stable_str]

/-- A transport that sing-box has is read back with what is kept of it. -/
theorem readTransport_written (h : Transport.HeadersRead t.headers) (ht : t.type ∈ transportNames)
    (place : String) :
    readTransport (.obj (compact (transportFields t))) place = pure (some t.kept) := by
  have hread : ∀ {fs : Fields} {host headers}, (fs.map Prod.fst).Nodup →
      (get fs "type").asText = t.type →
      Transport.hostAndHeaders (compact fs) = (host, headers) →
      readTransport (.obj (compact fs)) place = pure (some ⟨t.type, (get fs "path").asText, host,
        (get fs "service_name").asText, headers⟩) := by
    intro fs host headers hnames htype hhost
    have hnamed : t.type ≠ "" := by
      intro hempty
      rw [hempty] at ht
      exact absurd ht (by decide)
    rw [readTransport_fields ((textOf_compact hnames _).trans htype) hnamed hhost,
      textOf_compact hnames, textOf_compact hnames]
  obtain ⟨type, path, host, service, headers⟩ := t
  simp only [transportNames, List.mem_cons, List.not_mem_nil, or_false] at ht
  rcases ht with rfl | rfl | rfl | rfl | rfl
  · have hnames : ∀ v w x : Value, ([("type", v), ("path", w), ("headers", x)].map Prod.fst).Nodup :=
      fun _ _ _ => (by decide : ["type", "path", "headers"].Nodup)
    refine hread (hnames _ _ _) rfl (Transport.hostAndHeaders_part h ?_ ?_)
    · exact (get_compact (hnames _ _ _) _).trans (Transport.headersPart_told _)
    · exact get_compact (hnames _ _ _) _
  · have hnames : ∀ v w : Value, ([("type", v), ("service_name", w)].map Prod.fst).Nodup :=
      fun _ _ => (by decide : ["type", "service_name"].Nodup)
    refine hread (hnames _ _) rfl (Transport.hostAndHeaders_host ?_ ?_)
    · exact get_compact (hnames _ _) _
    · exact textList_compact (hnames _ _) _
  · have hnames : ∀ v w x : Value, ([("type", v), ("path", w), ("host", x)].map Prod.fst).Nodup :=
      fun _ _ _ => (by decide : ["type", "path", "host"].Nodup)
    refine hread (hnames _ _ _) rfl (Transport.hostAndHeaders_host ?_ ?_)
    · exact get_compact (hnames _ _ _) _
    · exact (textList_compact (hnames _ _ _) _).trans (Value.textList_texts _)
  · have hnames : ∀ v w x : Value, ([("type", v), ("path", w), ("host", x)].map Prod.fst).Nodup :=
      fun _ _ _ => (by decide : ["type", "path", "host"].Nodup)
    refine hread (hnames _ _ _) rfl (Transport.hostAndHeaders_host ?_ ?_)
    · exact get_compact (hnames _ _ _) _
    · exact textList_compact (hnames _ _ _) _
  · rfl

/-- What is not kept of a transport is not written. -/
theorem transportFields_kept (t : Transport) : transportFields t.kept = transportFields t := by
  obtain ⟨type, path, host, service, headers⟩ := t
  unfold Transport.kept
  dsimp only
  split
  · next hws => simp [transportFields, hws, Transport.headersPart, Transport.headerFields]
  · split
    · next hws hgrpc => simp [transportFields, hgrpc, Transport.ofType]
    · split
      · next hws hgrpc hquic => simp [transportFields, hquic, Transport.ofType]
      · next hws hgrpc hquic =>
          change transportFields ⟨type, path, host, "", []⟩ = _
          unfold transportFields
          dsimp only
          rw [if_neg hws, if_neg hgrpc, if_neg hws, if_neg hgrpc]

end SingBox

end ProxyFleet
