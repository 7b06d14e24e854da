import ProxyFleet.Proofs.Inbound.Parts
import ProxyFleet.Xray.Writing

/-!
# The stream of an Xray listener

The settings of a transport stand in a field that is named after its type, next to
those of the security. A transport may be called `tls` or `reality`, and then its
settings are overwritten by those of the security, if there are any (`overwritten`). No
name of a transport makes a field that says which security there is, or which network.

Reality is written into a stream as soon as it is switched on. Plain security is only
written if it is switched on itself (`security_sentTls`).
-/

namespace ProxyFleet

/-- What protects the streams of a listener. -/
inductive Security where
  | none
  | tls
  | reality
  deriving DecidableEq, Repr

/-- The protection that security gives: none if it is switched off, whatever Reality says. -/
def Tls.security (t : Tls) : Security :=
  if t.enabled then (if t.reality.any (·.enabled) then .reality else .tls) else .none

/-- The protection of a listener. -/
def Inbound.security (i : Inbound) : Security := (i.tls.map Tls.security).getD .none

namespace Xray

open Fields

variable {i j : Inbound} {n : String}

/-! ## Names -/

theorem settings_ne_security (type : String) : type ++ "Settings" ≠ "security" := by
  intro h
  have hsuffix : "Settings".toList <:+ "security".toList :=
    ⟨type.toList, by rw [← h, String.toList_append]⟩
  exact absurd hsuffix (by decide)

theorem settings_ne_network (type : String) : type ++ "Settings" ≠ "network" := by
  intro h
  have hsuffix : "Settings".toList <:+ "network".toList :=
    ⟨type.toList, by rw [← h, String.toList_append]⟩
  exact absurd hsuffix (by decide)

theorem settings_inj {type type' : String} :
    type ++ "Settings" = type' ++ "Settings" ↔ type = type' := by
  refine ⟨fun h => ?_, congrArg (· ++ "Settings")⟩
  have hlists := congrArg String.toList h
  rw [String.toList_append, String.toList_append] at hlists
  exact String.toList_inj.1 (List.append_cancel_right hlists)

/-! ## Streams that are written -/

/-- What is written of a transport. -/
def transportSettings (t : Transport) : Option Value :=
  if t.type = "quic" then none else some (writeTransportSettings t)

/-- The fields of a stream before those of its security. -/
def networkFields (type : String) (settings : Option Value) : Fields :=
  putAll [("network", .str type)] (settings.toList.map fun v => (type ++ "Settings", v))

/-- The fields of a stream. -/
def streamFields (type : String) (settings : Option Value) (tls : Option Tls) : Fields :=
  putAll (networkFields type settings) (writeSecurity tls)

/-- The fields of the stream of a listener, if it has one. -/
def stream (i : Inbound) : Option Fields :=
  match i.transport with
  | none => if i.tls.any (·.enabled) then some (streamFields "tcp" none i.tls) else none
  | some t => some (streamFields t.type (transportSettings t) i.tls)

theorem writeStream_eq (i : Inbound) : writeStream i = (stream i).map .obj := by
  unfold writeStream stream
  cases ht : i.transport with
  | none =>
      dsimp only
      split <;> rfl
  | some t =>
      dsimp only
      unfold streamFields networkFields transportSettings
      split
      · rfl
      · exact congrArg (some ∘ Value.obj) (List.foldl_append ..)

theorem filter_eq_none {o : Option Reality} (h : o.any (·.enabled) = false) :
    o.filter (·.enabled) = none := by
  cases o with
  | none => rfl
  | some r => exact Option.filter_some_neg (by simpa using h)

/-- The three forms of security, and when each of them is written. -/
theorem writeSecurity_cases (tls : Option Tls) :
    (writeSecurity tls = [("security", .str "none")] ∧
      ∀ t ∈ tls, t.enabled = false ∧ t.reality.any (·.enabled) = false) ∨
    (∃ t ∈ tls, t.enabled = true ∧ t.reality.any (·.enabled) = false ∧
      writeSecurity tls = [("security", .str "tls"), ("tlsSettings", writeTls t)]) ∨
    (∃ t ∈ tls, ∃ r ∈ t.reality, r.enabled = true ∧
      writeSecurity tls = [("security", .str "reality"), ("realitySettings", writeReality r t)]) := by
  unfold writeSecurity
  cases tls with
  | none => exact .inl ⟨rfl, nofun⟩
  | some t =>
      dsimp only
      split
      · next r hr =>
          obtain ⟨hr, henabled⟩ := Option.filter_eq_some_iff.1 hr
          exact .inr (.inr ⟨t, rfl, r, hr, henabled, rfl⟩)
      · next hr =>
          have hoff : t.reality.any (·.enabled) = false := by
            cases hreality : t.reality with
            | none => rfl
            | some r =>
                rw [hreality] at hr
                simpa [Option.filter] using hr
          split
          · next henabled => exact .inr (.inl ⟨t, rfl, henabled, hoff, rfl⟩)
          · next henabled =>
              refine .inl ⟨rfl, fun w hw => ?_⟩
              cases hw
              exact ⟨by simpa using henabled, hoff⟩

section Fields

variable (type : String) (settings : Option Value) (tls : Option Tls)

theorem streamFields_inOrder : InOrder (streamFields type settings tls) :=
  (InOrder.putAll (List.pairwise_singleton _ _) _).putAll _

theorem streamFields_holds (n : String) :
    Holds (streamFields type settings tls) n (get (streamFields type settings tls) n) :=
  .get_of_nodup (streamFields_inOrder type settings tls).nodup n

theorem textOf_stream (n : String) :
    textOf (Value.rereadFields [] (streamFields type settings tls)) n =
      textOf (streamFields type settings tls) n :=
  (streamFields_holds type settings tls n).textOf_reread

theorem get_stream_record {type : String} {settings : Option Value} {tls : Option Tls} {fs : Fields}
    (h : get (streamFields type settings tls) n = .obj fs) :
    get (Value.rereadFields [] (streamFields type settings tls)) n =
      .obj (Value.rereadFields [] fs) := by
  have hholds := streamFields_holds type settings tls n
  rw [h] at hholds
  rw [hholds.reread (by rintro ⟨⟩), Value.reread]

theorem get_networkFields_network : get (networkFields type settings) "network" = .str type := by
  cases settings with
  | none => rfl
  | some v => exact get_put_of_ne _ _ (settings_ne_network type).symm

/-- Security leaves the network alone. -/
theorem textOf_network : textOf (streamFields type settings tls) "network" = type := by
  have hother : has (writeSecurity tls) "network" = false := by
    obtain ⟨hw, -⟩ | ⟨t, -, -, -, hw⟩ | ⟨t, -, r, -, -, hw⟩ := writeSecurity_cases tls <;>
      rw [hw] <;> rfl
  rw [textOf, streamFields, get_putAll_of_has _ hother, get_networkFields_network]
  rfl

end Fields

/-! ## Security -/

theorem writeSecurity_nodup (tls : Option Tls) : ((writeSecurity tls).map Prod.fst).Nodup := by
  obtain ⟨hw, -⟩ | ⟨t, -, -, -, hw⟩ | ⟨t, -, r, -, -, hw⟩ := writeSecurity_cases tls <;> rw [hw]
  · exact (by decide : ["security"].Nodup)
  · exact (by decide : ["security", "tlsSettings"].Nodup)
  · exact (by decide : ["security", "realitySettings"].Nodup)

/-- What is written for the security of a stream is found in it. -/
theorem get_security {type : String} {settings : Option Value} {tls : Option Tls} {v : Value}
    (h : (n, v) ∈ writeSecurity tls) : get (streamFields type settings tls) n = v :=
  get_putAll_of_mem _ (writeSecurity_nodup tls) h

/-- The files of a certificate, those that are named. -/
def certificateFields (t : Tls) : Fields :=
  compact [("certificateFile", .str t.certificatePath), ("keyFile", .str t.keyPath)]

/-- The settings of plain security, before those that tell nothing are left out. -/
def tlsFields (t : Tls) : Fields :=
  [("serverName", .str t.serverName), ("alpn", .texts t.alpn),
    ("certificates",
      .arr (if (certificateFields t).isEmpty then [] else [.obj (certificateFields t)]))]

/-- The server a Reality listener hands visitors to, as one text. -/
def destination (r : Reality) (t : Tls) : String :=
  match r.handshake with
  | some h => h.server ++ ":" ++ h.serverPort.text
  | none => firstText r.serverName t.serverName ++ ":" ++ defaultPort.text

/-- The settings of Reality, before those that tell nothing are left out. -/
def realityFields (r : Reality) (t : Tls) : Fields :=
  [("show", .bool false), ("dest", .str (destination r t)), ("xver", .int 0),
    ("serverNames", .texts ((firstText r.serverName t.serverName ::
      r.alternateServerNames).filter (· != ""))),
    ("privateKey", .str r.privateKey), ("shortIds", .texts r.shortIds),
    ("fingerprint", .str r.fingerprint), ("publicKey", .str r.publicKey)]

theorem writeTls_eq (t : Tls) : writeTls t = .obj (compact (tlsFields t)) := rfl

theorem writeReality_eq (r : Reality) (t : Tls) :
    writeReality r t = .obj (compact (realityFields r t)) := rfl

theorem realityFields_nodup (r : Reality) (t : Tls) : ((realityFields r t).map Prod.fst).Nodup :=
  (by decide : ["show", "dest", "xver", "serverNames", "privateKey", "shortIds", "fingerprint",
    "publicKey"].Nodup)

/-- Plain security, read from its settings. -/
def readPlain (fs : Fields) : Tls where
  enabled := true
  serverName := textOf fs "serverName"
  alpn := (get fs "alpn").textList
  certificatePath := textOf (firstCertificate fs) "certificateFile"
  keyPath := textOf (firstCertificate fs) "keyFile"
  reality := none

theorem certificateFields_stable (t : Tls) : Fields.Stable (certificateFields t) := by
  refine stable_compact ["certificateFile", "keyFile"] rfl (by decide) ?_
  simp [Value.stable_str]

theorem tlsFields_stable (t : Tls) : Fields.Stable (compact (tlsFields t)) := by
  have hcertificates : (Value.arr (if (certificateFields t).isEmpty then []
      else [.obj (certificateFields t)])).Stable := by
    refine Value.stable_arr fun v hv => ?_
    split at hv
    · cases hv
    · rw [List.mem_singleton.1 hv]
      exact (certificateFields_stable t).obj
  refine stable_compact ["serverName", "alpn", "certificates"] rfl (by decide) ?_
  simp only [tlsFields, List.forall_mem_cons]
  exact ⟨.inr (Value.stable_str _), .inr (Value.stable_texts _), .inr hcertificates, nofun⟩

/-- Plain security comes back as it was. -/
theorem readPlain_written {t : Tls} (henabled : t.enabled = true) (hreality : t.reality = none) :
    readPlain (Value.rereadFields [] (compact (tlsFields t))) = t := by
  have hnames : ((tlsFields t).map Prod.fst).Nodup :=
    (by decide : ["serverName", "alpn", "certificates"].Nodup)
  have hcertificateNames : ([("certificateFile", Value.str t.certificatePath),
      ("keyFile", .str t.keyPath)].map Prod.fst).Nodup :=
    (by decide : ["certificateFile", "keyFile"].Nodup)
  have hname : textOf (compact (tlsFields t)) "serverName" = t.serverName :=
    textOf_compact hnames _
  have halpn : (get (compact (tlsFields t)) "alpn").textList = t.alpn :=
    (textList_compact hnames _).trans (Value.textList_texts t.alpn)
  have hcertificate : firstCertificate (compact (tlsFields t)) = certificateFields t := by
    have hget : get (compact (tlsFields t)) "certificates" = (Value.arr
        (if (certificateFields t).isEmpty then [] else [.obj (certificateFields t)])).told :=
      get_compact hnames _
    unfold firstCertificate
    rw [hget]
    cases certificateFields t <;> rfl
  have hfile : textOf (certificateFields t) "certificateFile" = t.certificatePath :=
    textOf_compact hcertificateNames _
  have hkey : textOf (certificateFields t) "keyFile" = t.keyPath :=
    textOf_compact hcertificateNames _
  rw [(tlsFields_stable t).reread, readPlain, hname, halpn, hcertificate, hfile, hkey, ← henabled,
    ← hreality]

/-- What comes back of security. -/
def sentTls (tls : Option Tls) : Option Tls :=
  tls.bind fun t => match t.reality.filter (·.enabled) with
    | some r => some (readReality (Value.rereadFields [] (compact (realityFields r t))))
    | none =>
      if t.enabled then some (readPlain (Value.rereadFields [] (compact (tlsFields t)))) else none

section Sent

variable {t : Tls} {r : Reality}

theorem sentTls_off {tls : Option Tls}
    (h : ∀ t ∈ tls, t.enabled = false ∧ t.reality.any (·.enabled) = false) :
    sentTls tls = none := by
  cases tls with
  | none => rfl
  | some t =>
      obtain ⟨henabled, hreality⟩ := h t rfl
      rw [sentTls, Option.bind_some, filter_eq_none hreality]
      exact if_neg (by rw [henabled]; decide)

theorem sentTls_plain (henabled : t.enabled = true) (hreality : t.reality.any (·.enabled) = false) :
    sentTls (some t) = some (readPlain (Value.rereadFields [] (compact (tlsFields t)))) := by
  rw [sentTls, Option.bind_some, filter_eq_none hreality]
  exact if_pos henabled

theorem sentTls_reality (hr : r ∈ t.reality) (henabled : r.enabled = true) :
    sentTls (some t) = some (readReality (Value.rereadFields [] (compact (realityFields r t)))) := by
  rw [sentTls, Option.bind_some, Option.mem_def.1 hr, Option.filter_some_pos henabled]

end Sent

theorem readSecurity_written (type : String) (settings : Option Value) (tls : Option Tls)
    (place : String) :
    let stream := Value.rereadFields [] (streamFields type settings tls)
    readSecurity stream (textOf stream "security") place = pure (sentTls tls) := by
  dsimp only
  rw [textOf_stream, textOf]
  obtain ⟨hw, hoff⟩ | ⟨t, rfl, henabled, hreality, hw⟩ | ⟨t, rfl, r, hr, henabled, hw⟩ :=
    writeSecurity_cases tls
  · have htext : get (streamFields type settings tls) "security" = .str "none" :=
      get_security (by rw [hw]; simp)
    rw [htext, sentTls_off hoff]
    rfl
  · have htext : get (streamFields type settings (some t)) "security" = .str "tls" :=
      get_security (by rw [hw]; simp)
    have hsettings : get (streamFields type settings (some t)) "tlsSettings" =
        .obj (compact (tlsFields t)) := get_security (by rw [hw, ← writeTls_eq]; simp)
    rw [htext, sentTls_plain henabled hreality]
    change readSecurity _ "tls" place = _
    unfold readSecurity
    rw [if_neg (by decide), if_pos rfl, get_stream_record hsettings]
    rfl
  · have htext : get (streamFields type settings (some t)) "security" = .str "reality" :=
      get_security (by rw [hw]; simp)
    have hsettings : get (streamFields type settings (some t)) "realitySettings" =
        .obj (compact (realityFields r t)) := get_security (by rw [hw, ← writeReality_eq]; simp)
    rw [htext, sentTls_reality hr henabled]
    change readSecurity _ "reality" place = _
    unfold readSecurity
    rw [if_neg (by decide), if_neg (by decide), if_pos rfl, get_stream_record hsettings]

/-- The protection that comes back. Reality only has to be switched on itself. -/
theorem security_sentTls (tls : Option Tls) : ((sentTls tls).map Tls.security).getD .none =
    if tls.any (·.reality.any (·.enabled)) then .reality
    else (tls.map Tls.security).getD .none := by
  cases tls with
  | none => rfl
  | some t =>
      cases hreality : t.reality.any (·.enabled) with
      | true =>
          -- what is read back is on, even if `t` is not
          obtain ⟨r, hr, henabled⟩ := (Option.any_eq_true ..).1 hreality
          rw [sentTls_reality hr henabled]
          simp [hreality, readReality, Tls.security]
      | false =>
          rw [sentTls, Option.bind_some, filter_eq_none hreality]
          cases henabled : t.enabled <;> simp [henabled, hreality, readPlain, Tls.security]

/-! ## Transports -/

/-- The fields of the settings of a transport, before those that tell nothing are left out. -/
def settingsFields (t : Transport) : Fields :=
  if t.type = "ws" then [("path", .str t.path), ("headers", t.headersPart)]
  else if t.type = "grpc" then [("serviceName", .str t.serviceName)]
  else if t.type = "http" then
    [("path", .str t.path), ("host", .texts (if t.host = "" then [] else [t.host]))]
  else [("path", .str t.path), ("host", .str t.host)]

theorem writeTransportSettings_eq (t : Transport) :
    writeTransportSettings t = .obj (compact (settingsFields t)) := by
  have hheaders : ∀ fs, compact fs ++ recordField "headers" t.headerFields =
      compact (fs ++ [("headers", t.headersPart)]) := fun fs => compact_append_record t.headerFields
  unfold writeTransportSettings settingsFields
  rw [hheaders]
  split
  · rfl
  · split
    · rfl
    · split <;> rfl

theorem settingsFields_stable {t : Transport} (h : Transport.HeadersRead t.headers) :
    Fields.Stable (compact (settingsFields t)) := by
  unfold settingsFields
  split
  · refine stable_compact ["path", "headers"] rfl (by decide) ?_
    simp only [List.forall_mem_cons]
    exact ⟨.inr (Value.stable_str _), Transport.headersPart_stable h, nofun⟩
  · split
    · refine stable_compact ["serviceName"] rfl (by decide) ?_
      simp [Value.stable_str]
    · split
      · refine stable_compact ["path", "host"] rfl (by decide) ?_
        simp [Value.stable_str, Value.stable_texts]
      · refine stable_compact ["path", "host"] rfl (by decide) ?_
        simp [Value.stable_str]

/-- A transport, read from its settings. -/
def transportOf (type : String) (fs : Fields) : Transport where
  type := type
  path := textOf fs "path"
  host := (Transport.hostAndHeaders fs).1
  serviceName := textOf fs "serviceName"
  headers := (Transport.hostAndHeaders fs).2

theorem transportOf_written {t : Transport} (h : Transport.HeadersRead t.headers)
    (hquic : t.type ≠ "quic") :
    transportOf t.type (Value.rereadFields [] (compact (settingsFields t))) = t.kept := by
  have hread : ∀ {fs : Fields} {host headers}, (fs.map Prod.fst).Nodup →
      Transport.hostAndHeaders (compact fs) = (host, headers) → transportOf t.type (compact fs) =
        ⟨t.type, (get fs "path").asText, host, (get fs "serviceName").asText, headers⟩ := by
    intro fs host headers hnames hhost
    rw [transportOf, textOf_compact hnames, textOf_compact hnames, hhost]
  rw [(settingsFields_stable h).reread]
  unfold settingsFields Transport.kept
  rw [if_neg hquic]
  split
  · have hnames : ([("path", Value.str t.path), ("headers", t.headersPart)].map Prod.fst).Nodup :=
      (by decide : ["path", "headers"].Nodup)
    have hheaders := (get_compact hnames "headers").trans (Transport.headersPart_told t)
    exact hread hnames (Transport.hostAndHeaders_part h hheaders (get_compact hnames "host"))
  · split
    · have hnames : ([("serviceName", Value.str t.serviceName)].map Prod.fst).Nodup :=
        (by decide : ["serviceName"].Nodup)
      exact hread hnames (Transport.hostAndHeaders_host (get_compact hnames "headers")
        (textList_compact hnames "host"))
    · split
      · have hnames : ([("path", Value.str t.path),
            ("host", .texts (if t.host = "" then [] else [t.host]))].map Prod.fst).Nodup :=
          (by decide : ["path", "host"].Nodup)
        have hhost := (textList_compact hnames "host").trans (Value.textList_texts _)
        exact hread hnames (Transport.hostAndHeaders_host (get_compact hnames "headers") hhost)
      · have hnames : ([("path", Value.str t.path), ("host", .str t.host)].map Prod.fst).Nodup :=
          (by decide : ["path", "host"].Nodup)
        exact hread hnames (Transport.hostAndHeaders_host (get_compact hnames "headers")
          (textList_compact hnames "host"))

/-- Whether the settings of security stand where those of the transport should. -/
def overwritten (type : String) (tls : Option Tls) : Bool :=
  if tls.any (·.reality.any (·.enabled)) then type == "reality"
  else tls.any (·.enabled) && type == "tls"

/-- What comes back of a transport. -/
def sentTransport (t : Transport) (tls : Option Tls) : Transport :=
  if overwritten t.type tls then Transport.ofType t.type else t.kept

theorem get_networkFields_settings (type : String) (settings : Option Value) :
    get (networkFields type settings) (type ++ "Settings") = .ofOption id settings := by
  cases settings with
  | none =>
      change get [("network", Value.str type)] (type ++ "Settings") = .absent
      rw [get_cons, if_neg (settings_ne_network type), get_nil]
  | some v => exact get_put_self _ _ v

theorem transportOf_absent (type : String) {fs : Fields} (hnames : (fs.map Prod.fst).Nodup)
    (hnone : ∀ n ∈ ["path", "serviceName", "host", "headers"], get fs n = .absent) :
    transportOf type (Value.rereadFields [] (compact fs)) = Transport.ofType type := by
  simp only [List.forall_mem_cons] at hnone
  obtain ⟨hpath, hservice, hhost, hheaders, -⟩ := hnone
  have hget : ∀ n, get fs n = .absent → get (Value.rereadFields [] (compact fs)) n = .absent := by
    intro n hn
    have hholds := (Holds.get_of_nodup hnames n).compact
    rw [hn] at hholds
    exact hholds.get_reread (.inl rfl)
  have hempty : (get (Value.rereadFields [] (compact fs)) "host").textList =
      if "" = "" then [] else [""] := by
    rw [hget _ hhost]
    rfl
  rw [transportOf, textOf_written hnames, textOf_written hnames, hpath, hservice,
    Transport.hostAndHeaders_host (hget _ hheaders) hempty]
  rfl

/-- Settings of security do not look like those of a transport. -/
theorem transportOf_security (type : String) (t : Tls) (r : Reality) :
    transportOf type (Value.rereadFields [] (compact (tlsFields t))) = Transport.ofType type ∧
      transportOf type (Value.rereadFields [] (compact (realityFields r t))) =
        Transport.ofType type := by
  have htls : ((tlsFields t).map Prod.fst).Nodup :=
    (by decide : ["serverName", "alpn", "certificates"].Nodup)
  refine ⟨transportOf_absent type htls ?_, transportOf_absent type (realityFields_nodup r t) ?_⟩ <;>
    simp only [List.forall_mem_cons] <;>
    exact ⟨rfl, rfl, rfl, rfl, nofun⟩

/-- What stands in a stream under the name of the settings of its transport. -/
theorem get_settings (type : String) (settings : Option Value) (tls : Option Tls) :
    (overwritten type tls = false ∧
      get (streamFields type settings tls) (type ++ "Settings") = .ofOption id settings) ∨
    (overwritten type tls = true ∧ ∃ fs,
      get (streamFields type settings tls) (type ++ "Settings") = .obj (compact fs) ∧
        transportOf type (Value.rereadFields [] (compact fs)) = Transport.ofType type) := by
  have hkept : has (writeSecurity tls) (type ++ "Settings") = false →
      get (streamFields type settings tls) (type ++ "Settings") = .ofOption id settings := by
    intro hhas
    rw [streamFields, get_putAll_of_has _ hhas, get_networkFields_settings]
  have hplace : ∀ (v w : Value) (name : String),
      has [("security", v), (name ++ "Settings", w)] (type ++ "Settings") = (name == type) := by
    intro v w name
    rw [has_cons_of_ne (settings_ne_security type)]
    change (name ++ "Settings" == type ++ "Settings" || false) = _
    rw [Bool.or_false, Bool.eq_iff_iff, beq_iff_eq, beq_iff_eq, settings_inj]
  obtain ⟨hw, hoff⟩ | ⟨t, rfl, henabled, hreality, hw⟩ | ⟨t, rfl, r, hr, henabled, hw⟩ :=
    writeSecurity_cases tls
  · refine .inl ⟨?_, hkept (by rw [hw]; exact has_cons_of_ne (settings_ne_security type) _ _)⟩
    cases tls with
    | none => rfl
    | some t =>
        obtain ⟨henabled, hreality⟩ := hoff t rfl
        simp [overwritten, henabled, hreality]
  · have hover : overwritten type (some t) = ("tls" == type) := by
      simp [overwritten, henabled, hreality, BEq.comm (a := "tls")]
    -- a transport called `tls` finds the settings of security in place of its own
    by_cases htype : "tls" = type
    · refine .inr ⟨by simp [hover, htype], _, ?_, (transportOf_security type t Reality.off).1⟩
      exact get_security (by rw [hw, ← htype, ← writeTls_eq]; simp)
    · refine .inl ⟨by simp [hover, htype], hkept ?_⟩
      rw [hw]
      exact (hplace _ _ "tls").trans (beq_eq_false_iff_ne.2 htype)
  · have hover : overwritten type (some t) = ("reality" == type) := by
      have hon : t.reality.any (·.enabled) = true := by
        rw [Option.mem_def.1 hr]
        exact henabled
      simp [overwritten, hon, BEq.comm (a := "reality")]
    by_cases htype : "reality" = type
    · refine .inr ⟨by simp [hover, htype], _, ?_, (transportOf_security type t r).2⟩
      exact get_security (by rw [hw, ← htype, ← writeReality_eq]; simp)
    · refine .inl ⟨by simp [hover, htype], hkept ?_⟩
      rw [hw]
      exact (hplace _ _ "reality").trans (beq_eq_false_iff_ne.2 htype)

theorem readTransport_absent {type : String} {fs : Fields}
    (hnetwork : type ∉ ["", "tcp", "raw", "h2"]) (h : get fs (type ++ "Settings") = .absent)
    (place : String) : readTransport fs type place = pure (some (Transport.ofType type)) := by
  simp only [List.mem_cons, List.not_mem_nil, or_false, not_or] at hnetwork
  obtain ⟨hempty, htcp, hraw, hh2⟩ := hnetwork
  unfold readTransport
  rw [if_neg (by simp [hempty, htcp, hraw]), if_neg hh2]
  dsimp only
  rw [h]

theorem readTransport_settings {type : String} {fs settings : Fields}
    (hnetwork : type ∉ ["", "tcp", "raw", "h2"]) (h : get fs (type ++ "Settings") = .obj settings)
    (place : String) : readTransport fs type place = pure (some (transportOf type settings)) := by
  simp only [List.mem_cons, List.not_mem_nil, or_false, not_or] at hnetwork
  obtain ⟨hempty, htcp, hraw, hh2⟩ := hnetwork
  unfold readTransport
  rw [if_neg (by simp [hempty, htcp, hraw]), if_neg hh2]
  dsimp only
  rw [h]
  rfl

/-- A transport is read from a stream as it was written into it. -/
theorem readTransport_written {t : Transport} (h : Transport.HeadersRead t.headers)
    (htype : t.type ∉ ["", "tcp", "raw", "h2"]) (tls : Option Tls) (place : String) :
    let stream := Value.rereadFields [] (streamFields t.type (transportSettings t) tls)
    readTransport stream (textOf stream "network") place = pure (some (sentTransport t tls)) := by
  dsimp only
  rw [textOf_stream, textOf_network, sentTransport]
  obtain ⟨hover, hget⟩ | ⟨hover, fs, hget, hfs⟩ := get_settings t.type (transportSettings t) tls
  · rw [hover, if_neg Bool.false_ne_true]
    by_cases hquic : t.type = "quic"
    · have habsent : Value.ofOption id (transportSettings t) = .absent := by
        rw [transportSettings, if_pos hquic]
        rfl
      have hholds := streamFields_holds t.type (transportSettings t) tls (t.type ++ "Settings")
      rw [hget, habsent] at hholds
      rw [readTransport_absent htype (hholds.get_reread (.inl rfl)), Transport.kept, hquic]
      rfl
    · have hsettings : Value.ofOption id (transportSettings t) =
          .obj (compact (settingsFields t)) := by
        rw [transportSettings, if_neg hquic]
        exact writeTransportSettings_eq t
      rw [readTransport_settings htype (get_stream_record (hget.trans hsettings)), transportOf_written h hquic]
  · rw [hover, if_pos rfl, readTransport_settings htype (get_stream_record hget), hfs]

/-- A stream of plain TCP has no transport. -/
theorem readTransport_tcp (tls : Option Tls) (place : String) :
    let stream := Value.rereadFields [] (streamFields "tcp" none tls)
    readTransport stream (textOf stream "network") place = pure none := by
  dsimp only
  rw [textOf_stream, textOf_network]
  rfl

end Xray

end ProxyFleet
