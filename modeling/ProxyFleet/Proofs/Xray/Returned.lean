import ProxyFleet.Proofs.Number.Whole
import ProxyFleet.Proofs.Xray.Clients
import ProxyFleet.Proofs.Xray.Destinations

/-!
# Xray listeners that are written a second time

What comes back of an Xray listener that was read (`returned`) is in almost all of its parts
written in the words that the listener itself was written in: names are filtered once, networks
and flows are named once, settings that security overwrites are overwritten again.

Two parts may differ. A shadowsocks client that is alone gives its e-mail to the listener, and
without a password beside it nobody is read from it. And the server that Reality hands visitors
to is written without brackets, so that brackets within brackets are lost one by one; its port is
written with an exponent from `10 ^ 21` on, of which the digits in front are read. A listener has
neither of the two (`Repeats`) exactly if it is written in the same words again
(`written_returned_iff`).
-/

namespace ProxyFleet

open Fields

/-! ## Destinations -/

/-- A server and a port that their text is taken apart into again. -/
structure Handshake.Plain (h : Handshake) : Prop where
  server : Xray.dropBrackets h.server.toList = h.server.toList
  port : ∀ p ∈ h.serverPort.toInt?, p.natAbs < Number.positionalLimit

namespace Number

theorem Counted.chars_inj {m n : Number} (hm : m.Counted ∧ m.isFinite = true)
    (hn : n.Counted ∧ n.isFinite = true) (h : m.chars = n.chars) : m = n := by
  have hread := ofLexeme?_text hm.1.isDouble hm.2
  rw [h, ofLexeme?_text hn.1.isDouble hn.2] at hread
  exact (Option.some.inj hread).symm

/-- The text of a finite number has no colon in it and does not begin with a blank. -/
theorem chars_plain {n : Number} (h : n.isFinite = true) :
    ':' ∉ n.chars ∧ n.chars.dropWhile isBlank = n.chars := by
  obtain ⟨cs, hcs, hchars⟩ := chars_numeral h
  obtain ⟨c, rest, hhead, hdigit⟩ := hcs.head
  have hcolon : ':' ∉ cs := fun hmem => absurd (hcs.continues _ hmem) (by decide)
  have hblank : isBlank c = false := by
    simp only [Char.isDigit, Bool.and_eq_true, decide_eq_true_eq, ge_iff_le,
      UInt32.le_iff_toNat_le] at hdigit
    obtain ⟨hlow, hhigh⟩ : 48 ≤ c.toNat ∧ c.toNat ≤ 57 := hdigit
    refine Bool.eq_false_iff.2 fun hblank => ?_
    have hrange := blank_ranges hblank
    omega
  rcases hchars with hchars | hchars <;> rw [hchars]
  · refine ⟨hcolon, ?_⟩
    rw [hhead, List.dropWhile_cons_of_neg (by simp [hblank])]
  · exact ⟨by simpa using hcolon, List.dropWhile_cons_of_neg (by decide)⟩

end Number

namespace Xray

/-- The text of a server and a port. -/
def destinationText (h : Handshake) : String := h.server ++ ":" ++ h.serverPort.text

theorem splitDestination_text {h : Handshake} (hport : h.serverPort.isFinite = true) :
    splitDestination (destinationText h) = ⟨String.ofList (dropBrackets h.server.toList),
      (Number.ofLeadingDigits? h.serverPort.chars).getD defaultPort⟩ := by
  obtain ⟨hcolon, hblank⟩ := Number.chars_plain hport
  have htext : (destinationText h).toList = h.server.toList ++ ':' :: h.serverPort.chars := by
    rw [destinationText, String.toList_append, String.toList_append, Number.text,
      String.toList_ofList]
    simp
  unfold splitDestination
  rw [htext, splitLast?_append hcolon]
  dsimp only
  rw [hblank]

theorem counted_ofDecimal (negative : Bool) (digits : Nat) :
    (Number.ofDecimal negative digits 0).Counted :=
  ⟨Number.isDouble_ofDecimal _ _ _, Number.isWhole_ofDecimal _ _⟩

theorem counted_defaultPort : defaultPort.Counted := by
  have hdigits : defaultPort = Number.ofDecimal false 443 0 := by decide +kernel
  rw [hdigits]
  exact counted_ofDecimal false 443

theorem isFinite_defaultPort : defaultPort.isFinite = true := by decide +kernel

/-- A port that is read from a text is a whole number, if it is not out of range. -/
theorem counted_ofLeadingDigits? (cs : List Char) :
    ((Number.ofLeadingDigits? cs).getD defaultPort).Counted := by
  unfold Number.ofLeadingDigits?
  dsimp only
  split
  · exact counted_defaultPort
  · exact counted_ofDecimal _ _

theorem counted_splitDestination (dest : String) : (splitDestination dest).serverPort.Counted := by
  unfold splitDestination
  split
  · split
    · exact counted_ofDecimal _ _
    · exact counted_defaultPort
  · exact counted_ofLeadingDigits? _

variable {h : Handshake}

/-- What is taken apart is put together again in the same words if there are no brackets to drop
and no exponent to lose. -/
theorem destinationText_again_iff (hcounted : h.serverPort.Counted)
    (hport : h.serverPort.isFinite = true) :
    destinationText (splitDestination (destinationText h)) = destinationText h ↔ h.Plain := by
  obtain ⟨p, hp⟩ := Option.isSome_iff_exists.1 (hcounted.isWhole hport)
  obtain ⟨m, hm⟩ : ∃ m, Number.ofLeadingDigits? h.serverPort.chars = some m := by
    cases hn : h.serverPort with
    | finite u => exact ⟨_, Number.ofLeadingDigits?_chars u⟩
    | _ =>
        rw [hn] at hport
        cases hport
  have hdigits := Number.ofLeadingDigits?_chars_iff hcounted.isDouble hp
  have hmfinite := Number.isFinite_leading hport hm
  have hmcounted : m.Counted := by
    have := counted_ofLeadingDigits? h.serverPort.chars
    rwa [hm] at this
  have hplain : h.Plain ↔ dropBrackets h.server.toList = h.server.toList ∧ m = h.serverPort := by
    rw [hm, Option.some_inj] at hdigits
    rw [hdigits]
    refine ⟨fun ⟨hserver, hsmall⟩ => ⟨hserver, hsmall p hp⟩, fun ⟨hserver, hsmall⟩ => ⟨hserver, ?_⟩⟩
    rintro q hq
    obtain rfl := Option.some.inj (hp.symm.trans hq)
    exact hsmall
  rw [splitDestination_text hport, hm, Option.getD_some, hplain]
  constructor
  · intro htext
    have hlist := congrArg (splitLast? ':' ∘ String.toList) htext
    simp only [Function.comp_apply, destinationText, String.toList_append, Number.text,
      String.toList_ofList, List.append_assoc] at hlist
    have hcolon : ":".toList = [':'] := rfl
    rw [hcolon, List.singleton_append, List.singleton_append,
      splitLast?_append (Number.chars_plain hmfinite).1,
      splitLast?_append (Number.chars_plain hport).1] at hlist
    obtain ⟨hserver, hchars⟩ := Prod.mk.inj (Option.some.inj hlist)
    exact ⟨hserver, Number.Counted.chars_inj ⟨hmcounted, hmfinite⟩ ⟨hcounted, hport⟩ hchars⟩
  · rintro ⟨hserver, rfl⟩
    rw [hserver, String.ofList_toList]

/-! ## Security -/

/-- Security as it is read: plain and switched on, or Reality. -/
structure SecurityRead (t : Tls) : Prop where
  enabled : t.enabled = true
  reality : ∀ r ∈ t.reality, r.enabled = true ∧ ∀ h ∈ r.handshake, h.serverPort.Counted

/-- The server that Reality hands visitors to. Without any, it is the server named first. -/
def visited (r : Reality) (t : Tls) : Handshake :=
  r.handshake.getD ⟨firstText r.serverName t.serverName, defaultPort⟩

variable {r : Reality} {t : Tls}

theorem destination_eq (r : Reality) (t : Tls) : destination r t = destinationText (visited r t) := by
  unfold destination visited
  cases r.handshake <;> rfl

theorem destinationText_ne (h : Handshake) : destinationText h ≠ "" := fun hempty => by
  simpa [destinationText] using congrArg String.toList hempty

/-- The settings of Reality with another server to hand visitors to. -/
def realityTo (dest : String) (r : Reality) (t : Tls) : Fields :=
  [("show", .bool false), ("dest", .str dest), ("xver", .int 0),
    ("serverNames", .texts ((firstText r.serverName t.serverName ::
      r.alternateServerNames).filter (· != ""))),
    ("privateKey", .str r.privateKey), ("shortIds", .texts r.shortIds),
    ("fingerprint", .str r.fingerprint), ("publicKey", .str r.publicKey)]

theorem writeSecurity_reality (hr : r ∈ t.reality) (henabled : r.enabled = true) :
    writeSecurity (some t) = [("security", .str "reality"),
      ("realitySettings", .obj (compact (realityFields r t)))] := by
  unfold writeSecurity
  dsimp only
  rw [Option.mem_def.1 hr, Option.filter_some_pos henabled, ← writeReality_eq]

/-- The names that are left after the empty ones went are all there is to write again. -/
theorem names_again (names : List String) (h : ∀ n ∈ names, n ≠ "") :
    (firstText (names.head?.getD "") (names.head?.getD "") :: names.drop 1).filter (· != "") =
      names := by
  cases names with
  | nil => rfl
  | cons n names =>
      have hfirst : firstText n n = n := ite_self n
      change (firstText n n :: names).filter (· != "") = _
      rw [hfirst]
      exact List.filter_eq_self.2 fun m hm => bne_iff_ne.2 (h m hm)

/-- Reality that comes back is written as it was, up to the server that visitors are handed to. -/
theorem realityFields_again (r : Reality) (t : Tls) :
    let back := readReality (Value.rereadFields [] (compact (realityFields r t)))
    ∃ r', back.reality = some r' ∧ r'.enabled = true ∧
      realityFields r' back = realityTo (destinationText (splitDestination (destination r t))) r t := by
  have htext := textOf_written (realityFields_nodup r t)
  have hne : destination r t ≠ "" := by
    rw [destination_eq]
    exact destinationText_ne _
  have hdest : destinationOf (Value.rereadFields [] (compact (realityFields r t))) =
      destination r t := by
    have hread := htext "dest"
    change _ = destination r t at hread
    rw [destinationOf, hread]
    exact if_neg hne
  have hids : (get (Value.rereadFields [] (compact (realityFields r t))) "shortIds").textList =
      r.shortIds :=
    (Holds.get_of_nodup (realityFields_nodup r t) "shortIds").compact.textList_reread
  have hnames : (get (Value.rereadFields [] (compact (realityFields r t))) "serverNames").textList =
      (firstText r.serverName t.serverName :: r.alternateServerNames).filter (· != "") :=
    (Holds.get_of_nodup (realityFields_nodup r t) "serverNames").compact.textList_reread
  refine ⟨_, rfl, rfl, ?_⟩
  have hagain := names_again
    ((firstText r.serverName t.serverName :: r.alternateServerNames).filter (· != ""))
    fun n hn => bne_iff_ne.1 (List.mem_filter.1 hn).2
  have hkey : (get (realityFields r t) "privateKey").asText = r.privateKey := rfl
  have hfingerprint : (get (realityFields r t) "fingerprint").asText = r.fingerprint := rfl
  have hpublic : (get (realityFields r t) "publicKey").asText = r.publicKey := rfl
  rw [← htext] at hkey hfingerprint hpublic
  generalize Value.rereadFields [] (compact (realityFields r t)) = fs
    at hdest hids hnames hkey hfingerprint hpublic ⊢
  rw [realityFields, destination_eq]
  unfold readReality realityTo visited
  dsimp only
  rw [hdest, hids, hnames, hagain, hkey, hfingerprint, hpublic, if_neg hne]
  rfl

/-- What comes back of security is switched on as it was. -/
theorem sentTls_on {tls : Option Tls} (h : ∀ t ∈ tls, SecurityRead t) :
    (sentTls tls).any (·.enabled) = tls.any (·.enabled) ∧
      (sentTls tls).any (·.reality.any (·.enabled)) = tls.any (·.reality.any (·.enabled)) := by
  cases tls with
  | none => exact ⟨rfl, rfl⟩
  | some t =>
      obtain ⟨henabled, hreality⟩ := h t rfl
      cases hr : t.reality with
      | none =>
          rw [sentTls_plain henabled (by rw [hr]; rfl), readPlain_written henabled hr]
          exact ⟨rfl, rfl⟩
      | some r =>
          obtain ⟨hon, -⟩ := hreality r hr
          rw [sentTls_reality hr hon]
          simp [readReality, henabled, hr, hon]

/-- What comes back of security is written as it was if the server of Reality is. -/
theorem writeSecurity_again {tls : Option Tls} (h : ∀ t ∈ tls, SecurityRead t)
    (hplain : ∀ t ∈ tls, ∀ r ∈ t.reality,
      destinationText (splitDestination (destination r t)) = destination r t) :
    writeSecurity (sentTls tls) = writeSecurity tls := by
  cases tls with
  | none => rfl
  | some t =>
      obtain ⟨henabled, hreality⟩ := h t rfl
      cases hr : t.reality with
      | none => rw [sentTls_plain henabled (by rw [hr]; rfl), readPlain_written henabled hr]
      | some r =>
          obtain ⟨hon, -⟩ := hreality r hr
          obtain ⟨r', hr', hon', hfields⟩ := realityFields_again r t
          rw [sentTls_reality hr hon, writeSecurity_reality hr' hon', writeSecurity_reality hr hon,
            hfields, hplain t rfl r hr]
          rfl

/-! ## Streams -/

/-- What is not kept of a transport is not written. -/
theorem transportSettings_kept (t : Transport) :
    transportSettings t.kept = transportSettings t := by
  obtain ⟨type, path, host, service, headers⟩ := t
  unfold transportSettings
  rw [writeTransportSettings_eq, writeTransportSettings_eq, Transport.kept_type]
  unfold Transport.kept
  dsimp only
  split
  · rfl
  · next hquic =>
      split
      · next hws => simp [settingsFields, hws, Transport.headersPart, Transport.headerFields]
      · next hws =>
          split
          · next hgrpc => simp [settingsFields, hgrpc, Transport.ofType]
          · next hgrpc => simp [settingsFields, hws, hgrpc, Transport.ofType]

theorem putAll_overwritten (name : String) (hindex : indexName? name = none)
    (hnetwork : name ≠ "network") (hsecurity : name ≠ "security") (network security v w : Value) :
    putAll (putAll [("network", network)] [(name, v)]) [("security", security), (name, w)] =
      [("network", network), (name, w), ("security", security)] := by
  have hindex' : indexName? "security" = none := by decide
  simp [putAll, put, has, overwrite, hindex, hindex', hsecurity, hnetwork.symm, hsecurity.symm]

/-- Settings that those of security overwrite make no difference. -/
theorem streamFields_overwritten {type : String} {tls : Option Tls}
    (h : overwritten type tls = true) (v w : Value) :
    streamFields type (some v) tls = streamFields type (some w) tls := by
  unfold overwritten at h
  obtain ⟨hw, hoff⟩ | ⟨t, rfl, henabled, hreality, hw⟩ | ⟨t, rfl, r, hr, henabled, hw⟩ :=
    writeSecurity_cases tls
  · cases tls with
    | none => simp at h
    | some t => simp [hoff t rfl] at h
  · obtain rfl : type = "tls" := by simpa [hreality, henabled] using h
    have hput := putAll_overwritten "tlsSettings" (by decide) (by decide) (by decide)
    rw [streamFields, streamFields, hw]
    exact (hput _ _ _ _).trans (hput _ _ _ _).symm
  · have hon : (some t).any (·.reality.any (·.enabled)) = true := by
      rw [Option.any_some, Option.mem_def.1 hr]
      exact henabled
    obtain rfl : type = "reality" := by simpa [hon] using h
    have hput := putAll_overwritten "realitySettings" (by decide) (by decide) (by decide)
    rw [streamFields, streamFields, hw]
    exact (hput _ _ _ _).trans (hput _ _ _ _).symm

theorem transport_again (t : Transport) (tls : Option Tls) :
    streamFields t.type (transportSettings (sentTransport t tls)) tls =
      streamFields t.type (transportSettings t) tls := by
  unfold sentTransport
  split
  · next hover =>
      have hquic : t.type ≠ "quic" := by
        intro hquic
        rw [overwritten, hquic] at hover
        split at hover <;> simp at hover
      unfold transportSettings
      rw [if_neg hquic, if_neg (by exact hquic)]
      exact streamFields_overwritten hover _ _
  · rw [transportSettings_kept]

/-! ## Listeners -/

/-- A listener as it is read, in all of its parts. A shadowsocks listener with a password has
clients, since the password is read as one if there are no others. -/
structure IsParsed (i : Inbound) : Prop extends IsRead i where
  port : i.listenPort.Counted
  security : ∀ t ∈ i.tls, SecurityRead t
  password : i.type = "shadowsocks" → i.users = [] → textOf i.options "password" = ""

/-- A listener without the two parts that are not written as they were. -/
structure Repeats (i : Inbound) : Prop where
  client : i.type = "shadowsocks" → textOf i.options "password" = "" →
    ∀ u, i.users = [u] → u.password = "" → u.email = ""
  server : ∀ t ∈ i.tls, ∀ r ∈ t.reality, (visited r t).Plain

variable {i : Inbound}

instance (h : Handshake) : Decidable h.Plain :=
  decidable_of_iff (dropBrackets h.server.toList = h.server.toList ∧
      ∀ p ∈ h.serverPort.toInt?, p.natAbs < Number.positionalLimit)
    ⟨fun ⟨server, port⟩ => ⟨server, port⟩, fun h => ⟨h.server, h.port⟩⟩

instance (i : Inbound) : Decidable (Repeats i) :=
  decidable_of_iff ((i.type = "shadowsocks" → textOf i.options "password" = "" →
      ∀ u ∈ i.users, i.users = [u] → u.password = "" → u.email = "") ∧
      ∀ t ∈ i.tls, ∀ r ∈ t.reality, (visited r t).Plain)
    ⟨fun ⟨client, server⟩ => ⟨fun htype hnone u hu => client htype hnone u (by simp [hu]) hu, server⟩,
      fun h => ⟨fun htype hnone u _ hu => h.client htype hnone u hu, h.server⟩⟩

theorem tlsBack_parsed (h : IsParsed i) : tlsBack i = sentTls i.tls := by
  unfold tlsBack
  split
  · rfl
  · next hoff =>
      cases htls : i.tls with
      | none => rfl
      | some t =>
          rw [htls, Option.any_some, (h.security t htls).enabled] at hoff
          simp at hoff

theorem stream_again (h : IsParsed i) (hplain : ∀ t ∈ i.tls, ∀ r ∈ t.reality,
    destinationText (splitDestination (destination r t)) = destination r t) :
    stream (returned i) = stream i := by
  have hsecurity := writeSecurity_again h.security hplain
  have htls : (returned i).tls = sentTls i.tls := tlsBack_parsed h
  have htransport : (returned i).transport = i.transport.map (sentTransport · i.tls) := rfl
  have hstream : ∀ type settings, streamFields type settings (sentTls i.tls) =
      streamFields type settings i.tls := by
    intro type settings
    rw [streamFields, hsecurity]
    rfl
  unfold stream
  rw [htls, htransport]
  cases ht : i.transport with
  | none =>
      dsimp only [Option.map_none]
      rw [(sentTls_on h.security).1, hstream]
  | some t =>
      have htype : (sentTransport t i.tls).type = t.type := by
        unfold sentTransport
        split
        · rfl
        · exact Transport.kept_type t
      dsimp only [Option.map_some]
      rw [hstream, htype, transport_again]

/-- What comes back of a client is written as it was. -/
theorem clientFields_again (type : String) (realityOn : Bool) (u : User) :
    clientFields type realityOn (sentClient type realityOn u) = clientFields type realityOn u := by
  rw [sentClient_eq]
  unfold clientFields readClient
  by_cases hvless : type = "vless"
  · have hflow : firstText (firstText u.flow visionFlow) visionFlow =
        firstText u.flow visionFlow := firstText_again _ _
    cases realityOn <;> simp [hvless, textOf, get_cons, Value.asText, hflow]
  · by_cases hvmess : type = "vmess"
    · simp [hvmess, textOf, get_cons, Value.asText]
    · by_cases htrojan : type = "trojan"
      · simp [htrojan, textOf, get_cons, Value.asText]
      · simp [hvless, hvmess, htrojan, textOf, get_cons, Value.asText]

theorem realityOn_returned (h : IsParsed i) : (returned i).realityOn = i.realityOn := by
  have htls : (returned i).tls = sentTls i.tls := tlsBack_parsed h
  unfold Inbound.realityOn
  rw [htls]
  exact (sentTls_on h.security).2

theorem underMethod_listed (method : String) (us : List User) :
    (us.map (User.underMethod method)).map listedClient = us.map listedClient := by
  rw [List.map_map]
  rfl

section Shadowsocks

variable (htype : i.type = "shadowsocks")

include htype

theorem users_returned : (returned i).users =
    (i.admitted alone).map (User.underMethod i.shadowsocksMethod) := if_pos htype

theorem method_returned : (returned i).shadowsocksMethod = i.shadowsocksMethod := by
  have hoptions : (returned i).options = shadowsocksOptionsBack i := if_pos htype
  unfold Inbound.shadowsocksMethod
  rw [hoptions]
  exact if_neg i.shadowsocksMethod_ne

theorem network_returned : networkOf (returned i) = networkOf i := by
  have hoptions : (returned i).options = shadowsocksOptionsBack i := if_pos htype
  unfold networkOf
  rw [hoptions]
  exact if_neg (networkOf_ne i)

/-- A client that was alone comes back if it has a password. -/
theorem users_returned_alone (hnone : textOf i.options "password" = "") {u : User}
    (hu : i.users = [u]) :
    (returned i).users = (alone u).map (User.underMethod i.shadowsocksMethod) := by
  rw [users_returned htype, Inbound.admitted, if_pos hnone, hu]

theorem password_returned (h : IsParsed i) :
    textOf (returned i).options "password" = textOf i.options "password" := by
  have hoptions : (returned i).options = shadowsocksOptionsBack i := if_pos htype
  rw [hoptions]
  unfold shadowsocksOptionsBack
  split
  · next hnone => exact (h.password htype hnone).symm
  · generalize textOf i.options "password" = password
    by_cases hempty : password = ""
    · rw [hempty]
      rfl
    · have htells : compact [("password", Value.str password)] = [("password", .str password)] :=
        List.filter_cons_of_pos (by simpa using hempty)
      rw [htells]
      rfl

/-- Clients that are listed come back one by one. -/
theorem users_returned_listed (h : IsParsed i)
    (hform : textOf i.options "password" ≠ "" ∨ ∀ u, i.users ≠ [u]) :
    (returned i).users = i.users.map (User.underMethod i.shadowsocksMethod) := by
  have hadmitted : i.admitted alone = i.users := by
    unfold Inbound.admitted
    dsimp only
    by_cases hempty : textOf i.options "password" = ""
    · rw [if_pos hempty]
      split
      · next u hu => exact absurd hu (hform.resolve_left (not_not_intro hempty) u)
      · rfl
    · rw [if_neg hempty, if_neg fun hnobody => hempty (h.password htype hnobody)]
  rw [users_returned htype, hadmitted]

/-- What comes back of the settings of shadowsocks. The clients are written as they were, unless one
was alone and is lost. -/
theorem shadowsocksSettings_again (h : IsParsed i)
    (hclient : textOf i.options "password" = "" →
      ∀ u, i.users = [u] → u.password = "" → u.email = "") :
    shadowsocksSettings (returned i) = shadowsocksSettings i := by
  have hmethod := method_returned htype
  have hnetwork := network_returned htype
  have hpassword := password_returned htype h
  obtain ⟨hform, hwritten⟩ | ⟨hnone, u, hu, hwritten⟩ := shadowsocksSettings_cases i
  · -- the clients are listed, and all of them come back
    have husers := users_returned_listed htype h hform
    have hform' : textOf (returned i).options "password" ≠ "" ∨ ∀ u, (returned i).users ≠ [u] := by
      rw [hpassword, husers]
      refine hform.imp_right fun hmany u hmap => ?_
      obtain ⟨v, hv, -⟩ := List.map_eq_singleton_iff.1 hmap
      exact hmany v hv
    obtain ⟨-, hwritten'⟩ | ⟨hnone, u, hu, -⟩ := shadowsocksSettings_cases (returned i)
    · rw [hwritten', hwritten, hmethod, hpassword, hnetwork, husers, underMethod_listed]
    · exact (hform'.elim (· hnone) (· u hu)).elim
  · have husers := users_returned_alone htype hnone hu
    rw [hnone] at hpassword
    by_cases hempty : u.password = ""
    · -- the client is lost, and its e-mail would be
      rw [alone, if_pos hempty, List.map_nil] at husers
      obtain ⟨-, hwritten'⟩ | ⟨-, v, hv, -⟩ := shadowsocksSettings_cases (returned i)
      · rw [hwritten', hwritten, hmethod, hpassword, hnetwork, husers, hempty,
          hclient hnone u hu hempty]
        rfl
      · rw [husers] at hv
        cases hv
    · rw [alone, if_neg hempty] at husers
      obtain ⟨hform, -⟩ | ⟨-, v, hv, hwritten'⟩ := shadowsocksSettings_cases (returned i)
      · exact (hform.elim (· hpassword) (· _ husers)).elim
      · obtain rfl : u.underMethod i.shadowsocksMethod = v := (List.cons.inj (husers.symm.trans hv)).1
        rw [hwritten', hwritten, hmethod, hnetwork]
        rfl

end Shadowsocks

theorem settings_again (h : IsParsed i)
    (hclient : i.type = "shadowsocks" → textOf i.options "password" = "" →
      ∀ u, i.users = [u] → u.password = "" → u.email = "") :
    writeSettings (returned i) = writeSettings i := by
  have htype : (returned i).type = i.type := rfl
  have hon := realityOn_returned h
  by_cases hshadowsocks : i.type = "shadowsocks"
  · have hwritten := shadowsocksSettings_again hshadowsocks h (hclient hshadowsocks)
    unfold writeSettings
    dsimp only
    rw [htype, hshadowsocks]
    exact hwritten
  · have husers : (returned i).users =
        if i.type = "socks" ∨ i.type = "http" then i.users.map sentAccount
        else i.users.map (sentClient i.type i.realityOn) := if_neg hshadowsocks
    by_cases haccounts : i.type = "socks" ∨ i.type = "http"
    · rw [if_pos haccounts] at husers
      unfold writeSettings
      dsimp only
      rw [htype, husers]
      rcases haccounts with htype | htype <;> rw [htype] <;> simp [sentAccount, Function.comp_def]
    · rw [if_neg haccounts] at husers
      have hclients : (returned i).users.map (fun u =>
          Value.obj (compact (clientFields i.type i.realityOn u))) =
          i.users.map fun u => .obj (compact (clientFields i.type i.realityOn u)) := by
        rw [husers, List.map_map]
        refine List.map_congr_left fun u _ => ?_
        rw [Function.comp_apply, clientFields_again]
      have hlisted : ¬(decide (i.type = "socks") || decide (i.type = "http")) = true := by
        simpa using haccounts
      unfold writeSettings
      dsimp only
      rw [htype, hon, hclients]
      simp only [hlisted, hshadowsocks, Bool.false_eq_true, if_false]

/-! ## The whole listener -/

/-- The server of Reality is read from the text it is written as. -/
theorem visited_again (h : IsParsed i) (hfinite : ∀ n ∈ i.numbers, n.isFinite = true) {t : Tls}
    (ht : t ∈ i.tls) {r : Reality} (hr : r ∈ t.reality) :
    destinationText (splitDestination (destination r t)) = destination r t ↔
      (visited r t).Plain := by
  rw [destination_eq]
  have hport : (visited r t).serverPort.Counted ∧ (visited r t).serverPort.isFinite = true := by
    unfold visited
    cases hs : r.handshake with
    | none => exact ⟨counted_defaultPort, isFinite_defaultPort⟩
    | some s =>
        refine ⟨((h.security t ht).reality r hr).2 s hs, hfinite _ (List.mem_cons_of_mem _
          (List.mem_append_left _ (List.mem_map_of_mem ?_)))⟩
        rw [Option.mem_toList, Option.mem_def.1 ht, Option.bind_some, Option.mem_def.1 hr,
          Option.bind_some, hs]
        rfl
  exact destinationText_again_iff hport.1 hport.2

/-- A listener that repeats is written in the same words when it comes back. -/
theorem written_returned (h : IsParsed i) (hfinite : ∀ n ∈ i.numbers, n.isFinite = true)
    (hrepeats : Repeats i) : written (returned i) = written i := by
  have hport : (Value.num i.listenPort).reread.asInt = i.listenPort := by
    have hport := hfinite _ List.mem_cons_self
    rw [(h.port.stable hport).same, h.port.asInt hport]
  have hstream := stream_again h fun t ht r hr =>
    (visited_again h hfinite ht hr).2 (hrepeats.server t ht r hr)
  unfold written
  rw [settings_again h hrepeats.client, hstream]
  change [_, _, ("listen", Value.str (firstText (firstText i.listen "0.0.0.0") "0.0.0.0")),
    ("port", .num (Value.num i.listenPort).reread.asInt), _] ++ _ = _
  rw [firstText_again, hport]
  rfl

/-! ## Nothing else repeats -/

theorem stream_secured (h : i.tls.any (·.enabled) = true) :
    ∃ type settings, stream i = some (streamFields type settings i.tls) := by
  unfold stream
  cases i.transport with
  | none => exact ⟨"tcp", none, if_pos h⟩
  | some t => exact ⟨_, _, rfl⟩

/-- The server of Reality is found in what was written of a listener. -/
theorem destination_reread {t : Tls} (ht : t ∈ i.tls) (henabled : t.enabled = true) {r : Reality}
    (hr : r ∈ t.reality) (hon : r.enabled = true) : ∃ fs settings,
      get (Value.rereadFields [] (written i)) "streamSettings" = .obj fs ∧
      get fs "realitySettings" = .obj settings ∧
      ∀ n, textOf settings n = (get (realityFields r t) n).asText := by
  have hsecured : i.tls.any (·.enabled) = true := by
    rw [Option.mem_def.1 ht]
    exact henabled
  obtain ⟨type, settings, hstream⟩ := stream_secured hsecured
  have hsettings : get (streamFields type settings i.tls) "realitySettings" =
      .obj (compact (realityFields r t)) :=
    get_security (by rw [Option.mem_def.1 ht, writeSecurity_reality hr hon]; simp)
  exact ⟨_, _, by rw [get_streamSettings, hstream]; rfl, get_stream_record hsettings,
    textOf_written (realityFields_nodup r t)⟩

theorem settings_reread (htype : i.type = "shadowsocks") {fs : Fields}
    (hfs : shadowsocksSettings i = .obj fs) :
    get (Value.rereadFields [] (written i)) "settings" = .obj (Value.rereadFields [] fs) := by
  have hholds : Holds (written i) "settings" (writeSettings i) := head_holds i (by decide)
  have hwritten : writeSettings i = .obj fs := by
    unfold writeSettings
    rw [htype]
    exact hfs
  rw [hwritten] at hholds
  rw [hholds.reread nofun, Value.reread]

/-- A client that is alone and without a password is lost, so that its e-mail is missing the next
time. -/
theorem client_of_reread
    (hsame : Value.rereadFields [] (written (returned i)) = Value.rereadFields [] (written i))
    (htype : i.type = "shadowsocks") (hnone : textOf i.options "password" = "") {u : User}
    (hu : i.users = [u]) (hempty : u.password = "") : u.email = "" := by
  have husers : (returned i).users = [] := by
    rw [users_returned_alone htype hnone hu, alone, if_pos hempty]
    rfl
  obtain ⟨hform, -⟩ | ⟨-, v, hv, hwritten⟩ := shadowsocksSettings_cases i
  · exact (hform.elim (· hnone) (· u hu)).elim
  · obtain rfl : u = v := (List.cons.inj (hu.symm.trans hv)).1
    obtain ⟨-, hwritten'⟩ | ⟨-, w, hw, -⟩ := shadowsocksSettings_cases (returned i)
    · have hread := settings_reread htype hwritten
      rw [← hsame, settings_reread (show (returned i).type = "shadowsocks" from htype) hwritten']
        at hread
      have hemail := congrArg (textOf · "email") (Value.obj.inj hread)
      have hnames : ([("method", Value.str i.shadowsocksMethod), ("password", .str u.password),
          ("email", .str u.email), ("network", .str (networkOf i))].map Prod.fst).Nodup :=
        (by decide : ["method", "password", "email", "network"].Nodup)
      have hnames' : ([("method", Value.str (returned i).shadowsocksMethod),
          ("password", .str (textOf (returned i).options "password")),
          ("clients", .arr (((returned i).users.map listedClient).map .obj)),
          ("network", .str (networkOf (returned i)))].map Prod.fst).Nodup :=
        (by decide : ["method", "password", "clients", "network"].Nodup)
      rw [textOf_written hnames', textOf_written hnames] at hemail
      exact hemail.symm
    · rw [husers] at hw
      cases hw

/-- The server of Reality is found in both texts. -/
theorem server_of_reread (h : IsParsed i) (hfinite : ∀ n ∈ i.numbers, n.isFinite = true)
    (hsame : Value.rereadFields [] (written (returned i)) = Value.rereadFields [] (written i))
    {t : Tls} (ht : t ∈ i.tls) {r : Reality} (hr : r ∈ t.reality) : (visited r t).Plain := by
  obtain ⟨henabled, hreality⟩ := h.security t ht
  obtain ⟨hon, -⟩ := hreality r hr
  obtain ⟨r', hr', hon', hfields⟩ := realityFields_again r t
  have htls : (returned i).tls = some (readReality
      (Value.rereadFields [] (compact (realityFields r t)))) := by
    change tlsBack i = _
    rw [tlsBack_parsed h, Option.mem_def.1 ht, sentTls_reality hr hon]
  obtain ⟨fs, settings, hstream, hsettings, htext⟩ := destination_reread ht henabled hr hon
  obtain ⟨fs', settings', hstream', hsettings', hback⟩ :=
    destination_reread (Option.mem_def.2 htls) rfl hr' hon'
  rw [hsame, hstream] at hstream'
  obtain rfl := Value.obj.inj hstream'
  obtain rfl := Value.obj.inj (hsettings.symm.trans hsettings')
  have hdest := (hback "dest").symm.trans (htext "dest")
  rw [hfields] at hdest
  exact (visited_again h hfinite ht hr).1 hdest

/-- A listener that is read as the same when it is written again repeats. -/
theorem repeats_of_reread (h : IsParsed i) (hfinite : ∀ n ∈ i.numbers, n.isFinite = true)
    (hsame : Value.rereadFields [] (written (returned i)) = Value.rereadFields [] (written i)) :
    Repeats i where
  client htype hnone _ hu hempty := client_of_reread hsame htype hnone hu hempty
  server _ ht _ hr := server_of_reread h hfinite hsame ht hr

/-- What comes back of a listener is written as the listener was exactly if it repeats. -/
theorem written_returned_iff (h : IsParsed i) (hfinite : ∀ n ∈ i.numbers, n.isFinite = true) :
    Value.rereadFields [] (written (returned i)) = Value.rereadFields [] (written i) ↔ Repeats i :=
  ⟨repeats_of_reread h hfinite, fun hrepeats => by rw [written_returned h hfinite hrepeats]⟩

end Xray

end ProxyFleet
