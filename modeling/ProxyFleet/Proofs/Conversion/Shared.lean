import ProxyFleet.Proofs.Conversion.Kept
import ProxyFleet.Proofs.Xray.Destinations

/-!
# What both engines have survives the other one

A sing-box file all of whose listeners Xray has a place for too (`Inbound.Shared`) can be
converted to Xray and back. Nothing is noted on the way, and what comes out is the text
that converting it to sing-box directly gives (`convertConfig_via_xray`).

The listener that comes back is not the one that was read. Xray names its networks, gives
clients of Reality their flow and takes a password that stands alone for that of a
client. But all of that is what sing-box writes too, or takes to be understood, so the two
listeners are written in the same words.
-/

namespace ProxyFleet

open Fields

/-! ## Listeners that both engines have -/

/-- A server to hand visitors to that has a text Xray takes apart again. -/
structure Handshake.Shared (h : Handshake) : Prop where
  server : Xray.Unbracketed h.server
  port : h.serverPort.IsPort

/-- Security that is switched on. Next to Reality, which is on then and has a server to hand
visitors to, Xray has no place for protocols or certificates. -/
structure Tls.Shared (t : Tls) : Prop where
  enabled : t.enabled = true
  reality : ∀ r ∈ t.reality, r.enabled = true ∧ (∃ h ∈ r.handshake, h.Shared) ∧
    t.alpn = [] ∧ t.certificatePath = "" ∧ t.keyPath = ""

/-- An option of a shadowsocks listener that both engines have: a text for its method or its
password, or its networks. -/
def SharedOption (f : String × Value) : Prop :=
  (f.1 = "method" ∨ f.1 = "password") ∧ f.2.text?.isSome = true ∨
    f.1 = "network" ∧ (SingBox.networkName? f.2).isSome = true

/-- A listener that both engines have, in all of its parts. -/
structure Inbound.Shared (i : Inbound) : Prop where
  listen : i.listen ≠ ""
  port : i.listenPort.isFinite = true
  type : i.type ∈ ["vless", "vmess", "trojan", "shadowsocks", "socks", "http"]
  transport : ∀ t ∈ i.transport, t.type ∈ ["ws", "grpc", "http", "httpupgrade"]
  tls : ∀ t ∈ i.tls, t.Shared
  multiplex : i.multiplex = none
  options : ∀ f ∈ i.options, i.type = "shadowsocks" ∧ SharedOption f
  passwords : i.type = "shadowsocks" → ∀ u ∈ i.users, u.password ≠ ""

instance (n : Number) : Decidable n.IsPort :=
  inferInstanceAs (Decidable (∃ p ∈ n.toInt?, 1 ≤ p ∧ p ≤ 65535))

instance (server : String) : Decidable (Xray.Unbracketed server) :=
  inferInstanceAs (Decidable (¬(_ ∧ _)))

instance (h : Handshake) : Decidable h.Shared :=
  decidable_of_iff (Xray.Unbracketed h.server ∧ h.serverPort.IsPort)
    ⟨fun ⟨server, port⟩ => ⟨server, port⟩, fun h => ⟨h.server, h.port⟩⟩

instance (t : Tls) : Decidable t.Shared :=
  decidable_of_iff (t.enabled = true ∧ ∀ r ∈ t.reality, r.enabled = true ∧
      (∃ h ∈ r.handshake, h.Shared) ∧ t.alpn = [] ∧ t.certificatePath = "" ∧ t.keyPath = "")
    ⟨fun ⟨enabled, reality⟩ => ⟨enabled, reality⟩, fun h => ⟨h.enabled, h.reality⟩⟩

instance (f : String × Value) : Decidable (SharedOption f) :=
  inferInstanceAs (Decidable (_ ∨ _))

instance (i : Inbound) : Decidable i.Shared :=
  decidable_of_iff (i.listen ≠ "" ∧ i.listenPort.isFinite = true ∧
      i.type ∈ ["vless", "vmess", "trojan", "shadowsocks", "socks", "http"] ∧
      (∀ t ∈ i.transport, t.type ∈ ["ws", "grpc", "http", "httpupgrade"]) ∧
      (∀ t ∈ i.tls, t.Shared) ∧ i.multiplex.isNone = true ∧
      (∀ f ∈ i.options, i.type = "shadowsocks" ∧ SharedOption f) ∧
      (i.type = "shadowsocks" → ∀ u ∈ i.users, u.password ≠ ""))
    ⟨fun ⟨listen, port, type, transport, tls, multiplex, options, passwords⟩ =>
      ⟨listen, port, type, transport, tls, Option.isNone_iff_eq_none.1 multiplex, options,
        passwords⟩,
    fun h => ⟨h.listen, h.port, h.type, h.transport, h.tls, Option.isNone_iff_eq_none.2 h.multiplex,
      h.options, h.passwords⟩⟩

/-! ## Security -/

namespace Xray

variable {t : Tls} {r : Reality}

/-- A destination has its colon, so it is not taken for one that is missing. -/
theorem destination_ne (s : Handshake) : s.server ++ ":" ++ s.serverPort.text ≠ "" :=
  fun hempty => by simpa using congrArg String.toList hempty

theorem destinationOf_written {s : Handshake} (hs : s ∈ r.handshake) :
    destinationOf (Value.rereadFields [] (compact (realityFields r t))) =
      s.server ++ ":" ++ s.serverPort.text := by
  have hdest : destination r t = s.server ++ ":" ++ s.serverPort.text := by
    rw [destination, Option.mem_def.1 hs]
  have hread := textOf_written (realityFields_nodup r t) "dest"
  change _ = destination r t at hread
  rw [destinationOf, hread, hdest]
  exact if_neg (destination_ne s)

/-- The one name that is written, or none if it is empty. -/
theorem serverNames_written (h : SingBox.RealityRead t.serverName r) :
    (get (Value.rereadFields [] (compact (realityFields r t))) "serverNames").textList =
      [t.serverName].filter (· != "") := by
  have hname : firstText r.serverName t.serverName = t.serverName := by
    rw [h.serverName, firstText]
    split <;> rfl
  have hholds := (Holds.get_of_nodup (realityFields_nodup r t) "serverNames").compact
  rw [← hname, ← h.others]
  exact hholds.textList_reread

theorem readReality_written (h : SingBox.RealityRead t.serverName r) (hshared : t.Shared)
    (hr : r ∈ t.reality) :
    readReality (Value.rereadFields [] (compact (realityFields r t))) = t := by
  obtain ⟨henabled, ⟨s, hs, hserver⟩, halpn, hcertificate, hkey⟩ := hshared.reality r hr
  have htext := textOf_written (realityFields_nodup r t)
  have hids : (get (Value.rereadFields [] (compact (realityFields r t))) "shortIds").textList =
      r.shortIds :=
    (Holds.get_of_nodup (realityFields_nodup r t) "shortIds").compact.textList_reread
  have hname : ([t.serverName].filter (· != "")).head?.getD "" = t.serverName ∧
      ([t.serverName].filter (· != "")).drop 1 = [] := by
    by_cases hempty : t.serverName = "" <;> simp [hempty]
  rw [readReality, destinationOf_written hs, serverNames_written h, hids, hname.1, hname.2,
    if_neg (destination_ne s), splitDestination_written hserver.server hserver.port]
  rw [htext, htext, htext]
  have hback : ⟨true, r.shortIds, t.serverName, [], (get (realityFields r t) "fingerprint").asText,
      (get (realityFields r t) "publicKey").asText, (get (realityFields r t) "privateKey").asText,
      some s⟩ = r := by
    have hfingerprint : (get (realityFields r t) "fingerprint").asText = "" := h.fingerprint
    have hpublic : (get (realityFields r t) "publicKey").asText = "" := h.publicKey
    refine Eq.trans ?_ h.eq
    rw [hfingerprint, hpublic, henabled, Option.mem_def.1 hs]
    rfl
  calc
    _ = Tls.mk true t.serverName [] "" "" (some r) := by rw [hback]; rfl
    _ = ⟨t.enabled, t.serverName, t.alpn, t.certificatePath, t.keyPath, t.reality⟩ := by
      rw [hshared.enabled, halpn, hcertificate, hkey, Option.mem_def.1 hr]
    _ = t := rfl

theorem sentTls_shared {tls : Option Tls} (h : ∀ t ∈ tls, SingBox.TlsRead t)
    (hshared : ∀ t ∈ tls, t.Shared) : sentTls tls = tls := by
  cases tls with
  | none => rfl
  | some t =>
      have ht := hshared t rfl
      cases hr : t.reality with
      | none =>
          rw [sentTls_plain ht.enabled (by rw [hr]; rfl), readPlain_written ht.enabled hr]
      | some r =>
          rw [sentTls_reality hr (ht.reality r hr).1]
          exact congrArg some (readReality_written (h t rfl r hr) ht hr)

end Xray

variable {i : Inbound}

/-- Security comes back as it was. -/
theorem Inbound.Shared.tlsBack (h : i.Shared) (hread : SingBox.IsRead i) :
    Xray.tlsBack i = i.tls := by
  have hsent := Xray.sentTls_shared hread.tls h.tls
  unfold Xray.tlsBack
  split
  · exact hsent
  · next hoff =>
      cases htls : i.tls with
      | none => rfl
      | some t =>
          have henabled := (h.tls t htls).enabled
          simp [htls, henabled] at hoff

/-! ## Clients and options -/

namespace SingBox

theorem userFields_kept {type : String} (h : type ∈ ["vless", "vmess", "trojan", "socks", "http"])
    (realityOn : Bool) (u : User) :
    userFields type realityOn (Engine.xray.keptUser type realityOn u) =
      userFields type realityOn u := by
  simp only [List.mem_cons, List.not_mem_nil, or_false] at h
  rcases h with rfl | rfl | rfl | rfl | rfl
  · cases realityOn <;> simp [userFields, Engine.keptUser, firstText_again]
  · rfl
  · rfl
  · rfl
  · rfl

/-- Networks that go without saying are not written. -/
theorem writtenOption_network {v : Value} (h : networkName? v = none ∨ networkName? v = some "")
    (handled : List String) : writtenOption handled ("network", v) = none := by
  unfold writtenOption
  split
  · rfl
  · rcases h with h | h <;> simp [h]

/-- Of options that both engines have, only the networks are written with the other options. -/
theorem filterMap_writtenOption {handled : List String} {options : Fields}
    (hnodup : (options.map Prod.fst).Nodup)
    (h : ∀ f ∈ options, f.1 ∈ handled ∨ f.1 = "network") :
    options.filterMap (writtenOption handled) =
      (writtenOption handled ("network", get options "network")).toList := by
  have habsent : writtenOption handled ("network", .absent) = none :=
    writtenOption_network (.inl rfl) handled
  induction options with
  | nil => rw [get_nil, habsent]; rfl
  | cons f options ih =>
      obtain ⟨hfirst, hnodup⟩ := List.nodup_cons.1 hnodup
      have ih := ih hnodup fun g hg => h g (List.mem_cons_of_mem f hg)
      rw [List.filterMap_cons, ih, get_cons]
      by_cases hf : "network" = f.1
      · have hrest : get options "network" = .absent :=
          get_eq_absent (List.any_eq_false.2 fun g hg heq => hfirst (by
            rw [← hf, ← beq_iff_eq.1 heq]
            exact List.mem_map_of_mem hg))
        rw [if_pos hf, hrest, habsent, hf]
        cases writtenOption handled (f.1, f.2) <;> rfl
      · have hhandled := (h f List.mem_cons_self).resolve_right (Ne.symm hf)
        have hnone : writtenOption handled f = none := if_pos (List.contains_iff_mem.2 hhandled)
        rw [if_neg hf, hnone]

end SingBox

namespace Inbound.Shared

/-- Nobody is lost of the clients of a shadowsocks listener, and nobody comes in. -/
theorem admitted (h : i.Shared) (hread : SingBox.IsRead i) (htype : i.type = "shadowsocks") :
    i.admitted Xray.alone = i.users := by
  have hsecret := hread.secret htype
  have hpasswords := h.passwords htype
  unfold Inbound.admitted
  dsimp only
  split
  · split
    · next u hu =>
        have hpassword := hpasswords u (by rw [hu]; exact List.mem_singleton_self u)
        exact (if_neg hpassword).trans hu.symm
    · rfl
  · next hpassword => exact if_neg fun hnone => hpassword (hsecret hnone)

theorem optionsBack_method (i : Inbound) :
    textOf (Xray.shadowsocksOptionsBack i) "method" = i.shadowsocksMethod := rfl

theorem optionsBack_network (i : Inbound) :
    get (Xray.shadowsocksOptionsBack i) "network" = .str (Xray.networkOf i) := rfl

theorem optionsBack_password (hread : SingBox.IsRead i) (htype : i.type = "shadowsocks") :
    textOf (Xray.shadowsocksOptionsBack i) "password" = textOf i.options "password" := by
  have hsecret := hread.secret htype
  unfold Xray.shadowsocksOptionsBack
  by_cases hnone : i.users = []
  · rw [if_pos hnone, hsecret hnone]
    rfl
  · rw [if_neg hnone]
    have hnames : ([("password", Value.str (textOf i.options "password"))].map Prod.fst).Nodup :=
      (by decide : ["password"].Nodup)
    exact textOf_compact hnames "password"

theorem realityOn_returned (h : i.Shared) (hread : SingBox.IsRead i) :
    (Xray.returned i).realityOn = i.realityOn := by
  unfold Inbound.realityOn
  rw [Xray.returned, h.tlsBack hread]

theorem shadowsocksFields_returned (h : i.Shared) (hread : SingBox.IsRead i)
    (htype : i.type = "shadowsocks") :
    SingBox.shadowsocksFields (Xray.returned i) = SingBox.shadowsocksFields i := by
  have husers : (Xray.returned i).users = i.users.map (User.underMethod i.shadowsocksMethod) := by
    rw [Xray.returned, Xray.usersBack, if_pos htype, h.admitted hread htype]
  have hoptions : (Xray.returned i).options = Xray.shadowsocksOptionsBack i := if_pos htype
  have hmethod : (Xray.returned i).shadowsocksMethod = i.shadowsocksMethod := by
    unfold Inbound.shadowsocksMethod
    rw [hoptions, optionsBack_method]
    exact if_neg i.shadowsocksMethod_ne
  have hwritten : SingBox.writeUsers (Xray.returned i) = SingBox.writeUsers i := by
    rw [SingBox.writeUsers, SingBox.writeUsers, husers, List.map_map]
    change List.map (SingBox.writeUser i.type _ ∘ _) _ = _
    rw [htype]
    exact List.map_congr_left fun u _ => SingBox.writeUser_shadowsocks _ _ rfl rfl
  unfold SingBox.shadowsocksFields
  rw [hmethod, hoptions, optionsBack_password hread htype, hwritten, husers]
  rcases i.users with _ | ⟨u, _ | ⟨u', us⟩⟩ <;> rfl

theorem writeUsers_returned (h : i.Shared) (hread : SingBox.IsRead i)
    (htype : i.type ∈ ["vless", "vmess", "trojan", "socks", "http"]) :
    SingBox.writeUsers (Xray.returned i) = SingBox.writeUsers i := by
  have hserved : i.type ∉ Xray.unservable ∧ i.type ≠ "shadowsocks" :=
    (by decide : ∀ type ∈ ["vless", "vmess", "trojan", "socks", "http"],
      type ∉ Xray.unservable ∧ type ≠ "shadowsocks") i.type htype
  have husers : (Xray.returned i).users =
      i.users.map (Engine.xray.keptUser i.type i.realityOn) := by
    rw [Xray.returned, Xray.usersBack_kept hserved.1]
    exact if_neg hserved.2
  rw [SingBox.writeUsers, SingBox.writeUsers, husers, h.realityOn_returned hread, List.map_map]
  refine List.map_congr_left fun u _ => ?_
  rw [Function.comp_apply, SingBox.writeUser, SingBox.writeUser]
  exact congrArg (fun fs => Value.obj (compact fs)) (SingBox.userFields_kept htype _ u)

/-- The clients that come back are written in the same words. -/
theorem clientFields_returned (h : i.Shared) (hread : SingBox.IsRead i) :
    SingBox.clientFields (Xray.returned i) = SingBox.clientFields i := by
  by_cases htype : i.type = "shadowsocks"
  · have hclients : ∀ j : Inbound, j.type = i.type →
        SingBox.clientFields j = (SingBox.shadowsocksFields j, ["method", "password"]) :=
      fun j hj => if_pos (hj.trans htype)
    rw [hclients (Xray.returned i) rfl, hclients i rfl, h.shadowsocksFields_returned hread htype]
  · have hlisted : i.type ∈ ["vless", "vmess", "trojan", "socks", "http"] := by
      have hany := h.type
      simp only [List.mem_cons, List.not_mem_nil, or_false] at hany ⊢
      tauto
    have hclients : ∀ j : Inbound, j.type = i.type →
        SingBox.clientFields j = (itemsField "users" (SingBox.writeUsers j), []) :=
      fun j hj => if_neg (hj.symm ▸ htype)
    rw [hclients (Xray.returned i) rfl, hclients i rfl, h.writeUsers_returned hread hlisted]

theorem get_network (h : i.Shared) : get i.options "network" = .absent ∨
    (SingBox.networkName? (get i.options "network")).isSome = true := by
  refine (get_absent_or_mem i.options "network").imp_right fun hmem => ?_
  obtain ⟨hname, -⟩ | ⟨-, hnetwork⟩ := (h.options _ hmem).2
  · exact absurd (show "network" = "method" ∨ "network" = "password" from hname) (by decide)
  · exact hnetwork

/-- The networks that Xray names are those of the listener, or both if it names none. -/
theorem networkName?_networkOf (h : i.Shared) :
    SingBox.networkName? (.str (Xray.networkOf i)) = some "" ∧
        (get i.options "network" = .absent ∨ get i.options "network" = .str "") ∨
      get i.options "network" = .str (Xray.networkOf i) ∧
        (SingBox.networkName? (.str (Xray.networkOf i))).isSome = true := by
  have hboth : SingBox.networkName? (.str "tcp,udp") = some "" := by decide +kernel
  unfold Xray.networkOf textOf
  obtain habsent | hnetwork := h.get_network
  · rw [habsent]
    exact .inl ⟨hboth, .inl rfl⟩
  · cases hv : get i.options "network" with
    | str s =>
        rw [hv] at hnetwork
        by_cases hempty : s = ""
        · rw [hempty]
          exact .inl ⟨hboth, .inr rfl⟩
        · have hs : firstText (Value.str s).asText "tcp,udp" = s := if_neg hempty
          rw [hs]
          exact .inr ⟨rfl, hnetwork⟩
    | _ =>
        rw [hv] at hnetwork
        cases hnetwork

theorem optionsBack_names (i : Inbound) :
    ((Xray.shadowsocksOptionsBack i).map Prod.fst).Sublist ["method", "network", "password"] := by
  have hpassword : ∀ v, ((compact [("password", v)]).map Prod.fst).Sublist ["password"] := by
    intro v
    have hkept : (compact [("password", v)]).Sublist [("password", v)] := List.filter_sublist
    exact hkept.map Prod.fst
  unfold Xray.shadowsocksOptionsBack
  rw [List.map_append]
  refine (List.Sublist.refl ["method", "network"]).append ?_
  split
  · exact List.nil_sublist _
  · exact hpassword _

/-- Of the options, the networks are written in the same words. -/
theorem optionsWritten_returned (h : i.Shared) (hread : SingBox.IsRead i) :
    SingBox.optionsWritten (Xray.returned i) = SingBox.optionsWritten i := by
  rw [SingBox.optionsWritten, SingBox.optionsWritten, h.clientFields_returned hread]
  by_cases htype : i.type = "shadowsocks"
  · have hoptions : (Xray.returned i).options = Xray.shadowsocksOptionsBack i := if_pos htype
    have hhandled : (SingBox.clientFields i).2 = ["method", "password"] := by
      rw [SingBox.clientFields, if_pos htype]
    have hnames : ∀ f ∈ i.options, f.1 ∈ ["method", "password"] ∨ f.1 = "network" := by
      intro f hf
      obtain ⟨hname, -⟩ | ⟨hname, -⟩ := (h.options f hf).2
      · exact .inl (by simpa using hname)
      · exact .inr hname
    have hnames' : ∀ f ∈ Xray.shadowsocksOptionsBack i,
        f.1 ∈ ["method", "password"] ∨ f.1 = "network" := fun f hf =>
      (by decide : ∀ n ∈ ["method", "network", "password"],
        n ∈ ["method", "password"] ∨ n = "network") f.1
        ((optionsBack_names i).subset (List.mem_map_of_mem hf))
    rw [hoptions, hhandled, SingBox.filterMap_writtenOption hread.optionsListed.nodup hnames,
      SingBox.filterMap_writtenOption ((optionsBack_names i).nodup (by decide)) hnames',
      optionsBack_network]
    refine congrArg Option.toList ?_
    obtain ⟨hboth, hv⟩ | ⟨hv, -⟩ := h.networkName?_networkOf
    · -- both networks: Xray names them, sing-box leaves them out
      rw [SingBox.writtenOption_network (.inr hboth)]
      refine (SingBox.writtenOption_network ?_ _).symm
      rcases hv with hv | hv <;> rw [hv]
      · exact .inl rfl
      · exact .inr (by decide +kernel)
    · rw [hv]
  · have hnone : i.options = [] := by
      rcases ho : i.options with _ | ⟨f, fs⟩
      · rfl
      · exact absurd (h.options f (by rw [ho]; exact List.mem_cons_self)).1 htype
    have hoptions : (Xray.returned i).options = [] := if_neg htype
    rw [hoptions, hnone]

/-! ## Listeners -/

theorem servable (h : i.Shared) : i.type ∉ Xray.unservable := fun hmem =>
  (by decide : ∀ type ∈ ["vless", "vmess", "trojan", "shadowsocks", "socks", "http"],
    type ∉ Xray.unservable) i.type h.type hmem

theorem transportNames (h : i.Shared) :
    ∀ t ∈ i.transport, t.type ∈ SingBox.transportNames ∧ t.type ∉ ["", "tcp", "raw", "h2"] ∧
      t.type ≠ "tls" ∧ t.type ≠ "reality" := fun t ht =>
  (by decide : ∀ type ∈ ["ws", "grpc", "http", "httpupgrade"],
    type ∈ SingBox.transportNames ∧ type ∉ ["", "tcp", "raw", "h2"] ∧ type ≠ "tls" ∧
      type ≠ "reality") t.type (h.transport t ht)

theorem xray_isRead (h : i.Shared) (hread : SingBox.IsRead i) : Xray.IsRead i :=
  ⟨hread.named, fun t ht => ⟨(h.transportNames t ht).2.1, (hread.transport t ht).2⟩⟩

/-- Writing the listener for Xray loses nothing. -/
theorem xray_writeInbound (h : i.Shared) (index : Nat) :
    Xray.writeInbound i index = pure (some (Xray.written i)) := by
  have hoptions : i.options.filter (fun f => !(Xray.writtenOptions i.type).contains f.1) = [] := by
    refine List.filter_eq_nil_iff.2 fun f hf => ?_
    obtain ⟨htype, hshared⟩ := h.options f hf
    have hname : f.1 = "method" ∨ f.1 = "password" ∨ f.1 = "network" := by
      obtain ⟨hname | hname, -⟩ | ⟨hname, -⟩ := hshared
      · exact .inl hname
      · exact .inr (.inl hname)
      · exact .inr (.inr hname)
    have hlisted : (Xray.writtenOptions i.type).contains f.1 = true := by
      rw [htype]
      exact List.contains_iff_mem.2
        (show f.1 ∈ ["method", "password", "network"] by simpa using hname)
    rw [hlisted]
    decide
  have hnotes : Xray.lossNotes i (Inbound.label i.tag index) = [] := by
    rw [Xray.lossNotes, h.multiplex, hoptions]
    rfl
  rw [Xray.writeInbound_written h.servable, hnotes]
  rfl

/-- Writing the listener for sing-box does not either. -/
theorem singBox_writeInbound (h : i.Shared) (hread : SingBox.IsRead i) (index : Nat) :
    SingBox.writeInbound i index = pure (SingBox.written i) := by
  refine SingBox.writeInbound_fits hread.optionsListed ⟨fun f hf => ?_, hread.tls, fun t ht => ?_⟩
    index
  · refine ⟨hread.optionsListed.named f hf, fun hnetwork => ?_⟩
    obtain ⟨hname, -⟩ | ⟨-, hsome⟩ := (h.options f hf).2
    · rw [hnetwork] at hname
      exact absurd hname (by decide)
    · exact hsome
  · exact (h.transportNames t ht).1

/-- The options that come back have their place in a sing-box listener. -/
theorem optionsBack_place (h : i.Shared) :
    ((Xray.optionsBack i).map Prod.fst).Nodup ∧ ∀ f ∈ Xray.optionsBack i, SingBox.HasPlace f := by
  unfold Xray.optionsBack
  split
  · have hnodup := (optionsBack_names i).nodup (by decide)
    refine ⟨hnodup, fun f hf => ?_⟩
    have hname := (optionsBack_names i).subset (List.mem_map_of_mem hf)
    refine ⟨(by decide : ∀ n ∈ ["method", "network", "password"], n ∈ SingBox.optionNames) _ hname,
      fun hnetwork => ?_⟩
    have hvalue : f.2 = .str (Xray.networkOf i) :=
      (Holds.get_of_nodup hnodup "network").agree f hf hnetwork
    rw [hvalue]
    obtain ⟨hboth, -⟩ | ⟨-, hsome⟩ := h.networkName?_networkOf
    · rw [hboth]
      rfl
    · exact hsome
  · exact ⟨List.nodup_nil, List.forall_mem_nil _⟩

theorem transport_returned (h : i.Shared) :
    (Xray.returned i).transport = SingBox.transportKept i := by
  rw [Xray.returned, SingBox.transportKept]
  cases ht : i.transport with
  | none => rfl
  | some t =>
      obtain ⟨hknown, -, htls, hreality⟩ := h.transportNames t ht
      have hover : Xray.overwritten t.type i.tls = false := by
        unfold Xray.overwritten
        split <;> simp [htls, hreality]
      rw [Option.bind_some, if_pos hknown]
      exact congrArg some (if_neg (by rw [hover]; exact Bool.false_ne_true))

/-- What comes back from Xray is written for sing-box in the words of the listener itself. -/
theorem singBox_writeInbound_returned (h : i.Shared) (hread : SingBox.IsRead i) (index : Nat) :
    SingBox.writeInbound (Xray.returned i) index = pure (SingBox.written i) := by
  obtain ⟨hnodup, hplaces⟩ := h.optionsBack_place
  have htls : (Xray.returned i).tls = i.tls := h.tlsBack hread
  have htransport := h.transport_returned
  have hport : (Xray.returned i).listenPort = i.listenPort := by
    change (Value.num i.listenPort).reread.asInt = _
    rw [(hread.port.stable h.port).same, hread.port.asInt h.port]
  have hlisten : (Xray.returned i).listen = i.listen := if_neg h.listen
  have hfits : SingBox.Fits (Xray.returned i) := by
    refine ⟨hplaces, htls ▸ hread.tls, fun t ht => ?_⟩
    rw [htransport] at ht
    obtain ⟨w, -, hw⟩ := Option.bind_eq_some_iff.1 ht
    obtain ⟨hknown, hw⟩ := Option.ite_none_right_eq_some.1 hw
    cases hw
    rwa [Transport.kept_type]
  have hhead : SingBox.headFields (Xray.returned i) = SingBox.headFields i := by
    rw [SingBox.headFields, SingBox.headFields, hport, hlisten]
    rfl
  rw [SingBox.writeInbound_fits ⟨hnodup, fun f hf => (hplaces f hf).named⟩ hfits]
  unfold SingBox.written
  rw [hhead, h.clientFields_returned hread, h.optionsWritten_returned hread, htls,
    SingBox.transportWritten_kept htransport, h.multiplex]
  rfl

end Inbound.Shared

/-! ## Files -/

section Files

variable {is : List Inbound}

theorem Xray.write_shared (hshared : ∀ i ∈ is, i.Shared) :
    Xray.write is = pure (is.map fun i => .obj (Xray.written i)) := by
  have hwrite : ∀ i ∈ is, ∀ index, (do pure ((← writeInbound (id i) index).map Value.obj)) =
      pure (some (Value.obj (written i))) := by
    intro i hi index
    rw [id, (hshared i hi).xray_writeInbound]
    rfl
  have hquiet := Noted.filterMap_quiet
    (f := fun n i => do pure ((← writeInbound i n).map Value.obj)) hwrite
  rwa [List.map_id] at hquiet

theorem SingBox.write_shared (hshared : ∀ i ∈ is, i.Shared) (hread : ∀ i ∈ is, IsRead i) :
    SingBox.write is = pure (is.map fun i => .obj (written i)) := by
  have hwrite : ∀ i ∈ is, ∀ index, (do pure (some (Value.obj (← writeInbound (id i) index)))) =
      (pure (some (Value.obj (written i))) : Noted _) := by
    intro i hi index
    rw [id, (hshared i hi).singBox_writeInbound (hread i hi)]
    rfl
  have hquiet := Noted.filterMap_quiet
    (f := fun n i => do pure (some (Value.obj (← writeInbound i n)))) hwrite
  rwa [List.map_id] at hquiet

/-- What Xray reads of the listeners that were written for it is written for sing-box as they
are. -/
theorem Xray.write_read_back (hshared : ∀ i ∈ is, i.Shared) (hread : ∀ i ∈ is, SingBox.IsRead i) :
    readElements ((is.map fun i => Value.obj (written i)).map Value.reread) >>= SingBox.write =
      pure (is.map fun i => .obj (SingBox.written i)) := by
  rw [List.map_map]
  refine Noted.filterMap_bind_quiet fun i hi index => ⟨returned i, ?_, fun k => ?_⟩
  · rw [Function.comp_apply, Value.reread]
    exact readInbound_returned ((hshared i hi).xray_isRead (hread i hi)) index
  · rw [(hshared i hi).singBox_writeInbound_returned (hread i hi)]
    rfl

/-- Converting a sing-box file to Xray and back gives the text that converting it to sing-box
gives, without a note on any of the ways, if all of its listeners have a place in both. -/
theorem convertConfig_via_xray {text : String}
    (hread : Engine.singBox.read defaultFile text = .ok ⟨is, []⟩) (hshared : ∀ i ∈ is, i.Shared) :
    ∃ native back, convertConfig "sing-box" "xray" text = .ok ⟨native, []⟩ ∧
      convertConfig "xray" "sing-box" native = .ok ⟨back, []⟩ ∧
      convertConfig "sing-box" "sing-box" text = .ok ⟨back, []⟩ := by
  have hisRead := SingBox.isRead_of_read hread
  refine ⟨inboundsText (is.map fun i => .obj (Xray.written i)),
    inboundsText (is.map fun i => .obj (SingBox.written i)), ?_, ?_, ?_⟩
  · refine (convertConfig_ok_iff (s := .singBox) (t := .xray)).2 ⟨_, hread, ?_⟩
    change _ = pure is >>= fun is => Xray.write is >>= fun natives => pure (inboundsText natives)
    rw [pure_bind, Xray.write_shared hshared]
    rfl
  · refine (convertConfig_ok_iff (s := .xray) (t := .singBox)).2 ⟨Xray.readElements
      ((is.map fun i => .obj (Xray.written i)).map Value.reread), ?_, ?_⟩
    · rw [Engine.read, Xray.read, ConfigFile.elements_inboundsText]
      rfl
    · change _ = Xray.readElements _ >>= fun is => SingBox.write is >>= fun natives =>
        pure (inboundsText natives)
      rw [← bind_assoc, Xray.write_read_back hshared hisRead, pure_bind]
      rfl
  · refine (convertConfig_ok_iff (s := .singBox) (t := .singBox)).2 ⟨_, hread, ?_⟩
    change _ = pure is >>= fun is => SingBox.write is >>= fun natives => pure (inboundsText natives)
    rw [pure_bind, SingBox.write_shared hshared hisRead]
    rfl

end Files

/-- A listener with Reality, and one whose clients have a password each. -/
def sharedFile : String :=
  "[\x7b\"type\":\"vless\",\"listen\":\"::\",\"listen_port\":443,"
    ++ "\"users\":[\x7b\"uuid\":\"u\"\x7d],\"transport\":\x7b\"type\":\"grpc\"\x7d,"
    ++ "\"tls\":\x7b\"enabled\":true,\"reality\":\x7b\"enabled\":true,"
    ++ "\"handshake\":\x7b\"server\":\"a:b\",\"server_port\":80\x7d\x7d\x7d\x7d,"
    ++ "\x7b\"type\":\"shadowsocks\",\"listen\":\"::\",\"listen_port\":90,"
    ++ "\"users\":[\x7b\"password\":\"q\"\x7d]\x7d]"

theorem convertConfig_via_xray_mixed : ∃ is native back,
    Engine.singBox.read defaultFile sharedFile = .ok ⟨is, []⟩ ∧ is.length = 2 ∧
      (∀ i ∈ is, i.Shared) ∧
      convertConfig "sing-box" "xray" sharedFile = .ok ⟨native, []⟩ ∧
      convertConfig "xray" "sing-box" native = .ok ⟨back, []⟩ ∧
      convertConfig "sing-box" "sing-box" sharedFile = .ok ⟨back, []⟩ := by
  have hseen : (Engine.singBox.read defaultFile sharedFile).toOption.any (fun found =>
      found.notes == [] && found.value.length == 2
        && found.value.all fun i => decide i.Shared) = true := by
    rw [Engine.read_of_chars]
    rotate_left
    · unfold sharedFile
      repeat' first | apply toList_append_literal | exact toList_literal rfl | rfl
    · decide +kernel
  cases hread : Engine.singBox.read defaultFile sharedFile with
  | error _ =>
      rw [hread] at hseen
      cases hseen
  | ok found =>
      obtain ⟨is, notes⟩ := found
      rw [hread] at hseen
      simp only [Except.toOption, Option.any_some, Bool.and_eq_true, beq_iff_eq, List.all_eq_true,
        decide_eq_true_eq] at hseen
      obtain ⟨⟨rfl, hlength⟩, hshared⟩ := hseen
      obtain ⟨native, back, hways⟩ := convertConfig_via_xray hread hshared
      exact ⟨is, native, back, rfl, hlength, hshared, hways⟩

end ProxyFleet
