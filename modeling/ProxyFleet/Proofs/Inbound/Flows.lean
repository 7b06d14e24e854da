import ProxyFleet.Proofs.Context.Fitting
import ProxyFleet.Proofs.Inbound.Accounts
import ProxyFleet.Proofs.SingBox.Listeners

/-!
# The flow of VLESS clients

The account of a VLESS subscriber always has the Vision flow (`Subscriber.account`), which
needs a protected stream. When the account is made nobody knows yet what protects the
listener, so it is the engine that has to take the flow away again. One does and one does
not: a sing-box record has a flow exactly if Reality is on, an Xray record has that of the
account.

What protects a listener is read off what was written of it (`Engine.secured`), as a core
would see it. A listener that lost its Reality to fitting and has no other security is the
case where the two engines part.
-/

namespace ProxyFleet

namespace Engine

/-- Whether a written listener is protected, by Reality or otherwise. -/
def secured : Engine → Fields → Bool
  | .singBox, native =>
    (Fields.get native "tls").isEnabled || ((Fields.get native "tls").get "reality").isEnabled
  | .xray, native =>
    ["tls", "reality"].contains ((Fields.get native "streamSettings").get "security").asText

/-- The flows of the clients in a written VLESS listener. -/
def flows (e : Engine) (native : Fields) : List Value :=
  (e.clientRecords "vless" native).map (·.get "flow")

end Engine

open Fields

variable {i : Inbound}

/-! ## Flows -/

/-- The flow of a subscriber's client, in a record for sing-box. -/
theorem SingBox.flow_writeUser (realityOn : Bool) (s : Subscriber) :
    (writeUser "vless" realityOn (s.account "vless").toUser).get "flow" =
      if realityOn then .str visionFlow else .absent := by
  have hholds := (Holds.get_of_nodup
    (userFields_nodup "vless" realityOn (s.account "vless").toUser) "flow").compact
  refine hholds.get_eq.trans ?_
  cases realityOn <;> rfl

/-- The flow of a subscriber's client, in a record for Xray. -/
theorem Xray.flow_clientFields (realityOn : Bool) (s : Subscriber) :
    (Value.obj (compact (clientFields "vless" realityOn (s.account "vless").toUser))).get "flow" =
      .str visionFlow := by
  have hholds := (Holds.get_of_nodup
    (clientFields_nodup "vless" realityOn (s.account "vless").toUser) "flow").compact
  refine hholds.get_eq.trans ?_
  cases realityOn <;> rfl

/-! ## Security -/

/-- Reality is written as it is, so it is seen to be on exactly if it is. -/
theorem SingBox.reality_isEnabled (t : Tls) :
    (get (compact (tlsFields t)) "reality").isEnabled = t.reality.any (·.enabled) := by
  have hnames : ((tlsFields t).map Prod.fst).Nodup :=
    (by decide : ["enabled", "server_name", "alpn", "certificate_path", "key_path",
      "reality"].Nodup)
  have hreality : get (compact (tlsFields t)) "reality" =
      (Value.ofOption writeReality t.reality).told :=
    (Holds.get_of_nodup hnames "reality").compact.get_eq
  rw [hreality]
  cases t.reality <;> rfl

theorem SingBox.secured_written (i : Inbound) (index : Nat) :
    Engine.singBox.secured (writeInbound i index).value =
      (i.tls.any (·.enabled) || i.realityOn) := by
  rw [Engine.secured, (tls_written i index).get_eq, Inbound.realityOn]
  cases i.tls with
  | none => rfl
  | some t => exact congrArg (t.enabled || ·) (reality_isEnabled t)

/-- The security of a stream is what is written for it. -/
theorem Xray.get_security_stream (type : String) (settings : Option Value) (tls : Option Tls) :
    ["tls", "reality"].contains (get (streamFields type settings tls) "security").asText =
      tls.any fun t => t.enabled || t.reality.any (·.enabled) := by
  have hget : ∀ {v}, ("security", v) ∈ writeSecurity tls →
      get (streamFields type settings tls) "security" = v := get_security
  obtain ⟨hw, hoff⟩ | ⟨t, ht, henabled, -, hw⟩ | ⟨t, ht, r, hr, henabled, hw⟩ :=
    writeSecurity_cases tls
  · rw [hget (by rw [hw]; exact List.mem_cons_self)]
    cases tls with
    | none => rfl
    | some t => simp [Value.asText, hoff t rfl]
  · cases ht
    rw [hget (by rw [hw]; exact List.mem_cons_self), Option.any_some, henabled]
    rfl
  · cases ht
    cases hr' : t.reality with
    | none => rw [hr'] at hr; cases hr
    | some r' =>
        rw [hr'] at hr
        cases hr
        rw [hget (by rw [hw]; exact List.mem_cons_self), Option.any_some, hr', Option.any_some,
          henabled, Bool.or_true]
        rfl

/-- Without a transport no stream is written unless security is switched on, whatever Reality
says. -/
theorem Xray.secured_written (i : Inbound) : Engine.xray.secured (written i) =
    (i.tls.any (·.enabled) || (i.transport.isSome && i.realityOn)) := by
  have hstream : get (written i) "streamSettings" = .ofOption .obj (stream i) :=
    ((holds_part "streamSettings" (stream i) Value.obj).append_left rfl).get_eq
  rw [Engine.secured, hstream, stream, Inbound.realityOn]
  cases i.transport with
  | some t =>
      refine (get_security_stream _ _ _).trans ?_
      cases i.tls <;> rfl
  | none =>
      cases htls : i.tls with
      | none => rfl
      | some t =>
          cases henabled : t.enabled with
          | false => simp [henabled, Value.ofOption, Value.get, Value.asText]
          | true =>
              rw [Option.any_some, henabled, if_pos rfl]
              refine (get_security_stream _ _ _).trans ?_
              simp [henabled]

/-! ## Listeners -/

namespace Engine

variable {e : Engine}

/-- A VLESS listener as an engine writes it for subscribers: the flow of each of them that is
enabled, and what protects the listener. -/
theorem flows_written (hvless : i.type = "vless") (e : Engine) (ss : List Subscriber) :
    ∃ native, (e.writeInbound (i.withSubscribers ss) 0).value = some native ∧
      e.flows native = (ss.filter (·.enabled)).map (fun _ =>
        if e = .xray ∨ i.realityOn = true then .str visionFlow else .absent) ∧
      e.secured native =
        (i.tls.any (·.enabled) || ((e = .singBox ∨ i.transport.isSome) && i.realityOn)) := by
  have hlisted : i.type ≠ "shadowsocks" := by rw [hvless]; decide
  cases e with
  | singBox =>
      refine ⟨_, rfl, ?_, ?_⟩
      · have hrecords := clientRecords_singBox hlisted ss
        rw [hvless] at hrecords
        rw [flows, hrecords, List.map_map]
        refine List.map_congr_left fun s _ => ?_
        simpa using SingBox.flow_writeUser i.realityOn s
      · refine (SingBox.secured_written (i.withSubscribers ss) 0).trans ?_
        simp [Inbound.withSubscribers, Inbound.realityOn]
  | xray =>
      have hserved : (i.withSubscribers ss).type ∉ Xray.unservable := by
        change i.type ∉ _
        rw [hvless]
        decide
      refine ⟨_, congrArg Noted.value (Xray.writeInbound_written hserved 0), ?_, ?_⟩
      · have hrecords := clientRecords_xray hlisted ss
        rw [hvless] at hrecords
        rw [flows, hrecords, List.map_map]
        refine List.map_congr_left fun s _ => ?_
        simpa [passworded] using Xray.flow_clientFields i.realityOn s
      · refine (Xray.secured_written (i.withSubscribers ss)).trans ?_
        simp [Inbound.withSubscribers, Inbound.realityOn]

/-- In what is written without protection, no client has a flow exactly if it is written for
sing-box, or for nobody. -/
theorem flowless_iff {native : Fields} {enabled : List Subscriber}
    (hflows : e.flows native = enabled.map fun _ =>
      if e = .xray ∨ i.realityOn = true then .str visionFlow else .absent)
    (hsecured : e.secured native =
      (i.tls.any (·.enabled) || ((e = .singBox ∨ i.transport.isSome) && i.realityOn)))
    (hopen : e.secured native = false) :
    (∀ flow ∈ e.flows native, flow = .absent) ↔ e = .singBox ∨ enabled = [] := by
  rw [hflows, List.forall_mem_map]
  cases e with
  | singBox =>
      rw [hopen] at hsecured
      have hoff : i.realityOn = false := by simpa using (Bool.or_eq_false_iff.1 hsecured.symm).2
      simp [hoff]
  | xray =>
      cases enabled with
      | nil => simp
      | cons s enabled =>
          refine iff_of_false (fun hnone => ?_) (by simp)
          have hs := hnone s List.mem_cons_self
          rw [if_pos (.inl rfl)] at hs
          cases hs

/-- Whoever is enabled has the Vision flow in what is written of a VLESS listener for Xray, and for
sing-box exactly if Reality is on. So of what is written without protection, a listener for sing-box
has no flow, and one for Xray has none only if it is written for nobody. This holds as well of what
fitting leaves of a listener, for an agent without Reality, if nothing else protects it. -/
theorem flows_of_subscribers {v users : Value} (hrecord : v.isInbound = true)
    (hread : Inbound.ofValue? v = some i) (hvless : i.type = "vless") (husers : users ≠ .absent) :
    let enabled := (Subscriber.listOf users).filter (·.enabled)
    (∃ native notes, e.writeFor v users = .ok ⟨.obj native, notes⟩ ∧
      e.flows native = enabled.map (fun _ =>
        if e = .xray ∨ i.realityOn = true then .str visionFlow else .absent) ∧
      (e.secured native = false →
        ((∀ flow ∈ e.flows native, flow = .absent) ↔ e = .singBox ∨ enabled = []))) ∧
    (∀ a : Agent, .reality ∉ a.capabilities → i.tls.any (·.enabled) = false →
      ∃ w notes native notes', Context.fitInbound a v = .ok ⟨w, notes⟩ ∧
        e.writeFor w users = .ok ⟨.obj native, notes'⟩ ∧ e.secured native = false ∧
        ((∀ flow ∈ e.flows native, flow = .absent) ↔ e = .singBox ∨ enabled = [])) := by
  intro enabled
  refine ⟨?_, fun a hlacks hplain => ?_⟩
  · obtain ⟨native, hnative, hflows, hsecured⟩ :=
      flows_written hvless e (Subscriber.listOf users)
    obtain ⟨notes, hwritten⟩ := writeFor_native hrecord hread husers hnative
    exact ⟨native, notes, hwritten, hflows, flowless_iff hflows hsecured⟩
  · obtain ⟨fs, rfl⟩ := (Inbound.reads_iff.1 hread).isRecord
    have hreads := Inbound.reads_iff.1 hread
    have hcut := Context.cut_reads (a := a) hreads
    obtain ⟨native, hnative, hflows, hsecured⟩ :=
      flows_written (i := i.fitted a) hvless e (Subscriber.listOf users)
    obtain ⟨notes, hwritten⟩ := writeFor_native (Context.cut_fits hreads).shaped
      (Inbound.reads_iff.2 hcut) husers hnative
    -- what is left has neither Reality nor any other security
    have hoff : (i.fitted a).realityOn = false := by
      rw [Inbound.fitted_realityOn, Inbound.lacks_reality, Agent.supports_name]
      simp [hlacks]
    have hplain' : (i.fitted a).tls.any (·.enabled) = false := by
      rw [Inbound.fitted]
      dsimp only
      split
      · rw [Option.any_map]
        exact hplain
      · exact hplain
    have hopen : e.secured native = false := by rw [hsecured, hplain', hoff]; simp
    exact ⟨_, _, native, notes, Context.fitInbound_ok hreads, hwritten, hopen,
      flowless_iff hflows hsecured hopen⟩

/-- A listener that only Reality protects. -/
def realityListener : Inbound where
  type := "vless"
  tag := "in"
  listen := "::"
  listenPort := 443
  transport := none
  tls := some ⟨false, "", [], "", "", some ⟨true, [], "", [], "", "", "key", none⟩⟩
  multiplex := none
  users := []
  options := []

/-- For sing-box the flows go together with Reality, if that is what fitting takes away. -/
theorem flows_of_subscribers_singBox :
    (∃ native notes, singBox.writeFor realityListener.toValue someSubscribers =
        .ok ⟨.obj native, notes⟩ ∧
      singBox.flows native = [.str visionFlow, .str visionFlow]) ∧
    ∃ w notes native notes', Context.fitInbound Context.plainAgent realityListener.toValue =
        .ok ⟨w, notes⟩ ∧
      singBox.writeFor w someSubscribers = .ok ⟨.obj native, notes'⟩ ∧
      singBox.secured native = false ∧ ∀ flow ∈ singBox.flows native, flow = .absent := by
  have hread := realityListener.ofValue?_toValue
  have hgiven : someSubscribers ≠ .absent := nofun
  obtain ⟨⟨native, notes, hwritten, hflows, -⟩, hfitted⟩ :=
    flows_of_subscribers (e := .singBox) rfl hread rfl hgiven
  obtain ⟨w, notes', native', notes'', hfit, hwritten', hopen, hnone⟩ :=
    hfitted Context.plainAgent (by decide) rfl
  exact ⟨⟨native, notes, hwritten, hflows⟩,
    w, notes', native', notes'', hfit, hwritten', hopen, hnone.2 (.inl rfl)⟩

/-- A listener that nothing protects, in the words of Xray: its client has a flow all the same. -/
theorem flow_unprotected :
    let listener : Inbound := ⟨"vless", "in", "::", 443, none, none, none, [], []⟩
    let users : Value := .arr [.obj [("uuid", .str "u1"), ("email", .str "ann@example.org"),
      ("enabled", .bool true)]]
    let native : Fields := [("protocol", .str "vless"), ("tag", .str "in"),
      ("listen", .str "::"), ("port", .num 443),
      ("settings", .obj [("clients", .arr [.obj [("id", .str "u1"),
        ("email", .str "ann@example.org"), ("level", .int 0),
        ("flow", .str "xtls-rprx-vision")]]), ("decryption", .str "none")])]
    xray.writeFor listener.toValue users = .ok ⟨.obj native, []⟩ ∧ xray.secured native = false :=
  ⟨rfl, rfl⟩

end Engine

end ProxyFleet
