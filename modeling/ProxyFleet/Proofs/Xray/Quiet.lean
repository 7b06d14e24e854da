import ProxyFleet.Proofs.Xray.Clients

/-!
# Xray listeners are read without a note

Whatever stands in the stream of a written listener under the name of some settings is a
record, be it the settings of the transport or, where a transport is called `tls` or
`reality`, those of the security. So a listener that Xray can serve and that has a type is
read back without a note, whatever its transport is called (`readInbound_quietly`).
-/

namespace ProxyFleet

namespace Xray

open Fields

variable {i : Inbound}

/-! ## Streams -/

theorem streamFields_parts {type : String} {settings : Option Value} {tls : Option Tls}
    (hsettings : ∀ v ∈ settings, ∃ fs, v = .obj fs) {f : String × Value}
    (hf : f ∈ streamFields type settings tls) :
    f.1 = "network" ∨ f.1 = "security" ∨ ∃ fs, f.2 = .obj fs := by
  rcases mem_putAll hf with hf | hf
  · rcases mem_putAll hf with hf | hf
    · exact .inl (List.mem_singleton.1 hf ▸ rfl)
    · obtain ⟨v, hv, rfl⟩ := List.mem_map.1 hf
      exact .inr (.inr (hsettings v (Option.mem_toList.1 hv)))
  · obtain ⟨hw, -⟩ | ⟨t, -, -, -, hw⟩ | ⟨t, -, r, -, -, hw⟩ := writeSecurity_cases tls <;>
      rw [hw] at hf
    · exact .inr (.inl (List.mem_singleton.1 hf ▸ rfl))
    · rcases List.mem_cons.1 hf with rfl | hf
      · exact .inr (.inl rfl)
      · rw [List.mem_singleton.1 hf]
        exact .inr (.inr ⟨_, writeTls_eq t⟩)
    · rcases List.mem_cons.1 hf with rfl | hf
      · exact .inr (.inl rfl)
      · rw [List.mem_singleton.1 hf]
        exact .inr (.inr ⟨_, writeReality_eq r t⟩)

/-- What stands in a stream under the name of settings, if anything does, is a record. -/
theorem isPart_settings {type : String} {settings : Option Value}
    (hsettings : ∀ v ∈ settings, ∃ fs, v = .obj fs) (tls : Option Tls) (name : String) :
    (get (Value.rereadFields [] (streamFields type settings tls)) (name ++ "Settings")).IsPart := by
  refine (streamFields_holds type settings tls _).isPart_reread ?_
  rcases get_absent_or_mem (streamFields type settings tls) (name ++ "Settings") with h | h
  · exact .inl h
  · obtain hn | hn | hobj := streamFields_parts hsettings h
    · exact absurd hn (settings_ne_network name)
    · exact absurd hn (settings_ne_security name)
    · exact .inr hobj

theorem readTransport_quiet {fs : Fields} (h : ∀ name, (get fs (name ++ "Settings")).IsPart)
    (network : String) : Noted.Quiet (readTransport fs network) := by
  unfold readTransport
  split
  · exact .pure none
  · dsimp only
    obtain hnone | ⟨gs, hgs⟩ := h (if network = "h2" then "http" else network)
    · rw [hnone]
      exact .pure _
    · rw [hgs]
      exact .pure _

theorem stream_quiet (i : Inbound) : Noted.Quiet
    (readStream (.ofOption (fun fs => .obj (Value.rereadFields [] fs)) (stream i))) := by
  have hstream : ∀ type settings, (∀ v ∈ settings, ∃ fs, v = .obj fs) →
      Noted.Quiet (readStream (.obj (Value.rereadFields [] (streamFields type settings i.tls)))) :=
    fun type settings hsettings =>
      (readTransport_quiet (isPart_settings hsettings i.tls) _).bind fun _ =>
        Noted.Quiet.bind ⟨_, fun place => readSecurity_written type settings i.tls place⟩
          fun _ => .pure _
  unfold stream
  cases i.transport with
  | none =>
      dsimp only
      split
      · exact hstream "tcp" none nofun
      · exact .pure _
  | some t =>
      refine hstream t.type (transportSettings t) fun v hv => ?_
      unfold transportSettings at hv
      split at hv
      · cases hv
      · cases hv
        exact ⟨_, writeTransportSettings_eq t⟩

/-! ## The listener -/

/-- A listener with a type is read back without a note, under its type and its tag. -/
theorem readInbound_quietly (hnamed : i.type ≠ "") : ∃ j, (j.type = i.type ∧ j.tag = i.tag) ∧
    ∀ n, readInbound (Value.rereadFields [] (written i)) n = pure (some j) := by
  obtain ⟨settings, hwritten, hsettings⟩ := readSettings_written i
  obtain ⟨parts, hparts⟩ := stream_quiet i
  have hread : ∀ n, readInbound (Value.rereadFields [] (written i)) n = pure (some { i with
      listen := firstText i.listen "0.0.0.0"
      listenPort := (get (Value.rereadFields [] (written i)) "port").asInt
      transport := parts.1
      tls := parts.2
      multiplex := none
      users := usersBack i
      options := optionsBack i }) := by
    intro n
    obtain ⟨place, hread⟩ := readInbound_written hnamed hwritten n
    rw [hread, hsettings, pure_bind, hparts, pure_bind]
  refine ⟨_, ?_, hread⟩
  exact ⟨rfl, rfl⟩

/-- A written listener has a protocol, which only Xray listeners have. -/
theorem looks_written (i : Inbound) :
    ConfigFile.hasXrayField (Value.rereadFields [] (written i)) = true := by
  have hprotocol : get (Value.rereadFields [] (written i)) "protocol" ≠ .absent := by
    have hholds : Holds (written i) "protocol" (.str i.type) := head_holds i (by decide)
    rw [hholds.reread nofun, Value.reread]
    exact nofun
  rw [ConfigFile.hasXrayField, has_of_get_ne_absent hprotocol, Bool.true_or]

end Xray

end ProxyFleet
