import ProxyFleet.Proofs.SingBox.Listeners

/-!
# Sing-box listeners are read without a note

Reading notes whatever has the wrong shape. A listener may be of any kind, its options may
hold anything, and much of it may be lost in writing. But whatever is written has the shape
that its reader looks for, as no option is written under the name of a part
(`has_body`). So a listener with a type is read back without a note (`readInbound_quietly`).
-/

namespace ProxyFleet

namespace SingBox

open Fields

variable {v : Value}

/-! ## Parts of the right shape -/

theorem readUsers_quiet (type : String) (gs : List Fields) :
    Noted.Quiet (readUsers type (Value.arr (gs.map .obj)).told) := by
  cases gs with
  | nil => exact .pure []
  | cons g gs =>
      refine ⟨(g :: gs).map (readUser type), fun place => ?_⟩
      exact Noted.filterMap_quiet (e := Value.obj) (r := readUser type) fun _ _ _ => rfl

theorem readHandshake_quiet (h : v.IsPart) : Noted.Quiet (readHandshake v) := by
  obtain rfl | ⟨fs, rfl⟩ := h
  · exact .pure none
  · exact .pure _

theorem readReality_quiet {fs : Fields} (h : (get fs "handshake").IsPart) (serverName : String) :
    Noted.Quiet (readReality (.obj fs) serverName) := by
  cases fs with
  | nil => exact .pure none
  | cons f fs =>
      unfold readReality
      simp only [recordOr_fields (List.cons_ne_nil f fs), pure_bind]
      exact (readHandshake_quiet h).bind fun _ => .pure _

theorem readTls_quiet {fs : Fields}
    (h : ∀ serverName, Noted.Quiet (readReality (get fs "reality") serverName)) :
    Noted.Quiet (readTls (.obj fs)) := by
  cases fs with
  | nil => exact .pure none
  | cons f fs =>
      unfold readTls
      simp only [recordOr_fields (List.cons_ne_nil f fs), pure_bind]
      exact (h _).bind fun _ => .pure _

theorem readBrutal_quiet (h : v.IsPart) : Noted.Quiet (readBrutal v) := by
  obtain rfl | ⟨fs, rfl⟩ := h
  · exact .pure none
  · exact .pure _

theorem readMultiplex_quiet {fs : Fields} (h : (get fs "brutal").IsPart) :
    Noted.Quiet (readMultiplex (.obj fs)) := by
  cases fs with
  | nil => exact .pure none
  | cons f fs =>
      unfold readMultiplex
      simp only [recordOr_fields (List.cons_ne_nil f fs), pure_bind]
      exact (readBrutal_quiet h).bind fun _ => .pure _

theorem readTransport_quiet {fs : Fields} (h : textOf fs "type" ≠ "") :
    Noted.Quiet (readTransport (.obj fs)) :=
  ⟨_, fun place => readTransport_fields rfl h rfl place⟩

/-! ## Written parts -/

variable (i : Inbound) (index : Nat)

/-- The fields of a listener that is written and read back. -/
abbrev reread : Fields := Value.rereadFields [] (writeInbound i index).value

theorem users_quiet : Noted.Quiet (readUsers i.type (get (reread i index) "users")) := by
  obtain ⟨us, hlisted⟩ : ∃ us : List User, Holds (writeInbound i index).value "users"
      (Value.arr (us.map (writeUser i.type i.realityOn))).told := by
    by_cases hshadowsocks : i.type = "shadowsocks"
    · obtain ⟨-, us, -, husers, -⟩ := shadowsocksFields_hold hshadowsocks
      rw [hshadowsocks]
      exact ⟨us, shadowsocks_holds hshadowsocks (.inr (.inr rfl)) husers index⟩
    · exact ⟨i.users, users_written hshadowsocks index⟩
  have hrecords : (us.map (writeUser i.type i.realityOn)).map Value.reread =
      (us.map fun u => Value.rereadFields [] (compact (userFields i.type i.realityOn u))).map
        .obj := by
    rw [List.map_map, List.map_map]
    refine List.map_congr_left fun u _ => ?_
    change Value.reread (.obj _) = _
    rw [Value.reread]
    rfl
  rw [reread, get_told_array hlisted, hrecords]
  exact readUsers_quiet i.type _

/-- What is written of Reality is read without a note. -/
theorem reality_quiet (r : Reality) (serverName : String) : Noted.Quiet
    (readReality (.obj (Value.rereadFields [] (compact (realityFields r)))) serverName) := by
  refine readReality_quiet ?_ serverName
  rw [handshake_reread]
  exact Value.isPart_ofOption _ _

theorem tls_quiet : Noted.Quiet (readTls (get (reread i index) "tls")) := by
  rw [reread, (tls_written i index).reread_part]
  cases i.tls with
  | none => exact .pure none
  | some t =>
      refine readTls_quiet fun serverName => ?_
      rw [reality_reread]
      cases t.reality with
      | none => exact .pure none
      | some r => exact reality_quiet r serverName

theorem multiplex_quiet : Noted.Quiet (readMultiplex (get (reread i index) "multiplex")) := by
  have hholds := multiplex_written i index
  rw [funext writeMultiplex_eq] at hholds
  rw [reread, hholds.reread_part]
  cases i.multiplex with
  | none => exact .pure none
  | some m =>
      refine readMultiplex_quiet ?_
      rw [brutal_reread]
      exact Value.isPart_ofOption _ _

/-- A transport is written with its type. -/
theorem transportFields_type (t : Transport) :
    Holds (transportFields t) "type" (.str t.type) := by
  have hfirst : ∀ (type : String) (fs : Fields), t.type = type → has fs "type" = false →
      Holds (("type", .str type) :: fs) "type" (.str t.type) := by
    rintro _ fs rfl hfs
    have hsingle : ([("type", Value.str t.type)].map Prod.fst).Nodup :=
      (by decide : ["type"].Nodup)
    exact (Holds.get_of_nodup hsingle "type").append hfs
  unfold transportFields
  split
  · next h => exact hfirst "ws" _ h rfl
  · split
    · next h => exact hfirst "grpc" _ h rfl
    · split
      · next h => exact hfirst "http" _ h rfl
      · split
        · next h => exact hfirst "httpupgrade" _ h rfl
        · exact hfirst t.type [] rfl rfl

theorem transport_quiet : Noted.Quiet (readTransport (get (reread i index) "transport")) := by
  have hpart : transportWritten i = (i.transport.filter (·.type ∈ transportNames)).map fun t =>
      .obj (compact (transportFields t)) := by
    unfold transportWritten
    cases i.transport with
    | none => rfl
    | some t => by_cases ht : t.type ∈ transportNames <;> simp [Option.filter, ht]
  have hholds := transport_written i index
  rw [hpart] at hholds
  cases ht : i.transport.filter (·.type ∈ transportNames) with
  | none =>
      rw [ht] at hholds
      rw [reread, get_rereadFields_absent hholds.agree]
      exact .pure none
  | some t =>
      rw [ht] at hholds
      have hlisted := of_decide_eq_true (Option.filter_eq_some_iff.1 ht).2
      have htype : textOf (Value.rereadFields [] (compact (transportFields t))) "type" =
          t.type := by
        rw [(transportFields_type t).compact.textOf_reread, Value.asText_told]
        rfl
      have hnamed : t.type ≠ "" := fun hempty => absurd (hempty ▸ hlisted) (by decide)
      rw [reread, hholds.reread nofun]
      change Noted.Quiet (readTransport (Value.reread (.obj _)))
      rw [Value.reread]
      exact readTransport_quiet (htype ▸ hnamed)

/-! ## The listener -/

/-- A listener with a type is read back without a note, under its type and its tag. -/
theorem readInbound_quietly (hnamed : i.type ≠ "") : ∃ j, (j.type = i.type ∧ j.tag = i.tag) ∧
    ∀ n, readInbound (reread i index) n = pure (some j) := by
  have htype : textOf (reread i index) "type" = i.type :=
    (head_written i index (by decide)).textOf_reread
  have htag : textOf (reread i index) "tag" = i.tag :=
    (head_written i index (by decide)).textOf_reread
  obtain ⟨users, husers⟩ := users_quiet i index
  obtain ⟨tls, htls⟩ := tls_quiet i index
  obtain ⟨multiplex, hmultiplex⟩ := multiplex_quiet i index
  obtain ⟨transport, htransport⟩ := transport_quiet i index
  have hread := readInbound_quiet htype hnamed husers htls hmultiplex htransport
  refine ⟨_, ?_, hread⟩
  exact ⟨rfl, htag⟩

/-- A written listener has a type, and no field that only Xray listeners have. -/
theorem looks_written : ConfigFile.hasType (reread i index) = true ∧
    ConfigFile.hasXrayField (reread i index) = false := by
  have hnone : ∀ n, (n ∉ "users" :: optionNames ∧ n ∉ ["type", "tag", "listen", "listen_port"]) ∧
      n ≠ "tls" ∧ n ≠ "multiplex" ∧ n ≠ "transport" → has (reread i index) n = false := by
    rintro n ⟨hbody, htls, hmultiplex, htransport⟩
    refine (has_rereadFields ?_ []).trans rfl
    rw [writeInbound_value]
    exact has_append_false (has_append_false (has_append_false (has_body i index hbody)
      (has_part htls i.tls _)) (has_part hmultiplex i.multiplex _)) (has_part htransport _ _)
  refine ⟨?_, ?_⟩
  · rw [ConfigFile.hasType, reread, (head_written i index (n := "type") (by decide)).reread nofun]
    change (Value.reread (.str i.type)).text?.isSome = true
    rw [Value.reread]
    rfl
  · rw [ConfigFile.hasXrayField, hnone "protocol" (by decide), hnone "streamSettings" (by decide)]
    rfl

end SingBox

end ProxyFleet
