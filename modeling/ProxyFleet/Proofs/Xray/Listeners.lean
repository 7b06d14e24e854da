import ProxyFleet.Proofs.Inbound.Files
import ProxyFleet.Proofs.Xray.Streams

/-!
# Xray listeners that are written and read

A listener that Xray can serve is written as five fields and, unless it is plain TCP
without security, its stream (`written`). Reading takes the settings and the stream
apart independently of each other.

Whether there is a stream depends on security as a whole, but which security stands in
it depends on Reality alone. So a listener with a transport has Reality when it comes
back, even if its security was switched off (`security_read_back`).
-/

namespace ProxyFleet

namespace Xray

open Fields

variable {i j : Inbound} {el : Fields}

/-! ## Writing -/

/-- What is written of a listener that Xray can serve. -/
def written (i : Inbound) : Fields :=
  [("protocol", .str i.type), ("tag", .str i.tag), ("listen", .str (firstText i.listen "0.0.0.0")),
    ("port", .num i.listenPort), ("settings", writeSettings i)]
    ++ (stream i).toList.map fun fs => ("streamSettings", .obj fs)

theorem writeInbound_written (h : i.type ∉ unservable) (index : Nat) :
    writeInbound i index = ⟨some (written i), lossNotes i (Inbound.label i.tag index)⟩ := by
  unfold writeInbound written
  rw [if_neg fun hmem => h (List.contains_iff_mem.1 hmem), writeStream_eq]
  cases stream i <;> rfl

theorem servable_of_written {native : Fields} {index : Nat}
    (h : (writeInbound i index).value = some native) : i.type ∉ unservable := by
  intro hmem
  unfold writeInbound at h
  rw [if_pos (List.contains_iff_mem.2 hmem)] at h
  cases h

/-! ## Reading back -/

/-- A listener with a protocol is read from its settings and its stream. -/
theorem readInbound_parts {settings : Fields} {type : String}
    (htype : textOf el "protocol" = type) (hnamed : type ≠ "")
    (hsettings : get el "settings" = .obj settings) (index : Nat) : ∃ place,
    readInbound el index = (do
      let clients ← readSettings type settings place
      let stream ← readStream (get el "streamSettings") place
      pure (some {
        type := type
        tag := textOf el "tag"
        listen := textOf el "listen"
        listenPort := (get el "port").asInt
        transport := stream.1
        tls := stream.2
        multiplex := none
        users := clients.1
        options := clients.2 })) := by
  subst htype
  refine ⟨Inbound.label (textOf el "tag") index, ?_⟩
  unfold readInbound
  dsimp only
  rw [if_neg hnamed, hsettings]
  rfl

theorem head_holds (i : Inbound) {n : String}
    (hn : n ∈ ["protocol", "tag", "listen", "port", "settings"]) :
    Holds (written i) n (get [("protocol", .str i.type), ("tag", .str i.tag),
      ("listen", .str (firstText i.listen "0.0.0.0")), ("port", .num i.listenPort),
      ("settings", writeSettings i)] n) := by
  have hnames : ([("protocol", .str i.type), ("tag", .str i.tag),
      ("listen", .str (firstText i.listen "0.0.0.0")), ("port", .num i.listenPort),
      ("settings", writeSettings i)].map (Prod.fst : String × Value → String)).Nodup :=
    (by decide : ["protocol", "tag", "listen", "port", "settings"].Nodup)
  refine (Holds.get_of_nodup hnames n).append (has_part ?_ (stream i) _)
  rintro rfl
  exact absurd hn (by decide)

/-- The stream of a written listener is found in it. -/
theorem get_streamSettings (i : Inbound) :
    get (Value.rereadFields [] (written i)) "streamSettings" =
      .ofOption (fun fs => .obj (Value.rereadFields [] fs)) (stream i) := by
  have hother : has [("protocol", Value.str i.type), ("tag", .str i.tag),
      ("listen", .str (firstText i.listen "0.0.0.0")), ("port", .num i.listenPort),
      ("settings", writeSettings i)] "streamSettings" = false := rfl
  have hholds : Holds (written i) "streamSettings" (.ofOption .obj (stream i)) :=
    (holds_part "streamSettings" (stream i) Value.obj).append_left hother
  exact hholds.reread_part

theorem writeSettings_obj (i : Inbound) : ∃ settings, writeSettings i = .obj settings := by
  unfold writeSettings
  dsimp only
  split
  · exact ⟨_, rfl⟩
  · split
    · exact ⟨_, rfl⟩
    · split
      · unfold shadowsocksSettings
        dsimp only
        split
        · split <;> exact ⟨_, rfl⟩
        · exact ⟨_, rfl⟩
      · split <;> exact ⟨_, rfl⟩

/-- What is written of a listener is read as its parts. -/
theorem readInbound_written {settings : Fields} (hnamed : i.type ≠ "")
    (hsettings : writeSettings i = .obj settings) (index : Nat) : ∃ place,
    readInbound (Value.rereadFields [] (written i)) index = (do
      let clients ← readSettings i.type (Value.rereadFields [] settings) place
      let stream ← readStream
        (.ofOption (fun fs => .obj (Value.rereadFields [] fs)) (stream i)) place
      pure (some {
        type := i.type
        tag := i.tag
        listen := firstText i.listen "0.0.0.0"
        listenPort := (get (Value.rereadFields [] (written i)) "port").asInt
        transport := stream.1
        tls := stream.2
        multiplex := none
        users := clients.1
        options := clients.2 })) := by
  have htype : textOf (Value.rereadFields [] (written i)) "protocol" = i.type :=
    (head_holds i (by decide)).textOf_reread
  have htag : textOf (Value.rereadFields [] (written i)) "tag" = i.tag :=
    (head_holds i (by decide)).textOf_reread
  have hlisten : textOf (Value.rereadFields [] (written i)) "listen" =
      firstText i.listen "0.0.0.0" := (head_holds i (by decide)).textOf_reread
  have hread : get (Value.rereadFields [] (written i)) "settings" =
      .obj (Value.rereadFields [] settings) := by
    have hholds : Holds (written i) "settings" (writeSettings i) := head_holds i (by decide)
    rw [hsettings] at hholds
    rw [hholds.reread nofun, Value.reread]
  obtain ⟨place, hparts⟩ := readInbound_parts htype hnamed hread index
  refine ⟨place, ?_⟩
  rw [hparts, get_streamSettings, htag, hlisten]

/-! ## The stream -/

/-- What comes back of the security of a listener. Without a stream there is none. -/
def tlsBack (i : Inbound) : Option Tls :=
  if i.transport.isSome || i.tls.any (·.enabled) then sentTls i.tls else none

theorem readStream_tls (i : Inbound) (place : String) : (readStream
      (.ofOption (fun fs => .obj (Value.rereadFields [] fs)) (stream i)) place).value.2 =
        tlsBack i := by
  have hread : ∀ type settings, (readStream
      (.obj (Value.rereadFields [] (streamFields type settings i.tls))) place).value.2 =
        sentTls i.tls := fun type settings =>
    congrArg Noted.value (readSecurity_written type settings i.tls place)
  unfold stream tlsBack
  cases i.transport with
  | none =>
      dsimp only
      split
      · next henabled => exact (hread _ _).trans (if_pos henabled).symm
      · next hoff => exact (if_neg hoff).symm
  | some t => exact hread _ _

/-- A stream without a transport that looks like plain TCP is read without a note. -/
theorem readStream_written (h : ∀ t ∈ i.transport,
      t.type ∉ ["", "tcp", "raw", "h2"] ∧ Transport.HeadersRead t.headers) (place : String) :
    readStream (.ofOption (fun fs => .obj (Value.rereadFields [] fs)) (stream i)) place =
      pure (i.transport.map (sentTransport · i.tls), tlsBack i) := by
  have hstream : ∀ type settings transport, (∀ place,
      let stream := Value.rereadFields [] (streamFields type settings i.tls)
      readTransport stream (textOf stream "network") place = pure transport) →
      readStream (.obj (Value.rereadFields [] (streamFields type settings i.tls))) place =
        pure (transport, sentTls i.tls) := by
    intro type settings transport htransport
    unfold readStream
    dsimp only
    rw [htransport, pure_bind, readSecurity_written]
    rfl
  unfold stream tlsBack
  cases ht : i.transport with
  | none =>
      rw [Option.isSome_none, Bool.false_or]
      dsimp only
      split
      · exact hstream _ _ _ fun place => readTransport_tcp i.tls place
      · rfl
  | some t =>
      obtain ⟨htype, hheaders⟩ := h t ht
      exact hstream _ _ _ fun place => readTransport_written hheaders htype i.tls place

/-! ## Reading -/

/-- A listener as it is read. Plain TCP is no transport, and HTTP/2 is called `http`. -/
structure IsRead (i : Inbound) : Prop where
  named : i.type ≠ ""
  transport : ∀ t ∈ i.transport,
    t.type ∉ ["", "tcp", "raw", "h2"] ∧ Transport.HeadersRead t.headers

theorem readTransport_read {fs : Fields} {network place : String} {t : Transport}
    (h : (Value.obj fs).Settled) (hread : (readTransport fs network place).value = some t) :
    t.type ∉ ["", "tcp", "raw", "h2"] ∧ Transport.HeadersRead t.headers := by
  unfold readTransport at hread
  split at hread
  · cases hread
  · next hnetwork =>
      dsimp only at hread
      generalize htype : (if network = "h2" then "http" else network) = type at hread
      have hnamed : type ∉ ["", "tcp", "raw", "h2"] := by
        rw [← htype]
        split
        · decide
        · next hh2 => simpa [hh2, and_assoc] using hnetwork
      have hsettings := h.get (type ++ "Settings")
      split at hread
      · cases hread
        exact ⟨hnamed, .nil, nofun⟩
      · cases hread
        exact ⟨hnamed, .nil, nofun⟩
      · next gs hgs =>
          rw [hgs] at hsettings
          cases hread
          exact ⟨hnamed, Transport.hostAndHeaders_read (hsettings.resolve_left nofun)⟩
      · cases hread
        exact ⟨hnamed, .nil, nofun⟩

theorem readStream_read {v : Value} {place : String} {t : Transport}
    (h : v = .absent ∨ v.Settled) (hread : (readStream v place).value.1 = some t) :
    t.type ∉ ["", "tcp", "raw", "h2"] ∧ Transport.HeadersRead t.headers := by
  cases v with
  | obj fs => exact readTransport_read (h.resolve_left nofun) hread
  | _ => cases hread

theorem readInbound_isRead {index : Nat} (h : (Value.obj el).Settled)
    (hread : (readInbound el index).value = some i) : IsRead i := by
  unfold readInbound at hread
  dsimp only at hread
  split at hread
  · cases hread
  · next hnamed =>
      split at hread <;> cases hread <;>
        exact ⟨hnamed, fun t ht => readStream_read (h.get "streamSettings") ht⟩

/-! ## Security -/

/-- The protection that comes back is the one of the listener, unless there is a transport. -/
theorem security_tlsBack (i : Inbound) : ((tlsBack i).map Tls.security).getD .none =
    if i.transport.isSome && i.realityOn then .reality else i.security := by
  unfold tlsBack
  cases ht : i.transport with
  | some t => exact security_sentTls i.tls
  | none =>
      cases htls : i.tls with
      | none => simp [Inbound.security, htls]
      | some t =>
          cases henabled : t.enabled with
          | true =>
              cases hreality : t.reality.any (·.enabled) <;>
                simp [Inbound.security, htls, Tls.security, henabled, hreality, security_sentTls]
          | false => simp [Inbound.security, htls, Tls.security, henabled]

/-- One engine, one listener: the security of what is read of a written listener. -/
theorem security_read_back (hnamed : i.type ≠ "") (index : Nat) : ∃ j,
    (readInbound (Value.rereadFields [] (written i)) index).value = some j ∧ j.type = i.type ∧
      j.security = if i.transport.isSome && i.realityOn then .reality else i.security := by
  obtain ⟨settings, hsettings⟩ := writeSettings_obj i
  obtain ⟨place, hread⟩ := readInbound_written hnamed hsettings index
  rw [hread]
  refine ⟨_, rfl, rfl, ?_⟩
  rw [Inbound.security, ← security_tlsBack, ← readStream_tls i place]

/-- The protection of a listener comes back from whatever file it was written to, with one
exception. A listener with a transport has Reality afterwards if Reality is switched on, even if
security is switched off. -/
theorem security_comes_back (hserved : i.type ∉ unservable) (hnamed : i.type ≠ "") (index : Nat) :
    ∃ native, (writeInbound i index).value = some native ∧
      ∀ doc, ConfigFile.HasListeners [.obj native] doc → ∀ l file, ∃ j notes,
        read file (String.ofList (Printer.value l 0 doc)) = .ok ⟨[j], notes⟩ ∧ j.type = i.type ∧
        j.security = if i.transport.isSome && i.realityOn then .reality else i.security := by
  obtain ⟨j, hj, htype, hsecurity⟩ := security_read_back (i := i) hnamed 0
  refine ⟨written i, by rw [writeInbound_written hserved], fun doc hdoc l file => ?_⟩
  obtain ⟨notes, hfile⟩ := Engine.read_written (e := .xray) hdoc hj file l 0
  exact ⟨j, notes, hfile, htype, hsecurity⟩

/-- A listener on web sockets with Reality that is ready to be used, while security is switched
off. -/
def switchedOff : Inbound where
  type := "trojan"
  tag := "in"
  listen := "::"
  listenPort := 443
  transport := some (Transport.ofType "ws")
  tls := some { Tls.off with
    serverName := "example.org"
    reality := some { Reality.off with
      enabled := true
      serverName := "example.org"
      privateKey := "k"
      handshake := some ⟨"example.org", 443⟩ } }
  multiplex := none
  users := [⟨"", "", "p", "", ""⟩]
  options := []

theorem security_comes_back_plain : "trojan" ∉ unservable ∧ "trojan" ≠ "" ∧
    let plain : Inbound := { switchedOff with
      tls := some { Tls.off with enabled := true, serverName := "example.org" } }
    ∃ native, (writeInbound plain 0).value = some native ∧
      ∀ doc, ConfigFile.HasListeners [.obj native] doc → ∀ l file, ∃ j notes,
        read file (String.ofList (Printer.value l 0 doc)) = .ok ⟨[j], notes⟩ ∧
        j.type = "trojan" ∧ j.security = .tls :=
  ⟨by decide, by decide, security_comes_back (by decide) (by decide) 0⟩

/-- Security that is switched off is on when the listener comes back. -/
theorem security_switched_on : switchedOff.type ∉ unservable ∧ switchedOff.security = .none ∧
    ∃ native, (writeInbound switchedOff 0).value = some native ∧ ∃ j notes,
      read "config.json" (Value.obj [("inbounds", .arr [.obj native])]).tightText =
        .ok ⟨[j], notes⟩ ∧ j.security = .reality := by
  obtain ⟨j, hj, -, hsecurity⟩ := security_read_back (i := switchedOff) (by decide) 0
  have hserved : switchedOff.type ∉ unservable := by decide
  obtain ⟨notes, hread⟩ := Engine.read_written (e := .xray)
    (.alone [.obj (written switchedOff)]) hj "config.json" .tight 0
  exact ⟨hserved, by decide, written switchedOff, by rw [writeInbound_written hserved], j, notes,
    hread, hsecurity⟩

end Xray

end ProxyFleet
