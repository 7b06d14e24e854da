import ProxyFleet.Proofs.SingBox.Options
import ProxyFleet.Proofs.SingBox.Parts

/-!
# Sing-box listeners that were read

What reading makes of a listener is a record of its parts, each of the shape that
its own reader gives it (`IsRead`). What is written of a listener is a list of
fields, one part behind the other (`written`). Each of the fields is found again in
what was written, so reading takes it apart into the same parts.
-/

namespace ProxyFleet

namespace SingBox

open Fields

variable {i j : Inbound} {el : Fields} {n : String} {v : Value}

/-! ## Reading -/

/-- A listener as it is read. If it has no clients it has no password of its own either, as that
is the password of a client then. -/
structure IsRead (i : Inbound) : Prop where
  named : i.type ≠ ""
  port : i.listenPort.Counted
  transport : ∀ t ∈ i.transport, t.type ≠ "" ∧ Transport.HeadersRead t.headers
  tls : ∀ t ∈ i.tls, TlsRead t
  multiplex : ∀ m ∈ i.multiplex, ∀ b ∈ m.brutal, BrutalRead b
  names : (i.options.map Prod.fst).Sublist optionNames
  options : ∀ f ∈ i.options, f.2.Stable ∧ f.2.isData = true
  secret : i.type = "shadowsocks" → i.users = [] → textOf i.options "password" = ""

theorem shadowsocksUsers_options (users : List User) (options : Fields) :
    (shadowsocksUsers users options).2.Sublist options ∧
      ((shadowsocksUsers users options).1 = [] →
        textOf (shadowsocksUsers users options).2 "password" = "") := by
  unfold shadowsocksUsers
  dsimp only
  split
  · exact ⟨List.filter_sublist, nofun⟩
  · next hsecret =>
      refine ⟨.refl _, fun hnone => ?_⟩
      rw [List.map_eq_nil_iff] at hnone
      unfold textOf
      cases hpassword : get options "password" with
      | str p => exact absurd hpassword (hsecret p hnone)
      | _ => rfl

/-- The clients and the options that are read of a listener. -/
def clientsRead (type : String) (found : List User) (options : Fields) : List User × Fields :=
  if type = "shadowsocks" then shadowsocksUsers found options else (found, options)

theorem clientsRead_options (type : String) (found : List User) (options : Fields) :
    (clientsRead type found options).2.Sublist options := by
  unfold clientsRead
  split
  · exact (shadowsocksUsers_options found options).1
  · exact .refl _

/-- A listener with a type is read part by part. -/
theorem readInbound_value {type : String} (htype : textOf el "type" = type) (hnamed : type ≠ "")
    (index : Nat) : ∃ place,
      let clients := clientsRead type (readUsers type (get el "users") place).value (readOptions el)
      (readInbound el index).value = some {
        type := type
        tag := textOf el "tag"
        listen := textOf el "listen"
        listenPort := (get el "listen_port").asInt
        transport := (readTransport (get el "transport") place).value
        tls := (readTls (get el "tls") place).value
        multiplex := (readMultiplex (get el "multiplex") place).value
        users := clients.1
        options := clients.2 } := by
  subst htype
  refine ⟨Inbound.label (textOf el "tag") index, ?_⟩
  unfold readInbound
  dsimp only
  rw [if_neg hnamed]
  rfl

theorem readInbound_isRead {index : Nat} (h : (Value.obj el).Settled)
    (hread : (readInbound el index).value = some i) : IsRead i := by
  have hnamed : textOf el "type" ≠ "" := by
    intro hempty
    unfold readInbound at hread
    dsimp only at hread
    rw [if_pos hempty] at hread
    cases hread
  obtain ⟨place, hvalue⟩ := readInbound_value rfl hnamed index
  rw [hvalue] at hread
  cases hread
  have hoptions := clientsRead_options (textOf el "type")
    (readUsers (textOf el "type") (get el "users") place).value (readOptions el)
  exact {
    named := hnamed
    port := Value.counted_asInt (h.get "listen_port")
    transport := fun t ht => readTransport_read (h.get "transport") ht
    tls := fun t ht => readTls_read (h.get "tls") ht
    multiplex := fun m hm => readMultiplex_read (h.get "multiplex") hm
    names := (hoptions.map Prod.fst).trans (readOptions_names el)
    options := fun f hf => readOptions_stable h f (hoptions.subset hf)
    secret := by
      dsimp only
      intro htype
      rw [clientsRead, if_pos htype]
      exact (shadowsocksUsers_options _ _).2 }

/-- The same if no part of it has a note. -/
theorem readInbound_quiet {type : String} {found : List User} {transport : Option Transport}
    {tls : Option Tls} {multiplex : Option Multiplex} (htype : textOf el "type" = type)
    (hnamed : type ≠ "") (husers : ∀ place, readUsers type (get el "users") place = pure found)
    (htls : ∀ place, readTls (get el "tls") place = pure tls)
    (hmultiplex : ∀ place, readMultiplex (get el "multiplex") place = pure multiplex)
    (htransport : ∀ place, readTransport (get el "transport") place = pure transport)
    (index : Nat) : readInbound el index = pure (some {
      type, transport, tls, multiplex
      tag := textOf el "tag"
      listen := textOf el "listen"
      listenPort := (get el "listen_port").asInt
      users := (clientsRead type found (readOptions el)).1
      options := (clientsRead type found (readOptions el)).2 }) := by
  subst htype
  unfold readInbound
  dsimp only
  rw [if_neg hnamed, husers, htls, hmultiplex, htransport]
  rfl

/-! ## Writing -/

/-- The options of a listener that sing-box can write, in whatever order. -/
structure OptionsListed (i : Inbound) : Prop where
  nodup : (i.options.map Prod.fst).Nodup
  named : ∀ f ∈ i.options, f.1 ∈ optionNames

theorem IsRead.optionsListed (h : IsRead i) : OptionsListed i :=
  ⟨h.names.nodup (by decide), fun _ hf => h.names.subset (List.mem_map_of_mem hf)⟩

/-- What is written of the options of a listener. -/
def optionsWritten (i : Inbound) : Fields :=
  i.options.filterMap (writtenOption (clientFields i).2)

/-- What is written of the transport of a listener. -/
def transportWritten (i : Inbound) : Option Value :=
  i.transport.bind fun t =>
    if t.type ∈ transportNames then some (.obj (compact (transportFields t))) else none

/-- What is written of a listener, part by part. -/
def written (i : Inbound) : Fields :=
  headFields i ++ (clientFields i).1 ++ optionsWritten i
    ++ (i.tls.toList.map fun t => ("tls", .obj (compact (tlsFields t))))
    ++ (i.multiplex.toList.map fun m => ("multiplex", writeMultiplex m))
    ++ ((transportWritten i).toList.map fun t => ("transport", t))

theorem has_headFields (i : Inbound) (h : n ∉ ["type", "tag", "listen", "listen_port"]) :
    has (headFields i) n = false := by
  refine List.any_eq_false.2 fun f hf heq => h ?_
  rw [← beq_iff_eq.1 heq]
  exact List.mem_map_of_mem hf

theorem has_clientFields_option (i : Inbound) (hn : n ∈ optionNames)
    (hhandled : n ∉ (clientFields i).2) : has (clientFields i).1 n = false := by
  have husers : n ≠ "users" := by
    rintro rfl
    exact absurd hn (by decide)
  unfold clientFields at hhandled ⊢
  split
  · next htype =>
      rw [if_pos htype] at hhandled
      simp only [List.mem_cons, List.not_mem_nil, or_false, not_or] at hhandled
      have hclients := has_clientFields i ⟨husers, hhandled⟩
      rwa [clientFields, if_pos htype] at hclients
  · exact has_itemsField husers _

theorem has_headFields_option (i : Inbound) (hn : n ∈ optionNames) :
    has (headFields i) n = false :=
  has_headFields i fun hmem => absurd hn
    ((by decide : ∀ m ∈ ["type", "tag", "listen", "listen_port"], m ∉ optionNames) n hmem)

/-- Options have names of their own among what is written before them. -/
theorem has_beforeOptions (i : Inbound) (hn : n ∈ optionNames) (hhandled : n ∉ (clientFields i).2) :
    has (headFields i ++ (clientFields i).1) n = false :=
  has_append_false (has_headFields_option i hn) (has_clientFields_option i hn hhandled)

theorem writeInbound_written (h : OptionsListed i) (index : Nat) :
    (writeInbound i index).value = written i := by
  have hoptions := writeOptions_value (Inbound.label i.tag index) h.nodup fun f hf =>
    ⟨h.named f hf, fun hhandled => has_beforeOptions i (h.named f hf) hhandled⟩
  rw [writeInbound_value, hoptions]
  simp only [writeTls_value, writeTransport_value]
  rfl

/-- A listener all of which sing-box has a place for. -/
structure Fits (i : Inbound) : Prop where
  options : ∀ f ∈ i.options, HasPlace f
  tls : ∀ t ∈ i.tls, TlsRead t
  transport : ∀ t ∈ i.transport, t.type ∈ transportNames

theorem writeInbound_fits (hlisted : OptionsListed i) (h : Fits i) (index : Nat) :
    writeInbound i index = pure (written i) := by
  have hoptions : ∀ out : Fields, (i.options.foldlM (fun out f => writeOption (clientFields i).2
      (Inbound.label i.tag index) out f.1 f.2) out : Noted Fields).notes = [] :=
    fun _ => writeOptions_notes _ h.options
  refine Noted.eq_pure (writeInbound_written hlisted index) ?_
  unfold writeInbound
  simp only [Noted.bind_notes, hoptions]
  cases ht : i.tls with
  | none =>
      cases hw : i.transport with
      | none => rfl
      | some w => simp [writeTransport_eq (h.transport w hw)]
  | some t =>
      cases hw : i.transport with
      | none => simp [writeTls_eq (h.tls t ht)]
      | some w => simp [writeTls_eq (h.tls t ht), writeTransport_eq (h.transport w hw)]

/-! ## The fields of a written listener -/

theorem headFields_nodup (i : Inbound) : ((headFields i).map Prod.fst).Nodup :=
  (by decide : ["type", "tag", "listen", "listen_port"].Nodup)

section Parts

variable (i : Inbound) (index : Nat)

theorem head_written (hn : n ∈ ["type", "tag", "listen", "listen_port"]) :
    Holds (writeInbound i index).value n (get (headFields i) n) := by
  have hother : ∀ m ∈ ["type", "tag", "listen", "listen_port"],
      (m ≠ "users" ∧ m ≠ "method" ∧ m ≠ "password") ∧ m ∉ optionNames ∧
        m ≠ "tls" ∧ m ≠ "multiplex" ∧ m ≠ "transport" := by decide
  obtain ⟨hclients, hoption, hparts⟩ := hother n hn
  exact writeInbound_holds ((Holds.get_of_nodup (headFields_nodup i) n).append
    (has_clientFields i hclients)) (.inl hoption) hparts index

/-- Before the parts there is no field of the name of a part, nor of any other name that neither
the head nor the clients nor an option has. -/
theorem has_body (hn : n ∉ "users" :: optionNames ∧ n ∉ ["type", "tag", "listen", "listen_port"]) :
    has (i.options.foldlM (fun out f =>
      writeOption (clientFields i).2 (Inbound.label i.tag index) out f.1 f.2)
      (headFields i ++ (clientFields i).1) : Noted Fields).value n = false := by
  obtain ⟨hnames, hhead⟩ := hn
  rw [List.mem_cons, not_or] at hnames
  have hne : ∀ m ∈ optionNames, n ≠ m := by
    rintro m hm rfl
    exact hnames.2 hm
  have hclients := has_clientFields i
    ⟨hnames.1, hne "method" (by decide), hne "password" (by decide)⟩
  exact has_options hnames.2 _ i.options (has_append_false (has_headFields i hhead) hclients)

theorem tls_written : Holds (writeInbound i index).value "tls"
    (.ofOption (fun t => .obj (compact (tlsFields t))) i.tls) := by
  have hpart := (holds_part "tls" i.tls fun t =>
    (writeTls t (Inbound.label i.tag index)).value).append_left (has_body i index (by decide))
  simp only [writeTls_value] at hpart
  rw [writeInbound_value]
  simp only [writeTls_value]
  exact (hpart.append (has_part (by decide) i.multiplex _)).append (has_part (by decide) _ _)

theorem multiplex_written :
    Holds (writeInbound i index).value "multiplex" (.ofOption writeMultiplex i.multiplex) := by
  rw [writeInbound_value]
  exact ((holds_part "multiplex" i.multiplex _).append_left (has_append_false
    (has_body i index (by decide)) (has_part (by decide) i.tls _))).append (has_part (by decide) _ _)

theorem transport_written :
    Holds (writeInbound i index).value "transport" (.ofOption id (transportWritten i)) := by
  rw [writeInbound_value]
  simp only [writeTransport_value]
  exact (holds_part "transport" (transportWritten i) id).append_left (has_append_false
    (has_append_false (has_body i index (by decide)) (has_part (by decide) i.tls _))
    (has_part (by decide) i.multiplex _))

end Parts

section Holds

variable (h : OptionsListed i)

include h

theorem head_holds (hn : n ∈ ["type", "tag", "listen", "listen_port"]) :
    Holds (written i) n (get (headFields i) n) :=
  writeInbound_written h 0 ▸ head_written i 0 hn

theorem option_holds (hn : n ∈ optionNames) (hhandled : n ∉ (clientFields i).2) :
    Holds (written i) n (get (optionsWritten i) n) := by
  have hparts : ∀ m ∈ optionNames, m ≠ "tls" ∧ m ≠ "multiplex" ∧ m ≠ "transport" := by decide
  obtain ⟨htls, hmultiplex, htransport⟩ := hparts n hn
  have hnodup : ((optionsWritten i).map Prod.fst).Nodup :=
    (writtenOptions_names i.options).nodup h.nodup
  exact ((((Holds.get_of_nodup hnodup n).append_left (has_beforeOptions i hn hhandled)).append
    (has_part htls i.tls _)).append (has_part hmultiplex i.multiplex _)).append
    (has_part htransport (transportWritten i) _)

theorem tls_holds : Holds (written i) "tls"
    (.ofOption (fun t => .obj (compact (tlsFields t))) i.tls) :=
  writeInbound_written h 0 ▸ tls_written i 0

theorem multiplex_holds : Holds (written i) "multiplex" (.ofOption writeMultiplex i.multiplex) :=
  writeInbound_written h 0 ▸ multiplex_written i 0

theorem transport_holds : Holds (written i) "transport" (.ofOption id (transportWritten i)) :=
  writeInbound_written h 0 ▸ transport_written i 0

end Holds

end SingBox

end ProxyFleet
