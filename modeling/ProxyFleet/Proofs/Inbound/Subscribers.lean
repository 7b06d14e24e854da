import ProxyFleet.Proofs.Inbound.Files
import ProxyFleet.Proofs.SingBox.Clients
import ProxyFleet.Proofs.Xray.Clients

/-!
# Subscribers come back as clients

A subscriber goes through three renamings before a core sees it: it becomes the
account of a protocol, the account a client of the listener, and the client a
record in the words of the engine. Reading what was written undoes the last one.
What is left is compared with the subscriber itself (`Subscriber.credentials`).

Where clients are listed, nobody is lost and nobody else comes in. Shadowsocks is
the exception. It gives the password of a client that is alone to the listener,
and so a password of the listener itself is taken for a client as soon as there
are none.
-/

namespace ProxyFleet

/-- The name, the identity and the password of a client. -/
def User.credentials (u : User) : String × String × String := (u.email, u.uuid, u.password)

/-- What a subscriber authenticates with under a protocol: its identity, as an identity, as a
password or as both. -/
def Subscriber.credentials (type : String) (s : Subscriber) : String × String × String :=
  (s.email, if type ∈ ["vless", "vmess", "tuic"] then s.uuid else "",
    if type ∈ ["trojan", "hysteria2", "tuic"] then s.uuid else "")

/-- The protocols of subscribers whose clients an engine lists one by one. -/
def Engine.listing : Engine → List String
  | .singBox => ["vless", "vmess", "trojan", "hysteria2", "tuic"]
  | .xray => ["vless", "vmess", "trojan"]

theorem SingBox.sentUser_credentials {type : String} (htype : type ∈ Engine.singBox.listing)
    (realityOn : Bool) (s : Subscriber) :
    (sentUser type realityOn (s.account type).toUser).credentials = s.credentials type := by
  rw [sentUser_eq]
  have hname : firstText s.email "" = s.email := firstText_empty s.email
  simp only [Engine.listing, List.mem_cons, List.not_mem_nil, or_false] at htype
  rcases htype with rfl | rfl | rfl | rfl | rfl
  · exact congrArg (·, s.uuid, "") hname
  · exact congrArg (·, s.uuid, "") hname
  · exact congrArg (·, "", s.uuid) hname
  · exact congrArg (·, "", s.uuid) hname
  · exact congrArg (·, s.uuid, s.uuid) hname

theorem Xray.sentClient_credentials {type : String} (htype : type ∈ Engine.xray.listing)
    (realityOn : Bool) (s : Subscriber) :
    (sentClient type realityOn (s.account type).toUser).credentials = s.credentials type := by
  rw [sentClient_eq]
  simp only [Engine.listing, List.mem_cons, List.not_mem_nil, or_false] at htype
  rcases htype with rfl | rfl | rfl <;> rfl

/-- The accounts of the enabled subscribers, each as it comes back. -/
theorem Subscriber.map_accounts {type : String} {ss : List Subscriber} {send : User → User}
    (h : ∀ s : Subscriber, (send (s.account type).toUser).credentials = s.credentials type) :
    (((accounts type ss).map Account.toUser).map send).map User.credentials =
      (ss.filter (·.enabled)).map (credentials type) := by
  rw [accounts, List.map_map, List.map_map, List.map_map]
  exact List.map_congr_left fun s _ => h s

/-- A listener with subscribers, written and read by one engine. -/
theorem Engine.listed_come_back {e : Engine} {i : Inbound} (h : i.type ∈ e.listing)
    (ss : List Subscriber) : ∃ native j,
      (e.writeInbound (i.withSubscribers ss) 0).value = some native ∧
      (e.readInbound (Value.rereadFields [] native) 0).value = some j ∧ j.type = i.type ∧
      j.users.map User.credentials = (ss.filter (·.enabled)).map (Subscriber.credentials i.type) := by
  have hne : ∀ type ∉ e.listing, i.type ≠ type := by
    rintro type htype rfl
    exact htype h
  cases e with
  | singBox =>
      obtain ⟨j, hj, hjtype, husers⟩ := SingBox.users_read_back (i := i.withSubscribers ss)
        (hne _ (by decide)) (hne _ (by decide)) 0 0
      refine ⟨_, j, rfl, hj, hjtype, ?_⟩
      rw [husers]
      exact Subscriber.map_accounts (SingBox.sentUser_credentials h _)
  | xray =>
      have hserved : i.type ∉ Xray.unservable := fun hmem =>
        (by decide : ∀ type ∈ Engine.xray.listing, type ∉ Xray.unservable) i.type h hmem
      obtain ⟨native, j, hnative, hj, hjtype, husers⟩ := Xray.users_read_back
        (i := i.withSubscribers ss) hserved (hne _ (by decide))
        ⟨hne _ (by decide), hne _ (by decide), hne _ (by decide)⟩ 0 0
      refine ⟨native, j, hnative, hj, hjtype, ?_⟩
      rw [husers]
      exact Subscriber.map_accounts (Xray.sentClient_credentials h _)

/-- Writing a listener for subscribers and reading the file it ends up in gives back the enabled
subscribers and nobody else, in their order, each with its own name and with its identity where
the protocol looks for it. The clients that were stored in the listener are gone. -/
theorem Engine.subscribers_come_back {e : Engine} {v users : Value} {i : Inbound}
    (hrecord : v.isInbound = true) (hread : Inbound.ofValue? v = some i)
    (hlisted : i.type ∈ e.listing) (husers : users ≠ .absent) :
    ∃ native notes, e.writeFor v users = .ok ⟨.obj native, notes⟩ ∧
      ∀ doc, ConfigFile.HasListeners [.obj native] doc → ∀ l file, ∃ j notes',
        e.read file (String.ofList (Printer.value l 0 doc)) = .ok ⟨[j], notes'⟩ ∧
        j.type = i.type ∧
        j.users.map User.credentials =
          ((Subscriber.listOf users).filter (·.enabled)).map (Subscriber.credentials i.type) := by
  obtain ⟨native, j, hnative, hj, hjtype, hcredentials⟩ :=
    listed_come_back hlisted (Subscriber.listOf users)
  obtain ⟨notes, hwritten⟩ := writeFor_native hrecord hread husers hnative
  refine ⟨native, notes, hwritten, fun doc hdoc l file => ?_⟩
  obtain ⟨notes', hfile⟩ := read_written hdoc hj file l 0
  exact ⟨j, notes', hfile, hjtype, hcredentials⟩

/-- Two subscribers that are enabled, one of them without a name, and one that is not. -/
def someSubscribers : Value :=
  .arr [.obj [("uuid", .str "u1"), ("email", .str "ann@example.org"), ("enabled", .bool true)],
    .obj [("uuid", .str "u2"), ("email", .str "bob@example.org"), ("enabled", .bool false)],
    .obj [("uuid", .str "u3"), ("email", .str ""), ("enabled", .bool true)]]

/-- A listener with a stored client and a password of its own. -/
def storedListener (type : String) : Inbound where
  type := type
  tag := "in"
  listen := ""
  listenPort := 8388
  transport := none
  tls := none
  multiplex := none
  users := [⟨"old", "old@example.org", "old", "", ""⟩]
  options := [("password", .str "server")]

theorem Engine.subscribers_come_back_tuic :
    ∃ native notes,
      Engine.singBox.writeFor (storedListener "tuic").toValue someSubscribers =
        .ok ⟨.obj native, notes⟩ ∧
      ∀ doc, ConfigFile.HasListeners [.obj native] doc → ∀ l file, ∃ j notes',
        Engine.singBox.read file (String.ofList (Printer.value l 0 doc)) = .ok ⟨[j], notes'⟩ ∧
        j.type = "tuic" ∧
        j.users.map User.credentials = [("ann@example.org", "u1", "u1"), ("", "u3", "u3")] :=
  Engine.subscribers_come_back rfl (storedListener "tuic").ofValue?_toValue (by decide) nofun

/-! ## Shadowsocks -/

/-- What becomes of a shadowsocks client that is alone. -/
def Engine.alone : Engine → User → List User
  | .singBox => SingBox.alone
  | .xray => Xray.alone

/-- A shadowsocks listener, written and read by one engine. -/
theorem Engine.admitted_come_back {e : Engine} {i : Inbound} (h : i.type = "shadowsocks") :
    ∃ native j, (e.writeInbound i 0).value = some native ∧
      (e.readInbound (Value.rereadFields [] native) 0).value = some j ∧ j.type = i.type ∧
      j.users = (i.admitted e.alone).map (User.underMethod i.shadowsocksMethod) := by
  cases e with
  | singBox =>
      obtain ⟨j, hj⟩ := SingBox.shadowsocks_read_back h 0 0
      exact ⟨_, j, rfl, hj⟩
  | xray => exact Xray.shadowsocks_read_back h 0 0

/-- The passwords of those that are let in, if the clients are subscribers: their identities. But
without subscribers the password of the listener itself lets one in, and for Xray a subscriber
that is alone and has no identity is lost. -/
theorem Inbound.passwords_admitted {i : Inbound} (h : i.type = "shadowsocks") (e : Engine)
    (ss : List Subscriber) :
    ((i.withSubscribers ss).admitted e.alone).map (·.password) =
      if ss.filter (·.enabled) = [] ∧ textOf i.options "password" ≠ "" then
        [textOf i.options "password"]
      else if e = .xray ∧ textOf i.options "password" = "" ∧
          (ss.filter (·.enabled)).map (·.uuid) = [""] then []
      else (ss.filter (·.enabled)).map (·.uuid) := by
  have husers : (i.withSubscribers ss).users =
      (ss.filter (·.enabled)).map fun s => ⟨"", s.email, s.uuid, "", ""⟩ := by
    rw [withSubscribers, h, Subscriber.accounts, List.map_map]
    rfl
  have hoptions : (i.withSubscribers ss).options = i.options := rfl
  unfold admitted
  rw [husers, hoptions]
  generalize textOf i.options "password" = own
  generalize ss.filter (·.enabled) = enabled
  dsimp only
  by_cases hown : own = ""
  · subst hown
    rw [if_pos rfl, if_neg fun hnone => hnone.2 rfl]
    rcases enabled with _ | ⟨s, _ | ⟨s', enabled⟩⟩
    · rw [if_neg (by simp)]
      rfl
    · cases e with
      | singBox =>
          rw [if_neg (by simp)]
          rfl
      | xray =>
          by_cases hid : s.uuid = ""
          · rw [if_pos ⟨rfl, rfl, by rw [List.map_singleton, hid]⟩]
            change (Xray.alone _).map _ = _
            rw [Xray.alone, if_pos hid]
            rfl
          · rw [if_neg (by simp [hid])]
            change (Xray.alone _).map _ = _
            rw [Xray.alone, if_neg hid]
            rfl
    · have hlisted : ((s :: s' :: enabled).map fun s => User.mk "" s.email s.uuid "" "").map
          (·.password) = (s :: s' :: enabled).map (·.uuid) := by
        rw [List.map_map]
        rfl
      rw [if_neg (by simp)]
      exact hlisted
  · rw [if_neg hown]
    cases enabled with
    | nil => rw [List.map_nil, if_pos rfl, if_pos ⟨rfl, hown⟩, List.map_singleton]
    | cons s enabled =>
        rw [if_neg (by simp), if_neg (by simp), if_neg fun hnone => hown hnone.2.1, List.map_map]
        rfl

/-- A shadowsocks listener with subscribers, written and read by one engine. -/
theorem Engine.passwords_come_back {i : Inbound} (h : i.type = "shadowsocks") (e : Engine)
    (ss : List Subscriber) : ∃ native j,
      (e.writeInbound (i.withSubscribers ss) 0).value = some native ∧
      (e.readInbound (Value.rereadFields [] native) 0).value = some j ∧ j.type = "shadowsocks" ∧
      j.users.map (·.password) = ((i.withSubscribers ss).admitted e.alone).map (·.password) := by
  obtain ⟨native, j, hnative, hj, hjtype, husers⟩ :=
    admitted_come_back (e := e) (i := i.withSubscribers ss) h
  refine ⟨native, j, hnative, hj, hjtype.trans h, ?_⟩
  rw [husers, List.map_map]
  rfl

/-- Writing a shadowsocks listener for subscribers and reading the file it ends up in lets in the
identities of the enabled subscribers, in their order. There are two exceptions. If nobody is
enabled, a password of the listener itself is taken for that of a client; and Xray loses a
subscriber that is alone and has an empty identity. -/
theorem Engine.shadowsocks_subscribers_come_back {e : Engine} {v users : Value} {i : Inbound}
    (hrecord : v.isInbound = true) (hread : Inbound.ofValue? v = some i)
    (htype : i.type = "shadowsocks") (husers : users ≠ .absent) :
    ∃ native notes, e.writeFor v users = .ok ⟨.obj native, notes⟩ ∧
      ∀ doc, ConfigFile.HasListeners [.obj native] doc → ∀ l file, ∃ j notes',
        e.read file (String.ofList (Printer.value l 0 doc)) = .ok ⟨[j], notes'⟩ ∧
        j.type = "shadowsocks" ∧
        j.users.map (·.password) =
          let enabled := (Subscriber.listOf users).filter (·.enabled)
          let own := textOf i.options "password"
          if enabled = [] ∧ own ≠ "" then [own]
          else if e = .xray ∧ own = "" ∧ enabled.map (·.uuid) = [""] then []
          else enabled.map (·.uuid) := by
  obtain ⟨native, j, hnative, hj, hjtype, hpasswords⟩ :=
    passwords_come_back htype e (Subscriber.listOf users)
  obtain ⟨notes, hwritten⟩ := writeFor_native hrecord hread husers hnative
  refine ⟨native, notes, hwritten, fun doc hdoc l file => ?_⟩
  obtain ⟨notes', hfile⟩ := read_written hdoc hj file l 0
  refine ⟨j, notes', hfile, hjtype, ?_⟩
  rw [hpasswords]
  exact Inbound.passwords_admitted htype e _

theorem Engine.shadowsocks_subscribers_come_back_two :
    ∃ native notes,
      Engine.xray.writeFor (storedListener "shadowsocks").toValue someSubscribers =
        .ok ⟨.obj native, notes⟩ ∧
      ∀ doc, ConfigFile.HasListeners [.obj native] doc → ∀ l file, ∃ j notes',
        Engine.xray.read file (String.ofList (Printer.value l 0 doc)) = .ok ⟨[j], notes'⟩ ∧
        j.type = "shadowsocks" ∧ j.users.map (·.password) = ["u1", "u3"] :=
  Engine.shadowsocks_subscribers_come_back rfl (storedListener "shadowsocks").ofValue?_toValue rfl
    nofun

/-- With nobody enabled, the password of the listener itself comes back as a client, whichever
engine writes and reads it. -/
theorem Engine.own_password_comes_back :
    let nobody : Value := .arr [.obj [("uuid", .str "u2"), ("email", .str "bob@example.org"),
      ("enabled", .bool false)]]
    let letsIn (e : Engine) : Prop := ∃ native notes,
      e.writeFor (storedListener "shadowsocks").toValue nobody = .ok ⟨.obj native, notes⟩ ∧
      ∃ j notes', e.read "config.json" (Value.obj [("inbounds", .arr [.obj native])]).tightText =
        .ok ⟨[j], notes'⟩ ∧ j.users.map (·.password) = ["server"]
    (Subscriber.listOf nobody).filter (·.enabled) = [] ∧ letsIn .singBox ∧ letsIn .xray := by
  intro nobody letsIn
  have hlets : ∀ e, letsIn e := by
    intro e
    obtain ⟨native, j, hnative, hj, -, hpasswords⟩ :=
      passwords_come_back (i := storedListener "shadowsocks") rfl e (Subscriber.listOf nobody)
    have hgiven : nobody ≠ .absent := nofun
    obtain ⟨notes, hwritten⟩ := writeFor_native rfl (storedListener "shadowsocks").ofValue?_toValue
      hgiven hnative
    have hnames : ([("inbounds", Value.arr [.obj native])].map Prod.fst).Nodup :=
      (by decide : ["inbounds"].Nodup)
    have hfile : ConfigFile.HasListeners [.obj native] (.obj [("inbounds", .arr [.obj native])]) :=
      .record (.get_of_nodup hnames "inbounds")
    obtain ⟨notes', hread⟩ := read_written hfile hj "config.json" .tight 0
    exact ⟨native, notes, hwritten, j, notes', hread, hpasswords.trans
      (Inbound.passwords_admitted rfl e _)⟩
  exact ⟨rfl, hlets .singBox, hlets .xray⟩

end ProxyFleet
