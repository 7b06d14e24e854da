import Mathlib.Data.List.Forall2
import ProxyFleet.Proofs.Inbound.Subscribers
import ProxyFleet.Proofs.Value.Stable

/-!
# What the clients of a listener have to prove themselves with

Which field of a client holds the identity of its subscriber is decided once, when the
subscriber becomes an account, and which fields of a client are written is decided once
more, by each engine. For most protocols the two agree, and the identity is in the record
that is written. They do not agree for the protocols of a name and a password
(`Engine.passworded`): their accounts have no password, and their records have a place for
nothing else. What is written of a subscriber there is its name.
-/

namespace ProxyFleet

/-- The texts in a record of a client that tell it from others who know its name. -/
def Value.secrets (r : Value) : List String :=
  (["uuid", "id", "password", "pass"].map fun n => (r.get n).asText).filter (· != "")

namespace Engine

/-- The protocols of an engine whose clients have a name and a password and nothing else. -/
def passworded : Engine → List String
  | .singBox => ["naive", "socks", "http", "mixed"]
  | .xray => ["socks", "http"]

/-- The records of the clients in a written listener of a protocol that lists them. -/
def clientRecords (e : Engine) (type : String) (native : Fields) : List Value :=
  let listed := match e with
    | .singBox => Fields.get native "users"
    | .xray => (Fields.get native "settings").get
      (if type = "socks" ∨ type = "http" then "accounts" else "clients")
  listed.items?.getD []

/-- What is written of a subscriber that has a name to show and nothing else. -/
def openRecord : Engine → Subscriber → Value
  | .singBox, s => .obj (Fields.compact [("username", .str s.email)])
  | .xray, s => .obj [("user", .str s.email), ("pass", .str "")]

end Engine

open Fields

/-! ## Records of clients -/

/-- A record has the secrets of the fields that are written of it. -/
theorem Value.secrets_compact {fs : Fields} (h : (fs.map Prod.fst).Nodup) :
    (Value.obj (compact fs)).secrets =
      [textOf fs "uuid", textOf fs "id", textOf fs "password", textOf fs "pass"].filter
        (· != "") := by
  have htext : ∀ n, ((Value.obj (compact fs)).get n).asText = textOf fs n := fun n =>
    textOf_compact h n
  rw [Value.secrets]
  simp only [List.map_cons, List.map_nil, htext]

/-- A record has the identity of a subscriber for its one secret. Under a protocol of a name and a
password it has none. -/
def Engine.Shows (e : Engine) (type : String) (s : Subscriber) (r : Value) : Prop :=
  ∀ secret, secret ≠ "" → (secret ∈ r.secrets ↔ type ∉ e.passworded ∧ secret = s.uuid)

theorem Engine.openRecord_secrets (e : Engine) (s : Subscriber) :
    (e.openRecord s).secrets = [] := by
  cases e with
  | singBox =>
      have hnames : ([("username", Value.str s.email)].map Prod.fst).Nodup :=
        (by decide : ["username"].Nodup)
      exact Value.secrets_compact hnames
  | xray => rfl

/-- Of a subscriber under a protocol of a name and a password, the name is written. -/
theorem Engine.shows_openRecord {e : Engine} {type : String} (h : type ∈ e.passworded)
    (s : Subscriber) : e.Shows type s (e.openRecord s) := by
  intro secret _
  simp [openRecord_secrets, h]

namespace SingBox

variable {type : String}

theorem writeUser_passworded (h : type ∈ Engine.singBox.passworded) (realityOn : Bool)
    (s : Subscriber) :
    writeUser type realityOn (s.account type).toUser = Engine.singBox.openRecord s := by
  simp only [Engine.passworded, List.mem_cons, List.not_mem_nil, or_false] at h
  rcases h with rfl | rfl | rfl | rfl
  all_goals
    -- an empty password is left out
    change Value.obj (compact [("username", .str s.email), ("password", .str "")]) = _
    simp [Engine.openRecord, compact, List.filter_cons]

theorem writeUser_shows (type : String) (realityOn : Bool) (s : Subscriber) :
    Engine.singBox.Shows type s (writeUser type realityOn (s.account type).toUser) := by
  by_cases hpassworded : type ∈ Engine.singBox.passworded
  · rw [writeUser_passworded hpassworded]
    exact Engine.shows_openRecord hpassworded s
  intro secret hsecret
  rw [writeUser, Value.secrets_compact (userFields_nodup _ _ _)]
  by_cases hnamed : type ∈ ["vless", "vmess", "trojan", "hysteria2", "shadowsocks", "tuic"]
  · simp only [List.mem_cons, List.not_mem_nil, or_false] at hnamed
    rcases hnamed with rfl | rfl | rfl | rfl | rfl | rfl
    all_goals
      simp [userFields, Subscriber.account, Subscriber.Account.toUser, Engine.passworded, textOf,
        Fields.get, get?_cons, Value.asText, hsecret]
  · have hother := hpassworded
    simp only [List.mem_cons, List.not_mem_nil, or_false, not_or, Engine.passworded] at hother
    simp only [List.mem_cons, List.not_mem_nil, or_false, not_or] at hnamed
    simp [userFields, Subscriber.account, Subscriber.Account.toUser, textOf, Fields.get, get?_cons,
      Value.asText, hsecret, hnamed, hother, hpassworded]

end SingBox

namespace Xray

variable {type : String}

theorem clientFields_shows (h : type ∉ Engine.xray.passworded) (realityOn : Bool)
    (s : Subscriber) : Engine.xray.Shows type s
      (.obj (compact (clientFields type realityOn (s.account type).toUser))) := by
  intro secret hsecret
  rw [Value.secrets_compact (clientFields_nodup _ _ _)]
  by_cases hnamed : type ∈ ["vless", "vmess", "trojan", "hysteria2", "shadowsocks", "tuic"]
  · simp only [List.mem_cons, List.not_mem_nil, or_false] at hnamed
    rcases hnamed with rfl | rfl | rfl | rfl | rfl | rfl
    all_goals
      simp [clientFields, Subscriber.account, Subscriber.Account.toUser, Engine.passworded, textOf,
        Fields.get, get?_cons, Value.asText, hsecret]
  · simp only [List.mem_cons, List.not_mem_nil, or_false, not_or] at hnamed
    simp [clientFields, Subscriber.account, Subscriber.Account.toUser, textOf, Fields.get,
      get?_cons, Value.asText, hsecret, hnamed, h]

end Xray

/-! ## Listeners -/

/-- Clients that are written only if there are any are listed all the same. -/
theorem Value.items_told (xs : List Value) : (Value.arr xs).told.items?.getD [] = xs := by
  cases xs <;> rfl

namespace Engine

variable {e : Engine} {i : Inbound}

theorem clientRecords_singBox (h : i.type ≠ "shadowsocks") (ss : List Subscriber) :
    singBox.clientRecords i.type (SingBox.writeInbound (i.withSubscribers ss) 0).value =
      (ss.filter (·.enabled)).map fun s =>
        SingBox.writeUser i.type i.realityOn (s.account i.type).toUser := by
  have hlisted : Fields.get (SingBox.writeInbound (i.withSubscribers ss) 0).value "users" =
      (Value.arr (SingBox.writeUsers (i.withSubscribers ss))).told :=
    (SingBox.users_written (i := i.withSubscribers ss) h 0).get_eq
  dsimp only [clientRecords]
  rw [hlisted, Value.items_told, SingBox.writeUsers, Inbound.withSubscribers,
    Subscriber.accounts, List.map_map, List.map_map]
  rfl

theorem clientRecords_xray (h : i.type ≠ "shadowsocks") (ss : List Subscriber) :
    xray.clientRecords i.type (Xray.written (i.withSubscribers ss)) =
      (ss.filter (·.enabled)).map fun s =>
        if i.type ∈ xray.passworded then xray.openRecord s
        else .obj (compact (Xray.clientFields i.type i.realityOn (s.account i.type).toUser)) := by
  have hsettings : Fields.get (Xray.written (i.withSubscribers ss)) "settings" =
      Xray.writeSettings (i.withSubscribers ss) :=
    (Xray.head_holds (i.withSubscribers ss) (by decide)).get_eq
  dsimp only [clientRecords]
  rw [hsettings]
  by_cases haccounts : i.type = "socks" ∨ i.type = "http"
  · have hwritten : Xray.writeSettings (i.withSubscribers ss) = _ :=
      Xray.writeSettings_accounts (i := i.withSubscribers ss) haccounts
    have hopen : i.type ∈ xray.passworded := by simpa [passworded] using haccounts
    have hempty : (i.withSubscribers ss).users.map Xray.accountFields =
        (ss.filter (·.enabled)).map fun s => [("user", .str s.email), ("pass", .str "")] := by
      rw [Inbound.withSubscribers, Subscriber.accounts, List.map_map, List.map_map]
      refine List.map_congr_left fun s _ => ?_
      rcases haccounts with h | h <;> rw [h] <;> rfl
    simp only [if_pos haccounts, if_pos hopen, hwritten, Value.get]
    rw [(holds_itemsField "accounts" _).get_eq, Value.items_told, hempty, List.map_map]
    rfl
  · have hopen : i.type ∉ xray.passworded := by simpa [passworded] using haccounts
    obtain ⟨settings, v, hwritten, hclients, hv⟩ :=
      Xray.writeSettings_clients (i := i.withSubscribers ss) ⟨h, not_or.1 haccounts⟩
    have hlisted : v.items?.getD [] = (i.withSubscribers ss).users.map fun u =>
        .obj (compact (Xray.clientFields i.type i.realityOn u)) := by
      rw [List.map_map] at hv
      rcases hv with rfl | rfl
      · rfl
      · exact Value.items_told _
    simp only [if_neg haccounts, if_neg hopen, hwritten, Value.get]
    rw [hclients.get_eq, hlisted, Inbound.withSubscribers, Subscriber.accounts, List.map_map,
      List.map_map]
    rfl

/-- A listener with subscribers as an engine writes it, with a record for each of those that are
enabled. -/
theorem written_records (hserved : e = .xray → i.type ∉ Xray.unservable)
    (hlisted : i.type ≠ "shadowsocks") (ss : List Subscriber) :
    ∃ native, (e.writeInbound (i.withSubscribers ss) 0).value = some native ∧
      ∃ record : Subscriber → Value,
        e.clientRecords i.type native = (ss.filter (·.enabled)).map record ∧
        (∀ s, e.Shows i.type s (record s)) ∧
        (i.type ∈ e.passworded → record = e.openRecord) := by
  cases e with
  | singBox =>
      refine ⟨_, rfl, _, clientRecords_singBox hlisted ss,
        SingBox.writeUser_shows i.type i.realityOn, fun h => ?_⟩
      exact funext (SingBox.writeUser_passworded h i.realityOn)
  | xray =>
      have hnative : (xray.writeInbound (i.withSubscribers ss) 0).value =
          some (Xray.written (i.withSubscribers ss)) :=
        congrArg Noted.value
          (Xray.writeInbound_written (i := i.withSubscribers ss) (hserved rfl) 0)
      refine ⟨_, hnative, _, clientRecords_xray hlisted ss, fun s => ?_, fun h => ?_⟩
      · split
        · next hopen => exact shows_openRecord hopen s
        · next hclosed => exact Xray.clientFields_shows hclosed i.realityOn s
      · funext s
        exact if_pos h

/-- Writing a listener for subscribers gives a record of a client for each of them that is enabled,
in their order. Unless the protocol is one of a name and a password, the record has the identity of
the subscriber for its one secret, if there is an identity. For the others the record has no secret,
whoever the subscriber is: the name is written, and nothing or an empty text for the password. -/
theorem records_show_identity_iff {v users : Value} (hrecord : v.isInbound = true)
    (hread : Inbound.ofValue? v = some i) (hserved : e = .xray → i.type ∉ Xray.unservable)
    (hlisted : i.type ≠ "shadowsocks") (husers : users ≠ .absent) :
    ∃ native notes, e.writeFor v users = .ok ⟨.obj native, notes⟩ ∧
      let enabled := (Subscriber.listOf users).filter (·.enabled)
      List.Forall₂ (e.Shows i.type) enabled (e.clientRecords i.type native) ∧
      (i.type ∈ e.passworded →
        e.clientRecords i.type native = enabled.map e.openRecord ∧
        ∀ r ∈ e.clientRecords i.type native, r.secrets = []) := by
  obtain ⟨native, hnative, record, hrecords, hshows, hopen⟩ :=
    written_records hserved hlisted (Subscriber.listOf users)
  obtain ⟨notes, hwritten⟩ := writeFor_native hrecord hread husers hnative
  refine ⟨native, notes, hwritten, ?_, fun hpassworded => ?_⟩
  · rw [hrecords, List.forall₂_map_right_iff, List.forall₂_same]
    exact fun s _ => hshows s
  · rw [hrecords, hopen hpassworded]
    exact ⟨rfl, List.forall_mem_map.2 fun s _ => openRecord_secrets e s⟩

/-- Of the two who are enabled, a mixed listener is told no secret, and of one no name either. -/
theorem records_show_identity_iff_mixed : ∃ native notes,
    singBox.writeFor (storedListener "mixed").toValue someSubscribers = .ok ⟨.obj native, notes⟩ ∧
      singBox.clientRecords "mixed" native =
        [.obj [("username", .str "ann@example.org")], .obj []] := by
  have hread := (storedListener "mixed").ofValue?_toValue
  have hgiven : someSubscribers ≠ .absent := nofun
  obtain ⟨native, notes, hwritten, -, hrecords⟩ :=
    records_show_identity_iff (e := .singBox) rfl hread nofun (by decide) hgiven
  exact ⟨native, notes, hwritten, (hrecords (by decide)).1⟩

/-- A listener for one subscriber, in the words of both engines: her identity is in neither. -/
theorem identity_unwritten :
    let listener : Inbound := ⟨"socks", "in", "::", 1080, none, none, none, [], []⟩
    let users : Value := .arr [.obj [("uuid", .str "u1"), ("email", .str "ann@example.org"),
      ("enabled", .bool true)]]
    singBox.writeFor listener.toValue users = .ok ⟨.obj [("type", .str "socks"),
      ("tag", .str "in"), ("listen", .str "::"), ("listen_port", .num 1080),
      ("users", .arr [.obj [("username", .str "ann@example.org")]])], []⟩ ∧
    xray.writeFor listener.toValue users = .ok ⟨.obj [("protocol", .str "socks"),
      ("tag", .str "in"), ("listen", .str "::"), ("port", .num 1080),
      ("settings", .obj [("accounts", .arr [.obj [("user", .str "ann@example.org"),
        ("pass", .str "")]])])], []⟩ :=
  ⟨rfl, rfl⟩

end Engine

end ProxyFleet
