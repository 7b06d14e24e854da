import ProxyFleet.Proofs.Inbound.Record
import ProxyFleet.Proofs.Xray.Listeners

/-!
# The clients of an Xray listener

The clients of a listener stand in its settings, as a list of clients or of accounts. Only
the settings of shadowsocks have more than one form, and only they hold options. Whatever
is written into settings is read from them without a note (`readSettings_written`).
-/

namespace ProxyFleet

namespace Xray

open Fields

variable {i : Inbound}

/-! ## Listed records -/

theorem readRecords_records {settings : Fields} {n : String} {gs : List Fields}
    (h : get settings n = .arr (gs.map .obj) ∨ get settings n = (Value.arr (gs.map .obj)).told)
    (place : String) : readRecords settings n place = pure gs := by
  have hlisted : get settings n = .arr (gs.map .obj) → readRecords settings n place = pure gs := by
    intro h
    rw [readRecords, h]
    refine (Noted.filterMap_quiet (e := Value.obj) (r := id) fun _ _ _ => rfl).trans ?_
    rw [List.map_id]
  rcases h with h | h
  · exact hlisted h
  · cases gs with
    | nil =>
        rw [readRecords, h]
        rfl
    | cons g gs => exact hlisted h

/-- Records that are listed are read back one by one. Whether the array is written without items
in it makes no difference. -/
theorem readRecords_written {fs : Fields} {n : String} {v : Value} {gs : List Fields}
    (h : Holds fs n v)
    (hv : v = .arr (gs.map .obj) ∨ v = (Value.arr (gs.map .obj)).told) (place : String) :
    readRecords (Value.rereadFields [] fs) n place = pure (gs.map (Value.rereadFields [])) := by
  have hrecords : (gs.map Value.obj).map Value.reread =
      (gs.map (Value.rereadFields [])).map Value.obj := by
    rw [List.map_map, List.map_map]
    refine List.map_congr_left fun g _ => ?_
    change Value.reread (.obj g) = _
    rw [Value.reread]
    rfl
  refine readRecords_records ?_ place
  rw [← hrecords]
  rcases hv with rfl | rfl
  · refine .inl ((h.reread nofun).trans ?_)
    rw [Value.reread, Value.rereadItems_eq_map]
  · exact .inr (get_told_array h)

/-! ## Clients and accounts -/

/-- What comes back of a client that is written and read. -/
def sentClient (type : String) (realityOn : Bool) (u : User) : User :=
  readClient type (Value.rereadFields [] (compact (clientFields type realityOn u)))

theorem clientFields_nodup (type : String) (realityOn : Bool) (u : User) :
    ((clientFields type realityOn u).map Prod.fst).Nodup := by
  unfold clientFields
  split
  · exact (by decide : ["id", "email", "level", "flow"].Nodup)
  · split
    · exact (by decide : ["id", "email", "level", "alterId"].Nodup)
    · split
      · exact (by decide : ["password", "email", "level"].Nodup)
      · exact (by decide : ["id", "email", "password"].Nodup)

/-- A client comes back with what is written of it. -/
theorem sentClient_eq (type : String) (realityOn : Bool) (u : User) :
    sentClient type realityOn u = readClient type (clientFields type realityOn u) := by
  have htext := textOf_written (clientFields_nodup type realityOn u)
  unfold sentClient readClient
  rw [htext, htext, htext, htext]
  rfl

/-- The settings of most protocols list the clients. -/
theorem writeSettings_clients
    (h : i.type ≠ "shadowsocks" ∧ i.type ≠ "socks" ∧ i.type ≠ "http") :
    ∃ settings v, writeSettings i = .obj settings ∧ Holds settings "clients" v ∧
      (v = .arr ((i.users.map fun u => compact (clientFields i.type i.realityOn u)).map .obj) ∨
        v = (Value.arr ((i.users.map fun u =>
          compact (clientFields i.type i.realityOn u)).map .obj)).told) := by
  rw [List.map_map]
  unfold writeSettings
  dsimp only
  split
  · have hnames : ∀ v w : Value, ([("clients", v), ("decryption", w)].map Prod.fst).Nodup :=
      fun _ _ => (by decide : ["clients", "decryption"].Nodup)
    exact ⟨_, _, rfl, Holds.get_of_nodup (hnames _ _) "clients", .inl rfl⟩
  · split
    · have hnames : ∀ v : Value, ([("clients", v)].map Prod.fst).Nodup :=
        fun _ => (by decide : ["clients"].Nodup)
      exact ⟨_, _, rfl, Holds.get_of_nodup (hnames _) "clients", .inl rfl⟩
    · rw [if_neg h.1, if_neg (by simp [h.2])]
      exact ⟨_, _, rfl, holds_itemsField "clients" _, .inr rfl⟩

theorem readSettings_listed (h : i.type ≠ "shadowsocks" ∧ i.type ≠ "socks" ∧ i.type ≠ "http") :
    ∃ settings, writeSettings i = .obj settings ∧ ∀ place,
      readSettings i.type (Value.rereadFields [] settings) place =
        pure (i.users.map (sentClient i.type i.realityOn), []) := by
  obtain ⟨settings, v, hwritten, hclients, hv⟩ := writeSettings_clients h
  refine ⟨settings, hwritten, fun place => ?_⟩
  unfold readSettings
  rw [if_neg h.1, if_neg (by simp [h.2]), readRecords_written hclients hv, pure_bind,
    List.map_map, List.map_map]
  rfl

/-- What comes back of a client that has an account. -/
def sentAccount (u : User) : User := { User.empty with email := u.email, password := u.password }

/-- What is written of a client that has an account. -/
def accountFields (u : User) : Fields := [("user", .str u.email), ("pass", .str u.password)]

/-- The settings of some protocols list accounts. -/
theorem writeSettings_accounts (h : i.type = "socks" ∨ i.type = "http") : writeSettings i =
    .obj (itemsField "accounts" ((i.users.map accountFields).map .obj)) := by
  have hother : i.type ≠ "vless" ∧ i.type ≠ "vmess" ∧ i.type ≠ "trojan" ∧
      i.type ≠ "shadowsocks" := by
    rcases h with h | h <;> rw [h] <;> decide
  unfold writeSettings
  dsimp only
  rw [if_neg hother.1, if_neg (by simp [hother.2.1, hother.2.2.1]), if_neg hother.2.2.2,
    if_pos (by simpa using h), List.map_map]
  rfl

theorem readSettings_accounts (h : i.type = "socks" ∨ i.type = "http") :
    ∃ settings, writeSettings i = .obj settings ∧ ∀ place,
      readSettings i.type (Value.rereadFields [] settings) place =
        pure (i.users.map sentAccount, []) := by
  have hother : i.type ≠ "shadowsocks" := by
    rcases h with h | h <;> rw [h] <;> decide
  have hnames : ∀ u : User, ((accountFields u).map Prod.fst).Nodup := fun _ =>
    (by decide : ["user", "pass"].Nodup)
  have haccount : ∀ (u : User) n, textOf (Value.rereadFields [] (accountFields u)) n =
      (get (accountFields u) n).asText := fun u n =>
    (Holds.get_of_nodup (hnames u) n).textOf_reread
  refine ⟨_, writeSettings_accounts h, fun place => ?_⟩
  unfold readSettings
  rw [if_neg hother, if_pos (by simpa using h),
    readRecords_written (holds_itemsField "accounts" _) (.inr rfl), pure_bind,
    List.map_map, List.map_map]
  refine congrArg (fun us => pure (us, [])) (List.map_congr_left fun u _ => ?_)
  dsimp only [Function.comp_apply]
  rw [haccount, haccount]
  rfl

/-! ## Shadowsocks -/

/-- A client that is alone is lost if it has no password. -/
def alone (u : User) : List User := if u.password = "" then [] else [u]

/-- What is written of a shadowsocks client in a list. -/
def listedClient (u : User) : Fields :=
  compact [("password", .str u.password), ("email", .str u.email)]

/-- The networks of a shadowsocks listener. -/
def networkOf (i : Inbound) : String := firstText (textOf i.options "network") "tcp,udp"

theorem networkOf_ne (i : Inbound) : networkOf i ≠ "" := by
  unfold networkOf firstText
  split
  · decide
  · assumption

/-- The two forms of the settings of a shadowsocks listener. -/
theorem shadowsocksSettings_cases (i : Inbound) :
    ((textOf i.options "password" ≠ "" ∨ ∀ u, i.users ≠ [u]) ∧ shadowsocksSettings i =
      .obj (compact [("method", .str i.shadowsocksMethod),
        ("password", .str (textOf i.options "password")),
        ("clients", .arr ((i.users.map listedClient).map .obj)),
        ("network", .str (networkOf i))])) ∨
    (textOf i.options "password" = "" ∧ ∃ u, i.users = [u] ∧ shadowsocksSettings i =
      .obj (compact [("method", .str i.shadowsocksMethod), ("password", .str u.password),
        ("email", .str u.email), ("network", .str (networkOf i))])) := by
  rw [List.map_map]
  unfold shadowsocksSettings
  dsimp only
  split
  · next u hu =>
      split
      · next hpassword => exact .inr ⟨hpassword, u, hu, rfl⟩
      · next hpassword => exact .inl ⟨.inl hpassword, by rw [hu]; rfl⟩
  · next hu => exact .inl ⟨.inr hu, rfl⟩

/-- Clients that are listed come back with the method of the listener, and the password with them.
Without any, the password is that of a client. -/
theorem readShadowsocks_settings {settings : Fields} {us : List User} {method network : String}
    (hmethod : textOf settings "method" = method) (hnamed : method ≠ "")
    (hnetwork : get settings "network" = .str network) {place : String}
    (hclients : readRecords settings "clients" place =
      pure ((us.map listedClient).map (Value.rereadFields []))) :
    readShadowsocks settings place = pure (
      if textOf settings "password" = "" ∨ us ≠ [] then us.map (User.underMethod method)
      else [⟨"", textOf settings "email", textOf settings "password", "", method⟩],
      [("method", .str method), ("network", .str network)]
        ++ (if us = [] then [] else compact [("password", .str (textOf settings "password"))])) := by
  have hclient : ∀ u, { User.empty with
      password := textOf (Value.rereadFields [] (listedClient u)) "password"
      email := textOf (Value.rereadFields [] (listedClient u)) "email"
      method := firstText (textOf (Value.rereadFields [] (listedClient u)) "method") method } =
      u.underMethod method := by
    intro u
    have hnames : ([("password", Value.str u.password), ("email", .str u.email)].map
      Prod.fst).Nodup := (by decide : ["password", "email"].Nodup)
    have htext := textOf_written hnames
    rw [listedClient, htext, htext, htext]
    rfl
  unfold readShadowsocks
  dsimp only
  rw [hmethod, if_neg hnamed, hnetwork, hclients, pure_bind]
  simp only [List.map_map, Function.comp_def, hclient]
  generalize textOf settings "password" = password
  by_cases hpassword : password = ""
  · rw [if_pos hpassword, if_pos (.inl hpassword), hpassword]
    cases us <;> rfl
  · have htells : compact [("password", .str password)] = [("password", .str password)] :=
      List.filter_cons_of_pos (by simpa using hpassword)
    rw [if_neg hpassword, htells]
    cases us with
    | nil => simp [hpassword]
    | cons u us => simp

/-- What comes back of the options of a shadowsocks listener. A password comes back beside clients
only. -/
def shadowsocksOptionsBack (i : Inbound) : Fields :=
  [("method", .str i.shadowsocksMethod), ("network", .str (networkOf i))]
    ++ (if i.users = [] then [] else compact [("password", .str (textOf i.options "password"))])

theorem readShadowsocks_listed (hform : textOf i.options "password" ≠ "" ∨ ∀ u, i.users ≠ [u]) :
    (if textOf i.options "password" = "" ∨ i.users ≠ [] then
        i.users.map (User.underMethod i.shadowsocksMethod)
      else [⟨"", "", textOf i.options "password", "", i.shadowsocksMethod⟩]) =
      (i.admitted alone).map (User.underMethod i.shadowsocksMethod) := by
  unfold Inbound.admitted
  dsimp only
  generalize textOf i.options "password" = password at hform ⊢
  by_cases hpassword : password = ""
  · rw [if_pos (.inl hpassword), if_pos hpassword]
    rcases hus : i.users with _ | ⟨u, _ | ⟨u', us⟩⟩
    · rfl
    · exact absurd hus (hform.resolve_left (not_not_intro hpassword) u)
    · rfl
  · rw [if_neg hpassword]
    cases i.users with
    | nil => simp [hpassword, User.underMethod, User.empty]
    | cons u us => simp

/-- Of a client that is alone, the client itself comes back if it has a password. -/
theorem readShadowsocks_alone {u : User} (hpassword : textOf i.options "password" = "")
    (hu : i.users = [u]) :
    (if u.password = "" ∨ ([] : List User) ≠ [] then []
      else [⟨"", u.email, u.password, "", i.shadowsocksMethod⟩]) =
      (i.admitted alone).map (User.underMethod i.shadowsocksMethod) := by
  rw [Inbound.admitted, if_pos hpassword, hu]
  change _ = (if u.password = "" then [] else [u]).map _
  by_cases hempty : u.password = ""
  · rw [if_pos hempty, if_pos (.inl hempty), List.map_nil]
  · rw [if_neg hempty, if_neg (not_or.2 ⟨hempty, not_not_intro rfl⟩)]
    rfl

/-- The networks are always written, so they come back. -/
theorem get_network_reread {fs : Fields} (hnames : (fs.map Prod.fst).Nodup)
    (hget : get fs "network" = .str (networkOf i)) :
    get (Value.rereadFields [] (compact fs)) "network" = .str (networkOf i) := by
  have hholds := (Holds.get_of_nodup hnames "network").compact
  have htells : (Value.str (networkOf i)).tells = true := bne_iff_ne.2 (networkOf_ne i)
  rw [hget, Value.told_of_tells htells] at hholds
  exact hholds.get_reread (.inr (Value.stable_str _))

/-- What is read from the settings of a shadowsocks listener, in each of their forms. -/
theorem shadowsocksSettings_read (i : Inbound) : ∃ settings,
    shadowsocksSettings i = .obj settings ∧ ∀ place,
      readShadowsocks (Value.rereadFields [] settings) place =
        pure ((i.admitted alone).map (User.underMethod i.shadowsocksMethod),
          shadowsocksOptionsBack i) := by
  obtain ⟨hform, hwritten⟩ | ⟨hpassword, u, hu, hwritten⟩ := shadowsocksSettings_cases i
  · -- the clients are listed
    have hnames : ([("method", Value.str i.shadowsocksMethod),
        ("password", .str (textOf i.options "password")),
        ("clients", .arr ((i.users.map listedClient).map .obj)),
        ("network", .str (networkOf i))].map
        Prod.fst).Nodup := (by decide : ["method", "password", "clients", "network"].Nodup)
    have htext := textOf_written hnames
    have hlisted := (Holds.get_of_nodup hnames "clients").compact
    refine ⟨_, hwritten, fun place => ?_⟩
    rw [readShadowsocks_settings (htext "method") i.shadowsocksMethod_ne
      (get_network_reread hnames rfl) (readRecords_written hlisted (.inr rfl) place), htext, htext]
    rw [← readShadowsocks_listed hform]
    rfl
  · -- a client that is alone gives its password to the listener
    have hnames : ([("method", Value.str i.shadowsocksMethod), ("password", .str u.password),
        ("email", .str u.email), ("network", .str (networkOf i))].map Prod.fst).Nodup :=
      (by decide : ["method", "password", "email", "network"].Nodup)
    have htext := textOf_written hnames
    have hnone := (Holds.get_of_nodup hnames "clients").compact
    refine ⟨_, hwritten, fun place => ?_⟩
    have hclients : readRecords (Value.rereadFields [] (compact _)) "clients" place =
        pure ((([] : List User).map listedClient).map (Value.rereadFields [])) :=
      readRecords_written hnone (.inr rfl) place
    have hoptions : shadowsocksOptionsBack i = [("method", .str i.shadowsocksMethod),
        ("network", .str (networkOf i))] := by
      rw [shadowsocksOptionsBack, hu, hpassword]
      rfl
    rw [readShadowsocks_settings (htext "method") i.shadowsocksMethod_ne
      (get_network_reread hnames rfl) hclients, htext, htext, ← readShadowsocks_alone hpassword hu, hoptions]
    rfl

/-! ## Settings -/

/-- What comes back of the clients of a listener. -/
def usersBack (i : Inbound) : List User :=
  if i.type = "shadowsocks" then
    (i.admitted alone).map (User.underMethod i.shadowsocksMethod)
  else if i.type = "socks" ∨ i.type = "http" then i.users.map sentAccount
  else i.users.map (sentClient i.type i.realityOn)

/-- What comes back of the options of a listener. -/
def optionsBack (i : Inbound) : Fields :=
  if i.type = "shadowsocks" then shadowsocksOptionsBack i else []

/-- What is read of the settings that were written of a listener. -/
theorem readSettings_written (i : Inbound) : ∃ settings, writeSettings i = .obj settings ∧
    ∀ place, readSettings i.type (Value.rereadFields [] settings) place =
      pure (usersBack i, optionsBack i) := by
  unfold usersBack optionsBack
  by_cases hshadowsocks : i.type = "shadowsocks"
  · obtain ⟨settings, hwritten, hread⟩ := shadowsocksSettings_read i
    refine ⟨settings, ?_, fun place => ?_⟩
    · unfold writeSettings
      rw [hshadowsocks]
      exact hwritten
    · rw [if_pos hshadowsocks, if_pos hshadowsocks, readSettings, if_pos hshadowsocks]
      exact hread place
  · rw [if_neg hshadowsocks, if_neg hshadowsocks]
    by_cases haccounts : i.type = "socks" ∨ i.type = "http"
    · rw [if_pos haccounts]
      exact readSettings_accounts haccounts
    · rw [if_neg haccounts]
      rw [not_or] at haccounts
      exact readSettings_listed ⟨hshadowsocks, haccounts.1, haccounts.2⟩

/-- The clients of a listener that is written and read. -/
theorem clients_read_back (hserved : i.type ∉ unservable) (hnamed : i.type ≠ "")
    (index index' : Nat) : ∃ native j, (writeInbound i index).value = some native ∧
      (readInbound (Value.rereadFields [] native) index').value = some j ∧ j.type = i.type ∧
      j.users = usersBack i := by
  obtain ⟨settings, hwritten, hsettings⟩ := readSettings_written i
  obtain ⟨place, hread⟩ := readInbound_written hnamed hwritten index'
  rw [writeInbound_written hserved]
  refine ⟨_, _, rfl, congrArg Noted.value hread, rfl, ?_⟩
  exact congrArg (fun clients => clients.value.1) (hsettings place)

/-- The clients of a written listener are read back, one by one and in their order. -/
theorem users_read_back (hserved : i.type ∉ unservable) (hnamed : i.type ≠ "")
    (h : i.type ≠ "shadowsocks" ∧ i.type ≠ "socks" ∧ i.type ≠ "http") (index index' : Nat) :
    ∃ native j, (writeInbound i index).value = some native ∧
      (readInbound (Value.rereadFields [] native) index').value = some j ∧
      j.type = i.type ∧ j.users = i.users.map (sentClient i.type i.realityOn) := by
  have husers : usersBack i = i.users.map (sentClient i.type i.realityOn) := by
    rw [usersBack, if_neg h.1, if_neg (by simp [h.2])]
  rw [← husers]
  exact clients_read_back hserved hnamed index index'

/-- A shadowsocks listener that is written and read has those clients that it lets in. -/
theorem shadowsocks_read_back (h : i.type = "shadowsocks") (index index' : Nat) :
    ∃ native j, (writeInbound i index).value = some native ∧
      (readInbound (Value.rereadFields [] native) index').value = some j ∧
      j.type = i.type ∧
      j.users = (i.admitted alone).map (User.underMethod i.shadowsocksMethod) := by
  have husers : usersBack i = (i.admitted alone).map (User.underMethod i.shadowsocksMethod) :=
    if_pos h
  rw [← husers]
  exact clients_read_back (by rw [h]; decide) (by rw [h]; decide) index index'

/-! ## The whole listener -/

/-- What comes back of a listener. -/
def returned (i : Inbound) : Inbound where
  type := i.type
  tag := i.tag
  listen := firstText i.listen "0.0.0.0"
  listenPort := (Value.num i.listenPort).reread.asInt
  transport := i.transport.map (sentTransport · i.tls)
  tls := tlsBack i
  multiplex := none
  users := usersBack i
  options := optionsBack i

/-- A listener that is written and read comes back as `returned` says, without a note. -/
theorem readInbound_returned (h : IsRead i) (index : Nat) :
    readInbound (Value.rereadFields [] (written i)) index = pure (some (returned i)) := by
  have hport : (get (Value.rereadFields [] (written i)) "port").asInt =
      (Value.num i.listenPort).reread.asInt := by
    have hholds : Holds (written i) "port" (.num i.listenPort) := head_holds i (by decide)
    rw [hholds.reread nofun]
  obtain ⟨settings, hwritten, hsettings⟩ := readSettings_written i
  obtain ⟨place, hread⟩ := readInbound_written h.named hwritten index
  rw [hread, hsettings, pure_bind, readStream_written h.transport, pure_bind, hport]
  rfl

end Xray

end ProxyFleet
