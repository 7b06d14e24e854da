import ProxyFleet.Proofs.Inbound.Record
import ProxyFleet.Proofs.Value.Reread
import ProxyFleet.SingBox.Writing

/-!
# The clients of a sing-box listener

The options of a listener are set among the fields written before, one by one, and
could overwrite them. They do not: an option is only written under one of the names
in `optionNames`, and of these the ones that the clients need are passed over. So the
type and the clients stand in the listener as they were written, and reading it back
reads them back.
-/

namespace ProxyFleet

namespace SingBox

open Fields

variable {i : Inbound} {n : String} {v : Value} {out : Fields} {handled : List String}

/-! ## Writing -/

/-- An option is passed over, or it is put under a name that options have. -/
theorem writeOption_put (handled : List String) (place : String) (out : Fields) (name : String)
    (w : Value) : (writeOption handled place out name w).value = out ∨
      ∃ w', (name ∈ optionNames ∧ name ∉ handled) ∧
        (writeOption handled place out name w).value = put out name w' := by
  unfold writeOption
  split
  · exact .inl rfl
  · next hhandled =>
      have hhandled : name ∉ handled := fun hmem => hhandled (List.contains_iff_mem.2 hmem)
      split
      · next hnetwork =>
          subst hnetwork
          split
          · exact .inl rfl
          · next m _ =>
              by_cases hm : m = ""
              · rw [if_pos hm]
                exact .inl rfl
              · rw [if_neg hm]
                exact .inr ⟨_, ⟨by decide, hhandled⟩, rfl⟩
      · split
        · next hname => exact .inr ⟨w, ⟨List.contains_iff_mem.1 hname, hhandled⟩, rfl⟩
        · exact .inl rfl

/-- An option leaves a field alone that is no option or has been handled. -/
theorem writeOption_holds (hn : n ∉ optionNames ∨ n ∈ handled) (h : Holds out n v)
    (place name : String) (w : Value) :
    Holds (writeOption handled place out name w).value n v := by
  obtain hvalue | ⟨w', ⟨hname, hhandled⟩, hvalue⟩ :=
    writeOption_put handled place out name w
  · rw [hvalue]
    exact h
  · have hne : n ≠ name := by
      rintro rfl
      exact hn.elim (· hname) hhandled
    rw [hvalue]
    exact h.put_of_ne w' hne

theorem options_hold (hn : n ∉ optionNames ∨ n ∈ handled) (place : String) (options : Fields)
    (h : Holds out n v) :
    Holds (options.foldlM (fun out f => writeOption handled place out f.1 f.2) out :
      Noted Fields).value n v := by
  induction options generalizing out with
  | nil => exact h
  | cons f options ih =>
      rw [List.foldlM_cons, Noted.bind_value]
      exact ih (writeOption_holds hn h place f.1 f.2)

theorem has_options (hn : n ∉ optionNames) (place : String) (options : Fields)
    (h : has out n = false) : has (options.foldlM (fun out f =>
      writeOption handled place out f.1 f.2) out : Noted Fields).value n = false := by
  induction options generalizing out with
  | nil => exact h
  | cons f options ih =>
      rw [List.foldlM_cons, Noted.bind_value]
      refine ih ?_
      obtain hvalue | ⟨w, hf, hvalue⟩ := writeOption_put handled place out f.1 f.2
      · rw [hvalue]
        exact h
      · have hne : n ≠ f.1 := by
          rintro rfl
          exact hn hf.1
        rw [hvalue, has_put_of_ne out w hne]
        exact h

/-- A listener is written part by part. -/
theorem writeInbound_value (i : Inbound) (index : Nat) : (writeInbound i index).value =
    (i.options.foldlM (fun out f =>
      writeOption (clientFields i).2 (Inbound.label i.tag index) out f.1 f.2)
      (headFields i ++ (clientFields i).1) : Noted Fields).value
    ++ (i.tls.toList.map fun t => ("tls", (writeTls t (Inbound.label i.tag index)).value))
    ++ (i.multiplex.toList.map fun m => ("multiplex", writeMultiplex m))
    ++ ((i.transport.bind fun t => (writeTransport t (Inbound.label i.tag index)).value).toList.map
      fun t => ("transport", t)) := by
  unfold writeInbound
  cases i.tls <;> cases i.transport <;> rfl

/-- A field of the head or of the clients stays what it is in the whole listener. -/
theorem writeInbound_holds (h : Holds (headFields i ++ (clientFields i).1) n v)
    (hn : n ∉ optionNames ∨ n ∈ (clientFields i).2)
    (hparts : n ≠ "tls" ∧ n ≠ "multiplex" ∧ n ≠ "transport") (index : Nat) :
    Holds (writeInbound i index).value n v := by
  have hbody := options_hold hn (Inbound.label i.tag index) i.options h
  rw [writeInbound_value]
  exact ((hbody.append (has_part hparts.1 i.tls _)).append
    (has_part hparts.2.1 i.multiplex _)).append (has_part hparts.2.2 _ _)

theorem has_clientFields (i : Inbound) (h : n ≠ "users" ∧ n ≠ "method" ∧ n ≠ "password") :
    has (clientFields i).1 n = false := by
  have husers := has_itemsField h.1 (writeUsers i)
  unfold clientFields
  split
  · unfold shadowsocksFields
    refine (has_cons_of_ne h.2.1 _ _).trans ?_
    split
    · exact (has_cons_of_ne h.2.2 _ _).trans husers
    · split
      · exact has_cons_of_ne h.2.2 _ []
      · exact husers
  · exact husers

theorem type_written (i : Inbound) (index : Nat) :
    Holds (writeInbound i index).value "type" (.str i.type) := by
  have hnames : ((headFields i).map Prod.fst).Nodup :=
    (by decide : ["type", "tag", "listen", "listen_port"].Nodup)
  have hhead : Holds (headFields i) "type" (.str i.type) := .get_of_nodup hnames "type"
  exact writeInbound_holds (hhead.append (has_clientFields i (by decide))) (.inl (by decide))
    (by decide) index

/-- The clients of a listener that is not a shadowsocks one stand in it as a list. -/
theorem users_written (h : i.type ≠ "shadowsocks") (index : Nat) :
    Holds (writeInbound i index).value "users" (Value.arr (writeUsers i)).told := by
  refine writeInbound_holds (.append_left ?_ rfl) (.inl (by decide)) (by decide) index
  rw [clientFields, if_neg h]
  exact holds_itemsField "users" (writeUsers i)

/-! ## Reading back -/

theorem readUsers_records (type place : String) (gs : List Fields) :
    (readUsers type (Value.arr (gs.map Value.obj)).told place).value =
      gs.map (readUser type) := by
  cases gs with
  | nil => rfl
  | cons g gs => exact Noted.filterMap_map_value (fun _ _ => rfl) (g :: gs)

/-- Listed clients are read back one by one. -/
theorem readUsers_written {fs : Fields} {us : List User} {realityOn : Bool} {type : String}
    (h : Holds fs "users" (Value.arr (us.map (writeUser type realityOn))).told) (place : String) :
    (readUsers type (get (Value.rereadFields [] fs) "users") place).value =
      us.map fun u => readUser type
        (Value.rereadFields [] (compact (userFields type realityOn u))) := by
  have hrecords : (us.map (writeUser type realityOn)).map Value.reread =
      (us.map fun u => Value.rereadFields [] (compact (userFields type realityOn u))).map
        Value.obj := by
    rw [List.map_map, List.map_map]
    refine List.map_congr_left fun u _ => ?_
    change Value.reread (.obj _) = _
    rw [Value.reread]
    rfl
  rw [get_told_array h, hrecords, readUsers_records, List.map_map]
  rfl

/-- A listener with a type is read, and its clients are those it lists. -/
theorem readInbound_users {el : Fields} {type : String} (htype : textOf el "type" = type)
    (hnamed : type ≠ "") (index : Nat) : ∃ j place, (readInbound el index).value = some j ∧
      j.type = type ∧ j.users =
        (let found := (readUsers type (get el "users") place).value
          if type = "shadowsocks" then (shadowsocksUsers found (readOptions el)).1 else found) := by
  subst htype
  unfold readInbound
  rw [if_neg hnamed]
  refine ⟨_, Inbound.label (textOf el "tag") index, rfl, rfl, ?_⟩
  dsimp only
  split <;> rfl

/-- What comes back of a client that is written and read. -/
def sentUser (type : String) (realityOn : Bool) (u : User) : User :=
  readUser type (Value.rereadFields [] (compact (userFields type realityOn u)))

theorem userFields_nodup (type : String) (realityOn : Bool) (u : User) :
    ((userFields type realityOn u).map Prod.fst).Nodup := by
  unfold userFields
  split
  · exact (by decide : ["name", "uuid", "flow"].Nodup)
  · split
    · exact (by decide : ["name", "uuid", "alterId"].Nodup)
    · split
      · exact (by decide : ["name", "password"].Nodup)
      · split
        · exact (by decide : ["username", "password"].Nodup)
        · exact (by decide : ["name", "uuid", "password"].Nodup)

/-- A client comes back with what is written of it. -/
theorem sentUser_eq (type : String) (realityOn : Bool) (u : User) :
    sentUser type realityOn u = readUser type (userFields type realityOn u) := by
  have htext := textOf_written (userFields_nodup type realityOn u)
  unfold sentUser readUser
  rw [htext, htext, htext, htext, htext]
  rfl

/-- The clients of a written listener are read back, one by one and in their order. -/
theorem users_read_back (hnamed : i.type ≠ "") (h : i.type ≠ "shadowsocks") (index index' : Nat) :
    ∃ j, (readInbound (Value.rereadFields [] (writeInbound i index).value) index').value =
        some j ∧ j.type = i.type ∧ j.users = i.users.map (sentUser i.type i.realityOn) := by
  have htype : textOf (Value.rereadFields [] (writeInbound i index).value) "type" = i.type :=
    (type_written i index).textOf_reread
  obtain ⟨j, place, hj, hjtype, husers⟩ := readInbound_users htype hnamed index'
  refine ⟨j, hj, hjtype, ?_⟩
  rw [husers]
  dsimp only
  rw [if_neg h]
  exact readUsers_written (users_written h index) place

/-! ## Shadowsocks -/

/-- What is kept as an option is found among the options. -/
theorem get_readOptions (el : Fields) (hn : n ∈ optionNames) :
    get (readOptions el) n = ((get el n).data?).getD .absent := by
  refine Holds.get_eq ⟨fun f hf hname => ?_, fun hv => ?_⟩
  · obtain ⟨m, -, hm⟩ := List.mem_filterMap.1 hf
    obtain ⟨w, hw, rfl⟩ := Option.map_eq_some_iff.1 hm
    cases hname
    rw [hw]
    rfl
  · obtain ⟨w, hw⟩ : ∃ w, (get el n).data? = some w := by
      refine Option.isSome_iff_exists.1 (Decidable.byContradiction fun hnone => hv ?_)
      rw [Option.not_isSome_iff_eq_none.1 hnone]
      rfl
    have hmem : (n, w) ∈ readOptions el := List.mem_filterMap.2 ⟨n, hn, by rw [hw]; rfl⟩
    exact List.any_eq_true.2 ⟨(n, w), hmem, beq_self_eq_true n⟩

theorem shadowsocks_holds (h : i.type = "shadowsocks")
    (hn : n = "method" ∨ n = "password" ∨ n = "users") (hv : Holds (shadowsocksFields i) n v)
    (index : Nat) : Holds (writeInbound i index).value n v := by
  have hclients : clientFields i = (shadowsocksFields i, ["method", "password"]) := if_pos h
  refine writeInbound_holds (.append_left (hclients ▸ hv) ?_) ?_ ?_ index
  · rcases hn with rfl | rfl | rfl <;> rfl
  · rw [hclients]
    rcases hn with rfl | rfl | rfl
    · exact .inr List.mem_cons_self
    · exact .inr (List.mem_cons_of_mem _ List.mem_cons_self)
    · exact .inl (by decide)
  · rcases hn with rfl | rfl | rfl <;> decide

/-- The name and the password of a shadowsocks client come back. -/
theorem sentUser_shadowsocks (realityOn : Bool) (u : User) :
    sentUser "shadowsocks" realityOn u = u.underMethod "" := by
  rw [sentUser_eq]
  change User.mk "" (firstText u.email "") u.password "" "" = _
  rw [firstText_empty]
  rfl

/-- A password without clients is that of a single client. -/
theorem shadowsocksUsers_fst {users : List User} {options : Fields} {method : String}
    {password : Option String} (hmethod : get options "method" = .str method)
    (hpassword : get options "password" = .ofOption .str password) :
    (shadowsocksUsers users options).1 = (match users, password with
      | [], some password => [{ User.empty with password := password }]
      | us, _ => us).map fun u : User => { u with method := method } := by
  unfold shadowsocksUsers
  rw [hmethod, hpassword]
  cases users <;> cases password <;> rfl

/-- Reading a shadowsocks listener: a password is that of a client if no clients are listed. -/
theorem shadowsocks_read {fs : Fields} {us : List User} {realityOn : Bool} {method : String}
    {password : Option String} (htype : Holds fs "type" (.str "shadowsocks"))
    (husers : Holds fs "users" (Value.arr (us.map (writeUser "shadowsocks" realityOn))).told)
    (hmethod : Holds fs "method" (.str method))
    (hpassword : Holds fs "password" (.ofOption .str password)) (index : Nat) :
    ∃ j, (readInbound (Value.rereadFields [] fs) index).value = some j ∧
      j.type = "shadowsocks" ∧ j.users = (match us, password with
        | [], some password => [{ User.empty with password := password }]
        | us, _ => us).map (User.underMethod method) := by
  have htype : textOf (Value.rereadFields [] fs) "type" = "shadowsocks" := htype.textOf_reread
  obtain ⟨j, place, hj, hjtype, hfound⟩ := readInbound_users htype (by decide) index
  refine ⟨j, hj, hjtype, hfound.trans ?_⟩
  have hmethod : get (readOptions (Value.rereadFields [] fs)) "method" = .str method := by
    rw [get_readOptions _ (by decide), hmethod.reread nofun, Value.reread]
    rfl
  have hpassword : get (readOptions (Value.rereadFields [] fs)) "password" =
      .ofOption .str password := by
    rw [get_readOptions _ (by decide)]
    cases password with
    | none =>
        rw [get_rereadFields_absent hpassword.agree]
        rfl
    | some p =>
        rw [hpassword.reread nofun]
        change (Value.reread (.str p)).data?.getD .absent = .str p
        rw [Value.reread]
        rfl
  dsimp only
  rw [if_pos rfl, readUsers_written husers, shadowsocksUsers_fst hmethod hpassword]
  have hclient : ∀ u, { sentUser "shadowsocks" realityOn u with method := method } =
      u.underMethod method := by
    intro u
    rw [sentUser_shadowsocks]
    rfl
  cases us with
  | nil => cases password <;> rfl
  | cons u us =>
      refine (List.map_map ..).trans ?_
      exact List.map_congr_left fun u _ => hclient u

/-- A client that is alone loses its name. -/
def alone (u : User) : List User := [{ u with email := "" }]

/-- The three forms of a shadowsocks listener. -/
theorem shadowsocksFields_cases (i : Inbound) :
    (textOf i.options "password" ≠ "" ∧ shadowsocksFields i =
      [("method", .str i.shadowsocksMethod), ("password", .str (textOf i.options "password"))]
        ++ itemsField "users" (writeUsers i)) ∨
    (textOf i.options "password" = "" ∧ ∃ u, i.users = [u] ∧ shadowsocksFields i =
      [("method", .str i.shadowsocksMethod), ("password", .str u.password)]) ∨
    (textOf i.options "password" = "" ∧ (∀ u, i.users ≠ [u]) ∧ shadowsocksFields i =
      [("method", .str i.shadowsocksMethod)] ++ itemsField "users" (writeUsers i)) := by
  unfold shadowsocksFields
  dsimp only
  by_cases hpassword : textOf i.options "password" = ""
  · rw [if_neg (by rw [hpassword]; decide)]
    split
    · next u hu => exact .inr (.inl ⟨hpassword, u, hu, rfl⟩)
    · next hu => exact .inr (.inr ⟨hpassword, hu, rfl⟩)
  · rw [if_pos (bne_iff_ne.2 hpassword)]
    exact .inl ⟨hpassword, rfl⟩

/-- What a shadowsocks listener holds for its clients and its password, in each of its forms. -/
theorem shadowsocksFields_hold (h : i.type = "shadowsocks") :
    Holds (shadowsocksFields i) "method" (.str i.shadowsocksMethod) ∧
    ∃ (us : List User) (password : Option String),
      Holds (shadowsocksFields i) "users"
        (Value.arr (us.map (writeUser "shadowsocks" i.realityOn))).told ∧
      Holds (shadowsocksFields i) "password" (.ofOption .str password) ∧
      (match us, password with
        | [], some password => [{ User.empty with password := password }]
        | us, _ => us).map (User.underMethod i.shadowsocksMethod) =
          (i.admitted alone).map (User.underMethod i.shadowsocksMethod) := by
  have hlisted : writeUsers i = i.users.map (writeUser "shadowsocks" i.realityOn) := by
    rw [writeUsers, h]
  have hboth : ∀ v w : Value, ([("method", v), ("password", w)].map Prod.fst).Nodup :=
    fun _ _ => (by decide : ["method", "password"].Nodup)
  unfold Inbound.admitted
  dsimp only
  obtain ⟨hpassword, hform⟩ | ⟨hpassword, u, hu, hform⟩ | ⟨hpassword, hu, hform⟩ :=
    shadowsocksFields_cases i
  · -- the listener has a password of its own, and lists its clients
    rw [hform, hlisted, if_neg hpassword]
    refine ⟨(Holds.get_of_nodup (hboth _ _) "method").append (has_itemsField (by decide) _),
      i.users, some (textOf i.options "password"), .append_left (holds_itemsField "users" _) rfl,
      (Holds.get_of_nodup (hboth _ _) "password").append (has_itemsField (by decide) _), ?_⟩
    cases i.users <;> rfl
  · -- a client that is alone gives its password to the listener
    rw [hform, if_pos hpassword, hu]
    exact ⟨Holds.get_of_nodup (hboth _ _) "method", [], some u.password,
      Holds.get_of_nodup (hboth _ _) "users", Holds.get_of_nodup (hboth _ _) "password", rfl⟩
  · -- there is no password at all, and the clients are listed
    have hsingle : ∀ v : Value, ([("method", v)].map Prod.fst).Nodup :=
      fun _ => (by decide : ["method"].Nodup)
    rw [hform, hlisted, if_pos hpassword]
    refine ⟨(Holds.get_of_nodup (hsingle _) "method").append (has_itemsField (by decide) _),
      i.users, none, .append_left (holds_itemsField "users" _) rfl,
      (Holds.get_of_nodup (hsingle _) "password").append (has_itemsField (by decide) _), ?_⟩
    rcases hus : i.users with _ | ⟨u, _ | ⟨u', us⟩⟩
    · rfl
    · exact absurd hus (hu u)
    · rfl

/-- A shadowsocks listener that is written and read has those clients that it lets in. -/
theorem shadowsocks_read_back (h : i.type = "shadowsocks") (index index' : Nat) :
    ∃ j, (readInbound (Value.rereadFields [] (writeInbound i index).value) index').value =
        some j ∧ j.type = i.type ∧
      j.users = (i.admitted alone).map (User.underMethod i.shadowsocksMethod) := by
  have htype := type_written i index
  obtain ⟨hmethod, us, password, husers, hpassword, hadmitted⟩ := shadowsocksFields_hold h
  have hmethod := shadowsocks_holds h (.inl rfl) hmethod index
  have hpassword := shadowsocks_holds h (.inr (.inl rfl)) hpassword index
  have husers := shadowsocks_holds h (.inr (.inr rfl)) husers index
  rw [h] at htype ⊢
  obtain ⟨j, hj, hjtype, hjusers⟩ := shadowsocks_read htype husers hmethod hpassword index'
  exact ⟨j, hj, hjtype, hjusers.trans hadmitted⟩

end SingBox

end ProxyFleet
