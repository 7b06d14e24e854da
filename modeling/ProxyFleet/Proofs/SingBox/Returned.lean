import ProxyFleet.Proofs.SingBox.Listeners

/-!
# Sing-box listeners that were written come back

Writing a listener is not lossless, and reading gives some fields a second meaning:
a password without clients becomes a client, a missing address becomes `::`. All of
this happens the first time. The listener that comes back from what was written of one
is written in the same words again, and without a note (`read_back`).

The clients need most of the care. What was written of them is compared in the two
forms it can have for each protocol, a list of clients and, for shadowsocks, a password
of the listener.
-/

namespace ProxyFleet

namespace SingBox

open Fields

variable {i j : Inbound} {n : String} {type : String} {realityOn : Bool}

/-! ## Clients in a list -/

/-- What comes back of a client is written in the same words. -/
theorem userFields_sentUser (type : String) (realityOn : Bool) (u : User) :
    userFields type realityOn (sentUser type realityOn u) = userFields type realityOn u := by
  rw [sentUser_eq]
  unfold userFields
  split
  · next hvless =>
      subst hvless
      cases realityOn <;>
        simp [readUser, textOf, get_cons, Value.asText, firstText_empty, firstText_again]
  · split
    · simp_all [readUser, textOf, get_cons, Value.asText, firstText_empty]
    · split
      · simp [readUser, textOf, get_cons, Value.asText, firstText_empty]
      · split
        · simp [readUser, textOf, get_cons, Value.asText, firstText]
        · simp [readUser, textOf, get_cons, Value.asText, firstText_empty]

theorem readUsers_back {fs : Fields} {us : List User} (h : Holds fs "users"
    (Value.arr (us.map (writeUser type realityOn))).told) (place : String) :
    readUsers type (get (Value.rereadFields [] fs) "users") place =
      pure (us.map (sentUser type realityOn)) := by
  refine Noted.eq_pure (readUsers_written h place) ?_
  rw [get_told_array h, List.map_map]
  cases us with
  | nil => rfl
  | cons u us =>
      refine congrArg Noted.notes (show _ = pure ((u :: us).map (sentUser type realityOn)) from
        Noted.filterMap_quiet fun v _ index => ?_)
      simp only [Function.comp_apply, writeUser, Value.reread]
      rfl

/-! ## Options -/

theorem optionsWritten_names (h : IsRead i) : ((optionsWritten i).map Prod.fst).Sublist
    (optionNames.filter fun n => !(clientFields i).2.contains n) := by
  have hkept : ∀ n ∈ (optionsWritten i).map Prod.fst, (!(clientFields i).2.contains n) = true := by
    intro n hn
    obtain ⟨f, hf, rfl⟩ := List.mem_map.1 hn
    obtain ⟨g, -, hg⟩ := List.mem_filterMap.1 hf
    rw [writtenOption_name hg]
    unfold writtenOption at hg
    split at hg
    · cases hg
    · next hhandled => simpa using hhandled
  rw [← List.filter_eq_self.2 hkept]
  exact ((writtenOptions_names i.options).trans h.names).filter _

theorem optionsWritten_values (h : IsRead i) :
    ∀ f ∈ optionsWritten i, f.2.Stable ∧ f.2.isData = true := by
  intro f hf
  obtain ⟨g, hg, hgf⟩ := List.mem_filterMap.1 hf
  unfold writtenOption at hgf
  split at hgf
  · cases hgf
  · split at hgf
    · split at hgf
      · cases hgf
      · split at hgf
        · cases hgf
        · cases hgf
          exact ⟨Value.stable_str _, rfl⟩
    · cases hgf
      exact h.options f hg

theorem optionsWritten_hasPlace (h : OptionsListed i) : ∀ f ∈ optionsWritten i, HasPlace f := by
  intro f hf
  obtain ⟨g, hg, hgf⟩ := List.mem_filterMap.1 hf
  exact (writtenOption_again hgf).2 (h.named g hg)

/-- An option that nothing else is written for is found again. -/
theorem get_option (h : IsRead i) (hn : n ∈ optionNames) (hhandled : n ∉ (clientFields i).2) :
    get (Value.rereadFields [] (written i)) n = get (optionsWritten i) n := by
  refine (option_holds h.optionsListed hn hhandled).get_reread ?_
  exact (get_absent_or_mem (optionsWritten i) n).imp_right fun hmem =>
    (optionsWritten_values h _ hmem).1

/-! ## Clients and options together -/

/-- What is read of the clients and the options of a listener is written as they were. -/
structure ClientsBack (i : Inbound) (users : List User) (options : Fields) : Prop where
  listed : (options.map Prod.fst).Nodup
  places : ∀ f ∈ options, HasPlace f
  fields : ∀ j : Inbound, j.type = i.type → j.realityOn = i.realityOn → j.users = users →
    j.options = options → clientFields j = clientFields i ∧ optionsWritten j = optionsWritten i

/-- Clients of a listener that is not a shadowsocks one. -/
theorem clients_back_listed (h : IsRead i) (htype : i.type ≠ "shadowsocks") :
    readOptions (Value.rereadFields [] (written i)) = optionsWritten i ∧
      ClientsBack i (i.users.map (sentUser i.type i.realityOn)) (optionsWritten i) := by
  have hclients : clientFields i = (itemsField "users" (writeUsers i), []) := if_neg htype
  have hnames : ((optionsWritten i).map Prod.fst).Sublist optionNames :=
    (optionsWritten_names h).trans List.filter_sublist
  refine ⟨readOptions_eq hnames (fun f hf => (optionsWritten_values h f hf).2) fun n hn => ?_,
    ⟨hnames.nodup (by decide), optionsWritten_hasPlace h.optionsListed, ?_⟩⟩
  · exact get_option h hn (by rw [hclients]; exact List.not_mem_nil)
  · intro j hjtype hreality husers hoptions
    have hjclients : clientFields j = clientFields i := by
      have hjusers : writeUsers j = writeUsers i := by
        rw [writeUsers, writeUsers, husers, hjtype, hreality, List.map_map]
        refine List.map_congr_left fun u _ => ?_
        rw [Function.comp_apply, writeUser, userFields_sentUser]
        rfl
      rw [hclients, clientFields, if_neg (by rwa [hjtype]), hjusers]
    refine ⟨hjclients, ?_⟩
    rw [optionsWritten, hjclients, hoptions]
    exact writtenOptions_again i.options

/-- The options that are read of a shadowsocks listener, its method first. -/
def shadowsocksOptions (method : String) (password : Option String) (others : Fields) : Fields :=
  ("method", .str method) :: ((password.toList.map fun p => ("password", .str p)) ++ others)

section Shadowsocks

variable {method : String} {password : Option String} {others : Fields}
  (hnames : (others.map Prod.fst).Sublist (optionNames.filter fun n =>
    !(["method", "password"].contains n)))

include hnames

theorem shadowsocksOptions_names :
    ((shadowsocksOptions method password others).map Prod.fst).Sublist optionNames := by
  have hdrop : optionNames.filter (fun n => !(["method", "password"].contains n)) =
      optionNames.drop 2 := by decide
  rw [hdrop] at hnames
  cases password with
  | none => exact (hnames.cons "password").cons_cons "method"
  | some p => exact (hnames.cons_cons "password").cons_cons "method"

theorem has_others (hn : n = "method" ∨ n = "password") : has others n = false := by
  refine List.any_eq_false.2 fun f hf heq => ?_
  have hmem := hnames.subset (List.mem_map_of_mem hf)
  rw [beq_iff_eq.1 heq] at hmem
  rcases hn with rfl | rfl <;> exact absurd hmem (by decide)

theorem get_shadowsocksOptions (n : String) : get (shadowsocksOptions method password others) n =
    if n = "method" then .str method
    else if n = "password" then .ofOption .str password
    else get others n := by
  rw [shadowsocksOptions, get_cons]
  split
  · rfl
  · split
    · next hn =>
        subst hn
        cases password with
        | none => exact get_eq_absent (has_others hnames (.inr rfl))
        | some p => rfl
    · next hn =>
        cases password with
        | none => rfl
        | some p => exact (get_cons _ _ _).trans (if_neg hn)

theorem erase_shadowsocksOptions : erase (shadowsocksOptions method password others) "password" =
    shadowsocksOptions method none others := by
  have hothers : erase others "password" = others := by
    refine List.filter_eq_self.2 fun f hf => bne_iff_ne.2 fun heq => ?_
    exact List.any_eq_false.1 (has_others hnames (.inr rfl)) f hf (beq_iff_eq.2 heq)
  cases password with
  | none => exact congrArg (("method", .str method) :: ·) hothers
  | some p => exact congrArg (("method", .str method) :: ·) hothers

end Shadowsocks

theorem writtenOption_shadowsocksOptions {others : Fields} (method : String)
    (password : Option String)
    (hagain : others.filterMap (writtenOption ["method", "password"]) = others) :
    (shadowsocksOptions method password others).filterMap
      (writtenOption ["method", "password"]) = others := by
  cases password <;> exact hagain

theorem shadowsocksOptions_places {others : Fields} {method : String} {password : Option String}
    (hplaces : ∀ f ∈ others, HasPlace f) :
    ∀ f ∈ shadowsocksOptions method password others, HasPlace f := by
  have hplace : ∀ m ∈ ["method", "password"], m ∈ optionNames ∧ m ≠ "network" := by decide
  intro f hf
  rcases List.mem_cons.1 hf with rfl | hf
  · exact ⟨(hplace "method" (by simp)).1, fun hn => absurd hn (hplace "method" (by simp)).2⟩
  · rcases List.mem_append.1 hf with hf | hf
    · obtain ⟨p, -, rfl⟩ := List.mem_map.1 hf
      exact ⟨(hplace "password" (by simp)).1, fun hn => absurd hn (hplace "password" (by simp)).2⟩
    · exact hplaces f hf

/-- What is written for the clients of a shadowsocks listener: its method, a password if there is
one, and the clients that are listed. -/
def shadowsocksWritten (method : String) (password : Option String) (us : List User)
    (realityOn : Bool) : Fields :=
  ("method", .str method) :: ((password.toList.map fun p => ("password", .str p))
    ++ itemsField "users" (us.map (writeUser "shadowsocks" realityOn)))

/-- Which clients are listed, and which password there is. -/
theorem shadowsocks_shape (htype : i.type = "shadowsocks") (hsecret : i.users = [] →
    textOf i.options "password" = "") : ∃ (password : Option String) (us : List User),
      shadowsocksFields i = shadowsocksWritten i.shadowsocksMethod password us i.realityOn ∧
      ((∃ p, password = some p ∧ p ≠ "" ∧ us ≠ []) ∨ (password ≠ none ∧ us = []) ∨
        (password = none ∧ ∀ u, us ≠ [u])) := by
  have hlisted : writeUsers i = i.users.map (writeUser "shadowsocks" i.realityOn) := by
    rw [writeUsers, htype]
  obtain ⟨hpassword, hform⟩ | ⟨hpassword, u, hu, hform⟩ | ⟨hpassword, hu, hform⟩ :=
    shadowsocksFields_cases i
  · exact ⟨some _, i.users, by rw [hform, hlisted]; rfl,
      .inl ⟨_, rfl, hpassword, fun hnone => hpassword (hsecret hnone)⟩⟩
  · exact ⟨some u.password, [], hform, .inr (.inl ⟨Option.some_ne_none _, rfl⟩)⟩
  · exact ⟨none, i.users, by rw [hform, hlisted]; rfl, .inr (.inr ⟨rfl, hu⟩)⟩

theorem writeUser_shadowsocks {u w : User} (realityOn realityOn' : Bool) (hemail : u.email = w.email)
    (hpassword : u.password = w.password) :
    writeUser "shadowsocks" realityOn u = writeUser "shadowsocks" realityOn' w := by
  have hfields : userFields "shadowsocks" realityOn u = userFields "shadowsocks" realityOn' w := by
    change [("name", Value.str u.email), ("password", .str u.password)] = _
    rw [hemail, hpassword]
    rfl
  rw [writeUser, writeUser, hfields]

theorem shadowsocksWritten_holds (method : String) (password : Option String) (us : List User)
    (realityOn : Bool) :
    Holds (shadowsocksWritten method password us realityOn) "method" (.str method) ∧
    Holds (shadowsocksWritten method password us realityOn) "password" (.ofOption .str password) ∧
    Holds (shadowsocksWritten method password us realityOn) "users"
      (Value.arr (us.map (writeUser "shadowsocks" realityOn))).told := by
  have hmethod : Holds [("method", Value.str method)] "method" (.str method) :=
    holds_part "method" (some method) Value.str
  have hother : ∀ n, n ≠ "method" → has [("method", Value.str method)] n = false :=
    fun n hn => has_cons_of_ne hn _ []
  refine ⟨hmethod.append (has_append_false (has_part (by decide) password _)
    (has_itemsField (by decide) _)), ?_, ?_⟩
  · exact ((holds_part "password" password Value.str).append
      (has_itemsField (by decide) _)).append_left (hother _ (by decide))
  · exact ((holds_itemsField "users" _).append_left
      (has_part (by decide) password _)).append_left (hother _ (by decide))

/-- The options of a written shadowsocks listener. -/
theorem readOptions_shadowsocks (h : IsRead i) (htype : i.type = "shadowsocks")
    {password : Option String} {us : List User} (hshape : shadowsocksFields i =
      shadowsocksWritten i.shadowsocksMethod password us i.realityOn) :
    readOptions (Value.rereadFields [] (written i)) =
      shadowsocksOptions i.shadowsocksMethod password (optionsWritten i) := by
  have hhandled : (clientFields i).2 = ["method", "password"] := by
    rw [clientFields, if_pos htype]
  have hnames := optionsWritten_names h
  rw [hhandled] at hnames
  obtain ⟨hmethod, hpassword, -⟩ :=
    shadowsocksWritten_holds i.shadowsocksMethod password us i.realityOn
  rw [← hshape] at hmethod hpassword
  have hmethod := shadowsocks_holds htype (.inl rfl) hmethod 0
  have hpassword := shadowsocks_holds htype (.inr (.inl rfl)) hpassword 0
  rw [writeInbound_written h.optionsListed] at hmethod hpassword
  have hstable : ∀ p ∈ password, (Value.str p).Stable := fun p _ => Value.stable_str p
  refine readOptions_eq (shadowsocksOptions_names hnames) (fun f hf => ?_) fun n hn => ?_
  · rcases List.mem_cons.1 hf with rfl | hf
    · rfl
    · rcases List.mem_append.1 hf with hf | hf
      · obtain ⟨p, -, rfl⟩ := List.mem_map.1 hf
        rfl
      · exact (optionsWritten_values h f hf).2
  · rw [get_shadowsocksOptions hnames]
    split
    · next hn =>
        rw [hn]
        exact hmethod.get_reread (.inr (Value.stable_str _))
    · next hnot =>
        split
        · next hn =>
            rw [hn]
            exact hpassword.get_reread (Value.stable_part hstable)
        · next hnot' => exact get_option h hn (by rw [hhandled]; simp [hnot, hnot'])

/-- A shadowsocks listener with such clients and options is written in the same words. -/
theorem shadowsocksFields_back (hnames : ((optionsWritten i).map Prod.fst).Sublist
      (optionNames.filter fun n => !(["method", "password"].contains n)))
    {password : Option String} (hoptions : j.options =
      shadowsocksOptions i.shadowsocksMethod password (optionsWritten i)) :
    shadowsocksFields j = ("method", .str i.shadowsocksMethod) ::
      (if password.getD "" ≠ "" then
        ("password", .str (password.getD "")) :: itemsField "users" (writeUsers j)
      else match j.users with
        | [u] => [("password", .str u.password)]
        | _ => itemsField "users" (writeUsers j)) := by
  have hmethod : j.shadowsocksMethod = i.shadowsocksMethod := by
    unfold Inbound.shadowsocksMethod
    rw [hoptions, textOf, get_shadowsocksOptions hnames, if_pos rfl]
    exact if_neg i.shadowsocksMethod_ne
  have hpassword : textOf j.options "password" = password.getD "" := by
    rw [hoptions, textOf, get_shadowsocksOptions hnames, if_neg (by decide), if_pos rfl]
    cases password <;> rfl
  unfold shadowsocksFields
  rw [hmethod, hpassword]
  by_cases hempty : password.getD "" = ""
  · rw [if_neg (not_not_intro hempty), hempty]
    rfl
  · rw [if_pos hempty]
    dsimp only
    rw [if_pos (bne_iff_ne.2 hempty)]

/-- Listed shadowsocks clients, as they come back, are written in the same words. -/
theorem writeUsers_back (htype : j.type = "shadowsocks") {us : List User} {method : String}
    (husers : j.users = (us.map (sentUser "shadowsocks" realityOn)).map
      fun u : User => { u with method := method }) :
    writeUsers j = us.map (writeUser "shadowsocks" realityOn) := by
  rw [writeUsers, htype, husers, List.map_map, List.map_map]
  refine List.map_congr_left fun u _ => ?_
  rw [Function.comp_apply, Function.comp_apply, sentUser_shadowsocks]
  exact writeUser_shadowsocks _ _ rfl rfl

theorem clientsBack_of_fields (h : IsRead i) (htype : i.type = "shadowsocks") {users : List User}
    {password : Option String} (hfields : ∀ j : Inbound, j.type = i.type →
      j.users = users →
      j.options = shadowsocksOptions i.shadowsocksMethod password (optionsWritten i) →
      shadowsocksFields j = shadowsocksFields i) :
    ClientsBack i users (shadowsocksOptions i.shadowsocksMethod password (optionsWritten i)) := by
  have hclients : ∀ j : Inbound, j.type = i.type →
      clientFields j = (shadowsocksFields j, ["method", "password"]) :=
    fun j hj => if_pos (hj.trans htype)
  have hnames := optionsWritten_names h
  rw [hclients i rfl] at hnames
  refine ⟨(shadowsocksOptions_names hnames).nodup (by decide),
    shadowsocksOptions_places (optionsWritten_hasPlace h.optionsListed), ?_⟩
  intro j hjtype _ husers hoptions
  refine ⟨by rw [hclients j hjtype, hclients i rfl, hfields j hjtype husers hoptions], ?_⟩
  have hagain : (optionsWritten i).filterMap (writtenOption (clientFields i).2) =
      optionsWritten i := writtenOptions_again i.options
  rw [hclients i rfl] at hagain
  rw [optionsWritten, hclients j hjtype, hoptions]
  exact writtenOption_shadowsocksOptions _ _ hagain

theorem shadowsocksUsers_listed {users : List User} {options : Fields} {method : String}
    (hmethod : (get options "method").asText = method)
    (h : users ≠ [] ∨ get options "password" = .absent) :
    shadowsocksUsers users options =
      (users.map fun u : User => { u with method := method }, options) := by
  unfold shadowsocksUsers
  dsimp only
  rw [hmethod]
  split
  · next hpassword =>
      rw [h.resolve_left (not_not_intro rfl)] at hpassword
      cases hpassword
  · rfl

theorem shadowsocksUsers_secret {options : Fields} {method p : String}
    (hmethod : (get options "method").asText = method) (hpassword : get options "password" = .str p) :
    shadowsocksUsers [] options =
      ([{ User.empty with password := p, method := method }], erase options "password") := by
  unfold shadowsocksUsers
  rw [hmethod, hpassword]
  rfl

theorem clients_back_shadowsocks (h : IsRead i) (htype : i.type = "shadowsocks")
    {password : Option String} {us : List User} (hshape : shadowsocksFields i =
      shadowsocksWritten i.shadowsocksMethod password us i.realityOn)
    (hform : (∃ p, password = some p ∧ p ≠ "" ∧ us ≠ []) ∨ (password ≠ none ∧ us = []) ∨
        (password = none ∧ ∀ u, us ≠ [u])) :
    let clients := shadowsocksUsers (us.map (sentUser "shadowsocks" i.realityOn))
      (shadowsocksOptions i.shadowsocksMethod password (optionsWritten i))
    ClientsBack i clients.1 clients.2 := by
  have hnames := optionsWritten_names h
  rw [clientFields, if_pos htype] at hnames
  have hmethod : (get (shadowsocksOptions i.shadowsocksMethod password (optionsWritten i))
      "method").asText = i.shadowsocksMethod := by
    rw [get_shadowsocksOptions hnames]
    rfl
  have hpassword : get (shadowsocksOptions i.shadowsocksMethod password (optionsWritten i))
      "password" = .ofOption .str password := get_shadowsocksOptions hnames "password"
  obtain ⟨p, rfl, hp, hus⟩ | ⟨hp, rfl⟩ | ⟨rfl, hus⟩ := hform
  · -- the clients are listed beside a password
    rw [shadowsocksUsers_listed hmethod (.inl (by simpa using hus))]
    refine clientsBack_of_fields h htype fun j hjtype husers hoptions => ?_
    rw [shadowsocksFields_back hnames hoptions, hshape,
      writeUsers_back (hjtype.trans htype) husers, Option.getD_some, if_pos hp]
    rfl
  · -- the password is that of the only client
    obtain ⟨p, rfl⟩ := Option.ne_none_iff_exists'.1 hp
    rw [List.map_nil, shadowsocksUsers_secret hmethod hpassword, erase_shadowsocksOptions hnames]
    refine clientsBack_of_fields h htype fun j hjtype husers hoptions => ?_
    rw [shadowsocksFields_back hnames hoptions, hshape, husers]
    rfl
  · -- there is no password
    rw [shadowsocksUsers_listed hmethod (.inr hpassword)]
    refine clientsBack_of_fields h htype fun j hjtype husers hoptions => ?_
    rw [shadowsocksFields_back hnames hoptions, hshape,
      writeUsers_back (hjtype.trans htype) husers, husers]
    rcases us with _ | ⟨u, _ | ⟨w, us⟩⟩
    · rfl
    · exact absurd rfl (hus u)
    · rfl

/-- What is read of the clients and the options of a written listener is written as they were. -/
theorem clients_back (h : IsRead i) : ∃ us : List User,
    Holds (written i) "users" (Value.arr (us.map (writeUser i.type i.realityOn))).told ∧
    let clients := clientsRead i.type (us.map (sentUser i.type i.realityOn))
      (readOptions (Value.rereadFields [] (written i)))
    ClientsBack i clients.1 clients.2 := by
  by_cases htype : i.type = "shadowsocks"
  · obtain ⟨password, us, hshape, hform⟩ := shadowsocks_shape htype (h.secret htype)
    obtain ⟨-, -, husers⟩ := shadowsocksWritten_holds i.shadowsocksMethod password us i.realityOn
    rw [← hshape] at husers
    have husers := shadowsocks_holds htype (.inr (.inr rfl)) husers 0
    rw [writeInbound_written h.optionsListed] at husers
    refine ⟨us, htype ▸ husers, ?_⟩
    rw [readOptions_shadowsocks h htype hshape, clientsRead, if_pos htype, htype]
    exact clients_back_shadowsocks h htype hshape hform
  · have husers := users_written htype 0
    rw [writeInbound_written h.optionsListed] at husers
    obtain ⟨hoptions, hback⟩ := clients_back_listed h htype
    refine ⟨i.users, husers, ?_⟩
    rw [hoptions, clientsRead, if_neg htype]
    exact hback

/-! ## The whole listener -/

/-- What is kept of the transport of a listener. -/
def transportKept (i : Inbound) : Option Transport :=
  i.transport.bind fun t => if t.type ∈ transportNames then some t.kept else none

theorem readTransport_back (h : IsRead i) (place : String) :
    readTransport (get (Value.rereadFields [] (written i)) "transport") place =
      pure (transportKept i) := by
  have hholds := transport_holds h.optionsListed
  unfold transportWritten at hholds
  unfold transportKept
  cases ht : i.transport with
  | none =>
      rw [ht] at hholds
      rw [hholds.get_reread (.inl rfl)]
      rfl
  | some t =>
      obtain ⟨-, hheaders⟩ := h.transport t ht
      rw [ht, Option.bind_some] at hholds
      rw [Option.bind_some]
      by_cases hknown : t.type ∈ transportNames
      · rw [if_pos hknown] at hholds ⊢
        rw [hholds.get_reread (.inr (transportFields_stable hheaders))]
        exact readTransport_written hheaders hknown place
      · rw [if_neg hknown] at hholds ⊢
        rw [hholds.get_reread (.inl rfl)]
        rfl

theorem transportWritten_kept (hj : j.transport = transportKept i) :
    transportWritten j = transportWritten i := by
  unfold transportWritten
  rw [hj]
  unfold transportKept
  cases i.transport with
  | none => rfl
  | some t =>
      rw [Option.bind_some, Option.bind_some]
      split
      · next hknown =>
          rw [Option.bind_some, Transport.kept_type, if_pos hknown, transportFields_kept]
      · rfl

theorem readTls_back (h : IsRead i) (hfinite : ∀ n ∈ i.numbers, n.isFinite = true)
    (place : String) :
    readTls (get (Value.rereadFields [] (written i)) "tls") place = pure i.tls := by
  have hports : ∀ t ∈ i.tls, ∀ s ∈ t.reality.bind (·.handshake), s.serverPort.isFinite = true := by
    intro t ht s hs
    obtain ⟨r, hr, hs⟩ := Option.mem_bind_iff.1 hs
    have hmem : s ∈ (i.tls.bind (·.reality)).bind (·.handshake) :=
      Option.mem_bind_iff.2 ⟨r, Option.mem_bind_iff.2 ⟨t, ht, hr⟩, hs⟩
    refine hfinite _ (List.mem_cons_of_mem _ (List.mem_append_left _ ?_))
    exact List.mem_map_of_mem (Option.mem_toList.2 hmem)
  have hstable := Value.stable_part fun t (ht : t ∈ i.tls) =>
    tlsFields_stable (h.tls t ht) (hports t ht)
  rw [(tls_holds h.optionsListed).get_reread hstable]
  cases ht : i.tls with
  | none => rfl
  | some t => exact readTls_written (h.tls t ht) (hports t ht) place

theorem readMultiplex_back (h : IsRead i) (hfinite : ∀ n ∈ i.numbers, n.isFinite = true)
    (place : String) :
    readMultiplex (get (Value.rereadFields [] (written i)) "multiplex") place =
      pure i.multiplex := by
  have hrates : ∀ m ∈ i.multiplex, ∀ b ∈ m.brutal,
      b.upMbps.isFinite = true ∧ b.downMbps.isFinite = true := by
    intro m hm b hb
    have hmem : b ∈ i.multiplex.bind (·.brutal) := Option.mem_bind_iff.2 ⟨m, hm, hb⟩
    have hrate : ∀ n ∈ [b.upMbps, b.downMbps], n.isFinite = true := fun n hn =>
      hfinite n (List.mem_cons_of_mem _ (List.mem_append_right _
        (List.mem_flatMap.2 ⟨b, Option.mem_toList.2 hmem, hn⟩)))
    exact ⟨hrate _ (by simp), hrate _ (by simp)⟩
  have hstable := Value.stable_part fun m (hm : m ∈ i.multiplex) =>
    writeMultiplex_stable (h.multiplex m hm) (hrates m hm)
  rw [(multiplex_holds h.optionsListed).get_reread hstable]
  cases hm : i.multiplex with
  | none => rfl
  | some m => exact readMultiplex_written (h.multiplex m hm) (hrates m hm) place

/-- What comes back of a listener that was read and written is written in the same words, and
nothing more is lost of it. -/
theorem read_back (h : IsRead i) (hfinite : ∀ n ∈ i.numbers, n.isFinite = true) : ∃ j,
    (∀ index, readInbound (Value.rereadFields [] (written i)) index = pure (some j)) ∧
      ∀ index, writeInbound j index = pure (written i) := by
  obtain ⟨us, husers, hback⟩ := clients_back h
  have hlisted := h.optionsListed
  have htype : textOf (Value.rereadFields [] (written i)) "type" = i.type :=
    (head_holds hlisted (by decide)).textOf_reread
  have htag : textOf (Value.rereadFields [] (written i)) "tag" = i.tag :=
    (head_holds hlisted (by decide)).textOf_reread
  have hlisten : textOf (Value.rereadFields [] (written i)) "listen" = firstText i.listen "::" :=
    (head_holds hlisted (by decide)).textOf_reread
  have hport : (get (Value.rereadFields [] (written i)) "listen_port").asInt = i.listenPort := by
    have hholds : Holds (written i) "listen_port" (.num i.listenPort) :=
      head_holds hlisted (by decide)
    have hfinite := hfinite _ List.mem_cons_self
    rw [hholds.get_reread (.inr (h.port.stable hfinite))]
    exact h.port.asInt hfinite
  generalize hclients : clientsRead i.type (us.map (sentUser i.type i.realityOn))
    (readOptions (Value.rereadFields [] (written i))) = clients at hback
  let j : Inbound := { i with
    listen := firstText i.listen "::"
    transport := transportKept i
    users := clients.1
    options := clients.2 }
  refine ⟨j, fun index => ?_, fun index => ?_⟩
  · rw [readInbound_quiet htype h.named (readUsers_back husers) (readTls_back h hfinite)
      (readMultiplex_back h hfinite) (readTransport_back h), htag, hlisten, hport, hclients]
  · have hj : OptionsListed j := ⟨hback.listed, fun f hf => (hback.places f hf).named⟩
    have hfits : Fits j := by
      refine ⟨hback.places, h.tls, fun t ht => ?_⟩
      obtain ⟨w, -, hw⟩ := Option.bind_eq_some_iff.1 ht
      obtain ⟨hknown, hw⟩ := Option.ite_none_right_eq_some.1 hw
      cases hw
      rwa [Transport.kept_type]
    obtain ⟨hfields, hoptions⟩ := hback.fields j rfl rfl rfl rfl
    have htransport := transportWritten_kept (i := i) (j := j) rfl
    have hhead : headFields j = headFields i := by
      unfold headFields
      rw [firstText_again]
    rw [writeInbound_fits hj hfits]
    unfold written
    rw [hhead, hfields, hoptions, htransport]

end SingBox

end ProxyFleet
