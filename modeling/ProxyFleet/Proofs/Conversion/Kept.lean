import ProxyFleet.Proofs.Conversion.Repeated
import ProxyFleet.Proofs.Inbound.Subscribers

/-!
# What is kept of a listener without a word

A listener that an engine has read, it writes back, and where it has no note to make
everything should come back. That is so of the type. Of a client there comes back what
its protocol has a name for, of a transport what its type has a field for, and of
shadowsocks clients neither an identity nor a method of their own. What is lost beyond
that is lost in silence: the header fields of a transport that is no web socket, the name
of a shadowsocks client that is alone, the settings of an Xray transport that is called
as the security is.

Nothing else is lost. The theorem of this module names what comes back, field by field,
so a loss that it does not mention is none (`Engine.quiet_listener_comes_back`).
-/

namespace ProxyFleet

namespace Engine

variable {e : Engine} {i : Inbound}

/-- What is kept of a client. Only Xray keeps the flow of a client without Reality. -/
def keptUser (e : Engine) (type : String) (realityOn : Bool) (u : User) : User :=
  if type = "vless" then
    { User.empty with
      uuid := u.uuid
      email := u.email
      flow := if realityOn then firstText u.flow visionFlow
        else match e with
          | .singBox => ""
          | .xray => u.flow }
  else if type = "vmess" then { User.empty with uuid := u.uuid, email := u.email }
  else if type ∈ ["trojan", "hysteria2", "naive", "socks", "http", "mixed"] then
    { User.empty with email := u.email, password := u.password }
  else { User.empty with uuid := u.uuid, email := u.email, password := u.password }

/-- What is kept of the clients of a listener. -/
def keptUsers (e : Engine) (i : Inbound) : List User :=
  if i.type = "shadowsocks" then
    (i.admitted e.alone).map (User.underMethod i.shadowsocksMethod)
  else i.users.map (e.keptUser i.type i.realityOn)

/-- What is kept of the transport of a listener. -/
def keptTransport (e : Engine) (i : Inbound) : Option Transport :=
  i.transport.map fun t => match e with
    | .singBox => t.kept
    | .xray => Xray.sentTransport t i.tls

end Engine

/-! ## Sing-box -/

namespace SingBox

variable {i : Inbound}

theorem sentUser_kept {type : String} (h : type ≠ "shadowsocks") (realityOn : Bool) (u : User) :
    sentUser type realityOn u = Engine.singBox.keptUser type realityOn u := by
  rw [sentUser_eq]
  unfold Engine.keptUser userFields readUser
  by_cases hvless : type = "vless"
  · simp [hvless, textOf, Fields.get_cons, Value.asText, firstText_empty, User.empty]
  · rw [if_neg hvless, if_neg hvless, if_neg hvless]
    by_cases hvmess : type = "vmess"
    · simp [hvmess, textOf, Fields.get_cons, Value.asText, firstText_empty, User.empty]
    · rw [if_neg hvmess, if_neg hvmess]
      by_cases hlisted : type ∈ ["trojan", "hysteria2", "naive", "socks", "http", "mixed"]
      · rw [if_pos hlisted]
        simp only [List.mem_cons, List.not_mem_nil, or_false] at hlisted
        rcases hlisted with rfl | rfl | rfl | rfl | rfl | rfl <;>
          simp [textOf, Fields.get_cons, Value.asText, User.empty, firstText]
      · rw [if_neg hlisted]
        simp only [List.mem_cons, List.not_mem_nil, or_false, not_or] at hlisted
        simp [hlisted, h, textOf, Fields.get_cons, Value.asText, firstText_empty, User.empty]

/-- A transport that sing-box does not have is dropped with a note. -/
theorem writeTransport_noted {t : Transport} (h : t.type ∉ transportNames) (place : String) :
    (writeTransport t place).notes ≠ [] := by
  have hunknown : ¬transportNames.contains t.type = true := by simpa using h
  simp only [transportNames, List.mem_cons, List.not_mem_nil, or_false, not_or] at h
  obtain ⟨hws, hgrpc, hhttp, hupgrade, -⟩ := h
  unfold writeTransport
  rw [if_neg hws, if_neg hgrpc, if_neg hhttp, if_neg hupgrade, if_neg hunknown]
  exact List.cons_ne_nil _ _

theorem transport_of_quiet {index : Nat} (h : (writeInbound i index).notes = []) :
    ∀ t ∈ i.transport, t.type ∈ transportNames := by
  intro t ht
  by_contra hunknown
  have hnoted := writeTransport_noted hunknown (Inbound.label i.tag index)
  unfold writeInbound at h
  rw [Option.mem_def.1 ht] at h
  cases htls : i.tls <;> rw [htls] at h <;>
    simp only [Noted.bind_notes, List.append_eq_nil_iff] at h
  · exact hnoted h.2.2.1
  · exact hnoted h.2.2.2.1

theorem quiet_read_back (h : IsRead i) {index : Nat} (hquiet : (writeInbound i index).notes = []) :
    ∃ j, (readInbound (Value.rereadFields [] (writeInbound i index).value) 0).value = some j ∧
      j.type = i.type ∧ j.transport = Engine.singBox.keptTransport i ∧
      j.users = Engine.singBox.keptUsers i := by
  obtain ⟨j, hj, hjtype, husers⟩ : ∃ j,
      (readInbound (Value.rereadFields [] (writeInbound i index).value) 0).value = some j ∧
        j.type = i.type ∧ j.users = Engine.singBox.keptUsers i := by
    unfold Engine.keptUsers
    split
    · next htype => exact shadowsocks_read_back htype index 0
    · next htype =>
        have hsent : i.users.map (sentUser i.type i.realityOn) =
            i.users.map (Engine.singBox.keptUser i.type i.realityOn) :=
          List.map_congr_left fun u _ => sentUser_kept htype _ u
        rw [← hsent]
        exact users_read_back h.named htype index 0
  refine ⟨j, hj, hjtype, ?_, husers⟩
  have htype : textOf (Value.rereadFields [] (written i)) "type" = i.type :=
    (head_holds h.optionsListed (by decide)).textOf_reread
  obtain ⟨place, hvalue⟩ := readInbound_value htype h.named 0
  rw [writeInbound_written h.optionsListed, hvalue] at hj
  cases hj
  rw [readTransport_back h, Noted.pure_value, transportKept, Engine.keptTransport]
  cases ht : i.transport with
  | none => rfl
  | some t => exact if_pos (transport_of_quiet hquiet t ht)

end SingBox

/-! ## Xray -/

namespace Xray

variable {i : Inbound}

theorem sentClient_kept {type : String} (h : type ∉ unservable)
    (haccounts : type ≠ "socks" ∧ type ≠ "http") (realityOn : Bool) (u : User) :
    sentClient type realityOn u = Engine.xray.keptUser type realityOn u := by
  rw [sentClient_eq]
  unfold Engine.keptUser clientFields readClient
  by_cases hvless : type = "vless"
  · simp [hvless, textOf, Fields.get_cons, Value.asText, User.empty]
  · rw [if_neg hvless, if_neg hvless]
    by_cases hvmess : type = "vmess"
    · simp [hvmess, textOf, Fields.get_cons, Value.asText, User.empty]
    · rw [if_neg hvmess, if_neg hvmess, if_neg (by simp [hvless, hvmess])]
      by_cases htrojan : type = "trojan"
      · simp [htrojan, textOf, Fields.get_cons, Value.asText, User.empty]
      · have hother : type ∉ ["trojan", "hysteria2", "naive", "socks", "http", "mixed"] := by
          simp only [unservable, List.mem_cons, List.not_mem_nil, or_false, not_or] at h ⊢
          simp [h, haccounts, htrojan]
        rw [if_neg htrojan, if_neg htrojan, if_neg hother]
        simp [textOf, Fields.get_cons, Value.asText, User.empty]

theorem usersBack_kept (h : i.type ∉ unservable) : usersBack i = Engine.xray.keptUsers i := by
  unfold usersBack Engine.keptUsers
  split
  · rfl
  · split
    · next haccounts =>
        refine List.map_congr_left fun u _ => ?_
        rcases haccounts with htype | htype <;> rw [htype] <;> rfl
    · next haccounts =>
        rw [not_or] at haccounts
        exact List.map_congr_left fun u _ => sentClient_kept h haccounts _ u

end Xray

/-! ## Both engines -/

/-- A listener that an engine has read and writes without a note comes back from whatever file it is
written to with its type, and with what is kept of its transport and of its clients, in their
order. -/
theorem Engine.quiet_listener_comes_back {e : Engine} {file text : String}
    {found : Noted (List Inbound)} {i : Inbound} {index : Nat} {native : Fields}
    (hread : e.read file text = .ok found) (hi : i ∈ found.value)
    (hquiet : e.writeInbound i index = pure (some native)) :
    ∀ doc, ConfigFile.HasListeners [.obj native] doc → ∀ l file, ∃ j notes,
      e.read file (String.ofList (Printer.value l 0 doc)) = .ok ⟨[j], notes⟩ ∧
      j.type = i.type ∧ j.transport = e.keptTransport i ∧ j.users = e.keptUsers i := by
  obtain ⟨el, index', hsettled, hel⟩ := mem_read hread hi
  obtain ⟨j, hj, hkept⟩ : ∃ j, (e.readInbound (Value.rereadFields [] native) 0).value = some j ∧
      j.type = i.type ∧ j.transport = e.keptTransport i ∧ j.users = e.keptUsers i := by
    cases e with
    | singBox =>
        have hvalue : some (SingBox.writeInbound i index).value = some native :=
          congrArg Noted.value hquiet
        have hnotes : (SingBox.writeInbound i index).notes = [] := by
          have hall := congrArg Noted.notes hquiet
          exact (List.append_eq_nil_iff.1 hall).1
        cases hvalue
        exact SingBox.quiet_read_back (SingBox.readInbound_isRead hsettled hel) hnotes
    | xray =>
        have hvalue : (Xray.writeInbound i index).value = some native :=
          congrArg Noted.value hquiet
        have hserved := Xray.servable_of_written hvalue
        rw [Xray.writeInbound_written hserved] at hvalue
        cases hvalue
        have hback := Xray.readInbound_returned (Xray.readInbound_isRead hsettled hel) 0
        exact ⟨_, congrArg Noted.value hback, rfl, rfl, Xray.usersBack_kept hserved⟩
  intro doc hdoc l file
  obtain ⟨notes, hfile⟩ := read_written hdoc hj file l 0
  exact ⟨j, notes, hfile, hkept⟩

/-- A file with one listener, of which something can be seen. -/
theorem Engine.mem_of_seen {e : Engine} {file text : String} {p : Inbound → Bool}
    (h : (e.read file text).toOption.map (·.value.map p) = some [true]) :
    ∃ found i, e.read file text = .ok found ∧ i ∈ found.value ∧ p i = true := by
  obtain ⟨found, hfound, hseen⟩ := Option.map_eq_some_iff.1 h
  obtain ⟨i, hi, hp⟩ := List.map_eq_singleton_iff.1 hseen
  refine ⟨found, i, ?_, by rw [hi]; exact List.mem_singleton_self i, hp⟩
  cases hread : e.read file text with
  | error _ =>
      rw [hread] at hfound
      cases hfound
  | ok found' =>
      rw [hread] at hfound
      exact congrArg Except.ok (Option.some.inj hfound)

/-- A listener on web sockets, for Xray. -/
def webSocketFile : String :=
  "[\x7b\"protocol\": \"vmess\", \"settings\": \x7b\"clients\": [\x7b\"id\": \"u\"\x7d]\x7d, "
    ++ "\"streamSettings\": \x7b\"network\": \"ws\", "
    ++ "\"wsSettings\": \x7b\"headers\": \x7b\"Host\": \"h\", \"X\": \"1\"\x7d\x7d\x7d\x7d]"

theorem Engine.quiet_listener_comes_back_web_socket : ∃ found i native,
    Engine.xray.read "config.json" webSocketFile = .ok found ∧ i ∈ found.value ∧
      Engine.xray.writeInbound i 0 = pure (some native) ∧
      ∀ doc, ConfigFile.HasListeners [.obj native] doc → ∀ l file, ∃ j notes,
        Engine.xray.read file (String.ofList (Printer.value l 0 doc)) = .ok ⟨[j], notes⟩ ∧
        j.type = i.type ∧ j.transport = some ⟨"ws", "", "h", "", [("X", "1")]⟩ ∧
        j.users = [⟨"u", "", "", "", ""⟩] := by
  have hseen : (Engine.xray.read "config.json" webSocketFile).toOption.map (·.value.map fun i =>
      (Engine.xray.writeInbound i 0).value.isSome && (Engine.xray.writeInbound i 0).notes == []
        && Engine.xray.keptTransport i == some ⟨"ws", "", "h", "", [("X", "1")]⟩
        && Engine.xray.keptUsers i == [⟨"u", "", "", "", ""⟩]) = some [true] := by
    rw [Engine.read_of_chars]
    rotate_left
    · unfold webSocketFile
      repeat' first | apply toList_append_literal | exact toList_literal rfl | rfl
    · decide +kernel
  obtain ⟨found, i, hread, hi, hi'⟩ := mem_of_seen hseen
  simp only [Bool.and_eq_true, beq_iff_eq] at hi'
  obtain ⟨⟨⟨hsome, hnotes⟩, htransport⟩, husers⟩ := hi'
  obtain ⟨native, hnative⟩ := Option.isSome_iff_exists.1 hsome
  have hquiet := Noted.eq_pure hnative hnotes
  rw [← htransport, ← husers]
  exact ⟨found, i, native, hread, hi, hquiet, quiet_listener_comes_back hread hi hquiet⟩

/-- A listener on HTTP with a header field, for sing-box. -/
def headerFile : String :=
  "[\x7b\"type\": \"vmess\", \"tag\": \"in\", \"listen\": \"::\", \"listen_port\": 443, "
    ++ "\"users\": [\x7b\"uuid\": \"u\"\x7d], \"transport\": \x7b\"type\": \"http\", "
    ++ "\"path\": \"/p\", \"headers\": \x7b\"X\": \"1\"\x7d\x7d\x7d]"

/-- The header field of the listener is lost, without a note. -/
theorem SingBox.header_field_lost : ∃ found i native j notes,
    Engine.singBox.read "config.json" headerFile = .ok found ∧ i ∈ found.value ∧
      Engine.singBox.writeInbound i 0 = pure (some native) ∧
      Engine.singBox.read "config.json" (Value.obj [("inbounds", .arr [.obj native])]).tightText =
        .ok ⟨[j], notes⟩ ∧
      i.transport.map (·.headers) = some [("X", "1")] ∧ j.transport.map (·.headers) = some [] := by
  have hseen : (Engine.singBox.read "config.json" headerFile).toOption.map (·.value.map fun i =>
      (writeInbound i 0).notes == [] && i.transport.map (·.headers) == some [("X", "1")]
        && (Engine.singBox.keptTransport i).map (·.headers) == some []) = some [true] := by
    rw [Engine.read_of_chars]
    rotate_left
    · unfold headerFile
      repeat' first | apply toList_append_literal | exact toList_literal rfl | rfl
    · decide +kernel
  obtain ⟨found, i, hread, hi, hi'⟩ := Engine.mem_of_seen hseen
  simp only [Bool.and_eq_true, beq_iff_eq] at hi'
  obtain ⟨⟨hnotes, hheaders⟩, hkept⟩ := hi'
  obtain ⟨j, hj, -, htransport, -⟩ := quiet_read_back (isRead_of_read hread i hi) hnotes
  obtain ⟨notes, hback⟩ := Engine.read_written (e := .singBox) (.alone _) hj "config.json" .tight 0
  refine ⟨found, i, _, j, notes, hread, hi, ?_, hback, hheaders, htransport ▸ hkept⟩
  exact Noted.eq_pure rfl (by rw [Engine.writeInbound, Noted.bind_notes, hnotes]; rfl)

end ProxyFleet
