import Mathlib.Data.List.TakeWhile
import ProxyFleet.Proofs.Conversion.Again
import ProxyFleet.Proofs.Inbound.Elements

/-!
# Addresses in the destination of a Reality listener

A destination names a host or an address in brackets, and it can name a port
(`Xray.Dest`). Reading looks for the last colon before it looks for brackets, and writing
puts a colon between server and port and knows of no brackets. So an address in brackets
is read well only if a port comes behind it, and never comes back with its brackets; the
other forms are read as what they say and written back in the same words.
-/

namespace ProxyFleet

theorem splitLast?_none {c : Char} {cs : List Char} (h : c ∉ cs) : splitLast? c cs = none := by
  have hother : ∀ d ∈ cs.reverse, (d != c) = true := by
    intro d hd
    rw [bne_iff_ne]
    rintro rfl
    exact h (List.mem_reverse.1 hd)
  have hnone : cs.reverse.dropWhile (· != c) = [] := List.dropWhile_eq_nil_iff.2 hother
  unfold splitLast?
  rw [hnone]

/-- A character that is there has a last place. -/
theorem exists_last_append {c : Char} {cs : List Char} (h : c ∈ cs) :
    ∃ before after, cs = before ++ c :: after ∧ c ∉ after := by
  obtain ⟨after, before, hcs, hafter⟩ := List.eq_append_cons_of_mem (List.mem_reverse.2 h)
  refine ⟨before.reverse, after.reverse, ?_, fun hc => hafter (List.mem_reverse.1 hc)⟩
  rw [← List.reverse_reverse cs, hcs]
  simp

theorem Value.eq_str {v : Value} {s : String} (h : v.asText = s) (hs : s ≠ "") :
    v = .str s := by
  cases v with
  | str => exact congrArg Value.str h
  | _ => exact absurd h.symm hs

theorem Number.IsPort.ofLeadingDigits? {n : Number} (h : n.IsPort) :
    Number.ofLeadingDigits? n.chars = some n := by
  obtain ⟨p, hchars, hp⟩ := h.digits
  rw [hchars, Number.ofLeadingDigits?_digits (Decimal.areDigits_digitsOf p),
    Decimal.ofDigits_digitsOf, hp]

theorem Number.IsPort.isFinite {n : Number} (h : n.IsPort) : n.isFinite = true := by
  obtain ⟨p, hp, -⟩ := h
  cases n with
  | finite => rfl
  | _ => cases hp

namespace Xray

open Fields

/-! ## Destinations -/

/-- The name of a host or an address of four numbers, which is not just digits. -/
structure IsHost (name : String) : Prop where
  noColon : ':' ∉ name.toList
  noBracket : '[' ∉ name.toList
  notNumber : name.toList.all Char.isDigit = false

/-- An address that has colons in it and stands in brackets for that. -/
structure IsAddress (address : String) : Prop where
  colon : ':' ∈ address.toList
  plain : ∀ c ∈ address.toList, c ≠ '[' ∧ c ≠ ']' ∧ endsLine c = false

/-- Names are made of letters, digits, hyphens and dots. -/
theorem IsHost.of_chars {name : String}
    (h : name.toList.all (fun c => c.isAlphanum || c = '-' || c = '.') = true)
    (hnumber : name.toList.all Char.isDigit = false) : IsHost name where
  noColon hc := absurd (List.all_eq_true.1 h _ hc) (by decide)
  noBracket hc := absurd (List.all_eq_true.1 h _ hc) (by decide)
  notNumber := hnumber

/-- Addresses are made of digits, some of them letters, and of colons and dots. -/
theorem IsAddress.of_chars {address : String} (hcolon : ':' ∈ address.toList)
    (h : address.toList.all (fun c => c.isAlphanum || c = ':' || c = '.') = true) :
    IsAddress address where
  colon := hcolon
  plain c hc := by
    have hplain := List.all_eq_true.1 h c hc
    refine ⟨?_, ?_, Bool.eq_false_iff.2 fun hends => ?_⟩
    · rintro rfl
      revert hplain
      decide
    · rintro rfl
      revert hplain
      decide
    · simp only [endsLine, Bool.or_eq_true, decide_eq_true_eq] at hends
      rcases hends with ((rfl | rfl) | rfl) | rfl <;> revert hplain <;> decide

/-- A server, as destinations name it. -/
inductive Server where
  | host (name : String) (h : IsHost name)
  | address (bare : String) (h : IsAddress bare)

namespace Server

/-- The server without brackets. -/
def bare : Server → String
  | .host name _ => name
  | .address bare _ => bare

def text : Server → String
  | .host name _ => name
  | .address bare _ => "[" ++ bare ++ "]"

def isAddress : Server → Bool
  | .host _ _ => false
  | .address _ _ => true

end Server

/-- A destination. -/
structure Dest where
  server : Server
  port : Option {n : Number // n.IsPort}

namespace Dest

def text (d : Dest) : String :=
  match d.port with
  | none => d.server.text
  | some n => d.server.text ++ ":" ++ n.1.text

/-- What a destination says. -/
def meaning (d : Dest) : Handshake :=
  ⟨d.server.bare, (d.port.map Subtype.val).getD defaultPort⟩

end Dest

/-! ## Reading -/

theorem splitDestination_host {name : String} (h : IsHost name) :
    splitDestination name = ⟨name, defaultPort⟩ := by
  unfold splitDestination
  rw [splitLast?_none h.noColon]
  dsimp only
  rw [h.notNumber, Bool.and_false]
  rfl

theorem dropBrackets_host {name : String} (h : IsHost name) :
    dropBrackets name.toList = name.toList :=
  dropBrackets_eq fun hbracket => h.noBracket (List.mem_of_mem_head? hbracket.1)

theorem bracketed_toList (address : String) :
    ("[" ++ address ++ "]").toList = '[' :: (address.toList ++ [']']) := by simp

theorem dropBrackets_address {address : String} (h : IsAddress address) :
    dropBrackets ("[" ++ address ++ "]").toList = address.toList := by
  have hplain : address.toList.any endsLine = false :=
    List.any_eq_false.2 fun c hc => by simp [(h.plain c hc).2.2]
  rw [bracketed_toList]
  unfold dropBrackets
  simp [hplain]

/-- What stands before the last colon is the server, brackets and all. -/
theorem splitDestination_port (s : Server) {n : Number} (hn : n.IsPort) :
    splitDestination (s.text ++ ":" ++ n.text) = ⟨s.bare, n⟩ := by
  have hdropped : String.ofList (dropBrackets s.text.toList) = s.bare := by
    cases s with
    | host name h => exact (congrArg String.ofList (dropBrackets_host h)).trans String.ofList_toList
    | address bare h =>
        exact (congrArg String.ofList (dropBrackets_address h)).trans String.ofList_toList
  have hread := splitDestination_text (h := ⟨s.text, n⟩) hn.isFinite
  rw [hn.ofLeadingDigits?, Option.getD_some, hdropped] at hread
  exact hread

/-- An address alone is cut at its own last colon, with one of the brackets on either side. -/
theorem splitDestination_address {address : String} (h : IsAddress address) :
    ∃ before, (splitDestination ("[" ++ address ++ "]")).server =
      String.ofList ('[' :: before) := by
  obtain ⟨before, after, hcut, hafter⟩ := exists_last_append h.colon
  have hcolon : ':' ∉ after ++ [']'] := by simpa using hafter
  have hopen : before.getLast? ≠ some ']' := fun hlast =>
    (h.plain ']' (hcut ▸ List.mem_append_left _ (List.mem_of_getLast? hlast))).2.1 rfl
  have htext : ("[" ++ address ++ "]").toList = ('[' :: before) ++ ':' :: (after ++ [']']) := by
    rw [bracketed_toList, hcut]
    simp
  refine ⟨before, ?_⟩
  unfold splitDestination
  rw [htext, splitLast?_append hcolon]
  unfold dropBrackets
  simp [hopen]

/-- A destination is read as what it says, unless it is an address without a port. -/
theorem splitDestination_iff (d : Dest) :
    splitDestination d.text = d.meaning ↔ ¬(d.server.isAddress = true ∧ d.port = none) := by
  obtain ⟨server, _ | ⟨n, hn⟩⟩ := d
  · cases server with
    | host name h => exact iff_of_true (splitDestination_host h) (by simp [Server.isAddress])
    | address bare h =>
        refine iff_of_false (fun hread => ?_) (by simp [Server.isAddress])
        obtain ⟨before, hserver⟩ := splitDestination_address h
        have hbare : String.ofList ('[' :: before) = bare :=
          hserver.symm.trans (congrArg Handshake.server hread)
        refine (h.plain '[' ?_).1 rfl
        rw [← hbare, String.toList_ofList]
        exact List.mem_cons_self
  · exact iff_of_true (splitDestination_port server hn) (by simp)

/-! ## Writing -/

/-- A destination with a port is written in the same words, unless it is an address. -/
theorem destinationText_meaning_iff {d : Dest} (hport : d.port.isSome = true) :
    destinationText d.meaning = d.text ↔ d.server.isAddress = false := by
  obtain ⟨server, _ | ⟨n, hn⟩⟩ := d
  · cases hport
  · cases server with
    | host name h => exact iff_of_true rfl rfl
    | address bare h =>
        refine iff_of_false (fun hsame => ?_) (by simp [Server.isAddress])
        have hbrackets : bare ++ ":" ++ n.text = "[" ++ bare ++ "]" ++ ":" ++ n.text := hsame
        have hlength := congrArg (·.toList.length) hbrackets
        simp only [String.toList_append, List.length_append] at hlength
        have hopen : "[".toList.length = 1 := rfl
        omega

/-- The destination that an element asks Reality for. -/
def usedDestination (el : Value) : Option String :=
  match (el.get "streamSettings").get "realitySettings" with
  | .obj settings =>
    if ((el.get "streamSettings").get "security").asText = "reality" then
      some (destinationOf settings)
    else none
  | _ => none

/-- The destination in a listener that was written. -/
def writtenDestination (el : Value) : Value :=
  ((el.get "streamSettings").get "realitySettings").get "dest"

/-- An element that is read as a listener that Xray can serve. -/
def isCarried (el : Value) : Bool :=
  Engine.xray.keeps el && !unservable.contains (el.get "protocol").asText

theorem usedDestination_cases {el : Value} {dest : String}
    (h : usedDestination el = some dest) : ∃ stream settings,
      el.get "streamSettings" = .obj stream ∧ textOf stream "security" = "reality" ∧
      get stream "realitySettings" = .obj settings ∧ destinationOf settings = dest := by
  unfold usedDestination at h
  split at h
  · next settings hsettings =>
      obtain ⟨hsecurity, hdest⟩ := Option.ite_none_right_eq_some.1 h
      cases hstream : el.get "streamSettings" with
      | obj stream =>
          rw [hstream] at hsettings hsecurity
          exact ⟨stream, settings, rfl, hsecurity, hsettings, Option.some.inj hdest⟩
      | _ =>
          rw [hstream] at hsettings
          cases hsettings
  · cases h

theorem readStream_settings {v : Value} {stream settings : Fields} (hstream : v = .obj stream)
    (hsecurity : textOf stream "security" = "reality")
    (hsettings : get stream "realitySettings" = .obj settings) (place : String) :
    (readStream v place).value.2 = some (readReality settings) := by
  subst hstream
  change (readSecurity stream (textOf stream "security") place).value = _
  rw [hsecurity, readSecurity, hsettings]
  rfl

section Listener

variable {settings : Fields} {i : Inbound}

theorem readElement_reality {el : Value} {index : Nat} {dest : String}
    (hread : (Engine.xray.readElement el index).value = some i)
    (hused : usedDestination el = some dest) :
    ∃ settings, destinationOf settings = dest ∧ i.tls = some (readReality settings) := by
  obtain ⟨stream, settings, hstream, hsecurity, hsettings, hdest⟩ := usedDestination_cases hused
  cases el with
  | obj fs =>
      change (readInbound fs index).value = some i at hread
      have hnamed : textOf fs "protocol" ≠ "" := by
        intro hempty
        unfold readInbound at hread
        rw [if_pos hempty] at hread
        cases hread
      obtain ⟨place, hvalue⟩ := readInbound_value hnamed index
      obtain rfl := Option.some.inj (hvalue.symm.trans hread)
      exact ⟨settings, hdest, readStream_settings hstream hsecurity hsettings place⟩
  | _ => cases hstream

theorem writtenDestination_written (htls : i.tls = some (readReality settings))
    (hdest : destinationOf settings ≠ "") : writtenDestination (Value.obj (written i)).reread =
      .str (destinationText (splitDestination (destinationOf settings))) := by
  have hr : _ ∈ (readReality settings).reality := rfl
  obtain ⟨stream, reality, hstream, hreality, htext⟩ := destination_reread htls rfl hr rfl
  have hread := htext "dest"
  change (get reality "dest").asText = destination _ (readReality settings) at hread
  rw [destination_eq, visited, if_neg hdest, Option.getD_some] at hread
  have hnative : writtenDestination (Value.obj (written i)).reread = get reality "dest" := by
    unfold writtenDestination
    rw [Value.reread]
    change ((get _ "streamSettings").get _).get _ = _
    rw [hstream]
    change (get _ _).get _ = _
    rw [hreality]
    rfl
  rw [hnative]
  exact Value.eq_str hread (destinationText_ne _)

end Listener

/-! ## Files -/

/-- The listeners that come out of a file, element by element of it. -/
theorem write_elements (els : List Value) :
    List.Forall₂ (fun el native => ∃ index i, (Engine.xray.readElement el index).value = some i ∧
        native = Value.obj (written i))
      (els.filter isCarried)
      (write (els.zipIdx.filterMap fun x => (Engine.xray.readElement x.1 x.2).value)).value := by
  have hserved : ∀ (x : Value × Nat) (i : Inbound), Engine.xray.ReadsAs x.1 x.2 i →
      ((!unservable.contains (x.1.get "protocol").asText) = true ↔ isServed i = true) := by
    intro x i hi
    rw [isServed, hi.type]
    rfl
  have hboth := List.rel_filter hserved (Engine.xray.readElements_value els.zipIdx)
  have hcarried : els.filter isCarried = ((els.zipIdx.filter (Engine.xray.keeps ·.1)).filter
      fun x => !unservable.contains (x.1.get "protocol").asText).map Prod.fst :=
    calc
      els.filter isCarried = (els.zipIdx.map Prod.fst).filter isCarried := by
        rw [List.zipIdx_map_fst]
      _ = (els.zipIdx.filter (isCarried ∘ Prod.fst)).map Prod.fst := List.filter_map
      _ = _ := by
        rw [List.filter_filter]
        exact congrArg _ (List.filter_congr fun x _ => Bool.and_comm _ _)
  rw [write_value, hcarried, List.forall₂_map_left_iff, List.forall₂_map_right_iff]
  exact hboth.imp fun x i hi => ⟨x.2, i, hi.read, rfl⟩

theorem Dest.text_ne {d : Dest} (hport : d.port.isSome = true) : d.text ≠ "" := by
  obtain ⟨server, _ | ⟨n, hn⟩⟩ := d
  · cases hport
  · exact destinationText_ne ⟨server.text, n⟩

/-- Whatever is found in a file is converted, element by element, and so are the destinations. -/
theorem convertConfig_destinations {text : String} {els : List Value}
    (hels : ConfigFile.elements .xray defaultFile text = .ok els) : ∃ out backs,
      convertConfig "xray" "xray" text = .ok out ∧
      ConfigFile.elements .xray defaultFile out.value = .ok backs ∧
      List.Forall₂ (fun el back => ∀ d : Dest, d.port.isSome = true →
          usedDestination el = some d.text →
          writtenDestination back = .str (destinationText d.meaning))
        (els.filter isCarried) backs := by
  have hfound := Engine.read_eq .xray defaultFile text
  rw [hels] at hfound
  refine ⟨_, _, (convertConfig_ok_iff (s := .xray) (t := .xray)).2 ⟨_, hfound, rfl⟩,
    ConfigFile.elements_inboundsText _ _ _,
    List.forall₂_map_right_iff.2 ((write_elements els).imp fun el native hnative => ?_)⟩
  obtain ⟨index, i, hread, rfl⟩ := hnative
  intro d hport hused
  obtain ⟨settings, hdest, htls⟩ := readElement_reality hread hused
  have hmeant : splitDestination d.text = d.meaning := (splitDestination_iff d).2 fun hnone => by
    rw [hnone.2] at hport
    cases hport
  rw [writtenDestination_written htls (hdest ▸ Dest.text_ne hport), hdest, hmeant]

/-- A destination is read as what it says and, with a port, is written back in the same words,
but for addresses: without a port they are not read as themselves, and they are always written
back without their brackets. -/
theorem destination_kept_iff (d : Dest) :
    (splitDestination d.text = d.meaning ↔ ¬(d.server.isAddress = true ∧ d.port = none)) ∧
    ∀ text els, ConfigFile.elements .xray defaultFile text = .ok els → ∃ out backs,
      convertConfig "xray" "xray" text = .ok out ∧
      ConfigFile.elements .xray defaultFile out.value = .ok backs ∧
      List.Forall₂ (fun el back => d.port.isSome = true → usedDestination el = some d.text →
          writtenDestination back = .str (destinationText d.meaning) ∧
          (writtenDestination back = .str d.text ↔ d.server.isAddress = false))
        (els.filter isCarried) backs := by
  refine ⟨splitDestination_iff d, fun text els hels => ?_⟩
  obtain ⟨out, backs, hout, hbacks, hall⟩ := convertConfig_destinations hels
  refine ⟨out, backs, hout, hbacks, hall.imp fun el back hback hport hused => ?_⟩
  have hwritten := hback d hport hused
  refine ⟨hwritten, ?_⟩
  rw [hwritten, Value.str.injEq, destinationText_meaning_iff hport]

/-- A host and an address, each with a port. -/
def portsFile : String :=
  "[\x7b\"protocol\": \"vless\", \"streamSettings\": \x7b\"security\": \"reality\", "
    ++ "\"realitySettings\": \x7b\"dest\": \"example.org:443\"\x7d\x7d\x7d,\n"
    ++ "\x7b\"protocol\": \"trojan\", \"streamSettings\": \x7b\"security\": \"reality\", "
    ++ "\"realitySettings\": \x7b\"dest\": \"[::1]:8443\"\x7d\x7d\x7d]"

/-- A host with a port. -/
def hostDest : Dest :=
  ⟨.host "example.org" (.of_chars (by decide +kernel) (by decide +kernel)),
    some ⟨443, 443, by decide +kernel, by decide, by decide⟩⟩

/-- An address with a port. -/
def addressDest : Dest :=
  ⟨.address "::1" (.of_chars (by decide +kernel) (by decide +kernel)),
    some ⟨8443, 8443, by decide +kernel, by decide, by decide⟩⟩

theorem destination_kept_ports : splitDestination "[::1]:8443" = ⟨"::1", 8443⟩ ∧
    ∃ host address out host' address',
      ConfigFile.elements .xray defaultFile portsFile = .ok [host, address] ∧
      usedDestination host = some "example.org:443" ∧
      usedDestination address = some "[::1]:8443" ∧
      convertConfig "xray" "xray" portsFile = .ok out ∧
      ConfigFile.elements .xray defaultFile out.value = .ok [host', address'] ∧
      writtenDestination host' = .str "example.org:443" ∧
      writtenDestination address' = .str "::1:8443" := by
  obtain ⟨-, hkeptHost⟩ := destination_kept_iff hostDest
  obtain ⟨hread, hkeptAddress⟩ := destination_kept_iff addressDest
  have htext : hostDest.text = "example.org:443" ∧ addressDest.text = "[::1]:8443" ∧
      destinationText addressDest.meaning = "::1:8443" := by
    decide +kernel
  have hseen : (ConfigFile.elements .xray defaultFile portsFile).toOption.map (fun els =>
      els.map fun el => (isCarried el, usedDestination el)) =
      some [(true, some "example.org:443"), (true, some "[::1]:8443")] := by
    rw [ConfigFile.elements_of_chars]
    rotate_left
    · unfold portsFile
      repeat' first | apply toList_append_literal | exact toList_literal rfl | rfl
    · decide +kernel
  refine ⟨htext.2.1 ▸ hread.2 nofun, ?_⟩
  obtain ⟨els, hels, helsSeen⟩ := exists_ok_of_seen hseen
  obtain ⟨out, backs, hout, hbacks, hall⟩ := hkeptHost _ _ hels
  obtain ⟨out', backs', hout', hbacks', hall'⟩ := hkeptAddress _ _ hels
  obtain rfl := Except.ok.inj (hout.symm.trans hout')
  obtain rfl := Except.ok.inj (hbacks.symm.trans hbacks')
  obtain ⟨host, rest, rfl, hhost, hrest⟩ := List.map_eq_cons_iff.1 helsSeen
  obtain ⟨address, _, rfl, haddress, hnil⟩ := List.map_eq_cons_iff.1 hrest
  obtain rfl := List.map_eq_nil_iff.1 hnil
  obtain ⟨hcarriedHost, husedHost⟩ := Prod.mk.inj hhost
  obtain ⟨hcarriedAddress, husedAddress⟩ := Prod.mk.inj haddress
  rw [List.filter_cons_of_pos hcarriedHost, List.filter_cons_of_pos hcarriedAddress,
    List.filter_nil] at hall hall'
  obtain ⟨host', rest', hhost', htail, rfl⟩ := List.forall₂_cons_left_iff.1 hall
  obtain ⟨address', rest', -, hend, rfl⟩ := List.forall₂_cons_left_iff.1 htail
  obtain rfl := List.forall₂_nil_left_iff.1 hend
  have haddress' := (List.forall₂_cons.1 (List.forall₂_cons.1 hall').2).1
  have hsame := (hhost' rfl (htext.1 ▸ husedHost)).2.2 rfl
  have hbare := (haddress' rfl (htext.2.1 ▸ husedAddress)).1
  exact ⟨host, address, out, host', address', hels, husedHost, husedAddress, hout, hbacks,
    htext.1 ▸ hsame, htext.2.2 ▸ hbare⟩

/-- An address with a port. -/
def addressFile : String :=
  "[\x7b\"protocol\": \"trojan\", \"streamSettings\": \x7b\"security\": \"reality\", "
    ++ "\"realitySettings\": \x7b\"dest\": \"[::1]:8443\"\x7d\x7d\x7d]"

/-- An address without a port is read as something else, and an address with a port is written
without its brackets. -/
theorem addresses_garbled : splitDestination "[::1]" ≠ ⟨"::1", defaultPort⟩ ∧
    ∃ el out back, ConfigFile.elements .xray defaultFile addressFile = .ok [el] ∧
      usedDestination el = some "[::1]:8443" ∧
      convertConfig "xray" "xray" addressFile = .ok out ∧
      ConfigFile.elements .xray defaultFile out.value = .ok [back] ∧
      writtenDestination back ≠ .str "[::1]:8443" := by
  have htext : addressDest.text = "[::1]:8443" ∧
      destinationText addressDest.meaning ≠ "[::1]:8443" := by
    decide +kernel
  have hseen : (ConfigFile.elements .xray defaultFile addressFile).toOption.map (fun els =>
      els.map fun el => (isCarried el, usedDestination el)) =
      some [(true, some "[::1]:8443")] := by
    rw [ConfigFile.elements_of_chars]
    rotate_left
    · unfold addressFile
      repeat' first | apply toList_append_literal | exact toList_literal rfl | rfl
    · decide +kernel
  refine ⟨by decide +kernel, ?_⟩
  obtain ⟨els, hels, helsSeen⟩ := exists_ok_of_seen hseen
  obtain ⟨out, backs, hout, hbacks, hall⟩ := convertConfig_destinations hels
  obtain ⟨el, _, rfl, hel, hnil⟩ := List.map_eq_cons_iff.1 helsSeen
  obtain rfl := List.map_eq_nil_iff.1 hnil
  obtain ⟨hcarried, hused⟩ := Prod.mk.inj hel
  rw [List.filter_cons_of_pos hcarried, List.filter_nil] at hall
  obtain ⟨back, rest, hback, hend, rfl⟩ := List.forall₂_cons_left_iff.1 hall
  obtain rfl := List.forall₂_nil_left_iff.1 hend
  have hwritten := hback addressDest rfl (htext.1 ▸ hused)
  refine ⟨el, out, back, hels, hused, hout, hbacks, fun hsame => htext.2 ?_⟩
  exact Value.str.inj (hwritten.symm.trans hsame)

end Xray

end ProxyFleet
