import ProxyFleet.Proofs.Conversion.Texts
import ProxyFleet.Proofs.Xray.Returned

/-!
# Converting Xray to Xray is a normal form but for two texts

Converting an Xray file to Xray once more is always possible, and there is nothing to note. The
text is the same again exactly if every listener repeats (`Xray.Repeats`): no shadowsocks client is
alone with an e-mail and without a password, and no server that Reality hands visitors to is in
brackets within brackets or has a port from `10 ^ 21` on.

As for sing-box, numbers that are out of range are left aside: they are written as `null`.
-/

namespace ProxyFleet

open Fields

namespace Xray

variable {i : Inbound} {el : Fields}

/-! ## What is read -/

theorem readStream_security {v : Value} {place : String} {t : Tls}
    (hread : (readStream v place).value.2 = some t) : SecurityRead t := by
  cases v with
  | obj stream =>
      change (readSecurity stream (textOf stream "security") place).value = some t at hread
      unfold readSecurity at hread
      split at hread
      · cases hread
      · split at hread
        · dsimp only at hread
          split at hread <;> cases hread <;> exact ⟨rfl, nofun⟩
        · split at hread
          · split at hread
            · cases hread
              refine ⟨rfl, fun r hr => ?_⟩
              cases hr
              refine ⟨rfl, fun s hs => ?_⟩
              obtain ⟨-, hs⟩ := Option.ite_none_left_eq_some.1 hs
              cases hs
              exact counted_splitDestination _
            · cases hread
          · cases hread
  | _ => cases hread

/-- A password without clients is read as a client. -/
theorem readShadowsocks_password {settings : Fields} {place : String}
    (hread : (readShadowsocks settings place).value.1 = []) :
    textOf (readShadowsocks settings place).value.2 "password" = "" := by
  have hkept : ∀ (method : String) (network : Fields), get network "password" = .absent →
      textOf ((if method = "" then [] else [("method", Value.str method)]) ++ network)
        "password" = "" := by
    intro method network hnetwork
    split
    · exact congrArg Value.asText hnetwork
    · exact congrArg Value.asText hnetwork
  unfold readShadowsocks at hread ⊢
  simp only [Noted.bind_value, Noted.pure_value] at hread ⊢
  split
  · exact hkept _ _ (by split <;> rfl)
  · split
    · exact hkept _ _ (by split <;> rfl)
    · next hpassword hsome =>
        rw [if_neg hpassword, if_neg hsome] at hread
        exact absurd (List.isEmpty_iff.2 hread) hsome

theorem readInbound_isParsed {index : Nat} (h : (Value.obj el).Settled)
    (hread : (readInbound el index).value = some i) : IsParsed i := by
  have hisRead := readInbound_isRead h hread
  unfold readInbound at hread
  dsimp only at hread
  split at hread
  · cases hread
  · split at hread <;> cases hread <;>
      exact ⟨hisRead, Value.counted_asInt (h.get "port"), fun t ht => readStream_security ht,
        fun htype husers => by
          unfold readSettings at husers ⊢
          rw [if_pos htype] at husers ⊢
          exact readShadowsocks_password husers⟩

/-! ## What is written -/

/-- Whether Xray can serve a listener. -/
def isServed (i : Inbound) : Bool := !unservable.contains i.type

theorem write_value (is : List Inbound) :
    (write is).value = (is.filter isServed).map fun i => .obj (written i) := by
  refine Noted.filterMap_value_filter (fun index i => ?_) is
  change (writeInbound i index).value.map Value.obj = _
  unfold isServed
  by_cases hserved : unservable.contains i.type = true
  · unfold writeInbound
    rw [if_pos hserved, hserved]
    rfl
  · rw [writeInbound_written fun hmem => hserved (List.contains_iff_mem.2 hmem)]
    simp only [hserved]
    rfl

/-- Nothing is lost of what comes back. -/
theorem lossNotes_returned (i : Inbound) (place : String) : lossNotes (returned i) place = [] := by
  have hoptions : (returned i).options.filter
      (fun f => !(writtenOptions i.type).contains f.1) = [] := by
    refine List.filter_eq_nil_iff.2 fun f hf => ?_
    change f ∈ optionsBack i at hf
    unfold optionsBack at hf
    split at hf
    · next htype =>
        have hname : f.1 ∈ ["method", "network", "password"] := by
          rcases List.mem_append.1 hf with hf | hf
          · rcases List.mem_cons.1 hf with rfl | hf
            · exact List.mem_cons_self
            · rw [List.mem_singleton.1 hf]
              simp
          · split at hf
            · cases hf
            · rw [List.mem_singleton.1 (List.mem_filter.1 hf).1]
              simp
        unfold writtenOptions
        rw [if_pos htype]
        simp only [List.mem_cons, List.not_mem_nil, or_false] at hname
        rcases hname with hname | hname | hname <;> rw [hname] <;> decide
    · cases hf
  unfold lossNotes
  change _ ++ ((returned i).options.filter fun f => !(writtenOptions i.type).contains f.1).map _ = []
  rw [hoptions]
  rfl

theorem writeInbound_returned (hserved : isServed i = true) (index : Nat) :
    writeInbound (returned i) index = pure (some (written (returned i))) := by
  have hmem : i.type ∉ unservable := by simpa [isServed] using hserved
  rw [writeInbound_written (show (returned i).type ∉ unservable from hmem), lossNotes_returned]
  rfl

/-- What is written of listeners is read, and what is read is written again, without a note. -/
theorem write_again (is : List Inbound) (h : ∀ i ∈ is, IsParsed i ∧ isServed i = true) :
    readElements ((is.map fun i => Value.obj (written i)).map Value.reread) >>= write =
      pure (is.map fun i => .obj (written (returned i))) := by
  rw [List.map_map]
  refine Noted.filterMap_bind_quiet fun i hi index => ⟨returned i, ?_, fun k => ?_⟩
  · rw [Function.comp_apply, Value.reread]
    exact readInbound_returned (h i hi).1.toIsRead index
  · rw [writeInbound_returned (h i hi).2]
    rfl

end Xray

/-! ## Texts -/

/-- Texts of files are the same if their listeners are read as the same. -/
theorem reread_of_inboundsText {natives natives' : List Value}
    (h : inboundsText natives = inboundsText natives') :
    natives.map Value.reread = natives'.map Value.reread := by
  have hread := ConfigFile.elements_inboundsText .xray defaultFile natives
  rw [h, ConfigFile.elements_inboundsText] at hread
  exact (Except.ok.inj hread).symm

/-- Converting Xray to Xray once more is always possible and never noted. It changes nothing
exactly if every listener repeats that Xray can serve. -/
theorem convertConfig_repeats_iff {text : String} {first : Noted String}
    (h : convertConfig "xray" "xray" text = .ok first)
    (hfinite : ∀ found, Engine.xray.read defaultFile text = .ok found →
      ∀ i ∈ found.value, ∀ n ∈ i.numbers, n.isFinite = true) :
    ∃ found again, Engine.xray.read defaultFile text = .ok found ∧
      convertConfig "xray" "xray" first.value = .ok ⟨again, []⟩ ∧
      (again = first.value ↔
        ∀ i ∈ found.value, i.type ∉ Xray.unservable → Xray.Repeats i) := by
  obtain ⟨found, hread, rfl⟩ := (convertConfig_ok_iff (s := .xray) (t := .xray)).1 h
  have hfinite := hfinite found hread
  have hparsed : ∀ i ∈ found.value, Xray.IsParsed i := by
    intro i hi
    obtain ⟨el, index, hsettled, hi⟩ := Engine.mem_read hread hi
    exact Xray.readInbound_isParsed hsettled hi
  have htext : (found >>= (convert · .xray)).value =
      inboundsText ((found.value.filter Xray.isServed).map fun i => .obj (Xray.written i)) :=
    congrArg inboundsText (Xray.write_value found.value)
  have hagain := Xray.write_again (found.value.filter Xray.isServed) fun i hi =>
    ⟨hparsed i (List.mem_filter.1 hi).1, (List.mem_filter.1 hi).2⟩
  rw [htext]
  refine ⟨found, inboundsText ((found.value.filter Xray.isServed).map fun i =>
    .obj (Xray.written (Xray.returned i))), hread, ?_, fun hsame i hi hserved => ?_, fun hall => ?_⟩
  · refine (convertConfig_ok_iff (s := .xray) (t := .xray)).2 ⟨Xray.readElements
      (((found.value.filter Xray.isServed).map fun i => .obj (Xray.written i)).map Value.reread),
      ?_, ?_⟩
    · rw [Engine.read, Xray.read, ConfigFile.elements_inboundsText]
      rfl
    · change _ = Xray.readElements _ >>= fun is => Xray.write is >>= fun natives =>
        pure (inboundsText natives)
      rw [← bind_assoc, hagain, pure_bind]
      rfl
  · have hreread := reread_of_inboundsText hsame
    rw [List.map_map, List.map_map, List.map_eq_map_iff] at hreread
    have hi' := hreread i (List.mem_filter.2 ⟨hi, by simpa [Xray.isServed] using hserved⟩)
    simp only [Function.comp_apply, Value.reread] at hi'
    exact (Xray.written_returned_iff (hparsed i hi) (hfinite i hi)).1 (Value.obj.inj hi')
  · refine congrArg inboundsText (List.map_congr_left fun i hi => ?_)
    obtain ⟨hi, hserved⟩ := List.mem_filter.1 hi
    rw [Xray.written_returned (hparsed i hi) (hfinite i hi)
      (hall i hi (by simpa [Xray.isServed] using hserved))]

/-- Reality with a server in brackets, a transport that is called as its security is, clients that
share a listener, and a protocol that Xray cannot serve. -/
def tidyFile : String :=
  "[\x7b\"protocol\": \"vless\", \"port\": \"443\", "
    ++ "\"settings\": \x7b\"clients\": [\x7b\"id\": \"u\"\x7d]\x7d, "
    ++ "\"streamSettings\": \x7b\"security\": \"reality\", \"realitySettings\": "
    ++ "\x7b\"dest\": \"[::1]:8443\", \"serverNames\": [\"\", \"n\"]\x7d\x7d\x7d,\n"
    ++ "\x7b\"protocol\": \"trojan\", \"streamSettings\": \x7b\"network\": \"tls\", "
    ++ "\"security\": \"tls\", \"tlsSettings\": \x7b\"path\": \"/p\"\x7d\x7d\x7d, // one\n"
    ++ "\x7b\"protocol\": \"shadowsocks\", \"settings\": \x7b\"clients\": "
    ++ "[\x7b\"email\": \"a\"\x7d, \x7b\"method\": \"m\"\x7d]\x7d\x7d,\n"
    ++ "\x7b\"protocol\": \"tuic\"\x7d,]"

theorem convertConfig_repeats_tidy : ∃ first found again,
    convertConfig "xray" "xray" tidyFile = .ok first ∧
      Engine.xray.read defaultFile tidyFile = .ok found ∧ found.value.length = 4 ∧
      (∀ i ∈ found.value, ∀ n ∈ i.numbers, n.isFinite = true) ∧
      convertConfig "xray" "xray" first.value = .ok ⟨again, []⟩ ∧
      (again = first.value ↔
        ∀ i ∈ found.value, i.type ∉ Xray.unservable → Xray.Repeats i) ∧ again = first.value := by
  have hseen : (Engine.xray.read defaultFile tidyFile).toOption.any (fun found =>
      found.value.length == 4 && found.value.all (fun i => i.numbers.all (·.isFinite))
        && found.value.all fun i => decide (Xray.Repeats i)) = true := by
    rw [Engine.read_of_chars]
    rotate_left
    · unfold tidyFile
      repeat' first | apply toList_append_literal | exact toList_literal rfl | rfl
    · decide +kernel
  cases hread : Engine.xray.read defaultFile tidyFile with
  | error _ =>
      rw [hread] at hseen
      cases hseen
  | ok found =>
      rw [hread] at hseen
      simp only [Except.toOption, Option.any_some, Bool.and_eq_true, beq_iff_eq, List.all_eq_true,
        decide_eq_true_eq] at hseen
      obtain ⟨⟨hlength, hfinite⟩, hrepeats⟩ := hseen
      have hfirst : convertConfig "xray" "xray" tidyFile = .ok (found >>= (convert · .xray)) :=
        (convertConfig_ok_iff (s := .xray) (t := .xray)).2 ⟨found, hread, rfl⟩
      obtain ⟨found', again, hread', hagain, hiff⟩ := convertConfig_repeats_iff hfirst
        fun found' hread' => by
          obtain rfl := Except.ok.inj (hread.symm.trans hread')
          exact hfinite
      obtain rfl := Except.ok.inj (hread.symm.trans hread')
      exact ⟨_, _, again, hfirst, rfl, hlength, hfinite, hagain, hiff,
        hiff.2 fun i hi _ => hrepeats i hi⟩

/-- A client that is alone, with an e-mail and without a password. -/
def lonelyFile : String :=
  "[\x7b\"protocol\": \"shadowsocks\", \"settings\": \x7b\"clients\": "
    ++ "[\x7b\"email\": \"a\"\x7d]\x7d\x7d]"

/-- The e-mail of such a client is written once and then lost. -/
theorem lonely_email_lost : ∃ first again, convertConfig "xray" "xray" lonelyFile = .ok first ∧
    (∀ found, Engine.xray.read defaultFile lonelyFile = .ok found →
      ∀ i ∈ found.value, ∀ n ∈ i.numbers, n.isFinite = true) ∧
    convertConfig "xray" "xray" first.value = .ok again ∧ again.value ≠ first.value := by
  have hseen : (convertConfig "xray" "xray" lonelyFile).toOption.any (fun first =>
      (convertConfig "xray" "xray" first.value).toOption.any fun again =>
        again.value != first.value) = true := by
    decide +kernel
  have hfinite : (Engine.xray.read defaultFile lonelyFile).toOption.all (fun found =>
      found.value.all fun i => i.numbers.all (·.isFinite)) = true := by
    rw [Engine.read_of_chars]
    rotate_left
    · unfold lonelyFile
      repeat' first | apply toList_append_literal | exact toList_literal rfl | rfl
    · decide +kernel
  have hfinite : ∀ found, Engine.xray.read defaultFile lonelyFile = .ok found →
      ∀ i ∈ found.value, ∀ n ∈ i.numbers, n.isFinite = true := fun found hread i hi n hn => by
    rw [hread] at hfinite
    exact List.all_eq_true.1 (List.all_eq_true.1 hfinite i hi) n hn
  cases hfirst : convertConfig "xray" "xray" lonelyFile with
  | error _ =>
      rw [hfirst] at hseen
      cases hseen
  | ok first =>
      rw [hfirst] at hseen
      change (convertConfig "xray" "xray" first.value).toOption.any _ = true at hseen
      cases hagain : convertConfig "xray" "xray" first.value with
      | error _ =>
          rw [hagain] at hseen
          cases hseen
      | ok again =>
          rw [hagain] at hseen
          exact ⟨first, again, rfl, hfinite, hagain, bne_iff_ne.1 hseen⟩

end ProxyFleet
