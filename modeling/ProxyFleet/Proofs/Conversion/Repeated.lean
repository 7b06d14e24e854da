import ProxyFleet.Proofs.Conversion.Texts
import ProxyFleet.Proofs.SingBox.Returned

/-!
# Converting sing-box to sing-box is a normal form

Whatever is lost of a file, and whatever is read into it, is lost and read in by the
first conversion. The second one finds nothing to do: it gives back the text it was
given and has no notes.

One thing has to be taken for granted. A text of digits may stand for a number that is
out of range, which is written as `null` and read as zero the next time.
-/

namespace ProxyFleet

theorem SingBox.isRead_of_read {file text : String} {found : Noted (List Inbound)}
    (h : Engine.singBox.read file text = .ok found) : ∀ i ∈ found.value, IsRead i := by
  intro i hi
  obtain ⟨el, index, hsettled, hread⟩ := Engine.mem_read h hi
  exact readInbound_isRead hsettled hread

theorem SingBox.write_value {is : List Inbound} (h : ∀ i ∈ is, OptionsListed i) :
    (SingBox.write is).value = is.map fun i => .obj (written i) := by
  refine Noted.filterMap_value fun i hi index => ?_
  change some (Value.obj (writeInbound i index).value) = _
  rw [writeInbound_written (h i hi)]

/-- The listeners that come back are written in the same words. -/
theorem SingBox.write_read_back {is : List Inbound} (h : ∀ i ∈ is, IsRead i)
    (hfinite : ∀ i ∈ is, ∀ n ∈ i.numbers, n.isFinite = true) :
    readElements ((is.map fun i => Value.obj (written i)).map Value.reread) >>= SingBox.write =
      pure (is.map fun i => .obj (written i)) := by
  rw [List.map_map]
  refine Noted.filterMap_bind_quiet fun i hi index => ?_
  obtain ⟨j, hread, hwrite⟩ := read_back (h i hi) (hfinite i hi)
  refine ⟨j, ?_, fun k => ?_⟩
  · rw [Function.comp_apply, Value.reread]
    exact hread index
  · rw [hwrite k]
    rfl

/-- Converting sing-box to sing-box once more changes nothing. -/
theorem convertConfig_again {text : String} {first : Noted String}
    (h : convertConfig "sing-box" "sing-box" text = .ok first)
    (hfinite : ∀ found, Engine.singBox.read defaultFile text = .ok found →
      ∀ i ∈ found.value, ∀ n ∈ i.numbers, n.isFinite = true) :
    convertConfig "sing-box" "sing-box" first.value = .ok ⟨first.value, []⟩ := by
  obtain ⟨found, hread, rfl⟩ := (convertConfig_ok_iff (s := .singBox) (t := .singBox)).1 h
  have hisRead := SingBox.isRead_of_read hread
  have hwritten := SingBox.write_value fun i hi => (hisRead i hi).optionsListed
  have hback := SingBox.write_read_back hisRead (hfinite found hread)
  have htext : (found >>= (convert · .singBox)).value =
      inboundsText (found.value.map fun i => .obj (SingBox.written i)) :=
    congrArg inboundsText hwritten
  rw [htext]
  refine (convertConfig_ok_iff (s := .singBox) (t := .singBox)).2 ⟨SingBox.readElements
    ((found.value.map fun i => .obj (SingBox.written i)).map Value.reread), ?_, ?_⟩
  · rw [Engine.read, SingBox.read, ConfigFile.elements_inboundsText]
    rfl
  · change _ = SingBox.readElements _ >>= fun is => SingBox.write is >>= fun natives =>
      pure (inboundsText natives)
    rw [← bind_assoc, hback, pure_bind]
    rfl

/-- A file with a comment, a port as a text, a network that is not kept, a host among the header
fields and a password that is read as a client. -/
def untidyFile : String :=
  "[\x7b\"type\": \"vless\", \"listen_port\": \"443\", "
    ++ "\"users\": [\x7b\"uuid\": \"u\"\x7d], // one\n"
    ++ "\"transport\": \x7b\"type\": \"ws\", "
    ++ "\"headers\": \x7b\"Host\": \"h\", \"1\": \"x\"\x7d\x7d\x7d,\n"
    ++ "\x7b\"type\": \"shadowsocks\", \"password\": \"p\", "
    ++ "\"network\": \"sctp\", \"up_mbps\": 1.50\x7d,]"

theorem convertConfig_again_untidy : ∃ first,
    convertConfig "sing-box" "sing-box" untidyFile = .ok first ∧ first.notes.length = 1 ∧
      convertConfig "sing-box" "sing-box" first.value = .ok ⟨first.value, []⟩ := by
  have hnotes : (convertConfig "sing-box" "sing-box" untidyFile).toOption.map (·.notes.length) =
      some 1 := by decide +kernel
  have hall : (Engine.singBox.read defaultFile untidyFile).toOption.all fun found =>
      found.value.all fun i => i.numbers.all (·.isFinite) := by
    rw [Engine.read_of_chars]
    rotate_left
    · unfold untidyFile
      repeat' first | apply toList_append_literal | exact toList_literal rfl | rfl
    · decide +kernel
  cases hfirst : convertConfig "sing-box" "sing-box" untidyFile with
  | error _ =>
      rw [hfirst] at hnotes
      cases hnotes
  | ok first =>
      rw [hfirst] at hnotes
      refine ⟨first, rfl, Option.some.inj hnotes, convertConfig_again hfirst ?_⟩
      intro found hfound i hi n hn
      rw [hfound] at hall
      exact List.all_eq_true.1 (List.all_eq_true.1 hall i hi) n hn

end ProxyFleet
