import Mathlib.Data.List.Basic
import ProxyFleet.Proofs.SingBox.Clients
import ProxyFleet.Proofs.Value.Stable

/-!
# The options of a sing-box listener

Options are set one by one among the fields written before. As their names are new
there, and no index, each one goes to the end, so what is written of the options is a
list of its own behind the others (`writtenOption`). Reading picks the options out by
their names, in an order of its own, and finds the same list again if it is in that
order.
-/

namespace ProxyFleet

namespace SingBox

open Fields

variable {handled : List String} {f g : String × Value} {options out el : Fields}

/-! ## Networks -/

theorem networkName?_cases {v : Value} {n : String} (h : networkName? v = some n) :
    n = "" ∨ n = "tcp" ∨ n = "udp" := by
  unfold networkName? at h
  split at h
  · next s =>
      dsimp only at h
      generalize ((cutAt [','] s.toList).map fun p => lower (String.ofList (trimChars p))).filter
        (· != "") = parts at h
      split at h
      · cases h
      · next hknown =>
          split at h
          · next p hp =>
              cases h
              have hmem : n ∈ parts := List.mem_eraseDups.1 (by rw [hp]; exact List.mem_singleton_self n)
              by_contra hother
              rw [not_or, not_or] at hother
              exact hknown (List.any_eq_true.2 ⟨n, hmem, by simp [hother.2]⟩)
          · cases h
            exact .inl rfl
  · cases h

/-- One network is written by its name, and read from it. -/
theorem networkName?_name {v : Value} {n : String} (h : networkName? v = some n) (hn : n ≠ "") :
    networkName? (.str n) = some n := by
  rcases networkName?_cases h with rfl | rfl | rfl
  · exact absurd rfl hn
  · decide +kernel
  · decide +kernel

/-! ## Writing -/

/-- What is written of an option, unless it has been handled elsewhere. -/
def writtenOption (handled : List String) (f : String × Value) : Option (String × Value) :=
  if handled.contains f.1 then none
  else if f.1 = "network" then
    match networkName? f.2 with
    | none => none
    | some n => if n = "" then none else some ("network", .str n)
  else some f

/-- An option that sing-box has a place for. -/
structure HasPlace (f : String × Value) : Prop where
  named : f.1 ∈ optionNames
  network : f.1 = "network" → (networkName? f.2).isSome = true

theorem writtenOption_name (h : writtenOption handled f = some g) : g.1 = f.1 := by
  unfold writtenOption at h
  split at h
  · cases h
  · split at h
    · next hnetwork =>
        rw [hnetwork]
        split at h
        · cases h
        · split at h
          · cases h
          · cases h
            rfl
    · cases h
      rfl

/-- What was written of an option is written again. -/
theorem writtenOption_again (h : writtenOption handled f = some g) :
    writtenOption handled g = some g ∧ (f.1 ∈ optionNames → HasPlace g) := by
  have hname := writtenOption_name h
  unfold writtenOption at h
  split at h
  · cases h
  · next hhandled =>
      split at h
      · next hnetwork =>
          split at h
          · cases h
          · next n hn =>
              split at h
              · cases h
              · next hnot =>
                  cases h
                  have hagain := networkName?_name hn hnot
                  rw [hnetwork] at hhandled
                  refine ⟨?_, fun hnamed => ⟨hnetwork ▸ hnamed, fun _ => by rw [hagain]; rfl⟩⟩
                  unfold writtenOption
                  rw [if_neg hhandled, if_pos rfl, hagain]
                  exact if_neg hnot
      · next hother =>
          cases h
          refine ⟨?_, fun hnamed => ⟨hnamed, fun hnetwork => absurd hnetwork hother⟩⟩
          unfold writtenOption
          rw [if_neg hhandled, if_neg hother]

theorem optionNames_index : ∀ n ∈ optionNames, indexName? n = none := by decide

theorem writeOption_value (place : String) (hf : f.1 ∈ optionNames)
    (hnew : f.1 ∉ handled → has out f.1 = false) :
    (writeOption handled place out f.1 f.2).value = out ++ (writtenOption handled f).toList := by
  unfold writeOption writtenOption
  split
  · exact (List.append_nil out).symm
  · next hhandled =>
    have hput : ∀ w, put out f.1 w = out ++ [(f.1, w)] :=
      put_new (hnew fun hmem => hhandled (List.contains_iff_mem.2 hmem)) (optionNames_index f.1 hf)
    split
    · next hnetwork =>
        rw [hnetwork] at hput
        cases networkName? f.2 with
        | none => exact (List.append_nil out).symm
        | some n =>
            dsimp only
            split
            · exact (List.append_nil out).symm
            · exact hput _
    · rw [if_pos (List.contains_iff_mem.2 hf)]
      exact hput f.2

theorem writeOption_notes (place : String) (hf : HasPlace f) :
    (writeOption handled place out f.1 f.2).notes = [] := by
  unfold writeOption
  split
  · rfl
  · split
    · next hnetwork =>
        obtain ⟨n, hn⟩ := Option.isSome_iff_exists.1 (hf.network hnetwork)
        rw [hn]
        rfl
    · rw [if_pos (List.contains_iff_mem.2 hf.named)]
      rfl

/-- Setting the options among other fields lists them behind these. -/
theorem writeOptions_value (place : String) (hnames : (options.map Prod.fst).Nodup)
    (hoptions : ∀ f ∈ options, f.1 ∈ optionNames ∧ (f.1 ∉ handled → has out f.1 = false)) :
    (options.foldlM (fun out f => writeOption handled place out f.1 f.2) out :
      Noted Fields).value = out ++ options.filterMap (writtenOption handled) := by
  induction options generalizing out with
  | nil => exact (List.append_nil out).symm
  | cons f options ih =>
      obtain ⟨hfirst, hnames⟩ := List.nodup_cons.1 hnames
      obtain ⟨hf, hnew⟩ := hoptions f List.mem_cons_self
      rw [List.foldlM_cons, Noted.bind_value, writeOption_value place hf hnew, ih hnames]
      · rw [List.append_assoc, List.filterMap_cons]
        cases writtenOption handled f <;> rfl
      · intro g hg
        obtain ⟨hg', hnew'⟩ := hoptions g (List.mem_cons_of_mem f hg)
        refine ⟨hg', fun hhandled => ?_⟩
        rw [has, List.any_append, Bool.or_eq_false_iff]
        refine ⟨hnew' hhandled, List.any_eq_false.2 fun w hw => ?_⟩
        have hname := writtenOption_name (Option.mem_toList.1 hw)
        rw [beq_iff_eq, hname]
        intro heq
        exact hfirst (heq ▸ List.mem_map_of_mem hg)

theorem writeOptions_notes (place : String) (hoptions : ∀ f ∈ options, HasPlace f) :
    (options.foldlM (fun out f => writeOption handled place out f.1 f.2) out :
      Noted Fields).notes = [] := by
  induction options generalizing out with
  | nil => rfl
  | cons f options ih =>
      obtain ⟨hf, hoptions⟩ := List.forall_mem_cons.1 hoptions
      rw [List.foldlM_cons, Noted.bind_notes, writeOption_notes place hf, ih hoptions]
      rfl

/-- What was written of the options is written again, all of it. -/
theorem writtenOptions_again (options : Fields) :
    (options.filterMap (writtenOption handled)).filterMap (writtenOption handled) =
      options.filterMap (writtenOption handled) := by
  rw [List.filterMap_filterMap]
  refine List.filterMap_congr fun f _ => ?_
  cases h : writtenOption handled f with
  | none => rfl
  | some g => exact (writtenOption_again h).1

theorem writtenOptions_names (options : Fields) :
    ((options.filterMap (writtenOption handled)).map Prod.fst).Sublist (options.map Prod.fst) := by
  induction options with
  | nil => exact .slnil
  | cons f options ih =>
      rw [List.filterMap_cons]
      cases h : writtenOption handled f with
      | none => exact ih.cons _
      | some g =>
          rw [List.map_cons, List.map_cons, writtenOption_name h]
          exact ih.cons_cons _

/-! ## Reading -/

/-- A list of fields in the order of some names is found again by looking these up. -/
theorem filterMap_get? {names : List String} (hnodup : names.Nodup)
    (h : (options.map Prod.fst).Sublist names) :
    (names.filterMap fun n => (get? options n).map (n, ·)) = options := by
  induction names generalizing options with
  | nil =>
      rw [List.sublist_nil, List.map_eq_nil_iff] at h
      rw [h, List.filterMap_nil]
  | cons n names ih =>
      obtain ⟨hfirst, hrest⟩ := List.nodup_cons.1 hnodup
      rw [List.filterMap_cons]
      obtain hlater | ⟨rest, hcons, hlater⟩ := List.sublist_cons_iff.1 h
      · have hnone : get? options n = none := by
          refine List.lookup_eq_none_iff.2 fun f hf => bne_iff_ne.2 fun hn => hfirst ?_
          rw [hn]
          exact hlater.subset (List.mem_map_of_mem hf)
        rw [hnone]
        exact ih hrest hlater
      · obtain ⟨f, options, rfl, rfl, rfl⟩ := List.map_eq_cons_iff.1 hcons
        have hskip : ∀ m ∈ names, (get? (f :: options) m).map (m, ·) =
            (get? options m).map (m, ·) := by
          intro m hm
          have hne : m ≠ f.1 := fun heq => hfirst (heq ▸ hm)
          rw [get?_cons, if_neg hne]
        rw [get?_cons, if_pos rfl, List.filterMap_congr hskip]
        exact congrArg _ (ih hrest hlater)

/-- Options in their order are read from any record in which they are found. -/
theorem readOptions_eq (hnames : (options.map Prod.fst).Sublist optionNames)
    (hdata : ∀ f ∈ options, f.2.isData = true)
    (hget : ∀ n ∈ optionNames, get el n = get options n) : readOptions el = options := by
  refine Eq.trans (List.filterMap_congr fun n hn => ?_) (filterMap_get? (by decide) hnames)
  rw [hget n hn, Fields.get.eq_def]
  cases hfound : get? options n with
  | none => rfl
  | some v =>
      have hv : v.isData = true := hdata (n, v) (mem_of_get? hfound)
      rw [Option.getD_some, Value.data?, if_pos hv]

/-- The options that are read are in their order. -/
theorem readOptions_names (el : Fields) : ((readOptions el).map Prod.fst).Sublist optionNames := by
  have hfrom : ∀ names : List String, ((names.filterMap fun n =>
      ((get el n).data?).map (n, ·)).map Prod.fst).Sublist names := by
    intro names
    induction names with
    | nil => exact .slnil
    | cons n names ih =>
        rw [List.filterMap_cons]
        cases (get el n).data? with
        | none => exact ih.cons n
        | some v => exact ih.cons_cons n
  exact hfrom optionNames

theorem readOptions_stable (h : (Value.obj el).Settled) :
    ∀ f ∈ readOptions el, f.2.Stable ∧ f.2.isData = true := by
  intro f hf
  obtain ⟨n, -, hn⟩ := List.mem_filterMap.1 hf
  obtain ⟨v, hv, rfl⟩ := Option.map_eq_some_iff.1 hn
  unfold Value.data? at hv
  split at hv
  · next hdata =>
      cases hv
      refine ⟨Value.Settled.stable ((h.get n).resolve_left fun habsent => ?_) hdata, hdata⟩
      rw [habsent] at hdata
      cases hdata
  · cases hv

end SingBox

end ProxyFleet
