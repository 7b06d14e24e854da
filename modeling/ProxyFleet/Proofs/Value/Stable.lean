import ProxyFleet.Proofs.Value.Settled

/-!
# Values that come back as they are

What an engine writes of a listener consists of texts, truth values and whole
numbers, in records whose names are fixed beforehand. Such values are still the same
after they were written and read (`Value.Stable`), so a field of a written listener
is read as what was put there.

The one thing that does not come back is a number out of range. It is therefore the
fields that are shown to be stable, one by one, and not the listener as a whole: a
port that is lost leaves the other fields as they are.
-/

namespace ProxyFleet

/-- Writing and reading leave the value as it is. -/
structure Value.Stable (v : Value) : Prop where
  present : v ≠ .absent
  same : v.reread = v

/-- The same for every field of a record, and for their order. -/
structure Fields.Stable (fs : Fields) : Prop where
  order : Fields.InOrder fs
  values : ∀ f ∈ fs, f.2.Stable

namespace Value

theorem Settled.stable {v : Value} (h : v.Settled) (hdata : v.isData = true) : v.Stable :=
  ⟨h.ne_absent, h.reread hdata⟩

theorem stable_str (s : String) : (str s).Stable := ⟨nofun, by rw [reread]⟩

theorem stable_bool (b : Bool) : (bool b).Stable := ⟨nofun, by rw [reread]⟩

theorem stable_arr {xs : List Value} (h : ∀ x ∈ xs, x.Stable) : (arr xs).Stable := by
  refine ⟨nofun, ?_⟩
  rw [reread, rereadItems_eq_map, List.map_congr_left fun x hx => (h x hx).same, List.map_id']

theorem stable_texts (ts : List String) : (texts ts).Stable := by
  refine stable_arr fun x hx => ?_
  obtain ⟨t, -, rfl⟩ := List.mem_map.1 hx
  exact stable_str t

@[simp] theorem textList_texts (ts : List String) : (texts ts).textList = ts := by
  change (ts.map str).filterMap text? = ts
  rw [List.filterMap_map]
  exact List.filterMap_some

theorem told_of_tells {v : Value} (h : v.tells = true) : v.told = v := if_pos h

/-- What tells nothing is an absent value, an empty text or an empty array. -/
theorem told_cases (v : Value) : v.told = v ∨ v.told = .absent ∧ (v = str "" ∨ v = arr []) := by
  cases v with
  | str s =>
      by_cases hs : s = ""
      · exact .inr ⟨by rw [hs]; rfl, .inl (by rw [hs])⟩
      · exact .inl (told_of_tells (bne_iff_ne.2 hs))
  | arr xs => cases xs <;> first | exact .inl rfl | exact .inr ⟨rfl, .inr rfl⟩
  | _ => exact .inl rfl

theorem textList_told (v : Value) : v.told.textList = v.textList := by
  obtain h | ⟨h, rfl | rfl⟩ := told_cases v <;> rw [h] <;> rfl

theorem asBool_told (v : Value) : v.told.asBool = v.asBool := by
  obtain h | ⟨h, rfl | rfl⟩ := told_cases v <;> rw [h] <;> rfl

theorem stable_part {α : Type} {f : α → Value} {o : Option α} (h : ∀ a ∈ o, (f a).Stable) :
    ofOption f o = .absent ∨ (ofOption f o).Stable := by
  cases o with
  | none => exact .inl rfl
  | some a => exact .inr (h a rfl)

/-- A part that is a record if it is there. -/
theorem told_part {α : Type} {f : α → Value} (hf : ∀ a, (f a).tells = true) (o : Option α) :
    (ofOption f o).told = ofOption f o := by
  cases o with
  | none => rfl
  | some a => exact told_of_tells (hf a)

end Value

namespace Fields

variable {fs gs : Fields} {n : String} {v : Value}

theorem Stable.reread (h : Fields.Stable fs) : Value.rereadFields [] fs = fs := by
  have hall : ∀ f ∈ fs, f.2 ≠ .absent ∧ f.2.reread = f.2 := fun f hf =>
    ⟨(h.values f hf).present, (h.values f hf).same⟩
  have horder : InOrder ([] ++ fs) := h.order
  rw [Value.rereadFields_eq hall, putAll_append horder, List.nil_append]

theorem Stable.obj (h : Fields.Stable fs) : (Value.obj fs).Stable :=
  ⟨nofun, by rw [Value.reread, h.reread]⟩

/-- Fields under names that are chosen beforehand. -/
theorem stable_of_names (names : List String) (hfs : fs.map Prod.fst = names)
    (hnames : names.Nodup ∧ ∀ m ∈ names, indexName? m = none) (h : ∀ f ∈ fs, f.2.Stable) :
    Fields.Stable fs := by
  subst hfs
  exact ⟨.of_nodup hnames.1 fun _ hf => hnames.2 _ (List.mem_map_of_mem hf), h⟩

/-- The same for fields of which only those that tell something are written. -/
theorem stable_compact (names : List String) (hfs : fs.map Prod.fst = names)
    (hnames : names.Nodup ∧ ∀ m ∈ names, indexName? m = none)
    (h : ∀ f ∈ fs, f.2 = .absent ∨ f.2.Stable) : Fields.Stable (compact fs) := by
  subst hfs
  refine ⟨(InOrder.of_nodup hnames.1 fun _ hf => hnames.2 _ (List.mem_map_of_mem hf)).sublist
    List.filter_sublist, fun f hf => ?_⟩
  obtain ⟨hmem, htells⟩ := List.mem_filter.1 hf
  refine (h f hmem).resolve_left fun habsent => ?_
  rw [habsent] at htells
  cases htells

theorem compact_append_part {α : Type} {f : α → Value} (hf : ∀ a, (f a).tells = true)
    (o : Option α) : compact fs ++ o.toList.map (fun a => (n, f a)) =
      compact (fs ++ [(n, .ofOption f o)]) := by
  rw [compact_eq_filter, compact_eq_filter, List.filter_append]
  congr 1
  cases o with
  | none => rfl
  | some a => simp [Value.ofOption, hf a]

theorem get_compact (h : (fs.map Prod.fst).Nodup) (n : String) :
    get (compact fs) n = (get fs n).told :=
  (Holds.get_of_nodup h n).compact.get_eq

theorem textOf_compact (h : (fs.map Prod.fst).Nodup) (n : String) :
    textOf (compact fs) n = (get fs n).asText := by
  rw [textOf, get_compact h, Value.asText_told]

theorem textList_compact (h : (fs.map Prod.fst).Nodup) (n : String) :
    (get (compact fs) n).textList = (get fs n).textList := by
  rw [get_compact h, Value.textList_told]

theorem asBool_compact (h : (fs.map Prod.fst).Nodup) (n : String) :
    (get (compact fs) n).asBool = (get fs n).asBool := by
  rw [get_compact h, Value.asBool_told]

theorem compact_append_record (gs : Fields) : compact fs ++ recordField n gs =
    compact (fs ++ [(n, if gs = [] then .absent else .obj gs)]) := by
  rw [compact_eq_filter, compact_eq_filter, List.filter_append]
  cases gs <;> rfl

/-- A stable field is found in what was written as it was put there. -/
theorem Holds.get_reread (h : Holds fs n v) (hv : v = .absent ∨ v.Stable) :
    get (Value.rereadFields [] fs) n = v := by
  rcases hv with rfl | hv
  · exact get_rereadFields_absent h.agree []
  · rw [h.reread hv.present, hv.same]

/-- A list of texts, empty or not. -/
theorem Holds.textList_reread {ts : List String} (h : Holds fs n (Value.texts ts).told) :
    (get (Value.rereadFields [] fs) n).textList = ts := by
  have hsame : (ts.map Value.str).map Value.reread = ts.map Value.str := by
    rw [List.map_map]
    refine List.map_congr_left fun t _ => ?_
    rw [Function.comp_apply, Value.reread]
  rw [get_told_array h, hsame]
  change (Value.texts ts).told.textList = ts
  rw [Value.textList_told, Value.textList_texts]

end Fields

/-! ## Parts

A part of a listener is a record that need not be there. Whatever its fields hold, it comes back
as a record or not at all. -/

/-- A record, or nothing. -/
def Value.IsPart (v : Value) : Prop := v = .absent ∨ ∃ fs, v = .obj fs

theorem Value.isPart_ofOption {α : Type} (f : α → Fields) (o : Option α) :
    (ofOption (fun a => .obj (f a)) o).IsPart := by
  cases o with
  | none => exact .inl rfl
  | some a => exact .inr ⟨f a, rfl⟩

namespace Fields

variable {fs : Fields} {n : String} {v : Value} {α : Type} {o : Option α} {f : α → Fields}

theorem Holds.reread_part (h : Holds fs n (.ofOption (fun a => .obj (f a)) o)) :
    get (Value.rereadFields [] fs) n =
      .ofOption (fun a => .obj (Value.rereadFields [] (f a))) o := by
  cases o with
  | none => exact get_rereadFields_absent h.agree []
  | some a =>
      refine (h.reread nofun).trans ?_
      change Value.reread (.obj (f a)) = _
      rw [Value.reread]
      rfl

theorem Holds.isPart_reread (h : Holds fs n v) (hv : v.IsPart) :
    (get (Value.rereadFields [] fs) n).IsPart := by
  rcases hv with rfl | ⟨gs, rfl⟩
  · exact .inl (get_rereadFields_absent h.agree [])
  · exact .inr ⟨_, by rw [h.reread nofun, Value.reread]⟩

/-- A part of a record that was written without empty fields. -/
theorem get_written_part (hnames : (fs.map Prod.fst).Nodup)
    (h : get fs n = .ofOption (fun a => .obj (f a)) o) :
    get (Value.rereadFields [] (compact fs)) n =
      .ofOption (fun a => .obj (Value.rereadFields [] (f a))) o := by
  have hholds := (Holds.get_of_nodup hnames n).compact
  rw [h, Value.told_part fun _ => rfl] at hholds
  exact hholds.reread_part

theorem has_rereadFields (h : has fs n = false) (done : Fields) :
    has (Value.rereadFields done fs) n = has done n := by
  induction fs generalizing done with
  | nil => rw [Value.rereadFields]
  | cons f fs ih =>
      obtain ⟨hname, hrest⟩ := Bool.or_eq_false_iff.1 h
      rw [Value.rereadFields]
      split
      · exact ih hrest done
      · exact (ih hrest _).trans (has_put_of_ne done _ (Ne.symm (beq_eq_false_iff_ne.1 hname)))

end Fields

/-! ## Numbers -/

/-- A number as it is picked out of a field: a double, and a whole one unless it is out of
range. -/
structure Number.Counted (n : Number) : Prop where
  isDouble : n.IsDouble
  isWhole : n.isFinite = true → n.isWhole = true

theorem Value.counted_asInt {v : Value} (h : v = .absent ∨ v.Settled) : v.asInt.Counted :=
  ⟨isDouble_asInt h, isWhole_asInt⟩

namespace Number.Counted

variable {n : Number}

theorem stable (h : n.Counted) (hfinite : n.isFinite = true) : (Value.num n).Stable :=
  ⟨nofun, by rw [Value.reread, reread_eq h.isDouble hfinite]⟩

theorem asInt (h : n.Counted) (hfinite : n.isFinite = true) : (Value.num n).asInt = n :=
  Value.asInt_num (h.isWhole hfinite)

end Number.Counted

end ProxyFleet
