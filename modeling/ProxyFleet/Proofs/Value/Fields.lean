import ProxyFleet.Value

/-!
# Records after a field was set or removed

A record is looked up by name, so what a change of one field does is told by two
lookups: the one of that name and those of all others. Where in the record the
field goes does not matter for either. Of the order it is enough to know that a
name that is there keeps its place, and that a new one that is no array index
goes to the end.
-/

namespace ProxyFleet

namespace Fields

variable {α : Type} {fs gs : List (String × α)} {n m : String} {v : α}

/-! ## Lookups -/

@[simp] theorem get?_nil : get? ([] : List (String × α)) n = none := rfl

theorem get?_cons (f : String × α) (fs : List (String × α)) (n : String) :
    get? (f :: fs) n = if n = f.1 then some f.2 else get? fs n := by
  obtain ⟨k, v⟩ := f
  unfold get?
  rw [List.lookup_cons]
  by_cases h : n = k
  · simp [h]
  · simp [h, beq_eq_false_iff_ne.2 h]

theorem get?_append (fs gs : List (String × α)) (n : String) :
    get? (fs ++ gs) n = (get? fs n).or (get? gs n) := List.lookup_append

theorem has_eq_isSome (fs : List (String × α)) (n : String) : has fs n = (get? fs n).isSome := by
  induction fs with
  | nil => rfl
  | cons f fs ih =>
      rw [get?_cons]
      change (f.1 == n || has fs n) = _
      by_cases h : n = f.1
      · simp [h]
      · simp [h, ih, Ne.symm h]

theorem has_cons_of_ne (h : n ≠ m) (v : α) (fs : List (String × α)) :
    has ((m, v) :: fs) n = has fs n := by
  change (m == n || has fs n) = _
  rw [beq_eq_false_iff_ne.2 h.symm, Bool.false_or]

/-- A part that need not be there is under its own name only. -/
theorem has_part {β : Type} (h : n ≠ m) (o : Option β) (f : β → α) :
    has (o.toList.map fun b => (m, f b)) n = false := by
  cases o with
  | none => rfl
  | some b => exact has_cons_of_ne h (f b) []

theorem has_append_false (hfs : has fs n = false) (hgs : has gs n = false) :
    has (fs ++ gs) n = false := by
  rw [has, List.any_append]
  exact Bool.or_eq_false_iff.2 ⟨hfs, hgs⟩

/-! ## Overwriting -/

theorem get?_overwrite_self (h : has fs n = true) : get? (overwrite n v fs) n = some v := by
  induction fs with
  | nil => cases h
  | cons f fs ih =>
      change get? ((if f.1 == n then (f.1, v) else f) :: overwrite n v fs) n = _
      rw [get?_cons]
      by_cases hn : f.1 = n
      · simp [hn]
      · have hrest : has fs n = true := by
          change (f.1 == n || has fs n) = true at h
          simpa [hn] using h
        simp [hn, Ne.symm hn, ih hrest]

theorem get?_overwrite_of_ne (h : m ≠ n) : get? (overwrite n v fs) m = get? fs m := by
  induction fs with
  | nil => rfl
  | cons f fs ih =>
      change get? ((if f.1 == n then (f.1, v) else f) :: overwrite n v fs) m = _
      rw [get?_cons, get?_cons, ih]
      by_cases hn : f.1 = n
      · simp [hn, h]
      · simp [hn]

theorem overwrite_eq_self (h : ∀ f ∈ fs, f.1 = n → f.2 = v) : overwrite n v fs = fs := by
  induction fs with
  | nil => rfl
  | cons f fs ih =>
      change (if f.1 == n then (f.1, v) else f) :: overwrite n v fs = f :: fs
      rw [ih fun g hg => h g (List.mem_cons_of_mem f hg)]
      by_cases hn : f.1 = n
      · rw [← h f List.mem_cons_self hn]
        simp
      · simp [hn]

/-! ## Setting -/

theorem get?_insertIndex_self (i : Nat) (h : has fs n = false) :
    get? (insertIndex i n v fs) n = some v := by
  induction fs with
  | nil => simp [insertIndex, get?_cons]
  | cons f fs ih =>
      have hparts : ¬f.1 = n ∧ has fs n = false := by
        change (f.1 == n || has fs n) = false at h
        simpa using h
      unfold insertIndex
      split
      · split
        · rw [get?_cons, if_neg (Ne.symm hparts.1), ih hparts.2]
        · simp [get?_cons]
      · simp [get?_cons]

theorem get?_insertIndex_of_ne (i : Nat) (h : m ≠ n) :
    get? (insertIndex i n v fs) m = get? fs m := by
  induction fs with
  | nil => simp [insertIndex, get?_cons, h]
  | cons f fs ih =>
      unfold insertIndex
      split
      · split
        · rw [get?_cons, get?_cons, ih]
        · rw [get?_cons, if_neg h]
      · rw [get?_cons, if_neg h]

@[simp] theorem get?_put_self (fs : List (String × α)) (n : String) (v : α) :
    get? (put fs n v) n = some v := by
  unfold put
  split
  · next h => exact get?_overwrite_self h
  · next h =>
      have hnone : get? fs n = none := by
        rw [has_eq_isSome, Bool.not_eq_true, Option.isSome_eq_false_iff,
          Option.isNone_iff_eq_none] at h
        exact h
      split
      · exact get?_insertIndex_self _ (by simpa using h)
      · rw [get?_append, hnone]
        simp [get?_cons]

theorem get?_put_of_ne (fs : List (String × α)) (v : α) (h : m ≠ n) :
    get? (put fs n v) m = get? fs m := by
  unfold put
  split
  · exact get?_overwrite_of_ne h
  · split
    · exact get?_insertIndex_of_ne _ h
    · rw [get?_append, get?_cons, if_neg h]
      simp

theorem mem_insertIndex {i : Nat} {f : String × α} (h : f ∈ insertIndex i n v fs) :
    f = (n, v) ∨ f ∈ fs := by
  induction fs with
  | nil => exact .inl (List.mem_singleton.1 h)
  | cons g fs ih =>
      unfold insertIndex at h
      split at h
      · split at h
        · rcases List.mem_cons.1 h with rfl | h
          · exact .inr List.mem_cons_self
          · exact (ih h).imp_right (List.mem_cons_of_mem g)
        · exact List.mem_cons.1 h
      · exact List.mem_cons.1 h

/-- A field of the name that was set holds what it was set to. -/
theorem put_holds {f : String × α} (h : f ∈ put fs n v) (hn : f.1 = n) : f.2 = v := by
  unfold put at h
  split at h
  · obtain ⟨g, -, hg⟩ := List.mem_map.1 h
    split at hg
    · rw [← hg]
    · next hgn => exact absurd (by rw [hg, hn]; exact beq_self_eq_true n) hgn
  · next hhas =>
      have hnew : f ∉ fs := fun hf => hhas (List.any_eq_true.2 ⟨f, hf, by simp [hn]⟩)
      split at h
      · exact (mem_insertIndex h).elim (congrArg Prod.snd) fun hf => absurd hf hnew
      · rcases List.mem_append.1 h with hf | hf
        · exact absurd hf hnew
        · exact congrArg Prod.snd (List.mem_singleton.1 hf)

theorem has_put_self (fs : List (String × α)) (n : String) (v : α) :
    has (put fs n v) n = true := by
  rw [has_eq_isSome, get?_put_self]
  rfl

theorem has_put_of_ne (fs : List (String × α)) (v : α) (h : m ≠ n) :
    has (put fs n v) m = has fs m := by
  rw [has_eq_isSome, has_eq_isSome, get?_put_of_ne fs v h]

theorem mem_of_mem_put {f : String × α} (h : f ∈ put fs n v) (hn : f.1 ≠ n) : f ∈ fs := by
  unfold put at h
  split at h
  · obtain ⟨g, hg, hgf⟩ := List.mem_map.1 h
    split at hgf
    · next hgn => exact absurd (by rw [← hgf]; exact beq_iff_eq.1 hgn) hn
    · exact hgf ▸ hg
  · split at h
    · exact (mem_insertIndex h).resolve_left fun hf => hn (congrArg Prod.fst hf)
    · exact (List.mem_append.1 h).resolve_right fun hf =>
        hn (congrArg Prod.fst (List.mem_singleton.1 hf))

/-- Setting a field twice to the same does no more than setting it once. -/
@[simp] theorem put_put (fs : List (String × α)) (n : String) (v : α) :
    put (put fs n v) n v = put fs n v :=
  (if_pos (has_put_self fs n v)).trans (overwrite_eq_self fun _ => put_holds)

/-- The same with another field set in between. -/
theorem put_put_put (fs : List (String × α)) (v w : α) (h : n ≠ m) :
    put (put (put fs n v) m w) n v = put (put fs n v) m w := by
  have hhas : has (put (put fs n v) m w) n = true := by
    rw [has_put_of_ne _ w h, has_put_self]
  refine (if_pos hhas).trans (overwrite_eq_self fun f hf hn => ?_)
  exact put_holds (mem_of_mem_put hf (hn ▸ h)) hn

/-! ## Removing -/

@[simp] theorem get?_erase_self (fs : List (String × α)) (n : String) :
    get? (erase fs n) n = none := by
  unfold get?
  rw [List.lookup_eq_none_iff]
  intro f hf
  exact bne_comm.trans (List.mem_filter.1 hf).2

theorem get?_erase_of_ne (fs : List (String × α)) (h : m ≠ n) :
    get? (erase fs n) m = get? fs m := by
  induction fs with
  | nil => rfl
  | cons f fs ih =>
      rw [erase, List.filter_cons]
      by_cases hn : f.1 = n
      · rw [if_neg (by simp [hn]), get?_cons, if_neg (hn ▸ h)]
        exact ih
      · rw [if_pos (by simp [hn]), get?_cons, get?_cons]
        exact congrArg _ ih

/-! ## The other fields

What is done to one field leaves the others as they are and in their order. -/

theorem get?_filter {p : String → Bool} (fs : List (String × α)) (h : p m = true) :
    get? (fs.filter (p ·.1)) m = get? fs m := by
  induction fs with
  | nil => rfl
  | cons f fs ih =>
      rw [List.filter_cons, get?_cons]
      by_cases hm : m = f.1
      · rw [if_pos (hm ▸ h), get?_cons, if_pos hm, if_pos hm]
      · rw [if_neg hm]
        split
        · rw [get?_cons, if_neg hm, ih]
        · exact ih

theorem overwrite_filter {p : String → Bool} (fs : List (String × α)) (v : α)
    (h : p n = false) : (overwrite n v fs).filter (p ·.1) = fs.filter (p ·.1) := by
  induction fs with
  | nil => rfl
  | cons f fs ih =>
      change ((if f.1 == n then (f.1, v) else f) :: overwrite n v fs).filter (p ·.1) = _
      rw [List.filter_cons, List.filter_cons, ih]
      by_cases hn : f.1 = n
      · simp [hn, h]
      · simp [hn]

theorem insertIndex_filter {p : String → Bool} (fs : List (String × α)) (i : Nat) (v : α)
    (h : p n = false) : (insertIndex i n v fs).filter (p ·.1) = fs.filter (p ·.1) := by
  have hcons : ∀ gs : List (String × α), ((n, v) :: gs).filter (p ·.1) = gs.filter (p ·.1) :=
    fun gs => List.filter_cons_of_neg (by simp [h])
  induction fs with
  | nil => exact hcons []
  | cons f fs ih =>
      unfold insertIndex
      split
      · split
        · rw [List.filter_cons, List.filter_cons, ih]
        · exact hcons _
      · exact hcons _

theorem put_filter {p : String → Bool} (fs : List (String × α)) (v : α) (h : p n = false) :
    (put fs n v).filter (p ·.1) = fs.filter (p ·.1) := by
  unfold put
  split
  · exact overwrite_filter fs v h
  · split
    · exact insertIndex_filter fs _ v h
    · rw [List.filter_append, List.filter_cons_of_neg (by simp [h]), List.filter_nil,
        List.append_nil]

theorem erase_filter {p : String → Bool} (fs : List (String × α)) (h : p n = false) :
    (erase fs n).filter (p ·.1) = fs.filter (p ·.1) := by
  rw [erase, List.filter_filter]
  refine List.filter_congr fun f _ => ?_
  by_cases hn : f.1 = n
  · simp [hn, h]
  · simp [hn]

theorem mem_of_get? (h : get? fs n = some v) : (n, v) ∈ fs := by
  obtain ⟨before, after, rfl, -⟩ := List.lookup_eq_some_iff.1 h
  exact List.mem_append_right before List.mem_cons_self

theorem mem_put {f : String × α} (h : f ∈ put fs n v) : f = (n, v) ∨ f ∈ fs := by
  by_cases hn : f.1 = n
  · exact .inl (Prod.ext hn (put_holds h hn))
  · exact .inr (mem_of_mem_put h hn)

/-- What is put into a record was there before or is one of the fields that are put. -/
theorem mem_putAll {f : String × α} (h : f ∈ putAll fs gs) : f ∈ fs ∨ f ∈ gs := by
  induction gs generalizing fs with
  | nil => exact .inl h
  | cons g gs ih =>
      rcases ih h with h | h
      · rcases mem_put h with rfl | h
        · exact .inr List.mem_cons_self
        · exact .inl h
      · exact .inr (List.mem_cons_of_mem g h)

/-! ## Records of values -/

section Values

variable {fs : Fields} {v : Value}

@[simp] theorem get_nil (n : String) : get [] n = .absent := rfl

theorem get_cons (f : String × Value) (fs : Fields) (n : String) :
    get (f :: fs) n = if n = f.1 then f.2 else get fs n := by
  rw [get, get?_cons]
  split <;> rfl

@[simp] theorem get_put_self (fs : Fields) (n : String) (v : Value) : get (put fs n v) n = v := by
  rw [get, get?_put_self]
  rfl

theorem get_put_of_ne (fs : Fields) (v : Value) (h : m ≠ n) : get (put fs n v) m = get fs m := by
  rw [get, get?_put_of_ne fs v h]
  rfl

theorem get_putAll_of_has (fs : Fields) {gs : Fields} (h : has gs n = false) :
    get (putAll fs gs) n = get fs n := by
  induction gs generalizing fs with
  | nil => rfl
  | cons g gs ih =>
      have hparts : ¬g.1 = n ∧ has gs n = false := by
        change (g.1 == n || has gs n) = false at h
        simpa using h
      exact (ih (put fs g.1 g.2) hparts.2).trans (get_put_of_ne fs g.2 (Ne.symm hparts.1))

/-- Fields of different names that are set are found. -/
theorem get_putAll_of_mem (fs : Fields) {gs : Fields} (hnodup : (gs.map Prod.fst).Nodup)
    (h : (n, v) ∈ gs) : get (putAll fs gs) n = v := by
  induction gs generalizing fs with
  | nil => cases h
  | cons g gs ih =>
      obtain ⟨hfirst, hnodup⟩ := List.nodup_cons.1 hnodup
      rcases List.mem_cons.1 h with rfl | h
      · have hlater : has gs n = false := by
          refine List.any_eq_false.2 fun f hf heq => hfirst ?_
          exact List.mem_map.2 ⟨f, hf, beq_iff_eq.1 heq⟩
        exact (get_putAll_of_has _ hlater).trans (get_put_self fs n v)
      · exact ih _ hnodup h

theorem get_overwrite_self (h : has fs n = true) : get (overwrite n v fs) n = v := by
  rw [get, get?_overwrite_self h]
  rfl

theorem get_overwrite_of_ne (fs : Fields) (v : Value) (h : m ≠ n) :
    get (overwrite n v fs) m = get fs m := by
  rw [get, get?_overwrite_of_ne h]
  rfl

@[simp] theorem get_erase_self (fs : Fields) (n : String) : get (erase fs n) n = .absent := by
  rw [get, get?_erase_self]
  rfl

theorem get_erase_of_ne (fs : Fields) (h : m ≠ n) : get (erase fs n) m = get fs m := by
  rw [get, get?_erase_of_ne fs h]
  rfl

/-- What is looked up is missing or stands among the fields. -/
theorem get_absent_or_mem (fs : Fields) (n : String) : get fs n = .absent ∨ (n, get fs n) ∈ fs := by
  unfold get
  cases hfound : get? fs n with
  | none => exact .inl rfl
  | some v => exact .inr (mem_of_get? hfound)

theorem get_eq_absent (h : has fs n = false) : get fs n = .absent := by
  rw [has_eq_isSome, Option.isSome_eq_false_iff, Option.isNone_iff_eq_none] at h
  rw [get, h]
  rfl

theorem has_of_get_ne_absent (h : get fs n ≠ .absent) : has fs n = true := by
  rw [has_eq_isSome]
  unfold get at h
  cases hfound : get? fs n with
  | none =>
      rw [hfound] at h
      exact absurd rfl h
  | some w => rfl

/-! ## Fields that agree

A list of fields that was put together may have several of one name. A field is
well defined all the same if they agree. -/

/-- All fields of a name hold a value. A field that is not there holds the absent value. -/
structure Holds (fs : Fields) (n : String) (v : Value) : Prop where
  agree : ∀ f ∈ fs, f.1 = n → f.2 = v
  there : v ≠ .absent → has fs n = true

namespace Holds

variable {gs : Fields}

theorem get_eq (h : Holds fs n v) : get fs n = v := by
  rw [get]
  cases hfound : get? fs n with
  | none =>
      refine Classical.byContradiction fun hv => ?_
      have hhas := h.there fun heq => hv heq.symm
      rw [has_eq_isSome, hfound] at hhas
      cases hhas
  | some w => exact h.agree (n, w) (mem_of_get? hfound) rfl

/-- Fields of different names hold what they hold. -/
theorem get_of_nodup (h : (fs.map Prod.fst).Nodup) (n : String) : Holds fs n (get fs n) := by
  refine ⟨fun f hf hn => ?_, has_of_get_ne_absent⟩
  induction fs with
  | nil => cases hf
  | cons g fs ih =>
      obtain ⟨hg, h⟩ := List.nodup_cons.1 h
      rw [get_cons]
      rcases List.mem_cons.1 hf with rfl | hf
      · rw [if_pos hn.symm]
      · have hne : n ≠ g.1 := by
          rintro rfl
          exact hg (hn ▸ List.mem_map_of_mem hf)
        rw [if_neg hne]
        exact ih h hf

theorem append (h : Holds fs n v) (hgs : has gs n = false) : Holds (fs ++ gs) n v := by
  refine ⟨fun f hf hn => ?_, fun hv => ?_⟩
  · rcases List.mem_append.1 hf with hf | hf
    · exact h.agree f hf hn
    · exact absurd (beq_iff_eq.2 hn) (List.any_eq_false.1 hgs f hf)
  · rw [has, List.any_append]
    exact (congrArg (· || _) (h.there hv)).trans (Bool.true_or _)

theorem append_left (h : Holds gs n v) (hfs : has fs n = false) : Holds (fs ++ gs) n v := by
  refine ⟨fun f hf hn => ?_, fun hv => ?_⟩
  · rcases List.mem_append.1 hf with hf | hf
    · exact absurd (beq_iff_eq.2 hn) (List.any_eq_false.1 hfs f hf)
    · exact h.agree f hf hn
  · rw [has, List.any_append]
    exact (congrArg (_ || ·) (h.there hv)).trans (Bool.or_true _)

theorem put_of_ne (h : Holds fs n v) (w : Value) (hm : n ≠ m) : Holds (put fs m w) n v := by
  refine ⟨fun f hf hn => h.agree f (mem_of_mem_put hf (hn ▸ hm)) hn, fun hv => ?_⟩
  rw [has_put_of_ne fs w hm]
  exact h.there hv

end Holds

/-- A part that need not be there is absent then. -/
theorem holds_part {β : Type} (n : String) (o : Option β) (f : β → Value) :
    Holds (o.toList.map fun b => (n, f b)) n (.ofOption f o) := by
  cases o with
  | none => exact ⟨nofun, fun h => absurd rfl h⟩
  | some b =>
      refine ⟨fun g hg _ => ?_, fun _ => ?_⟩
      · rw [List.mem_singleton.1 hg]
        rfl
      · exact List.any_eq_true.2 ⟨_, List.mem_singleton_self _, beq_self_eq_true n⟩

end Values

end Fields

end ProxyFleet
