import ProxyFleet.Proofs.Number.RoundTrip
import ProxyFleet.Proofs.Value.Fields

/-!
# Records in enumeration order

A record that was built by setting its fields one after the other has them in
order (`Fields.InOrder`): names that are array indices first, by their number, then
the others, and no name twice. Setting the fields of such a record one after the
other gives the record again.
-/

namespace ProxyFleet

/-! ## Index names -/

/-- An index name is made of the digits of its number. -/
theorem indexName?_digits {name : String} {n : Nat} (h : indexName? name = some n) :
    name.toList = Decimal.digitsOf n := by
  unfold indexName? at h
  split at h
  · cases h
  · next hname =>
      cases h
      rw [hname]
      exact (Nat.toDigits_zero 10).symm
  · next c cs _ hname =>
      split at h
      · cases h
      · next hdigits =>
          simp only [Bool.or_eq_true, not_or, Bool.not_eq_true', decide_eq_true_eq,
            Bool.not_eq_false] at hdigits
          obtain ⟨⟨hzero, -⟩, hall⟩ := hdigits
          have hds : Decimal.AreDigits (c :: cs) :=
            ⟨List.cons_ne_nil _ _, fun x hx => List.all_eq_true.1 hall x hx⟩
          have hread := (Decimal.digitsOf_ofDigits hds (by simpa using hzero)).2
          dsimp only at h
          split at h
          · cases h
            rw [hname]
            exact hread.symm
          · cases h

theorem indexName?_inj {a b : String} {n : Nat} (ha : indexName? a = some n)
    (hb : indexName? b = some n) : a = b :=
  String.toList_inj.1 ((indexName?_digits ha).trans (indexName?_digits hb).symm)

namespace Fields

variable {α : Type} {fs gs : List (String × α)} {n : String} {v : α}

/-! ## The order of names -/

/-- Whether a name comes before another in a record. -/
def Precedes (a b : String) : Prop :=
  match indexName? a, indexName? b with
  | some i, some j => i < j
  | some _, none => True
  | none, some _ => False
  | none, none => a ≠ b

theorem Precedes.ne {a b : String} (h : Precedes a b) : a ≠ b := by
  rintro rfl
  unfold Precedes at h
  cases hindex : indexName? a <;> simp [hindex] at h

/-- Fields in the order in which a record enumerates them, no name twice. -/
def InOrder (fs : List (String × α)) : Prop := fs.Pairwise fun f g => Precedes f.1 g.1

theorem InOrder.nodup (h : InOrder fs) : (fs.map Prod.fst).Nodup := by
  rw [List.Nodup, List.pairwise_map]
  exact List.Pairwise.imp Precedes.ne h

theorem InOrder.sublist (h : InOrder fs) (hgs : gs.Sublist fs) : InOrder gs :=
  List.Pairwise.sublist hgs h

/-- Names that are no indices are in order as long as none comes twice. -/
theorem InOrder.of_nodup (h : (fs.map Prod.fst).Nodup)
    (hnames : ∀ f ∈ fs, indexName? f.1 = none) : InOrder fs := by
  rw [List.Nodup, List.pairwise_map] at h
  refine List.Pairwise.imp_of_mem ?_ h
  intro f g hf hg hne
  simp [Precedes, hnames f hf, hnames g hg, hne]

/-! ## Setting keeps the order -/

theorem overwrite_names (fs : List (String × α)) (n : String) (v : α) :
    (overwrite n v fs).map Prod.fst = fs.map Prod.fst := by
  rw [overwrite, List.map_map]
  refine List.map_congr_left fun f _ => ?_
  rw [Function.comp_apply]
  split <;> rfl

theorem inOrder_iff : InOrder fs ↔ (fs.map Prod.fst).Pairwise Precedes := by
  rw [List.pairwise_map]
  rfl

theorem InOrder.overwrite (h : InOrder fs) (n : String) (v : α) :
    InOrder (overwrite n v fs) := by
  rw [inOrder_iff, overwrite_names, ← inOrder_iff]
  exact h

theorem InOrder.insertIndex {i : Nat} (h : InOrder fs) (hi : indexName? n = some i)
    (hnew : has fs n = false) (v : α) : InOrder (insertIndex i n v fs) := by
  induction fs with
  | nil => exact List.pairwise_singleton _ _
  | cons f fs ih =>
      obtain ⟨hfirst, hrest⟩ := List.pairwise_cons.1 h
      have hparts : ¬f.1 = n ∧ has fs n = false := by
        change (f.1 == n || has fs n) = false at hnew
        simpa using hnew
      unfold Fields.insertIndex
      split
      · next j hj =>
          split
          · -- the new name goes further down
            next hlt =>
              refine List.pairwise_cons.2 ⟨fun g hg => ?_, ih hrest hparts.2⟩
              rcases mem_insertIndex hg with rfl | hg
              · simpa [Precedes, hj, hi] using hlt
              · exact hfirst g hg
          · -- it goes here, before a larger index
            next hge =>
              have hne : j ≠ i := by
                rintro rfl
                exact hparts.1 (indexName?_inj hj hi)
              refine List.pairwise_cons.2 ⟨fun g hg => ?_, h⟩
              rcases List.mem_cons.1 hg with rfl | hg
              · simp only [Precedes, hi, hj]
                omega
              · have hlater := hfirst g hg
                cases hk : indexName? g.1 with
                | none => simp [Precedes, hi, hk]
                | some k =>
                    simp only [Precedes, hi, hj, hk] at hlater ⊢
                    omega
      · -- it goes here, and no index comes after it
        next hj =>
          refine List.pairwise_cons.2 ⟨fun g hg => ?_, h⟩
          have hnone : indexName? g.1 = none := by
            rcases List.mem_cons.1 hg with rfl | hg
            · exact hj
            · have hlater := hfirst g hg
              cases hg : indexName? g.1 with
              | none => rfl
              | some k => simp [Precedes, hj, hg] at hlater
          simp [Precedes, hi, hnone]

theorem InOrder.put (h : InOrder fs) (n : String) (v : α) : InOrder (put fs n v) := by
  unfold Fields.put
  split
  · exact h.overwrite n v
  · next hnew =>
      split
      · next i hi => exact h.insertIndex hi (by simpa using hnew) v
      · next hi =>
          refine List.pairwise_append.2 ⟨h, List.pairwise_singleton _ _, ?_⟩
          intro f hf g hg
          rw [List.mem_singleton.1 hg]
          have hne : f.1 ≠ n := by
            rintro rfl
            exact hnew (List.any_eq_true.2 ⟨f, hf, beq_self_eq_true _⟩)
          cases hf : indexName? f.1 <;> simp [Precedes, hf, hi, hne]

theorem InOrder.putAll (h : InOrder fs) (gs : List (String × α)) : InOrder (putAll fs gs) := by
  induction gs generalizing fs with
  | nil => exact h
  | cons g gs ih => exact ih (h.put g.1 g.2)

/-! ## Setting all fields again -/

theorem insertIndex_last {i : Nat} (h : ∀ f ∈ fs, ∃ j, indexName? f.1 = some j ∧ j < i) (v : α) :
    insertIndex i n v fs = fs ++ [(n, v)] := by
  induction fs with
  | nil => rfl
  | cons f fs ih =>
      obtain ⟨j, hj, hlt⟩ := h f List.mem_cons_self
      rw [insertIndex, hj]
      dsimp only
      rw [if_pos hlt, ih fun g hg => h g (List.mem_cons_of_mem f hg)]
      rfl

/-- A new name that is no index is put behind all others. -/
theorem put_new (hnew : has fs n = false) (hn : indexName? n = none) (v : α) :
    put fs n v = fs ++ [(n, v)] := by
  unfold put
  rw [if_neg (by rw [hnew]; exact Bool.false_ne_true), hn]

/-- A field that comes after all others is put behind them. -/
theorem put_last (h : ∀ f ∈ fs, Precedes f.1 n) (v : α) : put fs n v = fs ++ [(n, v)] := by
  have hnew : has fs n = false := by
    refine List.any_eq_false.2 fun f hf => ?_
    rw [beq_iff_eq]
    exact (h f hf).ne
  unfold put
  rw [if_neg (by rw [hnew]; exact Bool.false_ne_true)]
  split
  · next i hi =>
      refine insertIndex_last (fun f hf => ?_) v
      have hbefore := h f hf
      cases hj : indexName? f.1 with
      | none => simp [Precedes, hj, hi] at hbefore
      | some j => exact ⟨j, rfl, by simpa [Precedes, hj, hi] using hbefore⟩
  · rfl

theorem putAll_append (h : InOrder (fs ++ gs)) : putAll fs gs = fs ++ gs := by
  induction gs generalizing fs with
  | nil => rw [List.append_nil]; rfl
  | cons g gs ih =>
      obtain ⟨hfs, hgs, hbetween⟩ := List.pairwise_append.1 h
      have hput : put fs g.1 g.2 = fs ++ [g] :=
        put_last (fun f hf => hbetween f hf g List.mem_cons_self) g.2
      change putAll (put fs g.1 g.2) gs = _
      rw [hput, ih (by rwa [List.append_assoc]), List.append_assoc]
      rfl

end Fields

end ProxyFleet
