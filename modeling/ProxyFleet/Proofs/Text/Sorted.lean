import Mathlib.Data.List.Lex
import Mathlib.Data.Char
import ProxyFleet.Text.Order

/-!
# Sorting by texts

Texts are compared as the lists of their characters are, which makes comparing them, and
pairs of them, a total order. So what is sorted by them has its items in order, each as
often as before.
-/

namespace ProxyFleet

theorem textLe_iff {a b : String} : textLe a b = true ↔ ¬ b.toList < a.toList := by
  rw [textLe, Bool.not_eq_true', decide_eq_false_iff_not]
  rfl

theorem textLe_total (a b : String) : (textLe a b || textLe b a) = true := by
  rw [Bool.or_eq_true, textLe_iff, textLe_iff, ← not_and_or]
  exact fun h => lt_asymm h.1 h.2

theorem textLe_trans (a b c : String) (hab : textLe a b = true) (hbc : textLe b c = true) :
    textLe a c = true := by
  rw [textLe_iff, not_lt] at *
  exact hab.trans hbc

theorem textPairLe_iff {a b : String × String} : textPairLe a b = true ↔
    a.1 = b.1 ∧ textLe a.2 b.2 = true ∨ a.1 ≠ b.1 ∧ textLe a.1 b.1 = true := by
  rw [textPairLe]
  split <;> simp [*]

theorem textLe_of_textPairLe {a b : String × String} (h : textPairLe a b = true) :
    textLe a.1 b.1 = true := by
  rcases textPairLe_iff.1 h with ⟨heq, -⟩ | ⟨-, hle⟩
  · rw [heq, textLe_iff]
    exact lt_irrefl _
  · exact hle

theorem textLe_antisymm {a b : String} (hab : textLe a b = true) (hba : textLe b a = true) :
    a = b := by
  rw [textLe_iff, not_lt] at *
  exact String.toList_injective (le_antisymm hab hba)

theorem textPairLe_total (a b : String × String) : (textPairLe a b || textPairLe b a) = true := by
  rw [Bool.or_eq_true, textPairLe_iff, textPairLe_iff]
  have hfirst := textLe_total a.1 b.1
  have hsecond := textLe_total a.2 b.2
  rw [Bool.or_eq_true] at hfirst hsecond
  by_cases heq : a.1 = b.1
  · exact hsecond.imp (fun h => Or.inl ⟨heq, h⟩) fun h => Or.inl ⟨heq.symm, h⟩
  · exact hfirst.imp (fun h => Or.inr ⟨heq, h⟩) fun h => Or.inr ⟨Ne.symm heq, h⟩

theorem textPairLe_trans (a b c : String × String) (hab : textPairLe a b = true)
    (hbc : textPairLe b c = true) : textPairLe a c = true := by
  have hfirst := textLe_trans _ _ _ (textLe_of_textPairLe hab) (textLe_of_textPairLe hbc)
  rw [textPairLe_iff] at hab hbc ⊢
  by_cases heq : a.1 = c.1
  · refine Or.inl ⟨heq, ?_⟩
    rcases hab with ⟨hab, hle⟩ | ⟨hne, hle⟩
    · rcases hbc with ⟨-, hle'⟩ | ⟨hne', -⟩
      · exact textLe_trans _ _ _ hle hle'
      · exact absurd (hab.symm.trans heq) hne'
    · -- the middle text would be between two equal ones
      rcases hbc with ⟨hbc, -⟩ | ⟨-, hle'⟩
      · exact absurd (heq.trans hbc.symm) hne
      · exact absurd (textLe_antisymm hle (heq ▸ hle')) hne
  · exact Or.inr ⟨heq, hfirst⟩

section Sorting

variable {α : Type} (le : α → α → Bool) (items : List α)

theorem sortBy_perm : (sortBy le items).Perm items := List.mergeSort_perm items le

theorem mem_sortBy {item : α} : item ∈ sortBy le items ↔ item ∈ items := List.mem_mergeSort

theorem pairwise_sortBy (htrans : ∀ a b c, le a b = true → le b c = true → le a c = true)
    (htotal : ∀ a b, (le a b || le b a) = true) :
    (sortBy le items).Pairwise fun a b => le a b = true :=
  List.pairwise_mergeSort htrans htotal items

/-- What is neither before nor after each other stays as it was. -/
theorem pairwise_sortBy_ties {R : α → α → Prop}
    (htrans : ∀ a b c, le a b = true → le b c = true → le a c = true)
    (htotal : ∀ a b, (le a b || le b a) = true) (hitems : items.Pairwise R) :
    (sortBy le items).Pairwise fun a b => le a b = true ∧ (le b a = true → R a b) := by
  -- sorted together with their places, the items are told apart
  have hsorted := List.pairwise_mergeSort (List.zipIdxLE_trans htrans)
    (List.zipIdxLE_total htotal) items.zipIdx
  have hperm := List.mergeSort_perm items.zipIdx (List.zipIdxLE le)
  have hplaces : (items.zipIdx.mergeSort (List.zipIdxLE le)).Pairwise fun a b => a.2 ≠ b.2 := by
    refine List.pairwise_map.1 (List.Perm.nodup_iff (hperm.map Prod.snd) |>.2 ?_)
    rw [List.zipIdx_map_snd]
    exact List.nodup_range'
  rw [sortBy, ← List.mergeSort_zipIdx, List.pairwise_map]
  refine (hsorted.and hplaces).imp_of_mem fun {a b} ha hb hab => ?_
  obtain ⟨hle, hne⟩ := hab
  have ha := List.mem_zipIdx' (hperm.mem_iff.1 ha)
  have hb := List.mem_zipIdx' (hperm.mem_iff.1 hb)
  obtain ⟨halength, ha⟩ := ha
  obtain ⟨hblength, hb⟩ := hb
  rw [List.zipIdxLE] at hle
  split at hle
  · next hab =>
    refine ⟨hab, fun hba => ?_⟩
    rw [if_pos hba, decide_eq_true_iff] at hle
    rw [ha, hb]
    exact List.pairwise_iff_getElem.1 hitems _ _ halength hblength (by omega)
  · cases hle

end Sorting

end ProxyFleet
