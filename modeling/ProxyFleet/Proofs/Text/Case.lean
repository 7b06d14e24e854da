import Mathlib.Data.List.TakeWhile
import ProxyFleet.Text.Blank
import ProxyFleet.Text.Case

/-!
# Lower case, blanks and hyphens

Names are compared by a normal form that is made in three steps: blanks at the ends are
dropped, letters get lower case, hyphens become underscores. The steps do not get into
each other's way. Blanks, hyphens and underscores have no case (`IsCaseless`), no letter
has one of them as its lower-case form, and the one letter that looks around itself, the
sigma, does not see them: they are no letters, so next to it they are like the end of the
text.

What is said of all letters is said of the tables, and decided there.
-/

namespace ProxyFleet

variable {c d : Char} {cs pre mid post before : List Char}

/-! ## Trimming -/

/-- No blank stands at either end. -/
def Trimmed (cs : List Char) : Prop :=
  (∀ c ∈ cs.head?, isBlank c = false) ∧ ∀ c ∈ cs.getLast?, isBlank c = false

theorem dropWhile_blank (h : ∀ c ∈ pre, isBlank c = true) (cs : List Char) :
    (pre ++ cs).dropWhile isBlank = cs.dropWhile isBlank := by
  induction pre with
  | nil => rfl
  | cons c pre ih =>
      obtain ⟨hc, hpre⟩ := List.forall_mem_cons.1 h
      rw [List.cons_append, List.dropWhile_cons_of_pos hc, ih hpre]

theorem dropWhile_unblank (h : ∀ c ∈ cs.head?, isBlank c = false) : cs.dropWhile isBlank = cs := by
  cases cs with
  | nil => rfl
  | cons c cs =>
      rw [List.dropWhile_cons_of_neg]
      rw [h c rfl]
      exact Bool.false_ne_true

theorem head?_append_of_ne_nil (h : cs ≠ []) (ds : List Char) : (cs ++ ds).head? = cs.head? := by
  cases cs with
  | nil => exact absurd rfl h
  | cons c cs => rfl

/-- Blanks at the ends are all that is dropped. -/
theorem trimChars_append (hpre : ∀ c ∈ pre, isBlank c = true) (hmid : Trimmed mid)
    (hpost : ∀ c ∈ post, isBlank c = true) : trimChars (pre ++ mid ++ post) = mid := by
  rw [List.append_assoc, trimChars, dropWhile_blank hpre, dropTrailing]
  by_cases hne : mid = []
  · rw [hne, List.nil_append, List.dropWhile_eq_nil_iff.2 hpost]
    rfl
  · have hhead : ∀ c ∈ (mid ++ post).head?, isBlank c = false := by
      rw [head?_append_of_ne_nil hne]
      exact hmid.1
    have hlast : ∀ c ∈ mid.reverse.head?, isBlank c = false := by
      rw [List.head?_reverse]
      exact hmid.2
    rw [dropWhile_unblank hhead, List.reverse_append,
      dropWhile_blank (fun c hc => hpost c (List.mem_reverse.1 hc)), dropWhile_unblank hlast,
      List.reverse_reverse]

theorem exists_blanks (cs : List Char) : ∃ pre rest, cs = pre ++ rest ∧
    (∀ c ∈ pre, isBlank c = true) ∧ ∀ c ∈ rest.head?, isBlank c = false := by
  induction cs with
  | nil => exact ⟨[], [], rfl, nofun, nofun⟩
  | cons c cs ih =>
      by_cases hc : isBlank c = true
      · obtain ⟨pre, rest, rfl, hpre, hrest⟩ := ih
        exact ⟨c :: pre, rest, rfl, List.forall_mem_cons.2 ⟨hc, hpre⟩, hrest⟩
      · refine ⟨[], c :: cs, rfl, nofun, fun d hd => ?_⟩
        cases hd
        exact Bool.eq_false_iff.2 hc

theorem exists_trimmed (cs : List Char) : ∃ pre mid post, cs = pre ++ mid ++ post ∧
    (∀ c ∈ pre, isBlank c = true) ∧ Trimmed mid ∧ ∀ c ∈ post, isBlank c = true := by
  obtain ⟨pre, rest, rfl, hpre, hrest⟩ := exists_blanks cs
  obtain ⟨post, mid, hback, hpost, hmid⟩ := exists_blanks rest.reverse
  obtain rfl : rest = mid.reverse ++ post.reverse := by
    rw [← List.reverse_append, ← hback, List.reverse_reverse]
  refine ⟨pre, mid.reverse, post.reverse, by rw [List.append_assoc], hpre, ⟨?_, ?_⟩,
    fun c hc => hpost c (List.mem_reverse.1 hc)⟩
  · by_cases hne : mid.reverse = []
    · rw [hne]
      exact nofun
    · rwa [head?_append_of_ne_nil hne] at hrest
  · rwa [List.getLast?_reverse]

theorem trimChars_trimChars (cs : List Char) : trimChars (trimChars cs) = trimChars cs := by
  obtain ⟨pre, mid, post, rfl, hpre, hmid, hpost⟩ := exists_trimmed cs
  have hagain : trimChars ([] ++ mid ++ []) = mid := trimChars_append nofun hmid nofun
  rw [trimChars_append hpre hmid hpost]
  rwa [List.nil_append, List.append_nil] at hagain

theorem trim_trim (s : String) : trim (trim s) = trim s := by
  rw [trim, trim, String.toList_ofList, trimChars_trimChars]

/-! ## Characters without case -/

/-- The code points of blanks, the hyphen and the underscore. -/
def caselessCodes : List Nat :=
  [0x09, 0x0a, 0x0b, 0x0c, 0x0d, 0x20, 0xa0, 0x1680, 0x2000, 0x2001, 0x2002, 0x2003, 0x2004, 0x2005,
    0x2006, 0x2007, 0x2008, 0x2009, 0x200a, 0x2028, 0x2029, 0x202f, 0x205f, 0x3000, 0xfeff, 0x2d,
    0x5f]

/-- A blank, a hyphen or an underscore. -/
def IsCaseless (c : Char) : Prop := c.toNat ∈ caselessCodes

instance : DecidablePred IsCaseless := fun c =>
  inferInstanceAs (Decidable (c.toNat ∈ caselessCodes))

theorem IsCaseless.of_blank (h : isBlank c = true) : IsCaseless c := by
  simp only [isBlank, Bool.or_eq_true, Bool.and_eq_true, decide_eq_true_eq] at h
  simp only [IsCaseless, caselessCodes, List.mem_cons, List.not_mem_nil]
  omega

/-- A character made of a code is caseless only if the code is that of a caseless one. -/
theorem IsCaseless.of_ofNat {n : Nat} (h : IsCaseless (Char.ofNat n)) : n ∈ caselessCodes := by
  by_cases hn : n.isValidChar
  · have hcode : (Char.ofNat n).toNat = n := by
      rw [Char.ofNat, dif_pos hn]
      rfl
    rwa [IsCaseless, hcode] at h
  · rw [Char.ofNat, dif_neg hn] at h
    exact absurd h (by decide)

/-! ## The tables -/

theorem mem_caseImage {runs : List (Nat × Nat × Nat × Int)} {long : List (Nat × List Nat)}
    (h : d ∈ caseImage runs long c) : d = c ∨ (∃ p ∈ long, ∃ n ∈ p.2, d = Char.ofNat n) ∨
      ∃ r ∈ runs, r.1 ≤ c.toNat ∧ c.toNat ≤ r.2.1 ∧
        d = Char.ofNat ((c.toNat : Int) + r.2.2.2).toNat := by
  unfold caseImage at h
  dsimp only at h
  split at h
  · next image hlong =>
    obtain ⟨l₁, l₂, rfl, -⟩ := List.lookup_eq_some_iff.1 hlong
    obtain ⟨n, hn, rfl⟩ := List.mem_map.1 h
    exact .inr (.inl ⟨_, List.mem_append_right l₁ List.mem_cons_self, n, hn, rfl⟩)
  · split at h
    · next first last step shift hrun =>
      have hrange := List.find?_some hrun
      simp only [Bool.and_eq_true, decide_eq_true_eq] at hrange
      exact .inr (.inr ⟨_, List.mem_of_find?_eq_some hrun, hrange.1.1, hrange.1.2,
        List.mem_singleton.1 h⟩)
    · exact .inl (List.mem_singleton.1 h)

theorem caseImage_ne_nil {runs : List (Nat × Nat × Nat × Int)} {long : List (Nat × List Nat)}
    (h : ∀ p ∈ long, p.2 ≠ []) (c : Char) : caseImage runs long c ≠ [] := by
  unfold caseImage
  dsimp only
  split
  · next image hlong =>
    obtain ⟨l₁, l₂, rfl, -⟩ := List.lookup_eq_some_iff.1 hlong
    exact fun hnil => h _ (List.mem_append_right l₁ List.mem_cons_self) (List.map_eq_nil_iff.1 hnil)
  · split <;> exact List.cons_ne_nil _ _

/-- No run of the table leads to a caseless character. -/
theorem lowerRuns_caseless : ∀ r ∈ CaseTable.lowerRuns, ∀ n ∈ caselessCodes,
    (n : Int) < r.1 + r.2.2.2 ∨ (r.2.1 : Int) + r.2.2.2 < n := by
  decide +kernel

theorem lowerLong_caseless :
    ∀ p ∈ CaseTable.lowerLong, p.2 ≠ [] ∧ ∀ n ∈ p.2, n ∉ caselessCodes := by
  decide

/-- The tables leave caseless characters as they are. -/
theorem caseless_kept : ∀ n ∈ caselessCodes, Char.ofNat n ≠ 'Σ' ∧
    (Char.ofNat n).toLower = Char.ofNat n ∧
    caseImage CaseTable.lowerRuns CaseTable.lowerLong (Char.ofNat n) = [Char.ofNat n] := by
  decide

theorem toLower_caseless : ∀ n < 128, (Char.ofNat n).toLower.toNat ∈ caselessCodes →
    (Char.ofNat n).toLower = Char.ofNat n := by
  decide

/-- Caseless characters are no letters, and hyphens and underscores end the search for one. -/
theorem caseless_uncased : ∀ n ∈ caselessCodes, inRanges CaseTable.cased n = false := by
  decide

/-! ## Lower case -/

/-- The lower-case form of a character that stands between others. -/
def lowerImage (before : List Char) (c : Char) (cs : List Char) : List Char :=
  if c.toNat < 128 then [c.toLower]
  else if c = 'Σ' then (if nextIsCased before && !nextIsCased cs then ['ς'] else ['σ'])
  else caseImage CaseTable.lowerRuns CaseTable.lowerLong c

theorem lowerAux_cons (before : List Char) (c : Char) (cs : List Char) :
    lowerAux before (c :: cs) = lowerImage before c cs ++ lowerAux (c :: before) cs := rfl

theorem lowerImage_caseless (h : IsCaseless c) (before cs : List Char) :
    lowerImage before c cs = [c] := by
  obtain ⟨hsigma, hlower, himage⟩ := caseless_kept c.toNat h
  rw [Char.ofNat_toNat] at hsigma hlower himage
  rw [lowerImage, if_neg hsigma, hlower, himage]
  split <;> rfl

theorem mem_lowerImage (hd : d ∈ lowerImage before c cs) (h : IsCaseless d) : d = c := by
  unfold lowerImage at hd
  split at hd
  · next hascii =>
    obtain rfl := List.mem_singleton.1 hd
    have hkept := toLower_caseless c.toNat hascii
    rw [Char.ofNat_toNat] at hkept
    exact hkept h
  · split at hd
    · have hsigma : d = 'ς' ∨ d = 'σ' := by
        split at hd
        · exact .inl (List.mem_singleton.1 hd)
        · exact .inr (List.mem_singleton.1 hd)
      rcases hsigma with rfl | rfl <;> exact absurd h (by decide)
    · rcases mem_caseImage hd with rfl | ⟨p, hp, n, hn, rfl⟩ | ⟨r, hr, hfirst, hlast, rfl⟩
      · rfl
      · exact absurd h.of_ofNat ((lowerLong_caseless p hp).2 n hn)
      · have hcode := h.of_ofNat
        have hpos : ∀ n ∈ caselessCodes, 0 < n := by decide
        have := hpos _ hcode
        have := lowerRuns_caseless r hr _ hcode
        omega

theorem lowerImage_ne_nil (before : List Char) (c : Char) (cs : List Char) :
    lowerImage before c cs ≠ [] := by
  unfold lowerImage
  split
  · exact List.cons_ne_nil _ _
  · split
    · split <;> exact List.cons_ne_nil _ _
    · exact caseImage_ne_nil (fun p hp => (lowerLong_caseless p hp).1) c

theorem nextIsCased_cons (c : Char) (cs : List Char) : nextIsCased (c :: cs) =
    if inRanges CaseTable.ignorable c.toNat = true then nextIsCased cs
    else inRanges CaseTable.cased c.toNat := by
  unfold nextIsCased
  by_cases hc : inRanges CaseTable.ignorable c.toNat = true
  · rw [if_pos hc, List.dropWhile_cons, if_pos hc]
  · rw [if_neg hc, List.dropWhile_cons, if_neg hc]

/-! ### Blanks around -/

theorem nextIsCased_append_blanks (hpost : ∀ c ∈ post, isBlank c = true) (cs : List Char) :
    nextIsCased (cs ++ post) = nextIsCased cs := by
  induction cs with
  | nil =>
      induction post with
      | nil => rfl
      | cons c post ih =>
          obtain ⟨hc, hpost⟩ := List.forall_mem_cons.1 hpost
          rw [List.nil_append, nextIsCased_cons]
          split
          · exact ih hpost
          · exact caseless_uncased c.toNat (IsCaseless.of_blank hc)
  | cons c cs ih => rw [List.cons_append, nextIsCased_cons, nextIsCased_cons, ih]

theorem lowerAux_blanks (hpre : ∀ c ∈ pre, isBlank c = true) (before cs : List Char) :
    lowerAux before (pre ++ cs) = pre ++ lowerAux (pre.reverse ++ before) cs := by
  induction pre generalizing before with
  | nil => rfl
  | cons c pre ih =>
      obtain ⟨hc, hpre⟩ := List.forall_mem_cons.1 hpre
      rw [List.cons_append, lowerAux_cons, lowerImage_caseless (.of_blank hc), ih hpre,
        List.reverse_cons, List.append_assoc]
      rfl

/-- Blanks on either side are no part of what a character is looked at with. -/
theorem lowerAux_between (hpre : ∀ c ∈ pre, isBlank c = true) (hpost : ∀ c ∈ post, isBlank c = true)
    (before cs : List Char) :
    lowerAux (before ++ pre) (cs ++ post) = lowerAux before cs ++ post := by
  induction cs generalizing before with
  | nil =>
      have hblanks := lowerAux_blanks hpost (before ++ pre) []
      rw [List.append_nil] at hblanks
      rw [List.nil_append, hblanks, lowerAux, lowerAux, List.append_nil]
      rfl
  | cons c cs ih =>
      have himage : lowerImage (before ++ pre) c (cs ++ post) = lowerImage before c cs := by
        rw [lowerImage, nextIsCased_append_blanks hpre, nextIsCased_append_blanks hpost]
        rfl
      rw [List.cons_append, lowerAux_cons, lowerAux_cons, himage, List.append_assoc,
        ← List.cons_append, ih]

theorem lowerChars_surrounded (hpre : ∀ c ∈ pre, isBlank c = true)
    (hpost : ∀ c ∈ post, isBlank c = true) (mid : List Char) :
    lowerChars (pre ++ mid ++ post) = pre ++ lowerChars mid ++ post := by
  have hreverse : ∀ c ∈ pre.reverse, isBlank c = true := fun c hc => hpre c (List.mem_reverse.1 hc)
  have hmid := lowerAux_between hreverse hpost [] mid
  rw [List.nil_append] at hmid
  rw [lowerChars, List.append_assoc, lowerAux_blanks hpre, List.append_nil, hmid, List.append_assoc]
  rfl

theorem lowerImage_unblank (hc : isBlank c = false) (hd : d ∈ lowerImage before c cs) :
    isBlank d = false := by
  rw [Bool.eq_false_iff]
  intro hblank
  rw [mem_lowerImage hd (.of_blank hblank), hc] at hblank
  cases hblank

theorem lowerAux_concat (cs before : List Char) (c : Char) :
    ∃ ds seen, lowerAux before (cs ++ [c]) = ds ++ lowerImage seen c [] := by
  induction cs generalizing before with
  | nil => exact ⟨[], before, List.append_nil _⟩
  | cons d cs ih =>
      obtain ⟨ds, seen, h⟩ := ih (d :: before)
      refine ⟨lowerImage before d (cs ++ [c]) ++ ds, seen, ?_⟩
      rw [List.cons_append, lowerAux_cons, h, List.append_assoc]

theorem Trimmed.lowerChars (h : Trimmed cs) : Trimmed (lowerChars cs) := by
  constructor
  · cases cs with
    | nil => exact nofun
    | cons c cs =>
        rw [ProxyFleet.lowerChars, lowerAux_cons, head?_append_of_ne_nil (lowerImage_ne_nil _ _ _)]
        exact fun d hd => lowerImage_unblank (h.1 c rfl) (List.mem_of_head? hd)
  · rcases List.eq_nil_or_concat cs with rfl | ⟨cs, c, rfl⟩
    · exact nofun
    · rw [List.concat_eq_append] at h ⊢
      have hc : isBlank c = false := h.2 c (by rw [List.getLast?_concat]; rfl)
      obtain ⟨ds, seen, hds⟩ := lowerAux_concat cs [] c
      have hne : (lowerImage seen c []).reverse ≠ [] := fun hnil =>
        lowerImage_ne_nil _ _ _ (List.reverse_eq_nil_iff.1 hnil)
      rw [ProxyFleet.lowerChars, hds, ← List.head?_reverse, List.reverse_append,
        head?_append_of_ne_nil hne]
      exact fun d hd => lowerImage_unblank hc (List.mem_reverse.1 (List.mem_of_head? hd))

theorem trimChars_lowerChars (cs : List Char) :
    trimChars (lowerChars cs) = lowerChars (trimChars cs) := by
  obtain ⟨pre, mid, post, rfl, hpre, hmid, hpost⟩ := exists_trimmed cs
  rw [lowerChars_surrounded hpre hpost, trimChars_append hpre hmid.lowerChars hpost,
    trimChars_append hpre hmid hpost]

/-! ### Hyphens and underscores -/

/-- A character, a hyphen as an underscore. -/
def unhyphened (c : Char) : Char := if c = '-' then '_' else c

theorem unhyphened_of_ne (h : c ≠ '-') : unhyphened c = c := if_neg h

theorem unhyphened_unhyphened (c : Char) : unhyphened (unhyphened c) = unhyphened c := by
  by_cases hc : c = '-'
  · rw [hc]
    rfl
  · rw [unhyphened_of_ne hc, unhyphened_of_ne hc]

theorem isBlank_unhyphened (c : Char) : isBlank (unhyphened c) = isBlank c := by
  by_cases hc : c = '-'
  · rw [hc]
    rfl
  · rw [unhyphened_of_ne hc]

theorem dropWhile_unhyphened (cs : List Char) :
    (cs.map unhyphened).dropWhile isBlank = (cs.dropWhile isBlank).map unhyphened := by
  induction cs with
  | nil => rfl
  | cons c cs ih =>
      rw [List.map_cons, List.dropWhile_cons, List.dropWhile_cons, isBlank_unhyphened, ih]
      split <;> rfl

theorem trimChars_unhyphened (cs : List Char) :
    trimChars (cs.map unhyphened) = (trimChars cs).map unhyphened := by
  rw [trimChars, dropWhile_unhyphened, dropTrailing, ← List.map_reverse, dropWhile_unhyphened,
    ← List.map_reverse]
  rfl

theorem nextIsCased_unhyphened (cs : List Char) :
    nextIsCased (cs.map unhyphened) = nextIsCased cs := by
  induction cs with
  | nil => rfl
  | cons c cs ih =>
      rw [List.map_cons, nextIsCased_cons, nextIsCased_cons, ih]
      by_cases hc : c = '-'
      · have hignorable : inRanges CaseTable.ignorable '-'.toNat = false ∧
            inRanges CaseTable.ignorable (unhyphened '-').toNat = false := by decide +kernel
        rw [hc, hignorable.1, hignorable.2, if_neg Bool.false_ne_true, if_neg Bool.false_ne_true,
          caseless_uncased _ (by decide), caseless_uncased _ (by decide)]
      · rw [unhyphened_of_ne hc]

theorem lowerImage_unhyphened (before : List Char) (c : Char) (cs : List Char) :
    lowerImage (before.map unhyphened) (unhyphened c) (cs.map unhyphened) =
      (lowerImage before c cs).map unhyphened := by
  by_cases hc : c = '-'
  · subst hc
    have hhyphen : IsCaseless '-' := by decide
    have hunderscore : IsCaseless (unhyphened '-') := by decide
    rw [lowerImage_caseless hhyphen, lowerImage_caseless hunderscore]
    rfl
  · have hkept : (lowerImage before c cs).map unhyphened = lowerImage before c cs := by
      refine (List.map_congr_left fun d hd => ?_).trans (List.map_id _)
      refine unhyphened_of_ne ?_
      rintro rfl
      exact hc (mem_lowerImage hd (by decide)).symm
    rw [hkept, unhyphened_of_ne hc, lowerImage, nextIsCased_unhyphened, nextIsCased_unhyphened]
    rfl

theorem lowerAux_unhyphened (before cs : List Char) :
    lowerAux (before.map unhyphened) (cs.map unhyphened) = (lowerAux before cs).map unhyphened := by
  induction cs generalizing before with
  | nil => rfl
  | cons c cs ih =>
      rw [List.map_cons, lowerAux_cons, lowerAux_cons, lowerImage_unhyphened, List.map_append,
        ← List.map_cons, ih]

end ProxyFleet
