import ProxyFleet.Proofs.Number.RoundTrip

/-!
# Whole numbers below `10 ^ 21` are written with their digits

The text of a whole number has a point or an exponent in it only if the number is too
large. Up to `2 ^ 53` that is so by definition. Beyond, the fewest digits that read
back are looked for from the first digit on, and all digits before the point do read
back, so the search never gets behind the point. From `10 ^ 21` on the number is
written with an exponent, and whoever reads only the digits in front
(`ofLeadingDigits?`) finds another number (`ofLeadingDigits?_chars_iff`).
-/

namespace ProxyFleet

open Decimal

namespace Number

-- powers this large are never evaluated
attribute [local irreducible] unitsPerOne unitsLimit

/-! ## Rounding does not pass a number on the grid -/

theorem Significant.le_grid {m num : Nat} (hm : Significant m) (h : m ≤ num) :
    m ≤ grid num 1 := by
  by_cases hzero : m = 0
  · omega
  have hlog : m.log2 ≤ num.log2 := (Nat.le_log2 (by omega)).2 ((Nat.log2_self_le hzero).trans h)
  rcases Nat.lt_or_eq_of_le hlog with hlt | heq
  · -- there is a power of two in between
    have hpower : m < 2 ^ num.log2 := Nat.lt_of_lt_of_le Nat.lt_log2_self
      (Nat.pow_le_pow_right (by decide) hlt)
    have := Number.le_grid (Nat.log2_self_le (by omega : num ≠ 0))
    omega
  · have hdvd : spacing num ∣ m := by
      rw [spacing_eq, ← heq, ← spacing_eq]
      exact hm.spacing_dvd
    obtain ⟨k, rfl⟩ := hdvd
    have hsteps : k ≤ num / spacing num := by
      rw [Nat.le_div_iff_mul_le (spacing_pos num), Nat.mul_comm]
      exact h
    unfold grid
    simp only [Nat.div_one, Nat.one_mul]
    rw [Nat.mul_comm]
    refine Nat.mul_le_mul_right _ ?_
    rcases nearest_cases num (spacing num) with hcase | hcase <;> omega

theorem Significant.grid_le {m num : Nat} (hm : Significant m) (h : num ≤ m) :
    grid num 1 ≤ m := by
  by_cases hzero : num = 0
  · subst hzero
    rw [grid_small (by decide)]
    exact Nat.zero_le m
  have hdvd : spacing num ∣ m := by
    have hlog : num.log2 ≤ m.log2 := (Nat.le_log2 (by omega)).2 ((Nat.log2_self_le hzero).trans h)
    refine Nat.dvd_trans ?_ hm.spacing_dvd
    rw [spacing_eq, spacing_eq]
    exact Nat.pow_dvd_pow 2 (by omega)
  obtain ⟨k, rfl⟩ := hdvd
  have hpos := spacing_pos num
  have hsteps : num / spacing num ≤ k := by
    have := Nat.div_le_div_right (c := spacing num) h
    rwa [Nat.mul_div_cancel_left _ hpos] at this
  unfold grid
  simp only [Nat.div_one, Nat.one_mul]
  rw [Nat.mul_comm]
  refine Nat.mul_le_mul_left _ ?_
  rcases Nat.lt_or_eq_of_le hsteps with hlt | heq
  · rcases nearest_cases num (spacing num) with hcase | hcase <;> omega
  · -- then the number is on the grid itself
    have hself := Nat.div_mul_le_self num (spacing num)
    rw [heq, Nat.mul_comm] at hself
    have hnum : num = k * spacing num := by
      rw [Nat.mul_comm]
      omega
    have hexact : nearest num (spacing num) = k := by
      conv_lhs => arg 1; rw [hnum]
      exact nearest_exact hpos k
    omega

/-- The first whole number that is written with an exponent. -/
def positionalLimit : Nat := 10 ^ 21

theorem significant_positionalLimit : Significant (positionalLimit * unitsPerOne) := by
  have hpowers : ∀ e, positionalLimit * 2 ^ e = 5 ^ 21 * 2 ^ (21 + e) := fun e => by
    rw [Nat.pow_add, ← Nat.mul_assoc]
    rfl
  exact ⟨5 ^ 21, 21 + 1074, by decide, by rw [unitsPerOne_eq, hpowers]⟩

/-- What digits stand for is rounded, but not past a number that is a double itself. -/
theorem ofDecimal_units (negative : Bool) (m : Nat) : ofDecimal negative m 0 =
    ofRatio negative (m * unitsPerOne) 1 := by
  by_cases hm : m = 0
  · subst hm
    rw [ofDecimal_zero, Nat.zero_mul, ofRatio_small negative (by decide)]
  · rw [ofDecimal_eq negative hm]
    change ofRatio negative (m * 1 * unitsPerOne) 1 = _
    rw [Nat.mul_one]

theorem ofRatio_grid {negative : Bool} {num : Nat} {u : Int}
    (h : ofRatio negative num 1 = .finite u) : u.natAbs = grid num 1 := by
  unfold ofRatio at h
  dsimp only at h
  split at h
  · have := Number.finite.inj h
    cases negative <;> simp_all <;> omega
  · cases h

/-! ## Digits in front -/

/-- Digits that are not more than 21 stand for a number up to `10 ^ 21`. -/
theorem ofDigits_lt {ds : List Char} (hds : ∀ c ∈ ds, c.isDigit = true) :
    ofDigits ds < 10 ^ ds.length := by
  induction ds using List.reverseRecOn with
  | nil => decide
  | append_singleton ds c ih =>
      have hdigit := (digitChar_sub (hds c (by simp))).1
      have hrest := ih fun d hd => hds d (List.mem_append_left _ hd)
      have hsum : ofDigits (ds ++ [c]) = ofDigits ds * 10 + (c.toNat - '0'.toNat) := by
        rw [ofDigits, List.foldl_append]
        rfl
      rw [hsum, List.length_append, List.length_singleton, Nat.pow_succ]
      omega

/-- The fewest digits are looked for up to the point. -/
theorem withDigits?_exponent {units : Nat} {place : Int} {count : Nat} {d : Decimal}
    (h : withDigits? units place count = some d) : d.exponent = place - count := by
  unfold withDigits? at h
  dsimp only at h
  split at h <;> cases h <;> rfl

/-- All digits before the point read back. -/
theorem withDigits?_whole {units p count : Nat} (hunits : IsDouble (.finite units))
    (hp : units = p * unitsPerOne) : (withDigits? units count count).isSome = true := by
  have hlow : stepsBelow units 0 = p := by
    change units / (1 * unitsPerOne) = p
    rw [Nat.one_mul, hp, Nat.mul_div_cancel _ unitsPerOne_pos]
  have hreads : (Decimal.mk p 0).toNumber = Number.finite units := by
    have hexact := ofRatio_exact hunits Nat.one_pos false
    rw [Nat.one_mul, hp] at hexact
    rw [toNumber, ofDecimal_units, hexact, ← hp]
    rfl
  unfold withDigits?
  dsimp only
  rw [Int.sub_self, hlow, hreads, decide_eq_true rfl]
  split <;> simp_all

theorem le_log2_of_exactLimit {units e : Nat} (h : exactLimit * 2 ^ e ≤ units) :
    53 + e ≤ units.log2 := by
  have hpower : 2 ^ (53 + e) ≤ units := (Nat.pow_add 2 53 e).symm ▸ h
  have := Nat.two_pow_pos (53 + e)
  exact (Nat.le_log2 (by omega)).2 hpower

theorem magnitude_ge {units : Nat} (h : exactLimit * unitsPerOne ≤ units) :
    14 ≤ magnitude units := by
  have hlog := le_log2_of_exactLimit (unitsPerOne_eq ▸ h)
  unfold magnitude
  dsimp only
  generalize hguess : ((units.log2 : Int) - 1074) * 30103 / 100000 - 1 = guess
  have hlow : 14 ≤ guess := by omega
  cases hfound : [guess, guess + 1, guess + 2].find? (belowPowerOfTen units) with
  | none => simp only [Option.getD_none]; omega
  | some n =>
      have hmem := List.mem_of_find?_eq_some hfound
      simp only [List.mem_cons, List.not_mem_nil, or_false] at hmem
      simp only [Option.getD_some]
      omega

theorem stripZeros_exponent (fuel : Nat) (d : Decimal) :
    d.exponent ≤ (stripZeros fuel d).exponent := by
  induction fuel generalizing d with
  | zero => exact Int.le_refl _
  | succ fuel ih =>
      unfold stripZeros
      split
      · exact Int.le_trans (by simp) (ih ⟨d.digits / 10, d.exponent + 1⟩)
      · exact Int.le_refl _

/-- Zeros at the end are dropped as long as there are any. -/
theorem stripZeros_zeros {fuel k n : Nat} (hfuel : k ≤ fuel) (hn : n ≠ 0) (e : Int) :
    e + k ≤ (stripZeros fuel ⟨n * 10 ^ k, e⟩).exponent := by
  induction fuel generalizing k e with
  | zero =>
      obtain rfl : k = 0 := by omega
      simp [stripZeros]
  | succ fuel ih =>
      cases k with
      | zero => simpa using stripZeros_exponent (fuel + 1) ⟨n, e⟩
      | succ k =>
          have hsplit : n * 10 ^ (k + 1) = 10 * (n * 10 ^ k) := by
            rw [Nat.pow_succ]
            ac_rfl
          have hpos : n * 10 ^ k ≠ 0 := Nat.mul_ne_zero hn (Nat.pow_pos (by decide)).ne'
          unfold stripZeros
          rw [if_pos ⟨by simp [hsplit], by simp only [hsplit]; omega⟩]
          have hrest := ih (k := k) (by omega) (e + 1)
          simp only [hsplit, Nat.mul_div_cancel_left _ (by decide : 0 < 10)]
          omega

theorem stripZeros_units {fuel e units p : Nat} (h : units = p * 2 ^ e) (hp : p ≠ 0)
    (hfuel : e ≤ fuel) : 0 ≤ (stripZeros fuel ⟨units * Nat.pow 5 e, -e⟩).exponent := by
  have hdigits : units * Nat.pow 5 e = p * 10 ^ e := by
    rw [h, Nat.mul_assoc]
    exact congrArg (p * ·) (Nat.mul_pow 2 5 e).symm
  have hzeros := stripZeros_zeros hfuel hp (-e)
  rw [hdigits]
  omega

/-- The fewest digits of a whole number need no fraction. -/
theorem shortest_exponent {units p : Nat} (hunits : IsDouble (.finite units))
    (hp : units = p * unitsPerOne) (hlarge : exactLimit ≤ p) :
    0 ≤ (stripZeros 1200 (shortest units)).exponent := by
  have hmagnitude := magnitude_ge (hp ▸ Nat.mul_le_mul_right unitsPerOne hlarge)
  unfold shortest
  split
  · next d hd =>
      refine Int.le_trans ?_ (stripZeros_exponent 1200 d)
      obtain ⟨before, i, after, hrange, hi, hbefore⟩ := List.findSome?_eq_some_iff.1 hd
      rw [withDigits?_exponent hi]
      by_contra hneg
      -- as many digits as there are before the point would have been found first
      obtain ⟨m, hm⟩ := Int.eq_ofNat_of_zero_le (by omega : 0 ≤ magnitude units - 1)
      have hplace : magnitude units = ((m + 1 : Nat) : Int) := by omega
      have hsorted := hrange ▸ List.pairwise_lt_range (n := 17)
      have hlast : i < 17 := List.mem_range.1 (hrange ▸ by simp)
      have hmem : m ∈ before ++ i :: after := hrange ▸ List.mem_range.2 (by omega)
      rcases List.mem_append.1 hmem with hmem | hmem
      · have hnone := hbefore m hmem
        have hsome : (withDigits? units ((m + 1 : Nat) : Int) (m + 1)).isSome = true :=
          withDigits?_whole hunits hp
        rw [← hplace, hnone] at hsome
        cases hsome
      · have hafter := (List.pairwise_cons.1 (List.pairwise_append.1 hsorted).2.1).1
        rcases List.mem_cons.1 hmem with rfl | hmem
        · omega
        · have := hafter m hmem
          omega
  · have hpos : p ≠ 0 := by
      rintro rfl
      exact absurd hlarge (by decide)
    have hstripped := stripZeros_units (hp.trans (congrArg (p * ·) unitsPerOne_eq)) hpos
      (by decide : 1074 ≤ 1200)
    exact hstripped

/-! ## Texts -/

/-- The digits of a number are not more than its size asks for. -/
theorem ten_pow_le_digits {n : Nat} (hn : n ≠ 0) : 10 ^ ((digitsOf n).length - 1) ≤ n := by
  have hlength : 0 < (digitsOf n).length := List.length_pos_iff.2 (areDigits_digitsOf n).1
  by_cases hone : (digitsOf n).length - 1 = 0
  · rw [hone]
    exact Nat.one_le_iff_ne_zero.2 hn
  · refine Nat.not_lt.1 fun hlt => ?_
    have := (Nat.length_toDigits_le_iff (by decide) (Nat.pos_of_ne_zero hone)).2 hlt
    unfold digitsOf at hlength this
    omega

/-- Digits with zeros behind them that stand for less than `10 ^ 21` are not more than 21. -/
theorem length_digitsOf_le {digits e : Nat} (hdigits : digits ≠ 0)
    (hlimit : digits * 10 ^ e < positionalLimit) : (digitsOf digits).length + e ≤ 21 := by
  have hlow := Nat.mul_le_mul_right (10 ^ e) (ten_pow_le_digits hdigits)
  by_contra hmany
  have hpow : 10 ^ 21 ≤ 10 ^ ((digitsOf digits).length - 1) * 10 ^ e := by
    rw [← Nat.pow_add]
    exact Nat.pow_le_pow_right (by decide) (by omega)
  unfold positionalLimit at hlimit
  omega

/-- Digits that are read as a whole number below `10 ^ 21` stand for no more than that: the limit
is not passed by rounding. -/
theorem lt_positionalLimit {m units p : Nat} (hvalue : ofDecimal false m 0 = .finite units)
    (hp : units = p * unitsPerOne) (hsmall : p < positionalLimit) : m < positionalLimit := by
  rw [ofDecimal_units] at hvalue
  have hgrid := ofRatio_grid hvalue
  refine Nat.not_le.1 fun hle => ?_
  have hgrown := significant_positionalLimit.le_grid (Nat.mul_le_mul_right unitsPerOne hle)
  rw [← hgrid, Int.natAbs_natCast, hp] at hgrown
  exact Nat.not_lt.2 (Nat.le_of_mul_le_mul_right hgrown unitsPerOne_pos) hsmall

/-- A whole number below `10 ^ 21` is written with nothing but digits. -/
theorem areDigits_unsignedText {units p : Nat} (hunits : IsDouble (.finite units))
    (hp : units = p * unitsPerOne) (hsmall : p < positionalLimit) :
    AreDigits (unsignedText units) := by
  have hdiv : units / unitsPerOne = p := by rw [hp, Nat.mul_div_cancel _ unitsPerOne_pos]
  unfold unsignedText
  split
  · exact areDigits_digitsOf _
  · next hnot =>
      have hlarge : exactLimit ≤ p := by
        refine Nat.not_lt.1 fun hlt => hnot ⟨by rw [hp, Nat.mul_mod_left], hdiv.symm ▸ hlt⟩
      have hne : units ≠ 0 := by
        rintro rfl
        rw [Nat.zero_div] at hdiv
        rw [← hdiv] at hlarge
        exact absurd hlarge (by decide)
      have hexponent := shortest_exponent hunits hp hlarge
      have hdigits := stripZeros_ne_zero 1200 (shortest_ne_zero hne)
      have hread := shortest_read hne hunits
      rw [toNumber, ← ofDecimal_stripZeros] at hread
      unfold layout
      generalize stripZeros 1200 (shortest units) = d at hexponent hdigits hread
      obtain ⟨digits, exponent⟩ := d
      obtain ⟨e, rfl⟩ := Int.eq_ofNat_of_zero_le hexponent
      have hvalue : ofDecimal false (digits * 10 ^ e) 0 = .finite units := by
        rw [ofDecimal_zeros, Int.zero_add]
        exact hread
      have hcount : (digitsOf digits).length + e ≤ 21 :=
        length_digitsOf_le hdigits (lt_positionalLimit hvalue hp hsmall)
      dsimp only
      rw [if_pos (by omega)]
      refine (areDigits_digitsOf digits).append fun c hc => ?_
      rw [(List.mem_replicate.1 hc).2]
      rfl

/-- The digits in front of any number's text are not more than 21. -/
theorem spanDigits_layout (d : Decimal) : (spanDigits (layout d)).1.length ≤ 21 := by
  unfold layout
  generalize stripZeros 1200 d = d
  dsimp only
  have hds := areDigits_digitsOf d.digits
  generalize digitsOf d.digits = ds at hds ⊢
  split
  · next hn =>
      have hzeros : ∀ c ∈ ds ++ List.replicate (d.exponent + ds.length - ds.length).toNat '0',
          c.isDigit = true := (hds.append fun c hc => by
        rw [(List.mem_replicate.1 hc).2]
        rfl).2
      rw [spanDigits_self hzeros, List.length_append, List.length_replicate]
      omega
  · split
    · next hn =>
        rw [spanDigits_append (fun c hc => hds.2 c (List.mem_of_mem_take hc)) (by simp),
          List.length_take]
        omega
    · split
      · exact (by decide : ['0'].length ≤ 21)
      · obtain ⟨c, cs, rfl⟩ := List.exists_cons_of_ne_nil hds.1
        have hc := hds.2 c List.mem_cons_self
        cases cs with
        | nil => simp [spanDigits, hc]
        | cons c' cs => simp [spanDigits, hc]

/-- The digits in front of the text of a number, with its sign. -/
theorem ofLeadingDigits?_chars (u : Int) : ofLeadingDigits? (chars (.finite u)) =
    some (ofDecimal (u < 0) (ofDigits (spanDigits (unsignedText u.natAbs)).1) 0) := by
  obtain ⟨c, cs, hcs, hc⟩ := (unsignedText_numeral u.natAbs).head
  have hsome : ∃ ds, (spanDigits (unsignedText u.natAbs)).1 = c :: ds :=
    ⟨cs.takeWhile Char.isDigit, by rw [hcs, spanDigits, List.takeWhile_cons_of_pos hc]⟩
  obtain ⟨ds, hds⟩ := hsome
  have hsign : ∀ negative, signPart (if negative then '-' :: unsignedText u.natAbs else
      unsignedText u.natAbs) = (negative, unsignedText u.natAbs) := by
    intro negative
    cases negative with
    | true => rfl
    | false =>
        rw [if_neg Bool.false_ne_true, hcs]
        unfold signPart
        split
        · next heq =>
            rw [(List.cons.inj heq).1] at hc
            cases hc
        · next heq =>
            rw [(List.cons.inj heq).1] at hc
            cases hc
        · rfl
  have htext : chars (.finite u) = if decide (u < 0) then '-' :: unsignedText u.natAbs else
      unsignedText u.natAbs := by
    unfold chars
    simp
  unfold ofLeadingDigits?
  rw [htext, hsign]
  dsimp only
  cases hspan : spanDigits (unsignedText u.natAbs) with
  | mk digits rest =>
      rw [hspan] at hds
      dsimp only at hds
      rw [hds]

theorem ofUnsigned?_digits {negative : Bool} {ds : List Char} {n : Number} (hds : AreDigits ds)
    (h : ofUnsigned? negative ds = some n) : ofDecimal negative (ofDigits ds) 0 = n := by
  unfold ofUnsigned? at h
  rw [spanDigits_self hds.2] at h
  split at h
  · cases h
  · cases h
  · next whole rest _ _ heq =>
      cases heq
      simpa [fractionPart?, exponentPart] using h

theorem leading_le (units : Nat) :
    ofDigits (spanDigits (unsignedText units)).1 ≤ positionalLimit := by
  unfold unsignedText
  split
  · next hwhole =>
      rw [spanDigits_self (areDigits_digitsOf _).2, ofDigits_digitsOf]
      exact (Nat.lt_trans hwhole.2 (by decide)).le
  · have hdigits : ∀ c ∈ (spanDigits (layout (shortest units))).1, c.isDigit = true :=
      fun c hc => List.all_eq_true.1 List.all_takeWhile c hc
    exact (Nat.lt_of_lt_of_le (ofDigits_lt hdigits)
      (Nat.pow_le_pow_right (by decide) (spanDigits_layout _))).le

/-- The digits in front of a number's text stand for a finite number. -/
theorem isFinite_leading {n m : Number} (hfinite : n.isFinite = true)
    (h : ofLeadingDigits? n.chars = some m) : m.isFinite = true := by
  cases n with
  | finite u =>
      rw [ofLeadingDigits?_chars, ofDecimal_units] at h
      have hgrid := significant_positionalLimit.grid_le
        (Nat.mul_le_mul_right unitsPerOne (leading_le u.natAbs))
      have hlimit : ∀ e, positionalLimit * 2 ^ e < 2 ^ (70 + e) := fun e => by
        rw [Nat.pow_add]
        exact Nat.mul_lt_mul_of_pos_right (by decide) (Nat.two_pow_pos e)
      have hsmall : positionalLimit * unitsPerOne < unitsLimit := by
        rw [unitsPerOne_eq, unitsLimit_eq]
        exact Nat.lt_of_lt_of_le (hlimit _) (Nat.pow_le_pow_right (by decide) (by decide))
      cases h
      unfold ofRatio
      dsimp only
      rw [if_pos (Nat.lt_of_le_of_lt hgrid hsmall)]
      rfl
  | _ => cases hfinite

/-- From `10 ^ 21` on the digits in front of the text do not make up the number. -/
theorem natAbs_lt_of_leading {u : Int} {p : Nat} (hp : u.natAbs = p * unitsPerOne)
    (h : ofDecimal (u < 0) (ofDigits (spanDigits (unsignedText u.natAbs)).1) 0 = .finite u) :
    p < positionalLimit := by
  rw [ofDecimal_units] at h
  have hgrid := ofRatio_grid h
  have hle := significant_positionalLimit.grid_le
    (Nat.mul_le_mul_right unitsPerOne (leading_le u.natAbs))
  rw [← hgrid, hp] at hle
  refine Nat.lt_of_le_of_ne (Nat.le_of_mul_le_mul_right hle unitsPerOne_pos) fun heq => ?_
  -- `10 ^ 21` itself is written as `1e+21`
  have hone : (spanDigits (unsignedText (positionalLimit * unitsPerOne))).1 = ['1'] := by
    decide +kernel
  have hsignificant : Significant (1 * unitsPerOne) :=
    ⟨1, 1074, by decide, by rw [unitsPerOne_eq]⟩
  rw [hp, heq, hone] at hgrid
  have hsmall := hsignificant.grid_le (Nat.le_refl _)
  have hlarge := Nat.mul_le_mul_right unitsPerOne (by decide : 2 ≤ positionalLimit)
  have hpos := unitsPerOne_pos
  change positionalLimit * unitsPerOne = grid (1 * unitsPerOne) 1 at hgrid
  omega

/-- The digits in front of the text of a whole number are the number if it is below `10 ^ 21`. -/
theorem ofLeadingDigits?_chars_iff {n : Number} (hdouble : n.IsDouble) {p : Int}
    (hp : n.toInt? = some p) :
    ofLeadingDigits? n.chars = some n ↔ p.natAbs < positionalLimit := by
  cases n with
  | finite u =>
      obtain ⟨hwhole, hquotient⟩ := Option.ite_none_right_eq_some.1 hp
      have hunits : u.natAbs = p.natAbs * unitsPerOne := by
        have hmul := Int.ediv_mul_cancel (Int.dvd_of_emod_eq_zero hwhole)
        rw [Option.some.inj hquotient] at hmul
        rw [← hmul, Int.natAbs_mul, Int.natAbs_natCast]
      rw [ofLeadingDigits?_chars]
      refine ⟨fun h => natAbs_lt_of_leading hunits (Option.some.inj h), fun hsmall => ?_⟩
      have habs : IsDouble (.finite u.natAbs) := hdouble
      have hdigits := areDigits_unsignedText habs hunits hsmall
      rw [spanDigits_self hdigits.2, ofUnsigned?_digits hdigits (unsignedText_read habs _)]
      congr 2
      by_cases hneg : u < 0
      · rw [if_pos (decide_eq_true hneg)]
        omega
      · rw [if_neg (by simpa using hneg)]
        omega
  | _ => cases hp

end Number

end ProxyFleet
