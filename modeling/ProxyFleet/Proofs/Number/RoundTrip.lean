import Mathlib.Data.List.Induction
import ProxyFleet.Proofs.Number.Grid
import ProxyFleet.Proofs.Number.Lexeme
import ProxyFleet.Proofs.Value.Spelling

/-!
# A double is read back from its text

The digits of a number are only taken if they read back as it, and the exact
expansion that stands in for them does too. What is left is that the layout
changes neither the digits nor where the point stands: zeros go from the digits to
the exponent and back, and `Number.ofDecimal` does not see the difference.
-/

namespace ProxyFleet

namespace Decimal

/-! ## Digits -/

theorem ofDigits_eq (ds : List Char) : ofDigits ds = Nat.ofDigitChars 10 ds 0 := by
  rw [Nat.ofDigitChars_eq_foldl, ofDigits]
  simp only [Nat.mul_comm]

theorem ofDigits_digitsOf (n : Nat) : ofDigits (digitsOf n) = n := by
  rw [ofDigits_eq]
  exact Nat.ofDigitChars_ten_toDigits

theorem digitChar_sub {c : Char} (h : c.isDigit = true) :
    c.toNat - '0'.toNat < 10 ∧ (c.toNat - '0'.toNat).digitChar = c := by
  simp only [Char.isDigit, Bool.and_eq_true, decide_eq_true_eq, ge_iff_le, UInt32.le_iff_toNat_le]
    at h
  have hlow : 48 ≤ c.toNat := h.1
  have hhigh : c.toNat ≤ 57 := h.2
  obtain ⟨k, hk⟩ : ∃ k, c.toNat = 48 + k := ⟨c.toNat - 48, by omega⟩
  have hchar : ∀ k < 10, k.digitChar = Char.ofNat (48 + k) := by decide
  have hzero : '0'.toNat = 48 := rfl
  rw [hzero, hk, Nat.add_sub_cancel_left]
  refine ⟨by omega, ?_⟩
  rw [hchar k (by omega), ← hk, Char.ofNat_toNat]

/-- Digits that do not begin with a zero are those of the number they stand for. -/
theorem digitsOf_ofDigits {ds : List Char} (hds : AreDigits ds) (hhead : ds.head? ≠ some '0') :
    ofDigits ds ≠ 0 ∧ digitsOf (ofDigits ds) = ds := by
  induction ds using List.reverseRecOn with
  | nil => exact absurd rfl hds.1
  | append_singleton ds c ih =>
      obtain ⟨hsmall, hchar⟩ := digitChar_sub (hds.2 c (by simp))
      have hsum : ofDigits (ds ++ [c]) = ofDigits ds * 10 + (c.toNat - '0'.toNat) := by
        rw [ofDigits, List.foldl_append]
        rfl
      rw [hsum]
      generalize c.toNat - '0'.toNat = d at hsmall hchar
      cases ds with
      | nil =>
          have hd : d ≠ 0 := by
            rintro rfl
            exact hhead (by rw [← hchar]; rfl)
          have hnone : ofDigits [] = 0 := rfl
          rw [hnone, Nat.zero_mul, Nat.zero_add, digitsOf, Nat.toDigits_of_lt_base hsmall, hchar]
          exact ⟨hd, rfl⟩
      | cons c' ds =>
          obtain ⟨hne, hdigits⟩ := ih
            ⟨List.cons_ne_nil _ _, fun x hx => hds.2 x (List.mem_append_left _ hx)⟩ hhead
          generalize ofDigits (c' :: ds) = n at hne hdigits
          refine ⟨by omega, ?_⟩
          rw [digitsOf, Nat.toDigits_of_base_le (by decide) (by omega),
            show (n * 10 + d) / 10 = n by omega, show (n * 10 + d) % 10 = d by omega, hchar]
          exact congrArg (· ++ [c]) hdigits

theorem ofDigits_append_zeros (ds : List Char) (k : Nat) :
    ofDigits (ds ++ List.replicate k '0') = ofDigits ds * 10 ^ k := by
  rw [ofDigits_eq, ofDigits_eq, Nat.ofDigitChars_append, Nat.ofDigitChars_replicate_zero,
    Nat.mul_comm]

theorem ofDigits_zeros_append (k : Nat) (ds : List Char) :
    ofDigits (List.replicate k '0' ++ ds) = ofDigits ds := by
  rw [ofDigits_eq, ofDigits_eq, Nat.ofDigitChars_append, Nat.ofDigitChars_replicate_zero,
    Nat.mul_zero]

/-! ## The parts of a numeral -/

theorem spanDigits_self {ds : List Char} (hds : ∀ c ∈ ds, c.isDigit = true) :
    spanDigits ds = (ds, []) := by
  have happend : spanDigits (ds ++ []) = (ds, []) := spanDigits_append hds nofun
  rwa [List.append_nil] at happend

theorem fractionPart?_digits {ds rest : List Char} (hds : AreDigits ds)
    (hrest : ∀ c ∈ rest.head?, c.isDigit = false) :
    fractionPart? ('.' :: (ds ++ rest)) = some (ds, rest) := by
  obtain ⟨d, ds, rfl⟩ := List.exists_cons_of_ne_nil hds.1
  rw [fractionPart?, spanDigits_append hds.2 hrest]

/-- An exponent is written with its sign, and is read with it. -/
theorem exponentPart_written (e : Int) :
    exponentPart ('e' :: (if e < 0 then '-' else '+') :: digitsOf e.natAbs) = (e, []) := by
  have hsigned : (if e < 0 then -(e.natAbs : Int) else e.natAbs) = e := by
    split <;> omega
  generalize e.natAbs = n at hsigned
  have hds := areDigits_digitsOf n
  have hspan := spanDigits_self hds.2
  have hvalue := ofDigits_digitsOf n
  obtain ⟨d, ds, hcons⟩ := List.exists_cons_of_ne_nil hds.1
  rw [hcons] at hspan hvalue ⊢
  by_cases hnegative : e < 0
  · rw [if_pos hnegative] at hsigned ⊢
    simp [exponentPart, hspan, hvalue, hsigned]
  · rw [if_neg hnegative] at hsigned ⊢
    simp [exponentPart, hspan, hvalue, hsigned]

end Decimal

open Decimal

namespace Number

/-- A whole part and what follows it are read together. -/
theorem ofUnsigned?_eq {whole rest rest' ds : List Char} {e : Int} (negative : Bool)
    (hwhole : IsWhole whole) (hhead : ∀ c ∈ rest.head?, c.isDigit = false)
    (hfraction : fractionPart? rest = some (ds, rest')) (hexponent : exponentPart rest' = (e, [])) :
    ofUnsigned? negative (whole ++ rest) =
      some (ofDecimal negative (ofDigits (whole ++ ds)) (e - ds.length)) := by
  unfold ofUnsigned?
  rw [spanDigits_append hwhole.areDigits.2 hhead]
  rcases hwhole with rfl | ⟨-, d, digits, rfl, hd⟩
  · simp only [hfraction, hexponent]
  · split
    · next hnil => cases hnil
    · next hzero => exact absurd (List.cons.inj (Prod.mk.inj hzero).1).1 hd
    · next hfound =>
        obtain ⟨rfl, rfl⟩ := Prod.mk.inj hfound
        simp only [hfraction, hexponent]

theorem ofUnsigned?_whole {whole : List Char} (negative : Bool) (h : IsWhole whole) :
    ofUnsigned? negative whole = some (ofDecimal negative (ofDigits whole) 0) := by
  have hparts : ofUnsigned? negative (whole ++ []) =
      some (ofDecimal negative (ofDigits (whole ++ [])) (0 - ([] : List Char).length)) :=
    ofUnsigned?_eq negative h nofun rfl rfl
  simpa using hparts

/-! ## Layouts -/

theorem ofDecimal_zeros (negative : Bool) (digits k : Nat) (e : Int) :
    ofDecimal negative (digits * 10 ^ k) e = ofDecimal negative digits (e + k) := by
  induction k generalizing e with
  | zero => simp
  | succ k ih =>
      rw [Nat.pow_succ, ← Nat.mul_assoc, ofDecimal_mul_ten, ih]
      congr 1
      omega

theorem ofDecimal_stripZeros (negative : Bool) (fuel : Nat) (d : Decimal) :
    ofDecimal negative (stripZeros fuel d).digits (stripZeros fuel d).exponent =
      ofDecimal negative d.digits d.exponent := by
  induction fuel generalizing d with
  | zero => rfl
  | succ fuel ih =>
      unfold stripZeros
      split
      · next hzero =>
          rw [ih]
          dsimp only
          rw [← ofDecimal_mul_ten, Nat.div_mul_cancel (Nat.dvd_of_mod_eq_zero hzero.1)]
      · rfl

section Written

variable (negative : Bool) {c : Char} {cs : List Char}

/-- A point among digits says how many of them are behind it. -/
theorem ofUnsigned?_point {whole ds : List Char} (hwhole : IsWhole whole) (hds : AreDigits ds) :
    ofUnsigned? negative (whole ++ '.' :: ds) =
      some (ofDecimal negative (ofDigits (whole ++ ds)) (-ds.length)) := by
  have hfraction : fractionPart? ('.' :: (ds ++ [])) = some (ds, []) :=
    fractionPart?_digits hds nofun
  rw [List.append_nil] at hfraction
  rw [ofUnsigned?_eq negative hwhole (by simp) hfraction rfl, Int.zero_sub]

/-- Zeros behind digits stand in for an exponent. -/
theorem ofUnsigned?_trailing (hds : AreDigits (c :: cs)) (hc : c ≠ '0') (k : Nat) :
    ofUnsigned? negative (c :: cs ++ List.replicate k '0') =
      some (ofDecimal negative (ofDigits (c :: cs)) k) := by
  have hzeros : AreDigits (c :: cs ++ List.replicate k '0') := hds.append fun x hx => by
    rw [(List.mem_replicate.1 hx).2]
    rfl
  rw [ofUnsigned?_whole negative (.inr ⟨hzeros, c, _, rfl, hc⟩), ofDigits_append_zeros,
    ofDecimal_zeros, Int.zero_add]

/-- The point stands after one of the digits that is not the last. -/
theorem ofUnsigned?_inside (hds : AreDigits (c :: cs)) (hc : c ≠ '0') {k : Nat}
    (hk : k < cs.length) :
    ofUnsigned? negative ((c :: cs).take (k + 1) ++ '.' :: (c :: cs).drop (k + 1)) =
      some (ofDecimal negative (ofDigits (c :: cs)) (k - cs.length)) := by
  have hfirst : IsWhole ((c :: cs).take (k + 1)) :=
    .inr ⟨⟨List.cons_ne_nil _ _, fun x hx => hds.2 x (List.mem_of_mem_take hx)⟩, c, cs.take k, rfl,
      hc⟩
  have hlast : AreDigits ((c :: cs).drop (k + 1)) := by
    refine ⟨?_, fun x hx => hds.2 x (List.mem_of_mem_drop hx)⟩
    rw [Ne, List.drop_eq_nil_iff, List.length_cons]
    omega
  rw [ofUnsigned?_point negative hfirst hlast, List.take_append_drop, List.length_drop,
    List.length_cons]
  congr 2
  omega

/-- The first digit stands behind the point. -/
theorem ofUnsigned?_leading {ds : List Char} (hds : AreDigits ds) (k : Nat) :
    ofUnsigned? negative ('0' :: '.' :: (List.replicate k '0' ++ ds)) =
      some (ofDecimal negative (ofDigits ds) (-(k + ds.length : Nat))) := by
  have hall : AreDigits (List.replicate k '0' ++ ds) := by
    refine ⟨List.append_ne_nil_of_right_ne_nil _ hds.1, fun x hx => ?_⟩
    rcases List.mem_append.1 hx with hx | hx
    · rw [(List.mem_replicate.1 hx).2]
      rfl
    · exact hds.2 x hx
  have hdigits : ofDigits (['0'] ++ (List.replicate k '0' ++ ds)) = ofDigits ds := by
    rw [← List.append_assoc]
    exact ofDigits_zeros_append (k + 1) ds
  refine (ofUnsigned?_point negative (.inl rfl) hall).trans ?_
  rw [hdigits, List.length_append, List.length_replicate]

/-- One digit stands before the point, and an exponent follows. -/
theorem ofUnsigned?_scientific (hds : AreDigits (c :: cs)) (hc : c ≠ '0') (e : Int) :
    ofUnsigned? negative (c :: ((if cs = [] then [] else '.' :: cs) ++
        'e' :: (if e < 0 then '-' else '+') :: digitsOf e.natAbs)) =
      some (ofDecimal negative (ofDigits (c :: cs)) (e - cs.length)) := by
  have hexponent := exponentPart_written e
  have hfirst : IsWhole [c] := by
    refine .inr ⟨⟨List.cons_ne_nil _ _, fun x hx => ?_⟩, c, [], rfl, hc⟩
    exact hds.2 x (List.mem_singleton.1 hx ▸ List.mem_cons_self)
  cases cs with
  | nil => exact ofUnsigned?_eq negative hfirst (by simp) rfl hexponent
  | cons c' cs =>
      have hrest : AreDigits (c' :: cs) :=
        ⟨List.cons_ne_nil _ _, fun x hx => hds.2 x (List.mem_cons_of_mem c hx)⟩
      exact ofUnsigned?_eq negative hfirst (by simp) (fractionPart?_digits hrest (by simp))
        hexponent

/-- However a decimal is laid out, it is read as what it was. -/
theorem layout_read {d : Decimal} (h : d.digits ≠ 0) :
    ofUnsigned? negative (layout d) = some (ofDecimal negative d.digits d.exponent) := by
  rw [← ofDecimal_stripZeros negative 1200 d]
  have hstripped := stripZeros_ne_zero 1200 h
  unfold layout
  generalize stripZeros 1200 d = d at hstripped
  dsimp only
  have hds := areDigits_digitsOf d.digits
  have hvalue := ofDigits_digitsOf d.digits
  obtain ⟨c, cs, hhead, hc⟩ := head_digitsOf hstripped
  rw [hhead] at hds hvalue ⊢
  split
  · next hlong =>
      rw [ofUnsigned?_trailing negative hds hc, hvalue]
      congr 2
      omega
  · next hlong =>
      split
      · next hplace =>
          obtain ⟨k, hk⟩ : ∃ k, (d.exponent + (c :: cs).length).toNat = k + 1 :=
            ⟨(d.exponent + (c :: cs).length).toNat - 1, by omega⟩
          have hlength : (c :: cs).length = cs.length + 1 := List.length_cons
          rw [hk, ofUnsigned?_inside negative hds hc (by omega), hvalue]
          congr 2
          omega
      · split
        · next hplace =>
            rw [ofUnsigned?_leading negative hds, hvalue]
            congr 2
            omega
        · have hread := ofUnsigned?_scientific negative hds hc
            (d.exponent + (c :: cs).length - 1)
          have hexponent : d.exponent + (c :: cs).length - 1 - cs.length = d.exponent := by
            rw [List.length_cons]
            omega
          rw [hexponent, hvalue] at hread
          cases cs <;> exact hread

end Written

/-! ## The digits of a number -/

theorem withDigits?_read {units : Nat} {place : Int} {count : Nat} {d : Decimal}
    (h : withDigits? units place count = some d) : d.toNumber = .finite units := by
  unfold withDigits? at h
  dsimp only at h
  split at h
  · next hlow hhigh =>
      have hlow := of_decide_eq_true hlow
      have hhigh := of_decide_eq_true hhigh
      cases h
      split
      · exact hlow
      · split
        · exact hhigh
        · split
          · exact hlow
          · exact hhigh
  · next hlow _ =>
      cases h
      exact of_decide_eq_true hlow
  · next _ hhigh =>
      cases h
      exact of_decide_eq_true hhigh
  · cases h

theorem shortest_read {units : Nat} (hunits : units ≠ 0) (h : IsDouble (.finite units)) :
    (shortest units).toNumber = .finite units := by
  unfold shortest
  split
  · next d hd =>
      obtain ⟨i, -, hi⟩ := List.exists_of_findSome?_eq_some hd
      exact withDigits?_read hi
  · -- the exact expansion is a quotient of the number itself
    have hten : Nat.pow 5 1074 * unitsPerOne = Nat.pow 10 1074 := by
      rw [unitsPerOne_eq, Nat.pow_eq, Nat.pow_eq, ← Nat.mul_pow]
    have hdigits : units * Nat.pow 5 1074 ≠ 0 :=
      Nat.mul_ne_zero hunits (Nat.pow_pos (by decide)).ne'
    have hparts : decimalParts (units * Nat.pow 5 1074) (-1074) =
        (Nat.pow 10 1074 * units, Nat.pow 10 1074) := by
      change (units * Nat.pow 5 1074 * unitsPerOne, Nat.pow 10 1074) = _
      rw [Nat.mul_assoc, hten, Nat.mul_comm]
    rw [toNumber, ofDecimal_eq false hdigits, hparts]
    exact ofRatio_exact h (Nat.pow_pos (by decide)) false

/-- A sign goes with a decimal. -/
theorem ofDecimal_signed {d : Decimal} {units : Nat} (hunits : units ≠ 0)
    (h : d.toNumber = .finite units) (negative : Bool) :
    ofDecimal negative d.digits d.exponent =
      .finite (if negative then -(units : Int) else units) := by
  have hdigits : d.digits ≠ 0 := by
    intro hzero
    rw [toNumber, hzero, ofDecimal_zero] at h
    have := Number.finite.inj h
    omega
  rw [toNumber, ofDecimal_eq false hdigits] at h
  rw [ofDecimal_eq negative hdigits]
  unfold ofRatio at h ⊢
  dsimp only at h ⊢
  split at h
  · next hlt =>
      have hgrid : (grid (decimalParts d.digits d.exponent).1
          (decimalParts d.digits d.exponent).2 : Int) = units := Number.finite.inj h
      rw [if_pos hlt, hgrid]
  · cases h

theorem unsignedText_read {units : Nat} (h : IsDouble (.finite units)) (negative : Bool) :
    ofUnsigned? negative (unsignedText units) =
      some (.finite (if negative then -(units : Int) else units)) := by
  unfold unsignedText
  split
  · next hwhole =>
      rw [ofUnsigned?_whole negative (isWhole_digitsOf _), ofDigits_digitsOf]
      by_cases hunits : units = 0
      · subst hunits
        rw [Nat.zero_div, ofDecimal_zero]
        simp
      · have hdvd := Nat.div_mul_cancel (Nat.dvd_of_mod_eq_zero hwhole.1)
        have hdigits : units / unitsPerOne ≠ 0 := by
          intro hzero
          rw [hzero, Nat.zero_mul] at hdvd
          exact hunits hdvd.symm
        have hparts : decimalParts (units / unitsPerOne) 0 = (1 * units, 1) := by
          change (units / unitsPerOne * 1 * unitsPerOne, 1) = _
          rw [Nat.mul_one, hdvd, Nat.one_mul]
        rw [ofDecimal_eq negative hdigits, hparts]
        exact congrArg some (ofRatio_exact h Nat.one_pos negative)
  · next hnot =>
      have hunits : units ≠ 0 := by
        rintro rfl
        exact hnot ⟨Nat.zero_mod _, by rw [Nat.zero_div]; decide⟩
      rw [layout_read negative (shortest_ne_zero hunits),
        ofDecimal_signed hunits (shortest_read hunits h)]

/-- A finite double is read back as itself. -/
theorem ofLexeme?_text {n : Number} (h : IsDouble n) (hfinite : n.isFinite = true) :
    ofLexeme? n.chars = some n := by
  cases n with
  | finite u =>
      have hdouble : ∀ m : Nat, m = u.natAbs → IsDouble (.finite m) := by
        rintro m rfl
        exact h
      unfold chars
      dsimp only
      split
      · next hnegative =>
          rw [ofLexeme?, unsignedText_read (hdouble _ rfl)]
          congr 2
          simp only [if_true]
          omega
      · next hpositive =>
          have hread := unsignedText_read (hdouble _ rfl) false
          obtain ⟨c, cs, hcs, hc⟩ := (unsignedText_numeral u.natAbs).head
          rw [hcs] at hread ⊢
          have hminus : c ≠ '-' := by
            rintro rfl
            cases hc
          rw [ofLexeme?]
          · rw [hread]
            congr 2
            simp only [Bool.false_eq_true, if_false]
            omega
          · exact fun _ heq => hminus (List.cons.inj heq).1
  | _ => cases hfinite

/-- What is read as a number is a double. -/
theorem isDouble_ofLexeme? {cs : List Char} {n : Number} (h : ofLexeme? cs = some n) :
    IsDouble n := by
  have hunsigned : ∀ negative ds, ofUnsigned? negative ds = some n → IsDouble n := by
    intro negative ds hread
    unfold ofUnsigned? at hread
    split at hread
    · cases hread
    · cases hread
    · split at hread
      · cases hread
      · split at hread
        · cases hread
          exact isDouble_ofDecimal _ _ _
        · cases hread
  unfold ofLexeme? at h
  split at h
  · exact hunsigned _ _ h
  · exact hunsigned _ _ h

/-- A written double is read back as itself. -/
theorem reread_eq {n : Number} (h : IsDouble n) (hfinite : n.isFinite = true) :
    n.reread = .num n := by
  rw [reread, if_pos hfinite, ofLexeme?_text h hfinite]
  rfl

end Number

end ProxyFleet
