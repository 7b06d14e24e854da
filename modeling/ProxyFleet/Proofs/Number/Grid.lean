import Mathlib.Tactic.Ring
import ProxyFleet.Number.Decimal

/-!
# The grid of doubles

Rounding depends on the quotient alone and not on how it is written, and a number
that is on the grid already stays where it is. So a decimal stands for the same
double however many zeros end its digits, and its two shortcuts for exponents far
out of range say no more than rounding itself would.

A finite number is held as a count of units, and not every count is one of a
double (`Number.IsDouble`). What is read from a text always is.
-/

namespace ProxyFleet

namespace Number

theorem unitsPerOne_eq : unitsPerOne = 2 ^ 1074 := rfl

theorem unitsPerOne_pos : 0 < unitsPerOne := Nat.pow_pos (by decide)

theorem unitsLimit_eq : unitsLimit = 2 ^ 2098 := rfl

theorem unitsLimit_pos : 0 < unitsLimit := Nat.pow_pos (by decide)

-- powers this large are never evaluated
attribute [local irreducible] unitsPerOne unitsLimit

/-! ## Rounding to a multiple -/

theorem nearest_cases (num den : Nat) :
    nearest num den = num / den ∨ nearest num den = num / den + 1 := by
  unfold nearest
  dsimp only
  split
  · exact .inl rfl
  · split
    · exact .inr rfl
    · split
      · exact .inl rfl
      · exact .inr rfl

theorem nearest_mul {k : Nat} (hk : 0 < k) (num den : Nat) :
    nearest (k * num) (k * den) = nearest num den := by
  have hleft : ∀ r, 2 * (k * r) < k * den ↔ 2 * r < den := by
    intro r
    rw [Nat.mul_left_comm]
    exact Nat.mul_lt_mul_left hk
  have hright : ∀ r, k * den < 2 * (k * r) ↔ den < 2 * r := by
    intro r
    rw [Nat.mul_left_comm]
    exact Nat.mul_lt_mul_left hk
  simp only [nearest, Nat.mul_div_mul_left _ _ hk, Nat.mul_mod_mul_left, hleft, hright]

theorem nearest_exact {den : Nat} (hden : 0 < den) (n : Nat) : nearest (n * den) den = n := by
  simp [nearest, Nat.mul_div_cancel _ hden, hden]

theorem nearest_small {num den : Nat} (h : 2 * num < den) : nearest num den = 0 := by
  have hlt : num < den := by omega
  simp [nearest, Nat.div_eq_of_lt hlt, Nat.mod_eq_of_lt hlt, h]

/-! ## Counts on the grid -/

/-- A count with at most 53 bits that count. -/
def Significant (n : Nat) : Prop := ∃ m k, m < 2 ^ 53 ∧ n = m * 2 ^ k

theorem spacing_eq (n : Nat) : spacing n = 2 ^ (n.log2 - 52) := rfl

theorem spacing_pos (n : Nat) : 0 < spacing n := Nat.two_pow_pos _

theorem div_spacing_lt (n : Nat) : n / spacing n < 2 ^ 53 := by
  rw [Nat.div_lt_iff_lt_mul (spacing_pos n), spacing_eq, ← Nat.pow_add]
  exact Nat.lt_of_lt_of_le Nat.lt_log2_self (Nat.pow_le_pow_right (by decide) (by omega))

theorem Significant.spacing_dvd {n : Nat} (h : Significant n) : spacing n ∣ n := by
  obtain ⟨m, k, hm, rfl⟩ := h
  by_cases hzero : m = 0
  · subst hzero
    rw [Nat.zero_mul]
    exact Nat.dvd_zero _
  · have hne : m * 2 ^ k ≠ 0 := Nat.mul_ne_zero hzero (Nat.two_pow_pos k).ne'
    have hlt : m * 2 ^ k < 2 ^ (53 + k) := by
      rw [Nat.pow_add]
      exact Nat.mul_lt_mul_of_pos_right hm (Nat.two_pow_pos k)
    have hlog : (m * 2 ^ k).log2 < 53 + k := (Nat.log2_lt hne).2 hlt
    exact Nat.dvd_trans (Nat.pow_dvd_pow 2 (by omega)) (Nat.dvd_mul_left _ m)

/-- A count of spacings between two powers of two. The last one is the next power of two. -/
theorem significant_mul_spacing {m n : Nat} (hm : m ≤ 2 ^ 53) : Significant (m * spacing n) := by
  rw [spacing_eq]
  by_cases hlast : m = 2 ^ 53
  · refine ⟨2 ^ 52, n.log2 - 52 + 1, by decide, ?_⟩
    rw [hlast]
    ring
  · exact ⟨m, n.log2 - 52, by omega, rfl⟩

/-! ## Rounding to the grid -/

theorem grid_significant (num den : Nat) : Significant (grid num den) := by
  unfold grid
  refine significant_mul_spacing ?_
  have hlt := div_spacing_lt (num / den)
  rw [Nat.div_div_eq_div_mul] at hlt
  rcases nearest_cases num (den * spacing (num / den)) with h | h <;> omega

theorem grid_mul {k : Nat} (hk : 0 < k) (num den : Nat) :
    grid (k * num) (k * den) = grid num den := by
  unfold grid
  rw [Nat.mul_div_mul_left _ _ hk]
  dsimp only
  rw [Nat.mul_assoc, nearest_mul hk]

theorem grid_of_dvd {n : Nat} (h : spacing n ∣ n) : grid n 1 = n := by
  unfold grid
  dsimp only
  rw [Nat.div_one, Nat.one_mul]
  obtain ⟨m, hm⟩ := h
  have hexact : nearest n (spacing n) = m := by
    conv_lhs => arg 1; rw [hm, Nat.mul_comm]
    exact nearest_exact (spacing_pos n) m
  rw [hexact, Nat.mul_comm, ← hm]

/-- A count on the grid stays where it is. -/
theorem grid_exact {n den : Nat} (h : Significant n) (hden : 0 < den) :
    grid (den * n) den = n := by
  have hscaled := grid_mul hden n 1
  rw [Nat.mul_one] at hscaled
  rw [hscaled, grid_of_dvd h.spacing_dvd]

theorem grid_small {num den : Nat} (h : 2 * num < den) : grid num den = 0 := by
  unfold grid
  have hquotient : num / den = 0 := Nat.div_eq_of_lt (by omega)
  have hspacing : spacing 0 = 1 := by decide
  simp only [hquotient, hspacing, Nat.mul_one]
  exact nearest_small h

/-- Rounding does not fall below a power of two. -/
theorem le_grid {num e : Nat} (h : 2 ^ e ≤ num) : 2 ^ e ≤ grid num 1 := by
  have hne : num ≠ 0 := by
    have := Nat.two_pow_pos e
    omega
  have hlog : e ≤ num.log2 := (Nat.le_log2 hne).2 h
  have hpow : 2 ^ e ≤ 2 ^ num.log2 := Nat.pow_le_pow_right (by decide) hlog
  have hself := Nat.log2_self_le hne
  unfold grid
  simp only [Nat.div_one, Nat.one_mul]
  have hmul : 2 ^ num.log2 ≤ num / spacing num * spacing num := by
    obtain ⟨m, hm⟩ : spacing num ∣ 2 ^ num.log2 := Nat.pow_dvd_pow 2 (by omega)
    have hle : m ≤ num / spacing num := by
      rw [Nat.le_div_iff_mul_le (spacing_pos num), Nat.mul_comm, ← hm]
      exact hself
    rw [hm, Nat.mul_comm]
    exact Nat.mul_le_mul_right _ hle
  have hnearest : num / spacing num * spacing num ≤ nearest num (spacing num) * spacing num := by
    refine Nat.mul_le_mul_right _ ?_
    rcases nearest_cases num (spacing num) with h | h <;> omega
  omega

/-- Whole numbers are rounded to whole numbers. -/
theorem unitsPerOne_dvd_grid {num : Nat} (h : unitsPerOne ∣ num) : unitsPerOne ∣ grid num 1 := by
  -- either the spacing is whole, or the whole number is on the grid already
  by_cases hwide : 1074 ≤ num.log2 - 52
  · have hspacing : unitsPerOne ∣ spacing num := by
      rw [unitsPerOne_eq, spacing_eq]
      exact Nat.pow_dvd_pow 2 hwide
    unfold grid
    simp only [Nat.div_one]
    exact Nat.dvd_trans hspacing (Nat.dvd_mul_left _ _)
  · have hspacing : spacing num ∣ unitsPerOne := by
      rw [unitsPerOne_eq, spacing_eq]
      exact Nat.pow_dvd_pow 2 (by omega)
    rw [grid_of_dvd (Nat.dvd_trans hspacing h)]
    exact h

/-! ## Doubles -/

/-- A number that is not finite, or a double. -/
def IsDouble : Number → Prop
  | .finite u => Significant u.natAbs ∧ u.natAbs < unitsLimit
  | _ => True

theorem isDouble_zero : IsDouble (.finite 0) := ⟨⟨0, 0, by decide, rfl⟩, unitsLimit_pos⟩

theorem isDouble_ofRatio (negative : Bool) (num den : Nat) :
    IsDouble (ofRatio negative num den) := by
  have hgrid := grid_significant num den
  unfold ofRatio
  dsimp only
  split
  · next hlt => cases negative <;> simp [IsDouble, hgrid, hlt]
  · trivial

theorem isDouble_ofInt (n : Int) : IsDouble (ofInt n) := isDouble_ofRatio _ _ _

theorem isDouble_ofDecimal (negative : Bool) (digits : Nat) (e : Int) :
    IsDouble (ofDecimal negative digits e) := by
  unfold ofDecimal
  split
  · exact isDouble_zero
  · split
    · trivial
    · split
      · exact isDouble_zero
      · split
        · exact isDouble_ofRatio _ _ _
        · exact isDouble_ofRatio _ _ _

/-- Rounding leaves a double as it is, and a sign goes with it. -/
theorem ofRatio_exact {n den : Nat} (h : IsDouble (.finite n)) (hden : 0 < den)
    (negative : Bool) : ofRatio negative (den * n) den =
      .finite (if negative then -(n : Int) else n) := by
  obtain ⟨hsignificant, hlt⟩ : Significant n ∧ n < unitsLimit := h
  unfold ofRatio
  dsimp only
  rw [grid_exact hsignificant hden, if_pos hlt]

/-- The whole part of a double is one. -/
theorem IsDouble.trunc {n : Number} (h : IsDouble n) : IsDouble n.trunc := by
  cases n with
  | finite u =>
      obtain ⟨⟨m, k, hm, hu⟩, hlt⟩ := h
      have habs : (u.tdiv unitsPerOne * unitsPerOne).natAbs =
          u.natAbs / unitsPerOne * unitsPerOne := by
        rw [Int.natAbs_mul, Int.natAbs_tdiv, Int.natAbs_natCast]
        rfl
      have hle : u.natAbs / unitsPerOne * unitsPerOne ≤ u.natAbs := Nat.div_mul_le_self _ _
      change Significant _ ∧ _
      rw [habs]
      refine ⟨?_, by omega⟩
      -- a double with a fraction is below `2 ^ 53`, so its whole part has few bits
      by_cases hwhole : unitsPerOne ∣ u.natAbs
      · rw [Nat.div_mul_cancel hwhole]
        exact ⟨m, k, hm, hu⟩
      · refine ⟨u.natAbs / unitsPerOne, 1074, ?_, by rw [unitsPerOne_eq]⟩
        have hk : k < 1074 := by
          refine Decidable.byContradiction fun hk => hwhole ?_
          rw [hu, unitsPerOne_eq]
          exact Nat.dvd_trans (Nat.pow_dvd_pow 2 (by omega)) (Nat.dvd_mul_left _ m)
        have hbound : u.natAbs < 2 ^ 53 * unitsPerOne := by
          rw [hu, unitsPerOne_eq]
          exact Nat.lt_of_lt_of_le (Nat.mul_lt_mul_of_pos_right hm (Nat.two_pow_pos k))
            (Nat.mul_le_mul_left _ (Nat.pow_le_pow_right (by decide) (by omega)))
        exact (Nat.div_lt_iff_lt_mul unitsPerOne_pos).2 hbound
  | _ => exact h

/-! ## Decimals -/

/-- The quotient that a decimal stands for, in units. -/
def decimalParts (digits : Nat) : Int → Nat × Nat
  | .ofNat e => (digits * Nat.pow 10 e * unitsPerOne, 1)
  | .negSucc e => (digits * unitsPerOne, Nat.pow 10 (e + 1))

theorem ofRatio_large (negative : Bool) {num : Nat} (h : 2 ^ 2098 ≤ num) :
    ofRatio negative num 1 = .infinite negative := by
  unfold ofRatio
  rw [unitsLimit_eq]
  exact if_neg (Nat.not_lt.2 (le_grid h))

theorem ofRatio_small (negative : Bool) {num den : Nat} (h : 2 * num < den) :
    ofRatio negative num den = .finite 0 := by
  unfold ofRatio
  rw [grid_small h]
  cases negative <;> simp [unitsLimit_pos]

theorem ten_pow_ge (k : Nat) : 2 ^ (3 * k) ≤ 10 ^ k := by
  rw [Nat.pow_mul]
  exact Nat.pow_le_pow_left (by decide) k

/-- What a decimal stands for is rounded, also where its exponent is far out of range. -/
theorem ofDecimal_eq (negative : Bool) {digits : Nat} (hdigits : digits ≠ 0) (e : Int) :
    ofDecimal negative digits e =
      ofRatio negative (decimalParts digits e).1 (decimalParts digits e).2 := by
  unfold ofDecimal
  rw [if_neg hdigits]
  split
  · -- `10 ^ 400` is above all doubles
    next hlarge =>
      obtain ⟨k, rfl⟩ : ∃ k : Nat, e = .ofNat k := ⟨e.toNat, by simp; omega⟩
      have hk : 400 < k := by simpa using hlarge
      refine (ofRatio_large negative ?_).symm
      have hten : 2 ^ 1024 ≤ 10 ^ k :=
        Nat.le_trans (Nat.pow_le_pow_right (by decide) (by omega)) (ten_pow_ge k)
      have hprod : 2 ^ 1024 * unitsPerOne ≤ digits * 10 ^ k * unitsPerOne :=
        Nat.mul_le_mul_right _ (Nat.le_trans hten (Nat.le_mul_of_pos_left _ (by omega)))
      refine Nat.le_trans (Nat.le_of_eq ?_) hprod
      rw [unitsPerOne_eq, ← Nat.pow_add]
  · split
    · -- the quotient is less than half a unit
      next hlow =>
        obtain ⟨k, rfl⟩ : ∃ k : Nat, e = .negSucc k := ⟨(-e - 1).toNat, by omega⟩
        refine (ofRatio_small negative ?_).symm
        have hlog : digits < 2 ^ (digits.log2 + 1) := Nat.lt_log2_self
        have hnum : digits * unitsPerOne < 2 ^ (digits.log2 + 1) * 2 ^ 1074 := by
          rw [← unitsPerOne_eq]
          exact Nat.mul_lt_mul_of_pos_right hlog unitsPerOne_pos
        have hden : 2 ^ (digits.log2 + 1 + 1074 + 1) ≤ 10 ^ (k + 1) := by
          refine Nat.le_trans (Nat.pow_le_pow_right (by decide) ?_) (ten_pow_ge (k + 1))
          omega
        rw [Nat.pow_succ, Nat.pow_add] at hden
        change 2 * (digits * unitsPerOne) < 10 ^ (k + 1)
        omega
    · cases e <;> rfl

/-- A zero at the end of the digits is the same as one more in the exponent. -/
theorem ofDecimal_mul_ten (negative : Bool) (digits : Nat) (e : Int) :
    ofDecimal negative (digits * 10) e = ofDecimal negative digits (e + 1) := by
  by_cases hdigits : digits = 0
  · subst hdigits
    rw [Nat.zero_mul]
    unfold ofDecimal
    rw [if_pos rfl, if_pos rfl]
  · rw [ofDecimal_eq negative (by omega), ofDecimal_eq negative hdigits]
    obtain k | k := e
    · have hexp : Int.ofNat k + 1 = Int.ofNat (k + 1) := rfl
      have hparts :
          decimalParts (digits * 10) (.ofNat k) = decimalParts digits (.ofNat (k + 1)) := by
        simp only [decimalParts, Nat.pow_eq, Nat.pow_succ]
        ring_nf
      rw [hexp, hparts]
    · have hscale : ∀ num den, ofRatio negative (10 * num) (10 * den) =
          ofRatio negative num den := by
        intro num den
        unfold ofRatio
        rw [grid_mul (by decide)]
      cases k with
      | zero =>
          have hparts := hscale (digits * unitsPerOne) 1
          simp only [decimalParts]
          rw [show Int.negSucc 0 + 1 = Int.ofNat 0 from rfl]
          simp only [Nat.pow_eq, Nat.pow_zero, Nat.mul_one]
          rw [← hparts]
          congr 1
          ring
      | succ k =>
          have hparts := hscale (digits * unitsPerOne) (10 ^ (k + 1))
          rw [show Int.negSucc (k + 1) + 1 = Int.negSucc k from rfl]
          simp only [decimalParts, Nat.pow_eq]
          rw [← hparts]
          congr 1
          · ring
          · ring

/-! ## Whole numbers -/

theorem isWhole_finite {u : Int} : (finite u).isWhole = true ↔ (unitsPerOne : Int) ∣ u := by
  change (if u % unitsPerOne = 0 then some (u / unitsPerOne) else none).isSome = true ↔ _
  rw [Int.dvd_iff_emod_eq_zero]
  split <;> simp [*]

theorem isWhole_isFinite {n : Number} (h : n.isWhole = true) : n.isFinite = true := by
  cases n with
  | finite u => rfl
  | _ => cases h

theorem trunc_eq_self {n : Number} (h : n.isWhole = true) : n.trunc = n := by
  cases n with
  | finite u => exact congrArg finite (Int.tdiv_mul_cancel (isWhole_finite.1 h))
  | _ => rfl

theorem isWhole_trunc {n : Number} (h : n.isFinite = true) : n.trunc.isWhole = true := by
  cases n with
  | finite u => exact isWhole_finite.2 (Int.dvd_mul_left _ _)
  | _ => cases h

theorem isWhole_zero : (finite 0).isWhole = true := isWhole_finite.2 (Int.dvd_zero _)

/-- Digits without a point stand for a whole number, if it is not too large. -/
theorem isWhole_ofDecimal (negative : Bool) (digits : Nat)
    (h : (ofDecimal negative digits 0).isFinite = true) :
    (ofDecimal negative digits 0).isWhole = true := by
  by_cases hdigits : digits = 0
  · subst hdigits
    unfold ofDecimal
    rw [if_pos rfl]
    exact isWhole_zero
  · have hdvd : unitsPerOne ∣ grid (digits * Nat.pow 10 0 * unitsPerOne) 1 :=
      unitsPerOne_dvd_grid (Nat.dvd_mul_left _ _)
    have hparts : decimalParts digits 0 = (digits * Nat.pow 10 0 * unitsPerOne, 1) := rfl
    rw [ofDecimal_eq negative hdigits, hparts] at h ⊢
    unfold ofRatio at h ⊢
    dsimp only at h ⊢
    split at h
    · next hlt =>
        rw [if_pos hlt, isWhole_finite]
        split
        · exact Int.dvd_neg.2 (Int.natCast_dvd_natCast.2 hdvd)
        · exact Int.natCast_dvd_natCast.2 hdvd
    · cases h

end Number

end ProxyFleet
