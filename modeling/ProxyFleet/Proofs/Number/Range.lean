import ProxyFleet.Proofs.Number.Whole

/-!
# Where digits leave the range of doubles

Digits stand for the double nearest to them, and that is an infinity for all that are
not nearer to the largest finite double. The bound is not a double itself: it lies half
a step above the largest one, and at the bound the tie goes to the even neighbour,
which is already out of range.
-/

namespace ProxyFleet

namespace Number

-- powers this large are never evaluated
attribute [local irreducible] unitsPerOne unitsLimit

/-! ## The last step below a power of two -/

theorem spacing_of_log2 {num e : Nat} (hlow : 2 ^ (e + 53) ≤ num) (hhigh : num < 2 ^ (e + 54)) :
    spacing num = 2 * 2 ^ e := by
  have hne : num ≠ 0 := by
    have := Nat.two_pow_pos (e + 53)
    omega
  have hlog : num.log2 = e + 53 := (Nat.log2_eq_iff hne).2 ⟨hlow, hhigh⟩
  rw [spacing_eq, hlog, show e + 53 - 52 = e + 1 by omega, Nat.pow_succ, Nat.mul_comm]

theorem nearest_lt_iff {num half : Nat} (hhalf : 0 < half) (hhigh : num < 2 ^ 54 * half) :
    nearest num (2 * half) * (2 * half) < 2 ^ 54 * half ↔ num + half < 2 ^ 54 * half := by
  have hsplit := Nat.div_add_mod num (2 * half)
  have hrest := Nat.mod_lt num (by omega : 0 < 2 * half)
  have hquotient : num / (2 * half) < 2 ^ 53 := by
    rw [Nat.div_lt_iff_lt_mul (by omega)]
    omega
  unfold nearest
  dsimp only
  generalize num / (2 * half) = q at hsplit hquotient ⊢
  generalize num % (2 * half) = r at hsplit hrest ⊢
  by_cases hlast : q = 2 ^ 53 - 1
  · -- the last step: rounding up, and a tie, lead to the power of two
    subst hlast
    split
    · omega
    · split
      · omega
      · rw [if_neg (by decide)]
        omega
  · have hsteps : 2 * half * (q + 1) ≤ 2 * half * (2 ^ 53 - 1) :=
      Nat.mul_le_mul_left _ (by omega)
    have hup : 2 * half * (q + 1) = 2 * half * q + 2 * half := Nat.mul_succ _ _
    have hcomm : q * (2 * half) = 2 * half * q := Nat.mul_comm _ _
    have hcomm' : (q + 1) * (2 * half) = 2 * half * (q + 1) := Nat.mul_comm _ _
    refine iff_of_true ?_ (by omega)
    split
    · omega
    · split
      · omega
      · split <;> omega

/-- Rounding reaches a power of two from half a step below on. -/
theorem grid_lt_two_pow_iff (num e : Nat) :
    grid num 1 < 2 ^ (e + 54) ↔ num + 2 ^ e < 2 ^ (e + 54) := by
  have hhalf := Nat.two_pow_pos e
  have hlimit : 2 ^ (e + 54) = 2 ^ 54 * 2 ^ e := by rw [Nat.pow_add, Nat.mul_comm]
  have hlast : 2 ^ (e + 53) = 2 ^ 53 * 2 ^ e := by rw [Nat.pow_add, Nat.mul_comm]
  by_cases hlow : num < 2 ^ (e + 53)
  · have hpower : Significant (2 ^ (e + 53)) := ⟨1, e + 53, by decide, (Nat.one_mul _).symm⟩
    have hgrid := hpower.grid_le hlow.le
    exact iff_of_true (by omega) (by omega)
  · by_cases hhigh : num < 2 ^ (e + 54)
    · rw [grid, Nat.div_one, Nat.one_mul, spacing_of_log2 (Nat.not_lt.1 hlow) hhigh, hlimit]
      exact nearest_lt_iff hhalf (hlimit ▸ hhigh)
    · have hgrid := le_grid (Nat.not_lt.1 hhigh)
      exact iff_of_false (by omega) (by omega)

/-! ## The bound -/

/-- The least whole number that is out of range as a double. -/
def rangeLimit : Nat := 2 ^ 1024 - 2 ^ 970

theorem two_pow_gap (a b : Nat) : (2 ^ (a + 54) - 2 ^ a) * 2 ^ b + 2 ^ (a + b) = 2 ^ (a + b + 54) := by
  have hle : 2 ^ a ≤ 2 ^ (a + 54) := Nat.pow_le_pow_right Nat.two_pos (Nat.le_add_right a 54)
  rw [Nat.pow_add 2 a b, ← Nat.add_mul, Nat.sub_add_cancel hle, ← Nat.pow_add,
    Nat.add_right_comm]

theorem rangeLimit_mul : rangeLimit * unitsPerOne + 2 ^ 2044 = unitsLimit := by
  have hgap := two_pow_gap 970 1074
  simp only [Nat.reduceAdd] at hgap
  rw [rangeLimit, unitsPerOne_eq, unitsLimit_eq, hgap]

theorem isFinite_ofRatio {negative : Bool} {num den : Nat} :
    (ofRatio negative num den).isFinite = true ↔ grid num den < unitsLimit := by
  unfold ofRatio
  dsimp only
  split
  · next h => exact iff_of_true rfl h
  · next h => exact iff_of_false nofun h

/-- Digits stand for a finite number if they are below the bound. -/
theorem isFinite_ofDecimal {negative : Bool} {m : Nat} :
    (ofDecimal negative m 0).isFinite = true ↔ m < rangeLimit := by
  have hgrid := grid_lt_two_pow_iff (m * unitsPerOne) 2044
  rw [show 2044 + 54 = 2098 from rfl, ← unitsLimit_eq, ← rangeLimit_mul, Nat.add_lt_add_iff_right,
    Nat.mul_lt_mul_right unitsPerOne_pos, rangeLimit_mul] at hgrid
  rw [ofDecimal_units, isFinite_ofRatio, hgrid]

end Number

end ProxyFleet
