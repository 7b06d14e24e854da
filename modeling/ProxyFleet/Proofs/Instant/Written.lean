import Mathlib.Data.Rat.Cast.Order
import Mathlib.Tactic.Linarith
import Mathlib.Tactic.NormNum
import Mathlib.Tactic.Positivity
import Mathlib.Tactic.Ring
import ProxyFleet.Proofs.Instant.Order

/-!
# Times that others write

A time that comes from outside may be written with any number of digits behind the
second, and in any zone. Compared as a text with the text of an instant, it counts as
another time than the one it denotes: its zone is not looked at but for the mark it
begins with, digits behind the third only if all before them agree, and where digits
are missing, `Z` comes after each digit that could stand there. `WrittenTime.cut` is the
instant it counts as. Only a time written as the text of an instant is (`IsStamp`) counts
as what it denotes.
-/

namespace ProxyFleet

open Decimal

/-! ## Digits -/

theorem ofDigits_append (ds es : List Char) :
    ofDigits (ds ++ es) = 10 ^ es.length * ofDigits ds + ofDigits es := by
  rw [ofDigits_eq, ofDigits_eq, ofDigits_eq, Nat.ofDigitChars_append,
    Nat.ofDigitChars_eq_ofDigitChars_zero]

theorem eq_iff_ofDigits_eq {ds es : List Char} (hds : ∀ c ∈ ds, c.isDigit = true)
    (hes : ∀ c ∈ es, c.isDigit = true) (hlength : ds.length = es.length) :
    ds = es ↔ ofDigits ds = ofDigits es := by
  refine ⟨fun h => h ▸ rfl, fun h => ?_⟩
  rcases lt_trichotomy ds es with hlt | heq | hgt
  · have hvalues := (lt_iff_ofDigits_lt hds hes hlength).1 hlt
    omega
  · exact heq
  · have hvalues := (lt_iff_ofDigits_lt hes hds hlength.symm).1 hgt
    omega

namespace Instant

/-! ## What is written -/

/-- How a time says which clock it is read from. -/
inductive Zone where
  | utc
  | offset (ahead : Bool) (hours minutes : Nat)
  deriving DecidableEq, Repr

namespace Zone

def text : Zone → String
  | .utc => "Z"
  | .offset ahead hours minutes =>
    (if ahead then "+" else "-") ++ padded 2 hours ++ ":" ++ padded 2 minutes

/-- The minutes by which the clock is ahead of UTC. -/
def minutes : Zone → Int
  | .utc => 0
  | .offset true hours minutes => 60 * hours + minutes
  | .offset false hours minutes => -(60 * hours + minutes)

end Zone

/-- A date and a time of day, with a fraction of a second and a zone, as ISO 8601 has them. -/
structure WrittenTime where
  /-- The second on the clock, as if it were one of UTC. -/
  second : Int
  inFourDigits : InFourDigits (yearOfSecond second)
  /-- The digits behind the second, without a point if there are none. -/
  fraction : List Char
  areDigits : ∀ c ∈ fraction, c.isDigit = true
  zone : Zone

namespace WrittenTime

def text (w : WrittenTime) : String :=
  secondText w.second
    ++ (if w.fraction.isEmpty then "" else "." ++ String.ofList w.fraction) ++ w.zone.text

/-- The milliseconds from the start of 1970 to the instant that is denoted. -/
def denoted (w : WrittenTime) : ℚ :=
  w.second * 1000 + ofDigits w.fraction * 1000 / 10 ^ w.fraction.length - w.zone.minutes * 60000

/-- Whether a time is written as the text of an instant is. -/
def IsStamp (w : WrittenTime) : Prop := w.zone = .utc ∧ w.fraction.length = 3

/-- The digits that are compared with those of an instant. -/
def leading (w : WrittenTime) : List Char := w.fraction.take 3

/-- The milliseconds behind the second that a fraction and a zone count for. -/
def cutFraction (w : WrittenTime) : Nat :=
  (ofDigits w.leading + if w.zone = .utc ∧ w.leading.length < 3 then 1 else 0)
    * 10 ^ (3 - w.leading.length)

/-- The first instant whose text does not come before that of a time. -/
def cut (w : WrittenTime) : Instant := ⟨w.second * 1000 + w.cutFraction⟩

theorem IsStamp.cut_eq {w : WrittenTime} (h : w.IsStamp) :
    (w.cut.milliseconds : ℚ) = w.denoted := by
  obtain ⟨hzone, hlength⟩ := h
  have hleading : w.leading = w.fraction := List.take_of_length_le (by omega)
  rw [cut, cutFraction, denoted, hleading, hlength, hzone]
  norm_num [Zone.minutes]

end WrittenTime

/-! ## Marks -/

/-- What stands between the signs and `Z` comes before the zone just if that is UTC. -/
theorem lt_zone_iff {c : Char} {rest : List Char} {z : Zone} (hlow : '-'.toNat < c.toNat)
    (hhigh : c.toNat < 'Z'.toNat) : c :: rest < z.text.toList ↔ z = .utc := by
  cases z with
  | utc => exact iff_of_true (List.cons_lt_cons_iff.2 (Or.inl hhigh)) rfl
  | offset ahead hours minutes =>
      refine iff_of_false (lt_asymm ?_) (by simp)
      cases ahead <;> simp only [Zone.text, String.toList_append, List.append_assoc] <;>
        refine List.cons_lt_cons_iff.2 (Or.inl ?_)
      · exact hlow
      · exact lt_trans (show '+'.toNat < '-'.toNat by decide) hlow

theorem not_Z_lt_zone (z : Zone) : ¬ ['Z'] < z.text.toList := by
  cases z with
  | utc => exact lt_irrefl _
  | offset ahead hours minutes =>
      refine lt_asymm ?_
      cases ahead <;> simp only [Zone.text, String.toList_append, List.append_assoc] <;>
        exact List.cons_lt_cons_iff.2 (Or.inl (by decide))

theorem digit_between {c : Char} (h : c.isDigit = true) :
    '-'.toNat < c.toNat ∧ c.toNat < 'Z'.toNat := by
  have hbounds := digit_bounds h
  have hlow : '-'.toNat < '0'.toNat := by decide
  have hhigh : '9'.toNat < 'Z'.toNat := by decide
  omega

theorem mul_add_lt_iff {a b n p : Nat} (h : b < p) : p * a + b < n * p ↔ a < n := by
  rw [← Nat.div_lt_iff_lt_mul (by omega), Nat.mul_add_div (by omega), Nat.div_eq_of_lt h,
    Nat.add_zero]

/-! ## The fraction -/

section Fraction

variable {ps ds : List Char} {z : Zone} (hps : ∀ c ∈ ps, c.isDigit = true)
  (hthree : ps.length = 3) (hds : ∀ c ∈ ds, c.isDigit = true)

include hps hthree hds

/-- Where digits are missing, `Z` counts as one more than the last digit, and a sign as none. -/
theorem fraction_lt_iff_of_short (hshort : ds.length < 3) :
    ps ++ ['Z'] < ds ++ z.text.toList ↔
      ofDigits ps < (ofDigits ds + if z = .utc then 1 else 0) * 10 ^ (3 - ds.length) := by
  obtain ⟨qs, rs, rfl, hqs⟩ : ∃ qs rs, ps = qs ++ rs ∧ qs.length = ds.length :=
    ⟨ps.take ds.length, ps.drop ds.length, (List.take_append_drop ..).symm,
      by rw [List.length_take]; omega⟩
  rw [List.length_append] at hthree
  have hqsDigits := fun c hc => hps c (List.mem_append_left _ hc)
  have hrsDigits := fun c hc => hps c (List.mem_append_right _ hc)
  have hmark : rs ++ ['Z'] < z.text.toList ↔ z = .utc := by
    cases rs with
    | nil => rw [List.length_nil] at hthree; omega
    | cons c rs =>
        obtain ⟨hlow, hhigh⟩ := digit_between (hrsDigits c List.mem_cons_self)
        exact lt_zone_iff hlow hhigh
  have hrest := Number.ofDigits_lt hrsDigits
  have hmissing : 3 - ds.length = rs.length := by omega
  rw [List.append_assoc, append_lt_append_iff hqs, hmark, ofDigits_append, hmissing,
    mul_add_lt_iff hrest, lt_iff_ofDigits_lt hqsDigits hds hqs,
    eq_iff_ofDigits_eq hqsDigits hds hqs]
  split <;> simp only [*, and_true, and_false, or_false] <;> omega

/-- What stands behind the third digit does not count. -/
theorem fraction_lt_iff_of_long (hlong : 3 ≤ ds.length) :
    ps ++ ['Z'] < ds ++ z.text.toList ↔ ofDigits ps < ofDigits (ds.take 3) := by
  obtain ⟨qs, rs, rfl, hqs⟩ : ∃ qs rs, ds = qs ++ rs ∧ qs.length = 3 :=
    ⟨ds.take 3, ds.drop 3, (List.take_append_drop ..).symm, by rw [List.length_take]; omega⟩
  have hqsDigits := fun c hc => hds c (List.mem_append_left _ hc)
  have hmark : ¬ ['Z'] < rs ++ z.text.toList := by
    cases rs with
    | nil => exact not_Z_lt_zone z
    | cons c rs =>
        have hc := (digit_between (hds c (by simp))).2
        exact lt_asymm (List.cons_lt_cons_iff.2 (Or.inl hc))
  have htake : (qs ++ rs).take 3 = qs := by rw [← hqs, List.take_left]
  rw [htake, List.append_assoc, append_lt_append_iff (by omega),
    lt_iff_ofDigits_lt hps hqsDigits (by omega)]
  simp only [hmark, and_false, or_false]

theorem fraction_eq_iff :
    ps ++ ['Z'] = ds ++ z.text.toList ↔
      (z = .utc ∧ ds.length = 3) ∧ ofDigits ps = ofDigits ds := by
  cases z with
  | utc =>
      have hZ : Zone.utc.text.toList = ['Z'] := rfl
      rw [hZ, List.append_cancel_right_eq]
      constructor
      · rintro rfl
        exact ⟨⟨rfl, hthree⟩, rfl⟩
      · rintro ⟨⟨-, hlength⟩, hvalue⟩
        exact (eq_iff_ofDigits_eq hps hds (by omega)).2 hvalue
  | offset ahead hours minutes =>
      refine iff_of_false (fun h => ?_) (by simp)
      have hZ : 'Z' ∈ ds ++ (Zone.offset ahead hours minutes).text.toList := h ▸ by simp
      have hdigit : ∀ {n : Int}, 'Z' ∉ (padded 2 n).toList := fun hmem =>
        absurd (isDigit_padded _ hmem) (by decide)
      rcases List.mem_append.1 hZ with hmem | hmem
      · exact absurd (hds _ hmem) (by decide)
      · cases ahead <;> simp [Zone.text, hdigit] at hmem

end Fraction

/-! ## Instants against written times -/

namespace WrittenTime

variable {t : Instant} {w : WrittenTime}

theorem text_toList (w : WrittenTime) : w.text.toList = (secondText w.second).toList ++
    ((if w.fraction.isEmpty then [] else '.' :: w.fraction) ++ w.zone.text.toList) := by
  rw [text, String.toList_append, String.toList_append, List.append_assoc]
  split <;> simp

theorem isDigit_leading (w : WrittenTime) : ∀ c ∈ w.leading, c.isDigit = true :=
  fun c hc => w.areDigits c (List.mem_of_mem_take hc)

theorem cutFraction_le (w : WrittenTime) : w.cutFraction ≤ 1000 := by
  have hlength : w.leading.length ≤ 3 := List.length_take_le ..
  have hvalue := Number.ofDigits_lt w.isDigit_leading
  calc w.cutFraction ≤ 10 ^ w.leading.length * 10 ^ (3 - w.leading.length) :=
        Nat.mul_le_mul_right _ (by split <;> omega)
    _ = 1000 := by rw [← Nat.pow_add, Nat.add_sub_cancel' hlength]

/-- The fraction of an instant against what is written behind the second. -/
theorem fraction_lt_rest_iff (t : Instant) (w : WrittenTime) :
    '.' :: ((padded 3 (t.milliseconds % 1000)).toList ++ ['Z'])
      < (if w.fraction.isEmpty then [] else '.' :: w.fraction) ++ w.zone.text.toList ↔
      t.milliseconds % 1000 < w.cutFraction := by
  have hvalue := ofDigits_padded 3 (t.milliseconds % 1000)
  have hlength := length_padded (by decide) (fits_fraction t)
  unfold cutFraction leading
  cases hcase : w.fraction with
  | nil =>
      rw [List.isEmpty_nil, if_pos rfl, List.nil_append, lt_zone_iff (by decide) (by decide)]
      simp only [List.take_nil, List.length_nil, Nat.reduceLT, and_true,
        show ofDigits [] = 0 from rfl]
      split <;> simp only [*, true_iff, false_iff] <;> omega
  | cons d ds =>
      have hdigits := hcase ▸ w.areDigits
      rw [List.isEmpty_cons, if_neg Bool.false_ne_true, List.cons_append, List.cons_lt_cons_self]
      rcases Nat.lt_or_ge (d :: ds).length 3 with hshort | hlong
      · rw [fraction_lt_iff_of_short isDigit_padded hlength hdigits hshort, hvalue,
          List.take_of_length_le (by omega)]
        simp only [hshort, and_true]
        omega
      · have htake : ((d :: ds).take 3).length = 3 := by rw [List.length_take]; omega
        rw [fraction_lt_iff_of_long isDigit_padded hlength hdigits hlong, hvalue, htake]
        simp only [Nat.lt_irrefl, and_false, if_false, Nat.sub_self, Nat.pow_zero, Nat.mul_one,
          Nat.add_zero]
        omega

theorem fraction_eq_rest_iff (t : Instant) (w : WrittenTime) :
    '.' :: ((padded 3 (t.milliseconds % 1000)).toList ++ ['Z'])
      = (if w.fraction.isEmpty then [] else '.' :: w.fraction) ++ w.zone.text.toList ↔
      w.IsStamp ∧ t.milliseconds % 1000 = w.cutFraction := by
  have hvalue := ofDigits_padded 3 (t.milliseconds % 1000)
  have hlength := length_padded (by decide) (fits_fraction t)
  unfold IsStamp cutFraction leading
  cases hcase : w.fraction with
  | nil =>
      refine iff_of_false ?_ (by simp)
      rw [List.isEmpty_nil, if_pos rfl, List.nil_append]
      cases w.zone with
      | utc => exact fun h => absurd (List.cons.inj h).1 (by decide)
      | offset ahead hours minutes =>
          cases ahead <;> simp only [Zone.text, String.toList_append, List.append_assoc] <;>
            exact fun h => absurd (List.cons.inj h).1 (by decide)
  | cons d ds =>
      have hdigits := hcase ▸ w.areDigits
      rw [List.isEmpty_cons, if_neg Bool.false_ne_true, List.cons_append, List.cons_inj_right,
        fraction_eq_iff isDigit_padded hlength hdigits, hvalue]
      refine and_congr_right fun hstamp => ?_
      obtain ⟨-, hthree⟩ := hstamp
      rw [List.take_of_length_le (by omega), hthree]
      simp only [Nat.lt_irrefl, and_false, if_false, Nat.sub_self, Nat.pow_zero, Nat.mul_one,
        Nat.add_zero]
      omega

theorem text_lt_iff (ht : InFourDigits t.year) :
    t.text.toList < w.text.toList ↔ t.milliseconds < w.cut.milliseconds := by
  have hbound := w.cutFraction_le
  rw [Instant.text_toList, text_toList, secondText_append_lt_iff ht w.inFourDigits,
    fraction_lt_rest_iff]
  dsimp only [cut, Instant.second]
  omega

theorem IsStamp.cutFraction_lt (h : w.IsStamp) : w.cutFraction < 1000 := by
  obtain ⟨-, hlength⟩ := h
  have hvalue := Number.ofDigits_lt w.areDigits
  rw [hlength] at hvalue
  rw [cutFraction, leading, List.take_of_length_le (by omega), hlength]
  simp only [Nat.lt_irrefl, and_false, if_false]
  omega

theorem text_eq_iff (ht : InFourDigits t.year) :
    t.text.toList = w.text.toList ↔ w.IsStamp ∧ t.milliseconds = w.cut.milliseconds := by
  have hlength : (secondText t.second).toList.length = (secondText w.second).toList.length := by
    rw [length_secondText ht, length_secondText w.inFourDigits]
  have hparts : t.text.toList = w.text.toList ↔
      t.second = w.second ∧ w.IsStamp ∧ t.milliseconds % 1000 = w.cutFraction := by
    rw [Instant.text_toList, text_toList, ← secondText_eq_iff ht w.inFourDigits,
      ← fraction_eq_rest_iff]
    exact ⟨fun h => List.append_inj h hlength, fun ⟨hseconds, hrest⟩ => by rw [hseconds, hrest]⟩
  rw [hparts, and_left_comm]
  refine and_congr_right fun hstamp => ?_
  have hbound := hstamp.cutFraction_lt
  dsimp only [cut, Instant.second]
  omega

/-! ## Bounds -/

/-- As an earliest time, a written time counts as its cut. -/
theorem textLe_text_iff (ht : InFourDigits t.year) :
    textLe w.text t.text = true ↔ w.cut.milliseconds ≤ t.milliseconds := by
  rw [textLe_iff, text_lt_iff ht, Int.not_lt]

/-- As a latest time, a written time leaves its cut out unless it is a stamp. -/
theorem text_textLe_iff (ht : InFourDigits t.year) :
    textLe t.text w.text = true ↔ t.milliseconds < w.cut.milliseconds ∨
      w.IsStamp ∧ t.milliseconds = w.cut.milliseconds := by
  rw [textLe_iff, ← text_lt_iff ht, ← text_eq_iff ht, not_lt, le_iff_lt_or_eq]

/-- Whether a written time is compared with the texts of instants as what it denotes. -/
def CountsAsDenoted (w : WrittenTime) : Prop :=
  ∀ t : Instant, InFourDigits t.year →
    (textLe w.text t.text = true ↔ w.denoted ≤ t.milliseconds) ∧
    (textLe t.text w.text = true ↔ (t.milliseconds : ℚ) ≤ w.denoted)

theorem IsStamp.countsAsDenoted (h : w.IsStamp) : w.CountsAsDenoted := by
  intro t ht
  rw [textLe_text_iff ht, text_textLe_iff ht, ← h.cut_eq, Int.cast_le, Int.cast_le]
  exact ⟨Iff.rfl, by simp only [h, true_and]; omega⟩

theorem year_of_fraction (w : WrittenTime) {fraction : Int} (hlow : 0 ≤ fraction)
    (hhigh : fraction < 1000) : InFourDigits (year ⟨w.second * 1000 + fraction⟩) := by
  have hsecond : (w.second * 1000 + fraction) / 1000 = w.second := by omega
  rw [year, Instant.second, hsecond]
  exact w.inFourDigits

theorem denoted_of_utc (hzone : w.zone = .utc) {fraction : Nat}
    (h : ofDigits w.fraction * 1000 = fraction * 10 ^ w.fraction.length) :
    w.denoted = ((w.second * 1000 + fraction : Int) : ℚ) := by
  have hdiv : (ofDigits w.fraction * 1000 / 10 ^ w.fraction.length : ℚ) = fraction := by
    rw [div_eq_iff (pow_ne_zero _ (by norm_num))]
    exact_mod_cast h
  rw [denoted, hzone, hdiv]
  norm_num [Zone.minutes]

/-- With less than three digits, the instant that is denoted counts as an earlier one. -/
theorem not_countsAsDenoted_of_short (hzone : w.zone = .utc) (hshort : w.fraction.length < 3) :
    ¬ w.CountsAsDenoted := by
  intro h
  have hvalue := Number.ofDigits_lt w.areDigits
  have hunits : 10 ^ (3 - w.fraction.length) * 10 ^ w.fraction.length = 1000 := by
    rw [← Nat.pow_add, Nat.sub_add_cancel (by omega)]
  have hcut : w.cutFraction = (ofDigits w.fraction + 1) * 10 ^ (3 - w.fraction.length) := by
    rw [cutFraction, leading, List.take_of_length_le (by omega), if_pos ⟨hzone, hshort⟩]
  obtain ⟨unit, hunit⟩ : ∃ unit, unit = 10 ^ (3 - w.fraction.length) := ⟨_, rfl⟩
  rw [← hunit] at hunits hcut
  have hpos : 0 < unit := hunit ▸ Nat.pow_pos (by decide)
  have hbound := w.cutFraction_le
  rw [hcut, Nat.succ_mul] at hbound
  have hdenoted : w.denoted = ((w.second * 1000 + (ofDigits w.fraction * unit : Nat) : Int) : ℚ) :=
    denoted_of_utc hzone (by rw [Nat.mul_assoc, hunits])
  have ht := w.year_of_fraction (Int.natCast_nonneg (ofDigits w.fraction * unit)) (by omega)
  have hle := (textLe_text_iff ht).1 (((h _ ht).1).2 hdenoted.le)
  dsimp only [cut] at hle
  rw [hcut, Nat.succ_mul] at hle
  omega

/-- With more, the cut counts as a later instant. -/
theorem not_countsAsDenoted_of_long (hzone : w.zone = .utc) (hlong : 3 < w.fraction.length) :
    ¬ w.CountsAsDenoted := by
  intro h
  have hlength : w.leading.length = 3 := by rw [leading, List.length_take]; omega
  have hcut : w.cutFraction = ofDigits w.leading := by
    rw [cutFraction, hlength]
    simp
  have hvalue := Number.ofDigits_lt w.isDigit_leading
  rw [hlength] at hvalue
  have ht := w.year_of_fraction (Int.natCast_nonneg w.cutFraction) (by omega)
  have hrest : 3 + (w.fraction.drop 3).length = w.fraction.length := by
    rw [List.length_drop]
    omega
  have hdigits := ofDigits_append w.leading (w.fraction.drop 3)
  rw [leading, List.take_append_drop, ← leading, ← hcut] at hdigits
  have hpassed : w.cutFraction * 10 ^ w.fraction.length ≤ ofDigits w.fraction * 1000 :=
    calc w.cutFraction * 10 ^ w.fraction.length
        = 10 ^ (w.fraction.drop 3).length * w.cutFraction * 1000 := by
          rw [← hrest, Nat.pow_add]
          ring
      _ ≤ ofDigits w.fraction * 1000 := Nat.mul_le_mul_right _ (by omega)
  have hle : ((w.second * 1000 + w.cutFraction : Int) : ℚ) ≤ w.denoted := by
    have hdiv : (w.cutFraction : ℚ) ≤ ofDigits w.fraction * 1000 / 10 ^ w.fraction.length := by
      rw [le_div_iff₀ (by positivity)]
      exact_mod_cast hpassed
    rw [denoted, hzone]
    simp only [Zone.minutes]
    push_cast
    linarith
  rcases (text_textLe_iff ht).1 (((h _ ht).2).2 hle) with hlt | ⟨⟨-, hthree⟩, -⟩
  · exact lt_irrefl _ hlt
  · omega

theorem countsAsDenoted_iff (hzone : w.zone = .utc) : w.CountsAsDenoted ↔ w.IsStamp := by
  refine ⟨fun h => ⟨hzone, ?_⟩, IsStamp.countsAsDenoted⟩
  rcases lt_trichotomy w.fraction.length 3 with hshort | heq | hlong
  · exact absurd h (not_countsAsDenoted_of_short hzone hshort)
  · exact heq
  · exact absurd h (not_countsAsDenoted_of_long hzone hlong)

end WrittenTime

end Instant

end ProxyFleet
