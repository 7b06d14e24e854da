import Mathlib.Data.Nat.Digits.Defs
import ProxyFleet.Proofs.Instant.Calendar
import ProxyFleet.Proofs.Number.Whole
import ProxyFleet.Proofs.Text.Sorted

/-!
# Texts of instants

In years of four digits, texts of instants are ordered as the instants are: every field
has its width, digits of one width are ordered as the numbers they write, and the fields
stand in the order in which they decide. The text of any other year begins with a sign,
and every sign comes before every digit. So such a text comes before all texts of years
of four digits, also where it tells of a later year.
-/

namespace ProxyFleet

open Decimal

/-! ## Lists of characters -/

theorem append_lt_append_iff {p q s t : List Char} (hlength : p.length = q.length) :
    p ++ s < q ++ t ↔ p < q ∨ p = q ∧ s < t := by
  induction p generalizing q with
  | nil =>
      obtain rfl := List.length_eq_zero_iff.1 hlength.symm
      simp
  | cons c p ih =>
      cases q with
      | nil => cases hlength
      | cons d q =>
          rw [List.cons_append, List.cons_append, List.cons_lt_cons_iff, List.cons_lt_cons_iff,
            ih (Nat.succ.inj hlength), List.cons.injEq]
          tauto

theorem ofDigits_cons (c : Char) (ds : List Char) :
    ofDigits (c :: ds) = 10 ^ ds.length * (c.toNat - '0'.toNat) + ofDigits ds := by
  rw [ofDigits_eq, ofDigits_eq, Nat.ofDigitChars_cons, Nat.ofDigitChars_eq_ofDigitChars_zero,
    Nat.mul_zero, Nat.zero_add]

theorem digit_bounds {c : Char} (h : c.isDigit = true) :
    '0'.toNat ≤ c.toNat ∧ c.toNat ≤ '9'.toNat := by
  simp only [Char.isDigit, Bool.and_eq_true, decide_eq_true_eq, ge_iff_le, UInt32.le_iff_toNat_le]
    at h
  exact h

/-- Digits of one width are ordered as the numbers they write. -/
theorem lt_iff_ofDigits_lt {ds es : List Char} (hds : ∀ c ∈ ds, c.isDigit = true)
    (hes : ∀ c ∈ es, c.isDigit = true) (hlength : ds.length = es.length) :
    ds < es ↔ ofDigits ds < ofDigits es := by
  induction ds generalizing es with
  | nil =>
      obtain rfl := List.length_eq_zero_iff.1 hlength.symm
      simp
  | cons c ds ih =>
      cases es with
      | nil => cases hlength
      | cons e es =>
          have hlen : ds.length = es.length := Nat.succ.inj hlength
          have hds' := fun d hd => hds d (List.mem_cons_of_mem _ hd)
          have hes' := fun d hd => hes d (List.mem_cons_of_mem _ hd)
          have hc := digit_bounds (hds c List.mem_cons_self)
          have he := digit_bounds (hes e List.mem_cons_self)
          have hrest := Number.ofDigits_lt hds'
          have hrest' := Number.ofDigits_lt hes'
          rw [ofDigits_cons, ofDigits_cons, List.cons_lt_cons_iff, ih hds' hes' hlen]
          rw [hlen] at hrest ⊢
          -- digits that differ outweigh all that follows them
          rcases lt_trichotomy c e with hlt | rfl | hgt
          · have hval : c.toNat < e.toNat := hlt
            have hstep : 10 ^ es.length * (c.toNat - '0'.toNat + 1) ≤
                10 ^ es.length * (e.toNat - '0'.toNat) := Nat.mul_le_mul_left _ (by omega)
            rw [Nat.mul_succ] at hstep
            exact iff_of_true (Or.inl hlt) (by omega)
          · simp
          · have hval : e.toNat < c.toNat := hgt
            have hstep : 10 ^ es.length * (e.toNat - '0'.toNat + 1) ≤
                10 ^ es.length * (c.toNat - '0'.toNat) := Nat.mul_le_mul_left _ (by omega)
            rw [Nat.mul_succ] at hstep
            refine iff_of_false ?_ (by omega)
            rintro (hlt | ⟨rfl, -⟩)
            · exact lt_asymm hlt hgt
            · exact lt_irrefl _ hgt

namespace Instant

/-! ## Fields -/

theorem padded_toList (width : Nat) (n : Int) : (padded width n).toList =
    List.replicate (width - (digitsOf n.natAbs).length) '0' ++ digitsOf n.natAbs := by
  simp [padded, digitsOf, Nat.repr]

theorem isDigit_padded {width : Nat} {n : Int} :
    ∀ c ∈ (padded width n).toList, c.isDigit = true := by
  intro c hc
  rw [padded_toList, List.mem_append] at hc
  rcases hc with hc | hc
  · rw [List.eq_of_mem_replicate hc]
    rfl
  · exact (areDigits_digitsOf _).2 c hc

theorem ofDigits_padded (width : Nat) (n : Int) : ofDigits (padded width n).toList = n.natAbs := by
  rw [padded_toList, ofDigits_zeros_append, ofDigits_digitsOf]

/-- A number that a field of a width has room for. -/
structure Fits (width : Nat) (n : Int) : Prop where
  zero_le : 0 ≤ n
  natAbs_lt : n.natAbs < 10 ^ width

theorem length_padded {width : Nat} {n : Int} (hwidth : 0 < width) (hn : Fits width n) :
    (padded width n).toList.length = width := by
  rw [padded_toList, List.length_append, List.length_replicate]
  have hlength := Nat.toDigits_length 10 n.natAbs width hwidth hn.natAbs_lt
  unfold digitsOf
  omega

theorem padded_lt_iff {width : Nat} {n n' : Int} (hwidth : 0 < width) (hn : Fits width n)
    (hn' : Fits width n') : (padded width n).toList < (padded width n').toList ↔ n < n' := by
  have hzero := hn.zero_le
  have hzero' := hn'.zero_le
  rw [lt_iff_ofDigits_lt isDigit_padded isDigit_padded
    (by rw [length_padded hwidth hn, length_padded hwidth hn']), ofDigits_padded, ofDigits_padded]
  omega

/-- Two fields of one width decide, or if they are the same, what follows them does. -/
theorem padded_append_lt {width : Nat} {n n' : Int} {s t : List Char} (hwidth : 0 < width)
    (hn : Fits width n) (hn' : Fits width n') (h : n < n' ∨ n = n' ∧ s < t) :
    (padded width n).toList ++ s < (padded width n').toList ++ t := by
  rw [append_lt_append_iff (by rw [length_padded hwidth hn, length_padded hwidth hn'])]
  rcases h with h | ⟨rfl, h⟩
  · exact Or.inl ((padded_lt_iff hwidth hn hn').2 h)
  · exact Or.inr ⟨rfl, h⟩

/-! ## Seconds -/

/-- The year of a second, counted from the start of 1970. -/
def yearOfSecond (second : Int) : Int := (dateOfDay (second / 86400)).1

/-- Date and time of day of a second, counted from the start of 1970. -/
def secondText (second : Int) : String :=
  let date := dateOfDay (second / 86400)
  let rest := second % 86400
  yearText date.1 ++ "-" ++ padded 2 date.2.1 ++ "-" ++ padded 2 date.2.2 ++ "T"
    ++ padded 2 (rest / 3600) ++ ":" ++ padded 2 (rest / 60 % 60) ++ ":" ++ padded 2 (rest % 60)

def InFourDigits (year : Int) : Prop := 0 ≤ year ∧ year ≤ 9999

theorem yearText_of_inFourDigits {year : Int} (h : InFourDigits year) :
    yearText year = padded 4 year := if_pos h

theorem InFourDigits.fits {year : Int} (h : InFourDigits year) : Fits 4 year := by
  obtain ⟨hlow, hhigh⟩ := h
  exact ⟨hlow, by omega⟩

theorem yearOfSecond_mono {s s' : Int} (h : s ≤ s') : yearOfSecond s ≤ yearOfSecond s' := by
  unfold yearOfSecond
  have hdays : s / 86400 ≤ s' / 86400 := Int.ediv_le_ediv (by decide) h
  rcases lt_or_eq_of_le hdays with hlt | heq
  · have hdates := dateOfDay_lt hlt
    omega
  · rw [heq]

theorem secondText_toList (s : Int) :
    (secondText s).toList = (yearText (yearOfSecond s)).toList ++
      ('-' :: ((padded 2 (dateOfDay (s / 86400)).2.1).toList ++
      ('-' :: ((padded 2 (dateOfDay (s / 86400)).2.2).toList ++
      ('T' :: ((padded 2 (s % 86400 / 3600)).toList ++
      (':' :: ((padded 2 (s % 86400 / 60 % 60)).toList ++
      (':' :: ((padded 2 (s % 86400 % 60)).toList ++ [])))))))))) := by
  simp [secondText, yearOfSecond]

theorem fits_month (day : Int) : Fits 2 (dateOfDay day).2.1 := by
  have hmonth := month_bounds day
  exact ⟨by omega, by omega⟩

theorem fits_dayOfMonth (day : Int) : Fits 2 (dateOfDay day).2.2 := by
  have hday := dayOfMonth_bounds day
  exact ⟨by omega, by omega⟩

theorem fits_hour (s : Int) : Fits 2 (s % 86400 / 3600) := ⟨by omega, by omega⟩

theorem fits_minute (s : Int) : Fits 2 (s % 86400 / 60 % 60) := ⟨by omega, by omega⟩

theorem fits_second (s : Int) : Fits 2 (s % 86400 % 60) := ⟨by omega, by omega⟩

theorem length_secondText {s : Int} (hyear : InFourDigits (yearOfSecond s)) :
    (secondText s).toList.length = 19 := by
  rw [secondText_toList, yearText_of_inFourDigits hyear]
  simp only [List.length_append, List.length_cons, List.length_nil,
    length_padded (by decide) hyear.fits, length_padded (by decide) (fits_month _),
    length_padded (by decide) (fits_dayOfMonth _), length_padded (by decide) (fits_hour _),
    length_padded (by decide) (fits_minute _), length_padded (by decide) (fits_second _)]

theorem mark_lt {c : Char} {s t : List Char} (h : s < t) : c :: s < c :: t :=
  List.cons_lt_cons_iff.2 (Or.inr ⟨rfl, h⟩)

theorem secondText_lt {s s' : Int} (hyear : InFourDigits (yearOfSecond s))
    (hyear' : InFourDigits (yearOfSecond s')) (h : s < s') :
    (secondText s).toList < (secondText s').toList := by
  rw [secondText_toList, secondText_toList, yearText_of_inFourDigits hyear,
    yearText_of_inFourDigits hyear']
  have hdays : s / 86400 ≤ s' / 86400 := Int.ediv_le_ediv (by decide) (Int.le_of_lt h)
  rcases lt_or_eq_of_le hdays with hlt | heq
  · refine padded_append_lt (by decide) hyear.fits hyear'.fits ?_
    refine (dateOfDay_lt hlt).imp_right fun hdate => ⟨hdate.1, mark_lt ?_⟩
    refine padded_append_lt (by decide) (fits_month _) (fits_month _) ?_
    refine hdate.2.imp_right fun hdate => ⟨hdate.1, mark_lt ?_⟩
    exact padded_append_lt (by decide) (fits_dayOfMonth _) (fits_dayOfMonth _) (Or.inl hdate.2)
  · rw [yearOfSecond, yearOfSecond, heq]
    refine List.append_left_lt (mark_lt (List.append_left_lt (mark_lt (List.append_left_lt
      (mark_lt ?_)))))
    have htime : s % 86400 / 3600 < s' % 86400 / 3600 ∨ s % 86400 / 3600 = s' % 86400 / 3600 ∧
        (s % 86400 / 60 % 60 < s' % 86400 / 60 % 60 ∨
          s % 86400 / 60 % 60 = s' % 86400 / 60 % 60 ∧ s % 86400 % 60 < s' % 86400 % 60) := by
      omega
    refine padded_append_lt (by decide) (fits_hour _) (fits_hour _) ?_
    refine htime.imp_right fun htime => ⟨htime.1, mark_lt ?_⟩
    refine padded_append_lt (by decide) (fits_minute _) (fits_minute _) ?_
    refine htime.2.imp_right fun htime => ⟨htime.1, mark_lt ?_⟩
    exact padded_append_lt (by decide) (fits_second _) (fits_second _) (Or.inl htime.2)

theorem secondText_lt_iff {s s' : Int} (hyear : InFourDigits (yearOfSecond s))
    (hyear' : InFourDigits (yearOfSecond s')) :
    (secondText s).toList < (secondText s').toList ↔ s < s' := by
  refine ⟨fun h => ?_, secondText_lt hyear hyear'⟩
  rcases lt_trichotomy s s' with hlt | rfl | hgt
  · exact hlt
  · exact absurd h (lt_irrefl _)
  · exact absurd h (lt_asymm (secondText_lt hyear' hyear hgt))

theorem secondText_eq_iff {s s' : Int} (hyear : InFourDigits (yearOfSecond s))
    (hyear' : InFourDigits (yearOfSecond s')) :
    (secondText s).toList = (secondText s').toList ↔ s = s' := by
  refine ⟨fun h => ?_, fun h => h ▸ rfl⟩
  rcases lt_trichotomy s s' with hlt | heq | hgt
  · have htexts := secondText_lt hyear hyear' hlt
    rw [h] at htexts
    exact absurd htexts (lt_irrefl _)
  · exact heq
  · have htexts := secondText_lt hyear' hyear hgt
    rw [h] at htexts
    exact absurd htexts (lt_irrefl _)

/-- Texts that begin with seconds are ordered by these, and where they are the same, by what
follows. -/
theorem secondText_append_lt_iff {s s' : Int} {rest rest' : List Char}
    (hyear : InFourDigits (yearOfSecond s)) (hyear' : InFourDigits (yearOfSecond s')) :
    (secondText s).toList ++ rest < (secondText s').toList ++ rest' ↔
      s < s' ∨ s = s' ∧ rest < rest' := by
  rw [append_lt_append_iff (by rw [length_secondText hyear, length_secondText hyear']),
    secondText_lt_iff hyear hyear', secondText_eq_iff hyear hyear']

/-! ## Instants -/

def second (t : Instant) : Int := t.milliseconds / 1000

def year (t : Instant) : Int := yearOfSecond t.second

theorem text_toList (t : Instant) : t.text.toList = (secondText t.second).toList ++
    ('.' :: ((padded 3 (t.milliseconds % 1000)).toList ++ ['Z'])) := by
  have hday : t.milliseconds / dayMilliseconds = t.second / 86400 := by
    unfold second dayMilliseconds
    omega
  have hhour : t.milliseconds % dayMilliseconds / 3600000 = t.second % 86400 / 3600 := by
    unfold second dayMilliseconds
    omega
  have hminute : t.milliseconds % dayMilliseconds / 60000 % 60 = t.second % 86400 / 60 % 60 := by
    unfold second dayMilliseconds
    omega
  have hsecond : t.milliseconds % dayMilliseconds / 1000 % 60 = t.second % 86400 % 60 := by
    unfold second dayMilliseconds
    omega
  have hrest : t.milliseconds % dayMilliseconds % 1000 = t.milliseconds % 1000 := by
    unfold dayMilliseconds
    omega
  unfold text secondText
  dsimp only
  rw [hday, hhour, hminute, hsecond, hrest]
  simp

theorem fits_fraction (t : Instant) : Fits 3 (t.milliseconds % 1000) := ⟨by omega, by omega⟩

theorem year_mono {t u : Instant} (h : t.milliseconds ≤ u.milliseconds) : t.year ≤ u.year :=
  yearOfSecond_mono (Int.ediv_le_ediv (by decide) h)

theorem text_lt_iff {t u : Instant} (ht : InFourDigits t.year) (hu : InFourDigits u.year) :
    t.text.toList < u.text.toList ↔ t.milliseconds < u.milliseconds := by
  rw [text_toList, text_toList, secondText_append_lt_iff ht hu, List.cons_lt_cons_self,
    append_lt_append_iff (by rw [length_padded (by decide) (fits_fraction t),
      length_padded (by decide) (fits_fraction u)]),
    padded_lt_iff (by decide) (fits_fraction t) (fits_fraction u)]
  have hirrefl : ¬ (['Z'] : List Char) < ['Z'] := lt_irrefl _
  simp only [hirrefl, and_false, or_false]
  unfold second
  omega

theorem text_begins_with_sign {t : Instant} (ht : ¬ InFourDigits t.year) :
    ∃ sign rest, t.text.toList = sign :: rest ∧ sign.toNat < '0'.toNat := by
  have hyear : yearText t.year = (if t.year < 0 then "-" else "+") ++ padded 6 t.year := if_neg ht
  rw [text_toList, secondText_toList, ← year, hyear, String.toList_append]
  have hminus : "-".toList = ['-'] := rfl
  have hplus : "+".toList = ['+'] := rfl
  split
  · rw [hminus, List.singleton_append, List.cons_append, List.cons_append]
    exact ⟨_, _, rfl, by decide⟩
  · rw [hplus, List.singleton_append, List.cons_append, List.cons_append]
    exact ⟨_, _, rfl, by decide⟩

theorem text_begins_with_digit {t : Instant} (ht : InFourDigits t.year) :
    ∃ digit rest, t.text.toList = digit :: rest ∧ digit.isDigit = true := by
  have hlength := length_padded (by decide) ht.fits
  have hdigits : ∀ c ∈ (padded 4 t.year).toList, c.isDigit = true := isDigit_padded
  rw [text_toList, secondText_toList, ← year, yearText_of_inFourDigits ht]
  cases hpadded : (padded 4 t.year).toList with
  | nil => rw [hpadded] at hlength; cases hlength
  | cons digit rest =>
      exact ⟨digit, _, rfl, hdigits digit (hpadded ▸ List.mem_cons_self)⟩

/-- Seen from a year of four digits, a text is later exactly if it is that of a later instant in
such a year. -/
theorem lt_text_iff {t u : Instant} (ht : InFourDigits t.year) :
    t.text.toList < u.text.toList ↔ t.milliseconds < u.milliseconds ∧ u.year ≤ 9999 := by
  by_cases hu : InFourDigits u.year
  · rw [text_lt_iff ht hu]
    exact (and_iff_left hu.2).symm
  · obtain ⟨sign, rest, hsign, hlow⟩ := text_begins_with_sign hu
    obtain ⟨digit, rest', hdigit, hisDigit⟩ := text_begins_with_digit ht
    have hhigh := (digit_bounds hisDigit).1
    have hlt : u.text.toList < t.text.toList := by
      rw [hsign, hdigit]
      exact List.cons_lt_cons_iff.2 (Or.inl (show sign.toNat < digit.toNat by omega))
    refine iff_of_false (lt_asymm hlt) ?_
    rintro ⟨hlater, hyear⟩
    have hmono := year_mono (Int.le_of_lt hlater)
    exact hu ⟨ht.1.trans hmono, hyear⟩

end Instant

end ProxyFleet
