import Mathlib.Order.Defs.LinearOrder
import Mathlib.Tactic.IntervalCases
import ProxyFleet.Instant

/-!
# Days and dates go in the same order

`Instant.dateOfDay` finds the year of a day by division, with a correction for every
fourth, hundredth and four-hundredth year. What it finds is told here without those
divisions: a day is the `n`-th of a year that begins in March, and there is only one
such year (`InYear`). Month and day of the month are found from `n` by a straight line,
which keeps the order too. So of two days the later one has the later date.
-/

namespace ProxyFleet

namespace Instant

/-! ## Years that begin in March -/

/-- The days before the first of March of a year, counted from the first of March of the year 0. -/
def daysBefore (year : Int) : Int := 365 * year + year / 4 - year / 100 + year / 400

theorem daysBefore_of_lt {year year' : Int} (h : year < year') :
    daysBefore (year + 1) ≤ daysBefore year' := by
  unfold daysBefore
  omega

theorem daysBefore_era (year era : Int) :
    daysBefore (year + era * 400) = daysBefore year + era * eraDays := by
  unfold daysBefore eraDays
  omega

/-- The year of an era that a day of the era is in. -/
def yearOfEra (day : Int) : Int := (day - day / 1460 + day / 36524 - day / 146096) / 365

theorem yearOfEra_spec {day : Int} (hlow : 0 ≤ day) (hhigh : day < eraDays) :
    daysBefore (yearOfEra day) ≤ day ∧ day < daysBefore (yearOfEra day + 1) := by
  have hfour : day / 146096 = day / 36524 / 4 := by omega
  unfold eraDays at hhigh
  obtain ⟨year, hyear⟩ : ∃ year, year = yearOfEra day := ⟨_, rfl⟩
  rw [← hyear]
  rw [yearOfEra, hfour] at hyear
  obtain ⟨century, hcentury⟩ : ∃ century, century = day / 36524 := ⟨_, rfl⟩
  obtain ⟨leaps, hleaps⟩ : ∃ leaps, leaps = day / 1460 := ⟨_, rfl⟩
  rw [← hcentury, ← hleaps] at hyear
  have hbound : 0 ≤ century ∧ century ≤ 4 := by omega
  obtain ⟨hzero, hlast⟩ := hbound
  have hcenturies : 25 * century ≤ leaps := by omega
  -- the leap days are counted up to the last year that is complete, or one year further
  have hbefore : year / 4 ≤ leaps := by
    by_contra hlt
    omega
  have hafter : leaps ≤ (year + 1) / 4 := by
    by_contra hlt
    omega
  have hhundred : year / 100 = century - century / 4 := by
    interval_cases century <;> omega
  have hfourhundred : year / 400 = 0 := by omega
  unfold daysBefore
  refine ⟨by omega, ?_⟩
  by_cases hend : year % 100 = 99
  · interval_cases century <;> omega
  · have hnext : (year + 1) / 100 = year / 100 := by omega
    omega

/-- A day is the `n`-th day, counted from zero, of the year that begins in March of `year`. -/
structure InYear (day year n : Int) : Prop where
  day : day + epochDays = daysBefore year + n
  first : 0 ≤ n
  last : daysBefore year + n < daysBefore (year + 1)

namespace InYear

variable {day day' year year' n n' : Int}

theorem lt (h : InYear day year n) (h' : InYear day' year' n') (hday : day < day') :
    year < year' ∨ year = year' ∧ n < n' := by
  have hd := h.day
  have hd' := h'.day
  rcases lt_trichotomy year year' with hlt | rfl | hgt
  · exact Or.inl hlt
  · exact Or.inr ⟨rfl, by omega⟩
  · have hyears := daysBefore_of_lt hgt
    have hlast' := h'.last
    have hfirst := h.first
    omega

theorem le (h : InYear day year n) : n ≤ 365 := by
  have hlast := h.last
  unfold daysBefore at hlast
  omega

end InYear

/-! ## Dates -/

/-- The month of a day of the year, counted from zero in March. -/
def monthOf (n : Int) : Int := (5 * n + 2) / 153

/-- The date of the `n`-th day of a year that begins in March. -/
def dateInYear (year n : Int) : Int × Int × Int :=
  let month := if monthOf n < 10 then monthOf n + 3 else monthOf n - 9
  (year + (if month ≤ 2 then 1 else 0), month, n - (153 * monthOf n + 2) / 5 + 1)

theorem dateOfDay_inYear (day : Int) :
    ∃ year n, InYear day year n ∧ dateOfDay day = dateInYear year n := by
  obtain ⟨rest, hrest⟩ : ∃ rest, rest = (day + epochDays) % eraDays := ⟨_, rfl⟩
  obtain ⟨era, hera⟩ : ∃ era, era = (day + epochDays) / eraDays := ⟨_, rfl⟩
  have hlow : 0 ≤ rest := hrest ▸ Int.emod_nonneg _ (by decide)
  have hhigh : rest < eraDays := hrest ▸ Int.emod_lt_of_pos _ (by decide)
  have hsplit : rest + era * eraDays = day + epochDays := by
    rw [hrest, hera, Int.emod_add_ediv_mul]
  obtain ⟨hbefore, hafter⟩ := yearOfEra_spec hlow hhigh
  have hdate : dateOfDay day = dateInYear (yearOfEra rest + era * 400)
      (rest - (365 * yearOfEra rest + yearOfEra rest / 4 - yearOfEra rest / 100)) := by
    rw [hrest, hera]
    rfl
  have hn : 365 * yearOfEra rest + yearOfEra rest / 4 - yearOfEra rest / 100
      = daysBefore (yearOfEra rest) := by
    unfold daysBefore eraDays at *
    omega
  have hthis := daysBefore_era (yearOfEra rest) era
  have hnext := daysBefore_era (yearOfEra rest + 1) era
  rw [Int.add_right_comm] at hnext
  exact ⟨_, _, ⟨by omega, by omega, by omega⟩, hdate⟩

theorem dateOfDay_lt {day day' : Int} (h : day < day') :
    (dateOfDay day).1 < (dateOfDay day').1 ∨ (dateOfDay day).1 = (dateOfDay day').1 ∧
      ((dateOfDay day).2.1 < (dateOfDay day').2.1 ∨
        (dateOfDay day).2.1 = (dateOfDay day').2.1 ∧
          (dateOfDay day).2.2 < (dateOfDay day').2.2) := by
  obtain ⟨year, n, hin, hdate⟩ := dateOfDay_inYear day
  obtain ⟨year', n', hin', hdate'⟩ := dateOfDay_inYear day'
  have hlt := hin.lt hin' h
  have hbound := hin.le
  have hbound' := hin'.le
  have hfirst := hin.first
  have hfirst' := hin'.first
  rw [hdate, hdate']
  unfold dateInYear monthOf
  dsimp only
  generalize hmonth : (5 * n + 2) / 153 = month
  generalize hmonth' : (5 * n' + 2) / 153 = month'
  have hspan : 0 ≤ month ∧ month ≤ 11 ∧ 0 ≤ month' ∧ month' ≤ 11 := by omega
  have horder : n < n' → month < month' ∨ month = month' := by omega
  split <;> split <;> split <;> split <;> omega

theorem month_bounds (day : Int) : 1 ≤ (dateOfDay day).2.1 ∧ (dateOfDay day).2.1 ≤ 12 := by
  obtain ⟨year, n, hin, hdate⟩ := dateOfDay_inYear day
  have hbound := hin.le
  have hfirst := hin.first
  rw [hdate]
  unfold dateInYear monthOf
  dsimp only
  split <;> omega

theorem dayOfMonth_bounds (day : Int) : 1 ≤ (dateOfDay day).2.2 ∧ (dateOfDay day).2.2 ≤ 31 := by
  obtain ⟨year, n, hin, hdate⟩ := dateOfDay_inYear day
  have hbound := hin.le
  have hfirst := hin.first
  rw [hdate]
  unfold dateInYear monthOf
  dsimp only
  omega

end Instant

end ProxyFleet
