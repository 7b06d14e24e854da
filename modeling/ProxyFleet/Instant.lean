/-!
# Instants

A point in time, in milliseconds since the start of 1970, and its text: date and
time of day in UTC, to the millisecond. The days are counted from the first of
March of the year 0, so that a leap day is the last of its year.
-/

namespace ProxyFleet

/-- A point in time. -/
structure Instant where
  milliseconds : Int
  deriving DecidableEq, Repr

namespace Instant

/-- The days of 400 years. -/
def eraDays : Int := 146097

/-- The days from the first of March of the year 0 to the start of 1970. -/
def epochDays : Int := 719468

/-- The milliseconds of a day. -/
def dayMilliseconds : Int := 86400000

/-- The year, month and day of a day, counted from the start of 1970. -/
def dateOfDay (day : Int) : Int × Int × Int :=
  let z := day + epochDays
  let era := z / eraDays
  let doe := z % eraDays
  let yoe := (doe - doe / 1460 + doe / 36524 - doe / 146096) / 365
  let doy := doe - (365 * yoe + yoe / 4 - yoe / 100)
  let mp := (5 * doy + 2) / 153
  let month := if mp < 10 then mp + 3 else mp - 9
  (yoe + era * 400 + (if month ≤ 2 then 1 else 0), month, doy - (153 * mp + 2) / 5 + 1)

/-- The day of a year, month and day, counted from the start of 1970. -/
def dayOfDate (year month day : Int) : Int :=
  let y := if month ≤ 2 then year - 1 else year
  let mp := if month > 2 then month - 3 else month + 9
  let yoe := y % 400
  let doe := yoe * 365 + yoe / 4 - yoe / 100 + (153 * mp + 2) / 5 + day - 1
  y / 400 * eraDays + doe - epochDays

/-- A number with at least `width` digits. -/
def padded (width : Nat) (n : Int) : String :=
  let digits := toString n.natAbs
  String.ofList (List.replicate (width - digits.length) '0') ++ digits

/-- The text of a year: four digits, or a sign and six. -/
def yearText (year : Int) : String :=
  if 0 ≤ year ∧ year ≤ 9999 then padded 4 year
  else (if year < 0 then "-" else "+") ++ padded 6 year

/-- The text of an instant. -/
def text (t : Instant) : String :=
  let (year, month, day) := dateOfDay (t.milliseconds / dayMilliseconds)
  let rest := t.milliseconds % dayMilliseconds
  yearText year ++ "-" ++ padded 2 month ++ "-" ++ padded 2 day ++ "T"
    ++ padded 2 (rest / 3600000) ++ ":" ++ padded 2 (rest / 60000 % 60) ++ ":"
    ++ padded 2 (rest / 1000 % 60) ++ "." ++ padded 3 (rest % 1000) ++ "Z"

/-- The number a run of digits writes, if it is one. -/
def digits? (cs : List Char) : Option Int :=
  if cs.isEmpty || !cs.all Char.isDigit then none
  else some (cs.foldl (fun n c => n * 10 + (c.toNat - '0'.toNat : Nat)) 0)

/-- The instant of a text as `Instant.text` writes it, for years of four digits; the fraction of
a second may be missing. -/
def ofText? (s : String) : Option Instant :=
  match s.toList with
  | [y1, y2, y3, y4, '-', m1, m2, '-', d1, d2, 'T', h1, h2, ':', n1, n2, ':', s1, s2, 'Z'] =>
    build [y1, y2, y3, y4] [m1, m2] [d1, d2] [h1, h2] [n1, n2] [s1, s2] ['0']
  | [y1, y2, y3, y4, '-', m1, m2, '-', d1, d2, 'T', h1, h2, ':', n1, n2, ':', s1, s2, '.',
      f1, f2, f3, 'Z'] =>
    build [y1, y2, y3, y4] [m1, m2] [d1, d2] [h1, h2] [n1, n2] [s1, s2] [f1, f2, f3]
  | _ => none
where
  build (year month day hour minute second fraction : List Char) : Option Instant := do
    let days := dayOfDate (← digits? year) (← digits? month) (← digits? day)
    let seconds := ((← digits? hour) * 60 + (← digits? minute)) * 60 + (← digits? second)
    pure ⟨days * dayMilliseconds + seconds * 1000 + (← digits? fraction)⟩

/-- A number of milliseconds later. -/
def later (t : Instant) (milliseconds : Int) : Instant := ⟨t.milliseconds + milliseconds⟩

end Instant

end ProxyFleet
