import ProxyFleet.Number

/-!
# Decimal texts of numbers

Writing: a number is written with the fewest digits that read back as the same
number, and of the candidates with that many digits the nearest one is taken.
Reading: a decimal denotes the double nearest to it.

The two meet in `Number.shortest`: every digit count up to 17 is tried by
rounding the two neighbours of the number on that decimal grid, and if none of
them reads back the exact expansion is used, so what is written always reads
back.
-/

namespace ProxyFleet

/-- The value `digits · 10 ^ exponent`. -/
structure Decimal where
  digits : Nat
  exponent : Int
  deriving DecidableEq, Repr

namespace Decimal

/-- The double nearest to a decimal. -/
def toNumber (d : Decimal) : Number := Number.ofDecimal false d.digits d.exponent

/-- The digits of a natural number in base ten, most significant first. -/
def digitsOf (n : Nat) : List Char := Nat.toDigits 10 n

/-- Drops zeros at the end of the digits, at most `fuel` of them. -/
def stripZeros : Nat → Decimal → Decimal
  | 0, d => d
  | fuel + 1, d =>
    if d.digits % 10 = 0 ∧ d.digits ≠ 0 then stripZeros fuel ⟨d.digits / 10, d.exponent + 1⟩ else d

end Decimal

namespace Number

/-- Whether `units` lies below `10 ^ n`. -/
def belowPowerOfTen (units : Nat) : Int → Bool
  | .ofNat n => units < Nat.pow 10 n * unitsPerOne
  | .negSucc n => units * Nat.pow 10 (n + 1) < unitsPerOne

/-- The least `n` with the value below `10 ^ n`: the place of the first digit. -/
def magnitude (units : Nat) : Int :=
  let guess : Int := ((units.log2 : Int) - 1074) * 30103 / 100000 - 1
  ([guess, guess + 1, guess + 2].find? (belowPowerOfTen units)).getD (guess + 3)

/-- The distance from `digits · 10 ^ exponent` to the value, times a factor that depends on
`exponent` alone. -/
def distance (units digits : Nat) : Int → Nat
  | .ofNat e => ((digits * Nat.pow 10 e * unitsPerOne : Nat) - (units : Int)).natAbs
  | .negSucc e => ((digits * unitsPerOne : Nat) - (units * Nat.pow 10 (e + 1) : Nat) : Int).natAbs

/-- The value counted in steps of `10 ^ exponent`, rounded down. -/
def stepsBelow (units : Nat) : Int → Nat
  | .ofNat e => units / (Nat.pow 10 e * unitsPerOne)
  | .negSucc e => units * Nat.pow 10 (e + 1) / unitsPerOne

/-- The decimal with `count` digits nearest to the value among those that read back as it. -/
def withDigits? (units : Nat) (place : Int) (count : Nat) : Option Decimal :=
  let exponent := place - count
  let low := stepsBelow units exponent
  let reads (digits : Nat) : Bool :=
    (Decimal.mk digits exponent).toNumber = Number.finite units
  match reads low, reads (low + 1) with
  | true, true =>
    let a := distance units low exponent
    let b := distance units (low + 1) exponent
    some ⟨if a < b then low else if b < a then low + 1 else if low % 2 = 0 then low else low + 1,
      exponent⟩
  | true, false => some ⟨low, exponent⟩
  | false, true => some ⟨low + 1, exponent⟩
  | false, false => none

/-- The decimal with the fewest digits that reads back; the exact expansion if 17 do not do. -/
def shortest (units : Nat) : Decimal :=
  match (List.range 17).findSome? fun i => withDigits? units (magnitude units) (i + 1) with
  | some d => d
  | none => ⟨units * Nat.pow 5 1074, -1074⟩

/-- How a decimal is laid out: positional from `10 ^ -7` (exclusive) to `10 ^ 21`, with an
exponent outside that range. -/
def layout (d : Decimal) : List Char :=
  let d := d.stripZeros 1200
  let ds := Decimal.digitsOf d.digits
  let k := ds.length
  let n : Int := d.exponent + k
  if k ≤ n ∧ n ≤ 21 then ds ++ List.replicate (n - k).toNat '0'
  else if 0 < n ∧ n ≤ 21 then ds.take n.toNat ++ '.' :: ds.drop n.toNat
  else if -6 < n ∧ n ≤ 0 then '0' :: '.' :: (List.replicate (-n).toNat '0' ++ ds)
  else
    let e := n - 1
    let tail := 'e' :: (if e < 0 then '-' else '+') :: Decimal.digitsOf e.natAbs
    match ds with
    | [d] => d :: tail
    | d :: rest => d :: '.' :: (rest ++ tail)
    | [] => tail

/-- The text of a number above or equal to zero. A whole number below `2 ^ 53` is written with
its digits; there the shortest digits are all of them. -/
def unsignedText (units : Nat) : List Char :=
  if units % unitsPerOne = 0 ∧ units / unitsPerOne < exactLimit then
    Decimal.digitsOf (units / unitsPerOne)
  else layout (shortest units)

/-- The text of a number. -/
def chars : Number → List Char
  | .finite u => if u < 0 then '-' :: unsignedText u.natAbs else unsignedText u.natAbs
  | .infinite true => "-Infinity".toList
  | .infinite false => "Infinity".toList
  | .nan => "NaN".toList

/-- The text of a number, as a string. -/
def text (x : Number) : String := String.ofList x.chars

end Number

/-! ## Reading -/

namespace Decimal

/-- The number written by decimal digits; other characters count as zero digits. -/
def ofDigits (ds : List Char) : Nat :=
  ds.foldl (fun n c => n * 10 + (c.toNat - '0'.toNat)) 0

/-- The digits at the front of a text, and what follows them. -/
def spanDigits (cs : List Char) : List Char × List Char :=
  (cs.takeWhile Char.isDigit, cs.dropWhile Char.isDigit)

/-- An exponent part `e±d…`, if there is one; a bare `e` is not one. -/
def exponentPart : List Char → Int × List Char
  | c :: cs =>
    if c = 'e' ∨ c = 'E' then
      let (negative, body) := match cs with
        | '-' :: r => (true, r)
        | '+' :: r => (false, r)
        | r => (false, r)
      match spanDigits body with
      | ([], _) => (0, c :: cs)
      | (ds, rest) => (if negative then -(ofDigits ds : Int) else ofDigits ds, rest)
    else (0, c :: cs)
  | [] => (0, [])

/-- A fraction, if there is one, which needs a digit: its digits, and the rest. -/
def fractionPart? : List Char → Option (List Char × List Char)
  | '.' :: cs =>
    match spanDigits cs with
    | ([], _) => none
    | (ds, rest) => some (ds, rest)
  | cs => some ([], cs)

/-- A sign, if there is one: whether it is minus, and the rest. -/
def signPart : List Char → Bool × List Char
  | '-' :: cs => (true, cs)
  | '+' :: cs => (false, cs)
  | cs => (false, cs)

end Decimal

namespace Number

/-- A number without its sign, as a data text writes it. -/
def ofUnsigned? (negative : Bool) (cs : List Char) : Option Number :=
  match Decimal.spanDigits cs with
  | ([], _) => none
  | ('0' :: _ :: _, _) => none
  | (whole, rest) =>
    match Decimal.fractionPart? rest with
    | none => none
    | some (ds, rest) =>
      match Decimal.exponentPart rest with
      | (e, []) => some (ofDecimal negative (Decimal.ofDigits (whole ++ ds)) (e - ds.length))
      | _ => none

/-- A number as a data text writes it: an optional minus, a whole part without idle leading
zeros, an optional fraction and an optional exponent, each with at least one digit. -/
def ofLexeme? : List Char → Option Number
  | '-' :: cs => ofUnsigned? true cs
  | cs => ofUnsigned? false cs

/-- A run of digits in base `base`; every character must be one. -/
def ofBase? (base : Nat) (cs : List Char) : Option Number :=
  let digit (c : Char) : Option Nat :=
    let v :=
      if c.isDigit then c.toNat - '0'.toNat
      else if 'a' ≤ c ∧ c ≤ 'f' then c.toNat - 'a'.toNat + 10
      else if 'A' ≤ c ∧ c ≤ 'F' then c.toNat - 'A'.toNat + 10
      else base
    if v < base then some v else none
  if cs.isEmpty then none
  else (cs.foldlM (fun n c => (digit c).map (n * base + ·)) 0).map fun n => ofInt (n : Nat)

/-- A number as people write it, between blanks already removed: a decimal with or without a
whole part, an infinity, or digits in base 16, 8 or 2 behind `0x`, `0o`, `0b`. -/
def ofLiteral? (cs : List Char) : Option Number :=
  match cs with
  | '0' :: 'x' :: ds | '0' :: 'X' :: ds => ofBase? 16 ds
  | '0' :: 'o' :: ds | '0' :: 'O' :: ds => ofBase? 8 ds
  | '0' :: 'b' :: ds | '0' :: 'B' :: ds => ofBase? 2 ds
  | _ =>
    let (negative, body) := Decimal.signPart cs
    if body = "Infinity".toList then some (.infinite negative)
    else
      let (whole, rest) := Decimal.spanDigits body
      let (ds, rest) := match rest with
        | '.' :: r => Decimal.spanDigits r
        | r => ([], r)
      if whole.isEmpty && ds.isEmpty then none
      else match Decimal.exponentPart rest with
        | (e, []) => some (ofDecimal negative (Decimal.ofDigits (whole ++ ds)) (e - ds.length))
        | _ => none

/-- The whole number at the front of a text, after a sign, if at least one digit is there. -/
def ofLeadingDigits? (cs : List Char) : Option Number :=
  let (negative, body) := Decimal.signPart cs
  match Decimal.spanDigits body with
  | ([], _) => none
  | (ds, _) => some (ofDecimal negative (Decimal.ofDigits ds) 0)

/-- The number at the front of a text, after blanks already removed: an infinity, or a decimal
with or without a whole part. What follows it does not matter. -/
def ofLeadingDecimal? (cs : List Char) : Option Number :=
  let (negative, body) := Decimal.signPart cs
  if "Infinity".toList.isPrefixOf body then some (.infinite negative)
  else
    let (whole, rest) := Decimal.spanDigits body
    let (ds, rest) := match rest with
      | '.' :: r => Decimal.spanDigits r
      | r => ([], r)
    if whole.isEmpty && ds.isEmpty then none
    else
      let e := (Decimal.exponentPart rest).1
      some (ofDecimal negative (Decimal.ofDigits (whole ++ ds)) (e - ds.length))

end Number

end ProxyFleet
