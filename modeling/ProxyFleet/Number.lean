/-!
# Exact binary64 numbers

A configuration's numbers are IEEE doubles. Every finite double is a whole count
of the least positive one, `2 ^ -1074`, so a finite number is held as that count:
equality of numbers is equality of integers, comparison is comparison of
integers, and no rounding happens anywhere but in `Number.ofRatio`.

The sign of zero is never observable here (it prints as `0`, compares equal and
nothing divides by it), so there is one zero.
-/

namespace ProxyFleet

/-- A double: a count of units of `2 ^ -1074`, an infinity, or not a number. -/
inductive Number where
  | finite (units : Int)
  | infinite (negative : Bool)
  | nan
  deriving DecidableEq, Repr

namespace Number

/-- How many units make one. -/
def unitsPerOne : Nat := Nat.pow 2 1074

/-- The first count of units that is too large for a finite double, `2 ^ 1024`. -/
def unitsLimit : Nat := Nat.pow 2 2098

/-- The first whole number from which on not every whole number is a double, `2 ^ 53`. -/
def exactLimit : Nat := Nat.pow 2 53

/-- The whole number nearest to `num / den`; a tie goes to the even neighbour. -/
def nearest (num den : Nat) : Nat :=
  let q := num / den
  let r := num % den
  if 2 * r < den then q
  else if den < 2 * r then q + 1
  else if q % 2 = 0 then q else q + 1

/-- The spacing of the doubles around `q` units, as a power of two: a significand has 53 bits. -/
def spacing (q : Nat) : Nat := Nat.pow 2 (q.log2 - 52)

/-- The count of units, of those a significand of 53 bits can hold, nearest to `num / den`. -/
def grid (num den : Nat) : Nat :=
  let step := spacing (num / den)
  nearest num (den * step) * step

/-- The double nearest to `num / den` units, with its sign. -/
def ofRatio (negative : Bool) (num den : Nat) : Number :=
  let u := grid num den
  if u < unitsLimit then .finite (if negative then -(u : Int) else u)
  else .infinite negative

/-- The double nearest to `n`. -/
def ofInt (n : Int) : Number :=
  ofRatio (n < 0) (n.natAbs * unitsPerOne) 1

instance (n : Nat) : OfNat Number n := ⟨ofInt n⟩

/-- The double nearest to `digits · 10 ^ exponent`. Exponents far beyond the range of doubles
are answered without computing the power. -/
def ofDecimal (negative : Bool) (digits : Nat) (exponent : Int) : Number :=
  if digits = 0 then .finite 0
  else if 400 < exponent then .infinite negative
  else if exponent + (digits.log2 + 1 : Nat) < -400 then .finite 0
  else match exponent with
    | .ofNat e => ofRatio negative (digits * Nat.pow 10 e * unitsPerOne) 1
    | .negSucc e => ofRatio negative (digits * unitsPerOne) (Nat.pow 10 (e + 1))

/-- Neither infinite nor `nan`. -/
def isFinite : Number → Bool
  | .finite _ => true
  | _ => false

/-- The whole number a double is, if it is one. -/
def toInt? : Number → Option Int
  | .finite u => if u % unitsPerOne = 0 then some (u / unitsPerOne) else none
  | _ => none

/-- A finite double without a fractional part. -/
def isWhole (x : Number) : Bool := x.toInt?.isSome

/-- The whole part: the fraction is dropped, toward zero. -/
def trunc : Number → Number
  | .finite u => .finite (u.tdiv unitsPerOne * unitsPerOne)
  | x => x

/-- The opposite number. -/
def neg : Number → Number
  | .finite u => .finite (-u)
  | .infinite s => .infinite (!s)
  | .nan => .nan

/-- The sum, rounded to the nearest double. -/
def add : Number → Number → Number
  | .finite u, .finite v => ofRatio (u + v < 0) (u + v).natAbs 1
  | .finite _, .infinite s => .infinite s
  | .infinite s, .finite _ => .infinite s
  | .infinite s, .infinite t => if s = t then .infinite s else .nan
  | _, _ => .nan

/-- The difference, rounded to the nearest double. -/
def sub (x y : Number) : Number := x.add y.neg

/-- The product, rounded to the nearest double; zero times an infinity is `nan`. -/
def mul : Number → Number → Number
  | .finite u, .finite v => ofRatio (xor (u < 0) (v < 0)) (u.natAbs * v.natAbs) unitsPerOne
  | .finite u, .infinite s => if u = 0 then .nan else .infinite (xor (u < 0) s)
  | .infinite s, .finite u => if u = 0 then .nan else .infinite (xor (u < 0) s)
  | .infinite s, .infinite t => .infinite (xor s t)
  | _, _ => .nan

/-- The quotient by a divisor other than zero, rounded to the nearest double. -/
def div : Number → Number → Number
  | .finite u, .finite v =>
    if v = 0 then (if u = 0 then .nan else .infinite (u < 0))
    else ofRatio (xor (u < 0) (v < 0)) (u.natAbs * unitsPerOne) v.natAbs
  | .finite _, .infinite _ => .finite 0
  | .infinite s, .finite v => .infinite (xor s (v < 0))
  | _, _ => .nan

/-- Strictly below; `nan` is below nothing and nothing is below it. -/
def lt : Number → Number → Bool
  | .finite u, .finite v => u < v
  | .finite _, .infinite s => !s
  | .infinite s, .finite _ => s
  | .infinite s, .infinite t => s && !t
  | _, _ => false

/-- Numeric equality: `nan` differs from everything, itself included. -/
def eq : Number → Number → Bool
  | .nan, _ => false
  | x, y => x = y

/-- Below or equal, in the numeric sense. -/
def le (x y : Number) : Bool := x.lt y || x.eq y

/-- Zero and `nan` count as false in a condition. -/
def isTruthy : Number → Bool
  | .finite u => u != 0
  | .infinite _ => true
  | .nan => false

end Number

end ProxyFleet
