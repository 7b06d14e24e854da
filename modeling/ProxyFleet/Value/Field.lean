import ProxyFleet.Number.Decimal
import ProxyFleet.Text.Blank
import ProxyFleet.Value.Shape

/-!
# Picking values out of records, and filling records

Ports and rates are whole numbers, but files write them as numbers with a
fraction or as texts too (`Value.asInt`). What says nothing is not written
(`Fields.compact`).
-/

namespace ProxyFleet

/-- The number a text of digits stands for; a minus may stand before the digits and blanks around
them. -/
def wholeText? (cs : List Char) : Option Number :=
  let body := trimChars cs
  let digits := match body with
    | '-' :: ds => ds
    | ds => ds
  if !digits.isEmpty && digits.all Char.isDigit then Number.ofLeadingDigits? body else none

/-- The whole number a value gives: a finite number without its fraction, or a text of digits.
All else gives zero. -/
def Value.asInt : Value → Number
  | .num n => if n.isFinite then n.trunc else .finite 0
  | .str s => (wholeText? s.toList).getD (.finite 0)
  | _ => .finite 0

/-- The fields that say something: empty texts, empty arrays and absent values are left out. -/
def Fields.compact (fs : Fields) : Fields :=
  fs.filter fun f => match f.2 with
    | .absent => false
    | .str s => s != ""
    | .arr xs => !xs.isEmpty
    | _ => true

/-- The parts of a value that say something, as a record of their own. No field may be named
`__proto__`. -/
def Value.compacted (v : Value) : Except ShapeFault Value :=
  if v.isNothing then .error (.noFields "")
  else .ok (.obj (Fields.compact (v.parts.filter (·.1 != "__proto__"))))

/-- A field that is there if its array has items. -/
def itemsField (name : String) (xs : List Value) : Fields :=
  if xs.isEmpty then [] else [(name, .arr xs)]

/-- A field that is there if its record has fields. -/
def recordField (name : String) (fs : Fields) : Fields :=
  if fs.isEmpty then [] else [(name, .obj fs)]

/-- The first of two texts that is not empty. -/
def firstText (a b : String) : String := if a = "" then b else a

/-- The text of a field, empty if it is none. -/
def textOf (fs : Fields) (name : String) : String := (Fields.get fs name).asText

end ProxyFleet
