import ProxyFleet.Number.Decimal
import ProxyFleet.Value.Shape

/-!
# Values in running text

Inside running text a value reads differently than as data: texts stand without
quotes, the items of an array are joined by commas, and every record reads the
same. A record with a field in the place of that reading, named `toString`, has
none, and neither has an array that holds one.
-/

namespace ProxyFleet

namespace Value

/-- The name of a field that takes the reading of its record away. -/
def readingName : String := "toString"

mutual

/-- The characters of a value inside running text. -/
def displayChars : Value → Except ShapeFault (List Char)
  | .absent => .ok "undefined".toList
  | .null => .ok "null".toList
  | .bool true => .ok "true".toList
  | .bool false => .ok "false".toList
  | .num n => .ok n.chars
  | .str s => .ok s.toList
  | .arr xs => displayItems xs
  | .obj fs =>
    if Fields.has fs readingName then .error .noText else .ok "[object Object]".toList

/-- The items of an array, joined by commas; a missing item leaves nothing. -/
def displayItems : List Value → Except ShapeFault (List Char)
  | [] => .ok []
  | [.absent] | [.null] => .ok []
  | [x] => displayChars x
  | .absent :: xs | .null :: xs => (displayItems xs).map (',' :: ·)
  | x :: xs => do
    let head ← displayChars x
    let rest ← displayItems xs
    pure (head ++ ',' :: rest)

end

/-- How a value reads inside running text. -/
def display (v : Value) : Except ShapeFault String := v.displayChars.map String.ofList

/-- How a value reads inside running text, where a missing one leaves nothing. -/
def displayOrEmpty (v : Value) : Except ShapeFault String :=
  if v.isNothing then .ok "" else v.display

end Value

end ProxyFleet
