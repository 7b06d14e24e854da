import ProxyFleet.Text.Units
import ProxyFleet.Value

/-!
# Values of the wrong shape

Records that were stored or passed in are only checked at their top. What is
deeper may have any shape, and using it as what it is not is a fault.
-/

namespace ProxyFleet

/-- How a value was used that does not allow it. -/
inductive ShapeFault where
  /-- A field was asked of an absent value or of null. -/
  | noFields (name : String)
  /-- Items were asked of a value that has none. -/
  | noItems
  /-- A value that cannot be put in words was needed as text. -/
  | noText
  deriving DecidableEq, Repr

namespace Value

/-- A field of a value: absent for values that have no fields, and a fault for values that
cannot be asked. -/
def field (v : Value) (name : String) : Except ShapeFault Value :=
  match v with
  | .absent | .null => .error (.noFields name)
  | v => .ok (v.get name)

/-- The items of a value that is spread out: those of an array, the characters of a text. -/
def spread : Value → Except ShapeFault (List Value)
  | .arr xs => .ok xs
  | .str s => .ok (s.toList.map fun c => .str (String.ofList [c]))
  | _ => .error .noItems

/-- The units of a text, each as a text; half of a character is replaced. -/
def unitTexts (s : String) : List Value :=
  s.toList.flatMap fun c =>
    let half : Value := .str (String.ofList [halfCharacter])
    if unitsOf c = 1 then [.str (String.ofList [c])] else [half, half]

/-- What a value holds by name: the fields of a record, the items of an array and the units of a
text, these by their place. -/
def parts : Value → Fields
  | .obj fs => fs
  | .arr xs => xs.zipIdx.map fun (x, i) => (toString i, x)
  | .str s => (unitTexts s).zipIdx.map fun (x, i) => (toString i, x)
  | _ => []

/-- The value that a value has for a name: fields of records, places and the length of arrays
and texts. -/
def own? (v : Value) (name : String) : Option Value :=
  match v with
  | .obj fs => Fields.get? fs name
  | .arr xs =>
    if name = "length" then some (.int xs.length)
    else (indexName? name).bind fun n => xs[n]?
  | .str s =>
    if name = "length" then some (.int (unitLength s.toList))
    else (indexName? name).bind fun n => (unitTexts s)[n]?
  | _ => none

/-- The first value, if it counts as true, else the second. -/
def or (v w : Value) : Value := if v.isTruthy then v else w

/-- An empty text. -/
def isEmptyText : Value → Bool
  | .str s => s = ""
  | _ => false

/-- The items of an array. -/
def itemsOrFault : Value → Except ShapeFault (List Value)
  | .arr xs => .ok xs
  | _ => .error .noItems

end Value

end ProxyFleet
