import ProxyFleet.Number

/-!
# Values

What configurations, template contexts and tool arguments are made of. A record
keeps its fields in enumeration order: names that are array indices first, in
numeric order, and after them the others in the order they were first put
(`Fields.put`). A name occurs once.

`Value.absent` is what looking up a missing field gives. No text reads as it, and
a field that holds it is not written.
-/

namespace ProxyFleet

/-- A data value, or the absence of one. -/
inductive Value where
  | absent
  | null
  | bool (b : Bool)
  | num (n : Number)
  | str (s : String)
  | arr (items : List Value)
  | obj (fields : List (String × Value))
  deriving Repr

/-- The fields of a record, in enumeration order. -/
abbrev Fields := List (String × Value)

namespace Value

instance : Inhabited Value := ⟨.absent⟩

mutual

/-- Equality of values, fields in the same order. -/
def beq : Value → Value → Bool
  | .absent, .absent => true
  | .null, .null => true
  | .bool a, .bool b => a == b
  | .num a, .num b => a = b
  | .str a, .str b => a == b
  | .arr xs, .arr ys => beqItems xs ys
  | .obj xs, .obj ys => beqFields xs ys
  | _, _ => false

/-- Equality of lists of values. -/
def beqItems : List Value → List Value → Bool
  | [], [] => true
  | x :: xs, y :: ys => beq x y && beqItems xs ys
  | _, _ => false

/-- Equality of lists of fields. -/
def beqFields : List (String × Value) → List (String × Value) → Bool
  | [], [] => true
  | (j, x) :: xs, (k, y) :: ys => j == k && beq x y && beqFields xs ys
  | _, _ => false

end

instance : BEq Value := ⟨beq⟩

end Value

/-- The array index a field name is: digits without idle leading zeros, below `2 ^ 32 - 1`. -/
def indexName? (name : String) : Option Nat :=
  match name.toList with
  | [] => none
  | ['0'] => some 0
  | c :: cs =>
    if c = '0' || cs.length > 9 || !(c :: cs).all Char.isDigit then none
    else
      let n := (c :: cs).foldl (fun n c => n * 10 + (c.toNat - '0'.toNat)) 0
      if n < 4294967295 then some n else none

namespace Fields

variable {α : Type}

/-- The value of a field, if there is one of that name. -/
def get? (fs : List (String × α)) (name : String) : Option α := fs.lookup name

/-- The value of a field, `absent` if there is none of that name. -/
def get (fs : Fields) (name : String) : Value := (get? fs name).getD .absent

/-- Whether there is a field of that name. -/
def has (fs : List (String × α)) (name : String) : Bool := fs.any (·.1 == name)

/-- Overwrites the field of that name where it stands. -/
def overwrite (name : String) (v : α) (fs : List (String × α)) : List (String × α) :=
  fs.map fun f => if f.1 == name then (f.1, v) else f

/-- Puts a field with an index for its name before the larger indices and the other names. -/
def insertIndex (i : Nat) (name : String) (v : α) : List (String × α) → List (String × α)
  | [] => [(name, v)]
  | f :: fs =>
    match indexName? f.1 with
    | some j => if j < i then f :: insertIndex i name v fs else (name, v) :: f :: fs
    | none => (name, v) :: f :: fs

/-- Sets a field: in place if the name is there, else where enumeration order puts it. -/
def put (fs : List (String × α)) (name : String) (v : α) : List (String × α) :=
  if has fs name then overwrite name v fs
  else match indexName? name with
    | some i => insertIndex i name v fs
    | none => fs ++ [(name, v)]

/-- Removes a field. -/
def erase (fs : List (String × α)) (name : String) : List (String × α) :=
  fs.filter (·.1 != name)

/-- Sets one field after the other. -/
def putAll (fs gs : List (String × α)) : List (String × α) :=
  gs.foldl (fun acc f => put acc f.1 f.2) fs

end Fields

namespace Value

/-- A record of the given fields, as they are listed; absent ones are left out. -/
def ofFields (fs : Fields) : Value :=
  .obj (fs.filter fun f => match f.2 with | .absent => false | _ => true)

/-- An array of texts. -/
def texts (ts : List String) : Value := .arr (ts.map .str)

/-- A whole number. -/
def int (n : Int) : Value := .num (Number.ofInt n)

/-- A value that need not be there. -/
def ofOption {α : Type} (f : α → Value) : Option α → Value
  | some a => f a
  | none => .absent

/-- The field of a record; `absent` for other values. -/
def get (v : Value) (name : String) : Value :=
  match v with
  | .obj fs => Fields.get fs name
  | _ => .absent

/-- Not there at all. -/
def isAbsent : Value → Bool
  | .absent => true
  | _ => false

/-- Absent or null. -/
def isNothing : Value → Bool
  | .absent | .null => true
  | _ => false

/-- A record. -/
def isRecord : Value → Bool
  | .obj _ => true
  | _ => false

/-- The text a value is, empty for all others. -/
def asText : Value → String
  | .str s => s
  | _ => ""

/-- Exactly `true`. -/
def asBool : Value → Bool
  | .bool b => b
  | _ => false

/-- The truth value a value is. -/
def bool? : Value → Option Bool
  | .bool b => some b
  | _ => none

/-- The number a value is. -/
def number? : Value → Option Number
  | .num n => some n
  | _ => none

/-- The text a value is. -/
def text? : Value → Option String
  | .str s => some s
  | _ => none

/-- The items of an array. -/
def items? : Value → Option (List Value)
  | .arr xs => some xs
  | _ => none

/-- The fields of a record. -/
def fields? : Value → Option Fields
  | .obj fs => some fs
  | _ => none

/-- The texts a value lists: a text that is not empty, or the texts of an array. -/
def textList : Value → List String
  | .str s => if s = "" then [] else [s]
  | .arr xs => xs.filterMap text?
  | _ => []

/-- The fields of a record that hold texts. No field may be named `__proto__`. -/
def textMap : Value → List (String × String)
  | .obj fs => fs.filterMap fun f =>
      if f.1 = "__proto__" then none else f.2.text?.map (f.1, ·)
  | _ => []

/-- An array of nothing but texts. -/
def isTextArray : Value → Bool
  | .arr xs => xs.all fun v => v.text?.isSome
  | _ => false

/-- A whole number, fraction or not written. -/
def isWhole : Value → Bool
  | .num n => n.isWhole
  | _ => false

mutual

/-- Whether a value can be written as data: no number in it is infinite or `nan` and nothing in
it is absent. -/
def isData : Value → Bool
  | .absent => false
  | .null | .bool _ | .str _ => true
  | .num n => n.isFinite
  | .arr xs => areData xs
  | .obj fs => areFieldsData fs

/-- Every item can be written as data. -/
def areData : List Value → Bool
  | [] => true
  | x :: xs => isData x && areData xs

/-- Every field can be written as data. -/
def areFieldsData : List (String × Value) → Bool
  | [] => true
  | (_, v) :: fs => isData v && areFieldsData fs

end

/-- The value, if it can be written as data. -/
def data? (v : Value) : Option Value := if v.isData then some v else none

/-- Empty texts, zero, `nan`, `false`, null and absent values count as false in a condition. -/
def isTruthy : Value → Bool
  | .absent | .null => false
  | .bool b => b
  | .num n => n.isTruthy
  | .str s => s != ""
  | .arr _ | .obj _ => true

end Value

end ProxyFleet
