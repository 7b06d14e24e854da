import ProxyFleet.Template.Plan
import ProxyFleet.Value.Display

/-!
# Values of a running template

While a template runs, an array or a record is more than what it holds: it is the
same as another only if both were found at the same place, or made by the same
call (`Origin`). Besides data there are arrays and records that were put together
while the template runs, out of values that keep their own origins, and
functions: the blocks that partials are called with.

A function is a plan together with what it sees where it is met (`Closure`).
-/

namespace ProxyFleet

namespace Template

/-- Where a value was found: in which of the values that were given or made as a whole, and under
which names there, the last name first. -/
structure Origin where
  whole : Nat
  names : List String
  deriving DecidableEq, Repr

/-- The origin of what is found in a value. -/
def Origin.child (o : Origin) (name : String) : Origin := ⟨o.whole, name :: o.names⟩

mutual

/-- A value of a running template: data and where it was found, an array or a record of such
values, or a function. What is put together has a number that nothing else has. -/
inductive Item where
  | data (v : Value) (origin : Origin)
  | list (items : List Item) (number : Nat)
  | record (fields : List (String × Item)) (number : Nat)
  | function (f : Function) (number : Nat)

/-- A function: one that yields nothing, a program of a block, or the block a partial was called
with, which sees the block of the call around it. -/
inductive Function where
  | empty
  | program (c : Closure)
  | block (c : Closure) (outer : Item)

/-- A plan and what it sees: the values of the block parameters around it, the contexts around it
if they are asked for, its private data, and the partials it defines itself. -/
inductive Closure where
  | mk (plan : Plan) (params : List Item) (depths : Option (List Item)) (frame : Item)
      (partials : List (String × Option Closure))

end

namespace Item

/-- A value that needs no origin: neither an array nor a record. -/
def plain (v : Value) : Item := .data v ⟨0, []⟩

/-- The absent value. -/
def absent : Item := plain .absent

/-- A text. -/
def text (s : String) : Item := plain (.str s)

mutual

/-- The data of a value. Functions are none. -/
def toValue : Item → Value
  | .data v _ => v
  | .list xs _ => .arr (toValues xs)
  | .record fs _ => .obj (toFields fs)
  | .function .. => .absent

/-- The data of values. -/
def toValues : List Item → List Value
  | [] => []
  | x :: xs => toValue x :: toValues xs

/-- The data of the values of fields. -/
def toFields : List (String × Item) → Fields
  | [] => []
  | (k, x) :: fs => (k, toValue x) :: toFields fs

end

/-! ## Kinds of values -/

/-- Absent or null. -/
def isNothing : Item → Bool
  | .data v _ => v.isNothing
  | _ => false

/-- Counts as true in a condition. -/
def isTruthy : Item → Bool
  | .data v _ => v.isTruthy
  | _ => true

/-- Not a value by itself, but one that holds others or that can be called. -/
def isObject : Item → Bool
  | .data (.arr _) _ | .data (.obj _) _ | .list .. | .record .. | .function .. => true
  | .data .. => false

/-- A value that a condition takes for empty: zero is not one of them. -/
def isEmpty : Item → Bool
  | .data (.arr xs) _ => xs.isEmpty
  | .data (.num n) _ => n = .nan
  | .data v _ => !v.isTruthy
  | .list xs _ => xs.isEmpty
  | _ => false

/-- The same value: equal, and for what holds others found or made at the same place. -/
def same : Item → Item → Bool
  | .data (.num x) _, .data (.num y) _ => x.eq y
  | .data (.arr _) o, .data (.arr _) p | .data (.obj _) o, .data (.obj _) p => o = p
  | .data (.arr _) _, _ | .data (.obj _) _, _ => false
  | .data v _, .data w _ => v == w
  | .list _ m, .list _ n | .record _ m, .record _ n | .function _ m, .function _ n => m = n
  | _, _ => false

/-! ## What a value holds -/

/-- What a value holds by name: the fields of a record, the items of an array and the units of a
text, these by their place. -/
def parts : Item → List (String × Item)
  | .data v o => v.parts.map fun (k, w) => (k, .data w (o.child k))
  | .list xs _ => xs.zipIdx.map fun (x, i) => (toString i, x)
  | .record fs _ => fs
  | .function .. => []

/-- The items of an array. -/
def items : Item → List Item
  | .data (.arr xs) o => xs.zipIdx.map fun (x, i) => .data x (o.child (toString i))
  | .list xs _ => xs
  | _ => []

/-- An array. -/
def isArray : Item → Bool
  | .data (.arr _) _ | .list .. => true
  | _ => false

/-- The value an item has for a name. -/
def own? (i : Item) (name : String) : Option Item :=
  match i with
  | .data v o => (v.own? name).map fun w => .data w (o.child name)
  | .list xs _ =>
    if name = "length" then some (plain (.int xs.length))
    else (indexName? name).bind fun n => xs[n]?
  | .record fs _ => Fields.get? fs name
  | .function .. => none

/-- A field on the way to a value. It cannot be asked of an absent value or of null. -/
def field (i : Item) (name : String) : Except ShapeFault Item :=
  if i.isNothing then .error (.noFields name) else .ok ((i.own? name).getD absent)

/-- The names that everything that holds values is taken to have without having a value for
them. -/
def recordNames : List String :=
  ["constructor", "hasOwnProperty", "isPrototypeOf", "propertyIsEnumerable", "toLocaleString",
    "toString", "valueOf", "__proto__", "__defineGetter__", "__defineSetter__",
    "__lookupGetter__", "__lookupSetter__"]

/-- The names that every array is taken to have besides, without having a value for them. -/
def arrayNames : List String :=
  ["at", "concat", "copyWithin", "entries", "every", "fill", "filter", "find", "findIndex",
    "findLast", "findLastIndex", "flat", "flatMap", "forEach", "includes", "indexOf", "join",
    "keys", "lastIndexOf", "map", "pop", "push", "reduce", "reduceRight", "reverse", "shift",
    "slice", "some", "sort", "splice", "toReversed", "toSorted", "toSpliced", "unshift", "values",
    "with"]

/-- The names that every function is taken to have besides, without having a value for them. -/
def functionNames : List String :=
  ["apply", "arguments", "bind", "call", "caller", "length", "name", "prototype"]

/-- Whether something that holds values has a name, in itself or as one that all have. -/
def hasName (i : Item) (name : String) : Bool :=
  (i.own? name).isSome || recordNames.contains name
    || (i.isArray && arrayNames.contains name)
    || match i with
      | .function .. => functionNames.contains name
      | _ => false

/-! ## Values as texts and numbers -/

/-- How a value reads inside running text. -/
def display (i : Item) : Except ShapeFault String := i.toValue.display

/-- A value by itself: what holds others stands for its reading. -/
def primitive (i : Item) : Except ShapeFault Value :=
  if i.isObject then i.display.map .str else .ok i.toValue

/-- The number of a value by itself, as comparing and adding take it. -/
def numberOf : Value → Number
  | .num n => n
  | .bool b => if b then 1 else .finite 0
  | .str s =>
    if isAllBlank s then .finite 0 else (Number.ofLiteral? (trimChars s.toList)).getD .nan
  | _ => .finite 0

/-- Equality of contexts that tells whether a block goes in deeper: the absent value is null, and
a text can be equal to a number or to what reads like it. -/
def looselySame (a b : Item) : Except ShapeFault Bool :=
  if a.isNothing || b.isNothing then .ok (a.isNothing && b.isNothing)
  else if a.isObject && b.isObject then .ok (a.same b)
  else do
    match ← a.primitive, ← b.primitive with
    | .str s, .str t => pure (s == t)
    | x, y => pure ((numberOf x).eq (numberOf y))

/-- Two yields joined: numbers and truth values are added up, all else is joined as text. -/
def plus (a b : Item) : Except ShapeFault Item := do
  let x ← a.primitive
  let y ← b.primitive
  if x.text?.isSome || y.text?.isSome then pure (text ((← x.display) ++ (← y.display)))
  else pure (plain (.num ((numberOf x).add (numberOf y))))

end Item

end Template

end ProxyFleet
