import ProxyFleet.Value.Printer
import ProxyFleet.Wire.Message

/-!
# Reading the bodies of answers

A body is read as a whole: every part that is not what it must be is told, not
only the first. Parts that may be missing have defaults, and fields nobody asked
for are passed over.
-/

namespace ProxyFleet

/-- A step into a value. -/
inductive PathStep where
  | name (field : String)
  | place (index : Nat)
  deriving DecidableEq, Repr

/-- A part of a body that is not what it must be. -/
structure Mismatch where
  expected : String
  received : String
  path : List PathStep
  deriving DecidableEq, Repr

/-- What was read, as far as it could be, and all that was wrong with it. -/
structure Checked (α : Type) where
  value : α
  mismatches : List Mismatch

/-- The word for the kind of a value. -/
def Value.kind : Value → String
  | .absent => "undefined"
  | .null => "null"
  | .bool _ => "boolean"
  | .num _ => "number"
  | .str _ => "string"
  | .arr _ => "array"
  | .obj _ => "object"

namespace Mismatch

/-- What is wrong, in words. -/
def message (m : Mismatch) : String :=
  if m.received = Value.absent.kind then "Required"
  else "Expected " ++ m.expected ++ ", received " ++ m.received

/-- A step as a value. -/
def stepValue : PathStep → Value
  | .name field => .str field
  | .place index => .int index

/-- A mismatch as a record. -/
def toValue (m : Mismatch) : Value :=
  .obj [
    ("code", .str "invalid_type"),
    ("expected", .str m.expected),
    ("received", .str m.received),
    ("path", .arr (m.path.map stepValue)),
    ("message", .str m.message)]

/-- Mismatches as a text. -/
def listText (ms : List Mismatch) : String := (Value.arr (ms.map toValue)).spreadText

end Mismatch

namespace Checked

/-- A part that is not what it must be; `a` stands in for it. -/
def wrong {α : Type} (a : α) (expected : String) (path : List PathStep) (v : Value) : Checked α :=
  ⟨a, [⟨expected, v.kind, path⟩]⟩

/-- What was read, if nothing was wrong. -/
def toExcept {α : Type} (c : Checked α) : Except (List Mismatch) α :=
  if c.mismatches.isEmpty then .ok c.value else .error c.mismatches

/-- A text. -/
def text (path : List PathStep) (v : Value) : Checked String :=
  match v with
  | .str s => ⟨s, []⟩
  | v => wrong "" "string" path v

/-- Yes or no. -/
def flag (path : List PathStep) (v : Value) : Checked Bool :=
  match v with
  | .bool b => ⟨b, []⟩
  | v => wrong false "boolean" path v

/-- A part that may be missing. -/
def orElse {α : Type} (default : α) (read : List PathStep → Value → Checked α)
    (path : List PathStep) (v : Value) : Checked α :=
  if v.isAbsent then ⟨default, []⟩ else read path v

/-- The items of a list from a place on. -/
def itemsFrom {α : Type} (read : List PathStep → Value → Checked α) (path : List PathStep) :
    Nat → List Value → Checked (List α)
  | _, [] => ⟨[], []⟩
  | i, v :: vs =>
    let first := read (path ++ [.place i]) v
    let others := itemsFrom read path (i + 1) vs
    ⟨first.value :: others.value, first.mismatches ++ others.mismatches⟩

/-- A list. -/
def list {α : Type} (read : List PathStep → Value → Checked α) (path : List PathStep) (v : Value) :
    Checked (List α) :=
  match v with
  | .arr vs => itemsFrom read path 0 vs
  | v => wrong [] "array" path v

/-- A field of a record. -/
def field {α : Type} (fs : Fields) (path : List PathStep) (name : String)
    (read : List PathStep → Value → Checked α) : Checked α :=
  read (path ++ [.name name]) (fs.get name)

end Checked

/-- A core in an answer. -/
def CoreInfo.ofBody (path : List PathStep) (v : Value) : Checked CoreInfo :=
  match v with
  | .obj fs =>
    let type := Checked.field fs path "type" .text
    let version := Checked.field fs path "version" (.orElse "" .text)
    let installed := Checked.field fs path "installed" (.orElse false .flag)
    let capabilities := Checked.field fs path "capabilities" (.orElse [] (.list .text))
    ⟨⟨type.value, version.value, installed.value, capabilities.value⟩,
      type.mismatches ++ version.mismatches ++ installed.mismatches ++ capabilities.mismatches⟩
  | v => .wrong ⟨"", "", false, []⟩ "object" path v

/-- The cores an answer lists. -/
def coresOfBody (v : Value) : Checked (List CoreInfo) :=
  match v with
  | .obj fs => Checked.field fs [] "cores" (.orElse [] (.list CoreInfo.ofBody))
  | v => .wrong [] "object" [] v

/-- What an answer says of a switch. -/
def SwitchReply.ofBody (v : Value) : Checked SwitchReply :=
  match v with
  | .obj fs =>
    let success := Checked.field fs [] "success" .flag
    let newInstanceId := Checked.field fs [] "newInstanceId" (.orElse "" .text)
    let message := Checked.field fs [] "message" (.orElse "" .text)
    let error := Checked.field fs [] "error" (.orElse "" .text)
    ⟨⟨success.value, newInstanceId.value, message.value, error.value⟩,
      success.mismatches ++ newInstanceId.mismatches ++ message.mismatches ++ error.mismatches⟩
  | v => .wrong ⟨false, "", "", ""⟩ "object" [] v

end ProxyFleet
