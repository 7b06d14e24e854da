import ProxyFleet.Number.Decimal
import ProxyFleet.Value

/-!
# Writing data texts

Two layouts: `tight` has no space at all, `spread` puts every item on a line of
its own, two spaces deeper than its bracket. Infinite numbers and `nan` are
written as `null`, absent items too, and absent fields are left out.
-/

namespace ProxyFleet

/-- How the parts of a data text are set apart. -/
inductive Layout where
  | tight
  | spread
  deriving DecidableEq, Repr

namespace Layout

/-- What stands before an item or a closing bracket at a depth. -/
def lineBreak : Layout → Nat → List Char
  | .tight, _ => []
  | .spread, depth => '\n' :: List.replicate (2 * depth) ' '

/-- What stands between a name and its value. -/
def colon : Layout → List Char
  | .tight => [':']
  | .spread => [':', ' ']

end Layout

namespace Printer

/-- A digit in base 16, lower case. -/
def hexChar (n : Nat) : Char := if n < 10 then Char.ofNat (48 + n) else Char.ofNat (87 + n)

/-- A character within a quoted text. -/
def escape (c : Char) : List Char :=
  if c = '"' then ['\\', '"']
  else if c = '\\' then ['\\', '\\']
  else if c = '\n' then ['\\', 'n']
  else if c = '\r' then ['\\', 'r']
  else if c = '\t' then ['\\', 't']
  else if c = '\x08' then ['\\', 'b']
  else if c = '\x0c' then ['\\', 'f']
  else if c.toNat < 0x20 then
    ['\\', 'u', '0', '0', hexChar (c.toNat / 16), hexChar (c.toNat % 16)]
  else [c]

/-- A text in quotes. -/
def quoted (s : String) : List Char := '"' :: (s.toList.flatMap escape ++ ['"'])

/-- The text of a number. -/
def number (n : Number) : List Char := if n.isFinite then n.chars else "null".toList

mutual

/-- The text of a value that stands at a depth. -/
def value (l : Layout) (depth : Nat) : Value → List Char
  | .absent => "null".toList
  | .null => "null".toList
  | .bool true => "true".toList
  | .bool false => "false".toList
  | .num n => number n
  | .str s => quoted s
  | .arr [] => ['[', ']']
  | .arr (x :: xs) =>
    '[' :: (l.lineBreak (depth + 1) ++ value l (depth + 1) x ++ items l (depth + 1) xs
      ++ l.lineBreak depth ++ [']'])
  | .obj fs =>
    match fields l (depth + 1) fs with
    | [] => ['{', '}']
    | _ :: body => '{' :: (body ++ l.lineBreak depth ++ ['}'])

/-- Further items, each after a comma. -/
def items (l : Layout) (depth : Nat) : List Value → List Char
  | [] => []
  | x :: xs => ',' :: (l.lineBreak depth ++ value l depth x ++ items l depth xs)

/-- The fields that are there, each after a comma. -/
def fields (l : Layout) (depth : Nat) : List (String × Value) → List Char
  | [] => []
  | (_, .absent) :: fs => fields l depth fs
  | (k, v) :: fs =>
    ',' :: (l.lineBreak depth ++ quoted k ++ l.colon ++ value l depth v ++ fields l depth fs)

end

end Printer

/-- The text of a value without spaces. -/
def Value.tightText (v : Value) : String := String.ofList (Printer.value .tight 0 v)

/-- The text of a value, one item a line. -/
def Value.spreadText (v : Value) : String := String.ofList (Printer.value .spread 0 v)

end ProxyFleet
