import ProxyFleet.Number.Decimal
import ProxyFleet.Text.Blank

/-!
# Versions

A version is read out of the text a core reports, which may begin with `v` and go
on after the number. Of a run of digits at most sixteen make a component, and
a component must be exact: no idle leading zero, not above `2 ^ 53 - 1`.
-/

namespace ProxyFleet

/-- A version of three components. -/
structure Version where
  major : Nat
  minor : Nat
  patch : Nat
  deriving DecidableEq, Repr

namespace Version

/-- The longest run of digits that is a component. -/
def maxDigits : Nat := 16

/-- The digits of a component at the front of a text, and what follows them. -/
def component? (cs : List Char) : Option (List Char × List Char) :=
  let (ds, rest) := Decimal.spanDigits cs
  if ds.isEmpty || maxDigits < ds.length then none else some (ds, rest)

/-- A further component, behind a point. -/
def further? : List Char → Option (List Char × List Char)
  | '.' :: cs => component? cs
  | _ => none

/-- The first component of a text; `edge` says that no digit stands right before the text. -/
def firstComponent? (edge : Bool) : List Char → Option (List Char × List Char)
  | [] => none
  | c :: cs =>
    match if edge then component? (c :: cs) else none with
    | some r => some r
    | none => firstComponent? (!c.isDigit) cs

/-- The number of a component, if the digits write it exactly. -/
def precise? (ds : List Char) : Option Nat :=
  match ds with
  | '0' :: _ :: _ => none
  | ds => if Decimal.ofDigits ds < Number.exactLimit then some (Decimal.ofDigits ds) else none

/-- A text that begins with a digit, or with `v` and a digit. -/
def startsLikeVersion : List Char → Bool
  | 'v' :: c :: _ | 'V' :: c :: _ => c.isDigit
  | c :: _ => c.isDigit
  | [] => false

/-- The version in a text. Components that are not there are zero. -/
def ofText? (s : String) : Option Version := do
  let cs := trimChars s.toList
  if !startsLikeVersion cs then none
  else
    let (major, rest) ← firstComponent? true cs
    let (minor, rest) := (further? rest).getD (['0'], [])
    let (patch, _) := (further? rest).getD (['0'], [])
    pure ⟨← precise? major, ← precise? minor, ← precise? patch⟩

/-- The text of a version. -/
def text (v : Version) : String :=
  toString v.major ++ "." ++ toString v.minor ++ "." ++ toString v.patch

/-- Versions are ordered by their components, the major one first. -/
def compare (v w : Version) : Ordering :=
  (Ord.compare v.major w.major).then
    ((Ord.compare v.minor w.minor).then (Ord.compare v.patch w.patch))

end Version

/-- How the versions in two texts compare, if both have one. -/
def compareVersions? (a b : String) : Option Ordering := do
  pure ((← Version.ofText? a).compare (← Version.ofText? b))

/-- Whether the first text has a version that is not below that of the second. -/
def versionAtLeast (version minimum : String) : Bool :=
  match compareVersions? version minimum with
  | some o => o != .lt
  | none => false

end ProxyFleet
