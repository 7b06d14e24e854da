/-!
# Counting and cutting texts

Lengths are counted in UTF-16 units, so a character beyond the basic plane
counts twice. Cutting at a separator keeps the empty pieces.
-/

namespace ProxyFleet

/-- How many UTF-16 units a character takes. -/
def unitsOf (c : Char) : Nat := if c.toNat < 0x10000 then 1 else 2

/-- The length of a text in UTF-16 units. -/
def unitLength (cs : List Char) : Nat := cs.foldr (fun c n => unitsOf c + n) 0

/-- Stands for one half of a character that takes two units. -/
def halfCharacter : Char := '\uFFFD'

/-- The first UTF-16 unit of a text. -/
def firstUnit : List Char → Option Char
  | [] => none
  | c :: _ => some (if unitsOf c = 1 then c else halfCharacter)

/-- The last UTF-16 unit of a text. -/
def lastUnit (cs : List Char) : Option Char := firstUnit cs.reverse

/-- Whether the first text begins the second; if so, what follows it. -/
def afterPrefix? : List Char → List Char → Option (List Char)
  | [], cs => some cs
  | _ :: _, [] => none
  | p :: ps, c :: cs => if p = c then afterPrefix? ps cs else none

/-- Cuts a text at every occurrence of a separator, from the left; `skip` counts the characters
of an occurrence still to be passed over and `piece` holds the current piece, reversed. -/
def cutAux (sep : List Char) : Nat → List Char → List Char → List (List Char)
  | _, piece, [] => [piece.reverse]
  | skip + 1, piece, _ :: cs => cutAux sep skip piece cs
  | 0, piece, c :: cs =>
    match afterPrefix? sep (c :: cs) with
    | some _ => piece.reverse :: cutAux sep (sep.length - 1) [] cs
    | none => cutAux sep 0 (c :: piece) cs

/-- The pieces of a text between the occurrences of a separator that is not empty. -/
def cutAt (sep cs : List Char) : List (List Char) := cutAux sep 0 [] cs

/-- The pieces joined with a separator between them. -/
def joinWith (sep : List Char) : List (List Char) → List Char
  | [] => []
  | [p] => p
  | p :: ps => p ++ sep ++ joinWith sep ps

/-- Every occurrence of `old` replaced. An empty `old` occurs between any two units. -/
def replaceAll (old new cs : List Char) : List Char :=
  if old.isEmpty then
    if new.isEmpty then cs
    else joinWith new (cs.flatMap fun c =>
      if unitsOf c = 1 then [[c]] else [[halfCharacter], [halfCharacter]])
  else joinWith new (cutAt old cs)

/-- What stands before and after the last occurrence of a character. -/
def splitLast? (c : Char) (cs : List Char) : Option (List Char × List Char) :=
  match cs.reverse.dropWhile (· != c) with
  | [] => none
  | _ :: before => some (before.reverse, (cs.reverse.takeWhile (· != c)).reverse)

/-- The texts joined with a separator between them. -/
def joinTexts (sep : String) (ts : List String) : String := sep.intercalate ts

/-! ## Texts that are written out

A text that is written out is a list of characters as it stands. Asked for its characters, it would
be decoded first, which takes long in a proof. -/

theorem toList_literal {s : String} {cs : List Char} (h : s = String.ofList cs) :
    s.toList = cs := by
  rw [h, String.toList_ofList]

theorem toList_append_literal {s t : String} {cs ds : List Char} (hs : s.toList = cs)
    (ht : t = String.ofList ds) : (s ++ t).toList = cs ++ ds := by
  rw [String.toList_append, hs, ht, String.toList_ofList]

end ProxyFleet
