import ProxyFleet.Text.CaseTable

/-!
# Lower and upper case

Full case conversion: some letters become several characters, and a capital
sigma that ends a word becomes a final sigma.
-/

namespace ProxyFleet

/-- Whether a code point lies in one of the ranges. -/
def inRanges (ranges : List (Nat × Nat)) (n : Nat) : Bool :=
  ranges.any fun (a, b) => a ≤ n && n ≤ b

/-- The image of a character under runs and long forms; itself when neither names it. -/
def caseImage (runs : List (Nat × Nat × Nat × Int)) (long : List (Nat × List Nat)) (c : Char) :
    List Char :=
  let n := c.toNat
  match long.lookup n with
  | some image => image.map Char.ofNat
  | none =>
    match runs.find? fun (a, b, step, _) => a ≤ n && n ≤ b && (n - a) % step == 0 with
    | some (_, _, _, shift) => [Char.ofNat ((n : Int) + shift).toNat]
    | none => [c]

/-- Whether the nearest character that case does not pass over has a case. -/
def nextIsCased (cs : List Char) : Bool :=
  match cs.dropWhile (inRanges CaseTable.ignorable ·.toNat) with
  | c :: _ => inRanges CaseTable.cased c.toNat
  | [] => false

/-- The lower-case form, given the characters before, nearest first. -/
def lowerAux : List Char → List Char → List Char
  | _, [] => []
  | before, c :: cs =>
    let image :=
      if c.toNat < 128 then [c.toLower]
      else if c = 'Σ' then
        (if nextIsCased before && !nextIsCased cs then ['ς'] else ['σ'])
      else caseImage CaseTable.lowerRuns CaseTable.lowerLong c
    image ++ lowerAux (c :: before) cs

/-- The lower-case form of a text. -/
def lowerChars (cs : List Char) : List Char := lowerAux [] cs

/-- The upper-case form of a text. -/
def upperChars (cs : List Char) : List Char :=
  cs.flatMap fun c =>
    if c.toNat < 128 then [c.toUpper] else caseImage CaseTable.upperRuns CaseTable.upperLong c

/-- The lower-case form of a text. -/
def lower (s : String) : String := String.ofList (lowerChars s.toList)

/-- The upper-case form of a text. -/
def upper (s : String) : String := String.ofList (upperChars s.toList)

end ProxyFleet
