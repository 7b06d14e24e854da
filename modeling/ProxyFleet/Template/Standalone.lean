import ProxyFleet.Template.Tree

/-!
# Blanks around tags

A tilde in a tag drops all blanks on its side. A tag that starts or ends a block
or a branch, a comment or a partial, and that stands alone on its line, takes the
line with it. Both are done once, on the tree, before a template is run.

Whether a line is otherwise blank is decided on the text as it was written, so
that the order of the changes does not matter for it.
-/

namespace ProxyFleet

namespace Template

namespace Standalone

/-! ## Texts -/

/-- The blanks at the end of a text. -/
def trailingBlanks (cs : List Char) : List Char := (cs.reverse.takeWhile isBlank).reverse

/-- Whether nothing but blanks follows the last line end. At the very front (`front`) of a
template no line end is needed. -/
def endsBlankLine (front : Bool) (s : String) : Bool :=
  (trailingBlanks s.toList).contains '\n' || (front && s.toList.all isBlank)

/-- Whether nothing but blanks precedes the first line end. At the very end (`back`) of a
template no line end is needed. -/
def beginsBlankLine (back : Bool) (s : String) : Bool :=
  (s.toList.takeWhile isBlank).contains '\n' || (back && s.toList.all isBlank)

/-- A space or a tabulator. -/
def isInlineBlank (c : Char) : Bool := c = ' ' || c = '\t'

/-- The text without the rest of a blank line at its front. -/
def dropLine (cs : List Char) : List Char :=
  match cs.dropWhile isInlineBlank with
  | '\r' :: '\n' :: r => r
  | '\r' :: r => r
  | '\n' :: r => r
  | r => r

/-- The text without blanks at its front: all of them, or those up to the end of the line. -/
def trimFront (all : Bool) (s : String) : String :=
  String.ofList (if all then s.toList.dropWhile isBlank else dropLine s.toList)

/-- The text without blanks at its end: all of them, or those of its last line. -/
def trimBack (all : Bool) (s : String) : String :=
  String.ofList (dropTrailing (if all then isBlank else isInlineBlank) s.toList)

/-! ## Statements -/

/-- A statement with the blanks at its front dropped, if it is a text. A text is trimmed to the
end of a line at most once. -/
def omitFront (all : Bool) : Statement → Statement
  | .content written value l r =>
    if !all && r then .content written value l r
    else
      let value' := trimFront all value
      .content written value' l (value' != value)
  | s => s

/-- A statement with the blanks at its end dropped, if it is a text. -/
def omitBack (all : Bool) : Statement → Statement
  | .content written value l r =>
    if !all && l then .content written value l r
    else
      let value' := trimBack all value
      .content written value' (value' != value) r
  | s => s

/-- Whether blanks at the end of a text were dropped last. -/
def trimmedBack : Statement → Bool
  | .content _ _ l _ => l
  | _ => false

/-- The first statement of a program with the blanks at its front dropped. -/
def omitFirst (all : Bool) (p : Program) : Program :=
  match p.body with
  | s :: ss => p.withBody (omitFront all s :: ss)
  | [] => p

/-- The last statement of a program with the blanks at its end dropped. -/
def omitLast (all : Bool) (p : Program) : Program :=
  match p.body.getLast? with
  | some s => p.withBody (p.body.dropLast ++ [omitBack all s])
  | none => p

/-- Whether the text before a place ends in a blank line. `before` holds the statements before
it, the nearest first. -/
def blankBefore (root : Bool) (before : List Statement) : Bool :=
  match before with
  | [] => root
  | .content written .. :: rest => endsBlankLine (rest.isEmpty && root) written
  | _ => false

/-- Whether the text behind a place begins with a blank line. -/
def blankBehind (root : Bool) (behind : List Statement) : Bool :=
  match behind with
  | [] => root
  | .content written .. :: rest => beginsBlankLine (rest.isEmpty && root) written
  | _ => false

/-- What a statement means for the text around it: whether all blanks are dropped on a side, and
whether its start, its end, or all of it takes a line of its own with it. -/
structure Effect where
  trim : Trim
  opens : Bool
  closes : Bool
  inline : Bool

/-- The blanks a text is indented by, as it was written. -/
def indentOf : Statement → String
  | .content written .. =>
    String.ofList (written.toList.reverse.takeWhile isInlineBlank).reverse
  | _ => ""

/-- A partial indented by the blanks before it. -/
def indented (indent : String) : Statement → Statement
  | .partialTag name ps ns _ trim place => .partialTag name ps ns indent trim place
  | s => s

/-- Drops blanks at the front of the nearest text. -/
def omitNext (all : Bool) : List Statement → List Statement
  | s :: ss => omitFront all s :: ss
  | [] => []

/-- Drops blanks at the end of the nearest text; the nearest statement comes first. -/
def omitPrevious (all : Bool) : List Statement → List Statement
  | s :: ss => omitBack all s :: ss
  | [] => []

/-- Changes the program of a block, or its other program if it has none. -/
def changeFirst (f : Program → Program) : Statement → Statement
  | .block d c (some p) i o m e => .block d c (some (f p)) i o m e
  | .block d c none (some i) o m e => .block d c none (some (f i)) o m e
  | .partialBlock n ps ns p o e place => .partialBlock n ps ns (f p) o e place
  | s => s

/-- Changes the other program of a block, or its program if it has no other. -/
def changeLast (f : Program → Program) : Statement → Statement
  | .block d c p (some i) o m e => .block d c p (some (f i)) o m e
  | .block d c (some p) none o m e => .block d c (some (f p)) none o m e
  | .partialBlock n ps ns p o e place => .partialBlock n ps ns (f p) o e place
  | s => s

/-- The statements around one with an effect, and that statement itself, changed by it. -/
def applyEffect (root : Bool) (before : List Statement) (s : Statement)
    (behind : List Statement) (e : Effect) :
    List Statement × Statement × List Statement :=
  let blankL := blankBefore root before
  let blankR := blankBehind root behind
  let opens := e.opens && blankL
  let closes := e.closes && blankR
  let inline := e.inline && blankL && blankR
  let behind := if e.trim.right then omitNext true behind else behind
  let before := if e.trim.left then omitPrevious true before else before
  let behind := if inline then omitNext false behind else behind
  let fresh := !before.head?.any trimmedBack
  let before := if inline then omitPrevious false before else before
  let s :=
    if inline && fresh && before.head?.any trimmedBack then
      indented (indentOf (before.headD (.comment .none))) s
    else s
  let s := if opens then changeFirst (omitFirst false) s else s
  let before := if opens then omitPrevious false before else before
  let behind := if closes then omitNext false behind else behind
  let s := if closes then changeLast (omitLast false) s else s
  (before, s, behind)

/-- Applies the effects of statements one after the other. `behind` holds the statements to come
with their effects. -/
def applyEffects (root : Bool) : Nat → List Statement → List Statement →
    List (Option Effect) → List Statement
  | fuel + 1, before, s :: behind, effect :: effects =>
    match effect with
    | some e =>
      let (before, s, behind) := applyEffect root before s behind e
      applyEffects root fuel (s :: before) behind effects
    | none => applyEffects root fuel (s :: before) behind effects
  | _, before, behind, _ => before.reverse ++ behind

/-! ## Blocks -/

/-- Changes the first branch of another branch: that of a further condition is its program. -/
def atFirstBranch (f : Program → Program) (p : Program) : Program :=
  if p.chained then
    match p.body with
    | .block d c (some q) i o m e :: rest =>
      p.withBody (.block d c (some (f q)) i o m e :: rest)
    | _ => p
  else f p

/-- The first branch of another branch. -/
def firstBranch (p : Program) : Program :=
  if p.chained then
    match p.body with
    | .block _ _ (some q) _ _ _ _ :: _ => q
    | _ => p
  else p

/-- A block with the blanks at the edges of its programs dropped, and its effect on the text
around it. -/
def settleBlock (decorator : Bool) (c : Call) (program inverse : Option Program)
    (opened inverted closed : Trim) : Statement × Option Effect :=
  match program, inverse with
  | none, none => (.block decorator c none none opened inverted closed, none)
  | some p, none | none, some p =>
    let effect : Effect := ⟨⟨opened.left, closed.right⟩, blankBehind false p.body,
      blankBefore false p.body.reverse, false⟩
    let p := if opened.right then omitFirst true p else p
    let p := if closed.left then omitLast true p else p
    (match program with
      | some _ => .block decorator c (some p) none opened inverted closed
      | none => .block decorator c none (some p) opened inverted closed, some effect)
  | some p, some i =>
    let effect : Effect := ⟨⟨opened.left, closed.right⟩, blankBehind false p.body,
      blankBefore false (firstBranch i).body.reverse, false⟩
    let p := if opened.right then omitFirst true p else p
    let p := if inverted.left then omitLast true p else p
    let i := if inverted.right then atFirstBranch (omitFirst true) i else i
    let i := if closed.left then atFirstBranch (omitLast true) i else i
    let alone := blankBefore false p.body.reverse && blankBehind false (firstBranch i).body
    let p := if alone then omitLast false p else p
    let i := if alone then atFirstBranch (omitFirst false) i else i
    (.block decorator c (some p) (some i) opened inverted closed, some effect)

mutual

/-- A statement with its own programs settled, and its effect on the text around it. -/
def settleStatement : Statement → Statement × Option Effect
  | .content o v l r => (.content o v l r, none)
  | .comment trim => (.comment trim, some ⟨trim, false, false, true⟩)
  | .insert c trim => (.insert c trim, some ⟨trim, false, false, false⟩)
  | .decorator c trim => (.decorator c trim, some ⟨trim, false, false, false⟩)
  | .block d c p i opened inverted closed =>
    settleBlock d c (settleOptional p) (settleOptional i) opened inverted closed
  | .partialTag n ps ns indent trim place =>
    (.partialTag n ps ns indent trim place, some ⟨trim, false, false, true⟩)
  | .partialBlock n ps ns p opened closed place =>
    let p := settleProgram false p
    let effect : Effect := ⟨⟨opened.left, closed.right⟩, blankBehind false p.body,
      blankBefore false p.body.reverse, false⟩
    let p := if opened.right then omitFirst true p else p
    let p := if closed.left then omitLast true p else p
    (.partialBlock n ps ns p opened closed place, some effect)

/-- A program that need not be there. -/
def settleOptional : Option Program → Option Program
  | some p => some (settleProgram false p)
  | none => none

/-- The statements of a program, each settled, with their effects. -/
def settleStatements : List Statement → List (Statement × Option Effect)
  | [] => []
  | s :: ss => settleStatement s :: settleStatements ss

/-- A program with the blanks around its tags dropped. -/
def settleProgram (root : Bool) : Program → Program
  | .mk body names chained =>
    let settled := settleStatements body
    .mk (applyEffects root settled.length [] (settled.map (·.1)) (settled.map (·.2)))
      names chained

end

end Standalone

/-- A template with the blanks around its tags dropped. -/
def Program.settled (p : Program) : Program := Standalone.settleProgram true p

end Template

end ProxyFleet
