import ProxyFleet.Number.Decimal
import ProxyFleet.Text.Blank
import ProxyFleet.Text.Units

/-!
# Lexemes of templates

A template is plain text with tags between braces. Within a tag the scanner
tries its rules in a fixed order, and names and literals count only if what
follows them may follow (`mayFollowName`, `mayFollowLiteral`).

A backslash before a tag makes it plain text up to the next tag, two
backslashes stand for one. A raw block, between four braces, holds plain text up
to its own end.
-/

namespace ProxyFleet

namespace Template

/-- A place in a text: lines count from one, columns from zero in UTF-16 units. -/
structure Place where
  line : Nat
  column : Nat
  deriving DecidableEq, Repr

/-- Where every text begins. -/
def Place.start : Place := ⟨1, 0⟩

/-- How many line ends a text has; a carriage return and a line feed behind it are one. -/
def lineEnds : List Char → Nat
  | [] => 0
  | '\r' :: '\n' :: cs => lineEnds cs + 1
  | c :: cs => if c = '\n' || c = '\r' then lineEnds cs + 1 else lineEnds cs

/-- The place behind a text. -/
def Place.after (p : Place) (cs : List Char) : Place :=
  if cs.any fun c => c = '\n' || c = '\r' then
    let last := (cs.reverse.takeWhile fun c => c != '\n' && c != '\r').reverse
    ⟨p.line + lineEnds cs, unitLength (last.takeWhile fun c => !endsLine c)⟩
  else ⟨p.line, p.column + unitLength cs⟩

/-- The words of a template. Flags of tags say whether blanks before (`left`) and behind
(`right`) them are dropped. -/
inductive Lexeme where
  | content (s : String)
  | comment (left right : Bool)
  | openRaw
  | closeRaw
  | endRaw (name : String)
  | openPartial (left : Bool)
  | openPartialBlock (left : Bool)
  | openBlock (left decorator : Bool)
  | openEnd (left : Bool)
  | inverse (left right : Bool)
  | openInverse (left : Bool)
  | openChain (left : Bool)
  | openUnescaped (left : Bool)
  | openTag (left decorator : Bool)
  | closeUnescaped (right : Bool)
  | close (right : Bool)
  | openCall
  | closeCall
  | openNames
  | closeNames
  | equals
  | data
  | id (text : String)
  | separator (text : String)
  | string (s : String)
  | number (n : Number)
  | bool (b : Bool)
  | undefined
  | null
  | invalid
  | ending
  | broken
  deriving DecidableEq, Repr

namespace Lexeme

/-- What the scanner is inside of: plain text, the plain text behind a backslash, a tag, or a
number of raw blocks. -/
inductive Mode where
  | plain
  | escaped
  | tag
  | raw (depth : Nat)
  deriving DecidableEq, Repr

/-- One step of the scanner: the lexeme, if there is one, how many characters it takes, and what
the scanner is inside of then. -/
structure Step where
  lexeme : Option Lexeme
  length : Nat
  mode : Mode

/-- Whether a text begins with another. -/
def begins (p cs : List Char) : Bool := (afterPrefix? p cs).isSome

/-- How many characters stand before the first place where a condition holds of the rest. -/
def upTo? (stop : List Char → Bool) : List Char → Option Nat
  | [] => if stop [] then some 0 else none
  | c :: cs => if stop (c :: cs) then some 0 else (upTo? stop cs).map (· + 1)

/-- The first of the rules that applies. -/
def firstRule {α : Type} (rules : List (Option α)) : Option α := rules.findSome? fun r => r

/-! ## Plain text -/

/-- The character that no text may hold. -/
def isNul (c : Char) : Bool := c = '\x00'

/-- A tag begins here. -/
def atTag (cs : List Char) : Bool := begins ['{', '{'] cs

/-- A tag or the character that no text may hold. -/
def atTagOrNul (cs : List Char) : Bool := atTag cs || cs.head?.any isNul

/-- A text as a lexeme, if it is not empty. -/
def contentOf (cs : List Char) : Option Lexeme :=
  if cs.isEmpty then none else some (.content (String.ofList cs))

/-- A step through plain text, up to a tag. -/
def plainStep (cs : List Char) : Option Step :=
  let n := (upTo? atTagOrNul cs).getD cs.length
  let text := cs.take n
  if cs.isEmpty then some ⟨some .ending, 0, .plain⟩
  else if !atTag (cs.drop n) then
    if n = 0 then none else some ⟨contentOf text, n, .plain⟩
  else match text.reverse with
    | '\\' :: '\\' :: _ => some ⟨contentOf text.dropLast, n, .tag⟩
    | '\\' :: _ => some ⟨contentOf text.dropLast, n, .escaped⟩
    | _ => some ⟨contentOf text, n, .tag⟩

/-- Where the plain text behind a backslash ends: at a tag, with or without backslashes. -/
def endsEscaped (cs : List Char) : Bool :=
  cs.isEmpty || atTag cs || begins ['\\', '{', '{'] cs || begins ['\\', '\\', '{', '{'] cs

/-- A step through a tag that a backslash makes plain text. -/
def escapedStep (cs : List Char) : Option Step :=
  (upTo? endsEscaped (cs.drop 2)).bind fun n =>
    let text := cs.take (n + 2)
    if text.any isNul then none else some ⟨contentOf text, n + 2, .plain⟩

/-! ## Raw blocks -/

/-- A character of a name: neither blank nor one of the signs that structure a tag. -/
def isNameChar (c : Char) : Bool :=
  let n := c.toNat
  !(isBlank c || n = 0x21 || n = 0x22 || n = 0x23 || (0x25 ≤ n && n ≤ 0x2c) || n = 0x2e
    || n = 0x2f || (0x3b ≤ n && n ≤ 0x3e) || n = 0x40 || (0x5b ≤ n && n ≤ 0x5e) || n = 0x60
    || (0x7b ≤ n && n ≤ 0x7e))

/-- Four opening braces. -/
def fourOpen : List Char := ['{', '{', '{', '{']

/-- Four closing braces. -/
def fourClose : List Char := ['}', '}', '}', '}']

/-- The name in the end tag of a raw block. -/
def rawEnd? (cs : List Char) : Option (List Char) :=
  (afterPrefix? (fourOpen ++ ['/']) cs).bind fun rest =>
    let name := rest.takeWhile isNameChar
    if !name.isEmpty && begins fourClose (rest.dropWhile isNameChar) then some name else none

/-- A step through a raw block. -/
def rawStep (depth : Nat) (cs : List Char) : Option Step :=
  match afterPrefix? fourOpen cs with
  | some (c :: _) =>
    if c != '/' then some ⟨contentOf fourOpen, 4, .raw (depth + 1)⟩
    else match rawEnd? cs with
      | some name =>
        if depth ≤ 1 then some ⟨some (.endRaw (String.ofList name)), name.length + 9, .plain⟩
        else some ⟨contentOf (cs.take (name.length + 9)), name.length + 9, .raw (depth - 1)⟩
      | none => rawText depth cs
  | _ => rawText depth cs
where
  /-- Plain text up to the next four opening braces. -/
  rawText (depth : Nat) (cs : List Char) : Option Step :=
    if cs.isEmpty then none
    else (upTo? (begins fourOpen) (cs.drop 1)).bind fun n =>
      let text := cs.take (n + 1)
      if text.any isNul then none else some ⟨contentOf text, n + 1, .raw depth⟩

/-! ## The beginning of a tag -/

/-- Two closing braces, or with a tilde before them: how many characters, and whether the tilde is
there. -/
def closing? (cs : List Char) : Option (Nat × Bool) :=
  if begins ['~', '}', '}'] cs then some (3, true)
  else if begins ['}', '}'] cs then some (2, false)
  else none

/-- A character of a word in the narrow sense. -/
def isWordChar (c : Char) : Bool := c.isAlphanum || c = '_'

/-- How many blanks a text begins with. -/
def blanks (cs : List Char) : Nat := (cs.takeWhile isBlank).length

/-- A tag of nothing but a mark of the other branch, between blanks. -/
def bareInverse? (left : Bool) (skip : Nat) (mark rest : List Char) : Option Step :=
  (afterPrefix? mark rest).bind fun r =>
    (closing? (r.drop (blanks r))).map fun c =>
      ⟨some (.inverse left c.2), skip + mark.length + blanks r + c.1, .plain⟩

/-- A comment: from its opening braces up to the first closing ones. -/
def comment? (left : Bool) (stop : List Char → Bool) (length : List Char → Nat)
    (cs : List Char) : Option Step :=
  (upTo? stop cs).map fun n =>
    let total := n + length (cs.drop n)
    let text := cs.take total
    ⟨some (.comment left ((text.take (total - 2)).getLast? = some '~')), total, .plain⟩

/-- Two hyphens and closing braces. -/
def atLongEnd (cs : List Char) : Bool :=
  begins ['-', '-', '}', '}'] cs || begins ['-', '-', '~', '}', '}'] cs

/-- How long the end of a long comment is. -/
def longEndLength (cs : List Char) : Nat := if begins ['-', '-', '}', '}'] cs then 4 else 5

/-- What two opening braces begin; `cs` is the text from the braces on. -/
def opening (cs : List Char) : Option Step :=
  let left := begins ['~'] (cs.drop 2)
  let skip := if left then 3 else 2
  let rest := cs.drop skip
  let mark (m : List Char) (l : Lexeme) : Option Step :=
    if begins m rest then some ⟨some l, skip + m.length, .tag⟩ else none
  let word := rest.drop (blanks rest)
  let wordSkip := skip + blanks rest
  if begins ['!', '-', '-'] rest then comment? left atLongEnd longEndLength cs
  else
    some ((firstRule [
      mark ['>'] (.openPartial left),
      mark ['#', '>'] (.openPartialBlock left),
      mark ['#', '*'] (.openBlock left true),
      mark ['#'] (.openBlock left false),
      mark ['/'] (.openEnd left),
      bareInverse? left skip ['^'] rest,
      bareInverse? left wordSkip "else".toList word,
      mark ['^'] (.openInverse left),
      (afterPrefix? "else".toList word).bind fun r =>
        if r.head?.any isWordChar then none
        else some ⟨some (.openChain left), wordSkip + 4, .tag⟩,
      mark ['{'] (.openUnescaped left),
      mark ['&'] (.openTag left false),
      if begins ['!'] rest then comment? left (begins ['}', '}']) (fun _ => 2) cs else none,
      mark ['*'] (.openTag left true)]).getD ⟨some (.openTag left false), skip, .tag⟩)

/-! ## Inside a tag -/

/-- Whether a name may end before a character. -/
def mayFollowName (c : Char) : Bool :=
  c = '=' || c = '~' || c = '}' || isBlank c || c = '/' || c = '.' || c = ')' || c = '|'

/-- Whether a literal may end before a character. -/
def mayFollowLiteral (c : Char) : Bool := c = '~' || c = '}' || isBlank c || c = ')'

/-- The text up to a closing sign and what follows it. A backslash before the sign keeps it as
text; if no other sign closes the text, the last one with a backslash does. -/
def quoted? (sign : Char) : List Char → Option (List Char × List Char)
  | [] => none
  | '\\' :: c :: cs =>
    if c = sign then
      match quoted? sign cs with
      | some (inner, rest) => some ('\\' :: c :: inner, rest)
      | none => some (['\\'], cs)
    else (quoted? sign (c :: cs)).map fun r => ('\\' :: r.1, r.2)
  | c :: cs => if c = sign then some ([], cs) else (quoted? sign cs).map fun r => (c :: r.1, r.2)

/-- The text with `\` dropped before the signs of a class. -/
def unescape (signs : Char → Bool) : List Char → List Char
  | [] => []
  | '\\' :: c :: cs =>
    if signs c then c :: unescape signs cs else '\\' :: unescape signs (c :: cs)
  | c :: cs => c :: unescape signs cs

/-- A word that is a literal. -/
def literal? (w : String) (l : Lexeme) (cs : List Char) : Option Step :=
  (afterPrefix? w.toList cs).bind fun rest =>
    if rest.head?.any mayFollowLiteral then some ⟨some l, w.length, .tag⟩ else none

/-- The digits of a number, with its sign and fraction, and what follows them. -/
def numberSpan? (cs : List Char) : Option (List Char × List Char) :=
  let (sign, body) := match cs with
    | '-' :: r => (['-'], r)
    | r => ([], r)
  match Decimal.spanDigits body with
  | ([], _) => none
  | (ds, '.' :: r) => match Decimal.spanDigits r with
    | ([], _) => some (sign ++ ds, '.' :: r)
    | (es, r) => some (sign ++ ds ++ '.' :: es, r)
  | (ds, r) => some (sign ++ ds, r)

/-- A number. -/
def number? (cs : List Char) : Option Step :=
  (numberSpan? cs).bind fun (ds, rest) =>
    if rest.head?.any mayFollowLiteral then
      (Number.ofLiteral? ds).map fun n => ⟨some (.number n), ds.length, .tag⟩
    else none

/-- The word and the bar before names of block parameters. -/
def openNames? (cs : List Char) : Option Step :=
  (afterPrefix? ['a', 's'] cs).bind fun rest =>
    let n := blanks rest
    if n != 0 && (rest.drop n).head? = some '|' then
      some ⟨some .openNames, n + 3, .tag⟩
    else none

/-- A name. -/
def name? (cs : List Char) : Option Step :=
  let name := cs.takeWhile isNameChar
  if !name.isEmpty && (cs.dropWhile isNameChar).head?.any mayFollowName then
    some ⟨some (.id (String.ofList name)), name.length, .tag⟩
  else none

/-- A name between square brackets, which may hold any sign. A backslash before the bracket that
closes the name is dropped as well. -/
def bracketed? (cs : List Char) : Option Step :=
  match cs with
  | '[' :: r => (quoted? ']' r).map fun (inner, _) =>
    let name := unescape (fun c => c = '\\' || c = ']') (inner ++ [']'])
    ⟨some (.id (String.ofList ('[' :: name))), inner.length + 2, .tag⟩
  | _ => none

/-- A text in quotes. -/
def string? (sign : Char) (cs : List Char) : Option Step :=
  match cs with
  | c :: r => if c = sign then (quoted? sign r).map fun (inner, _) =>
      ⟨some (.string (String.ofList (unescape (· = sign) inner))), inner.length + 2, .tag⟩
    else none
  | [] => none

/-- The closing braces of a tag. -/
def closingTag? (cs : List Char) : Option Step :=
  match cs with
  | '}' :: r =>
    match closing? r with
    | some (n, right) => some ⟨some (.closeUnescaped right), n + 1, .plain⟩
    | none => (closing? cs).map fun c => ⟨some (.close c.2), c.1, .plain⟩
  | _ => (closing? cs).map fun c => ⟨some (.close c.2), c.1, .plain⟩

/-- A step through a tag. -/
def tagStep (cs : List Char) : Option Step :=
  let sign (l : Lexeme) : Option Step := some ⟨some l, 1, .tag⟩
  if begins fourOpen cs then some ⟨some .openRaw, 4, .tag⟩
  else if begins fourClose cs then some ⟨some .closeRaw, 4, .raw 1⟩
  else if atTag cs then opening cs
  else match cs with
    | [] => some ⟨some .ending, 0, .tag⟩
    | c :: rest =>
      if c = '(' then sign .openCall
      else if c = ')' then sign .closeCall
      else if c = '=' then sign .equals
      else if begins ['.', '.'] cs then some ⟨some (.id ".."), 2, .tag⟩
      else if c = '.' && rest.head?.any mayFollowName then sign (.id ".")
      else if c = '/' || c = '.' then sign (.separator (String.ofList [c]))
      else if isBlank c then some ⟨none, blanks cs, .tag⟩
      else firstRule [
        closingTag? cs,
        string? '"' cs,
        string? '\'' cs,
        if c = '@' then sign .data else none,
        literal? "true" (.bool true) cs,
        literal? "false" (.bool false) cs,
        literal? "undefined" .undefined cs,
        literal? "null" .null cs,
        number? cs,
        openNames? cs,
        if c = '|' then sign .closeNames else none,
        name? cs,
        bracketed? cs,
        sign .invalid]

/-- One step. -/
def step (mode : Mode) (cs : List Char) : Option Step :=
  match mode with
  | .plain => plainStep cs
  | .escaped => escapedStep cs
  | .tag => tagStep cs
  | .raw depth => rawStep depth cs

/-- The lexemes of a text and where each begins. A text that cannot be scanned to its end gives
`broken` last. -/
def scanFrom : Nat → Mode → Place → List Char → List (Lexeme × Place)
  | 0, _, place, _ => [(.broken, place)]
  | fuel + 1, mode, place, cs =>
    match step mode cs with
    | none => [(.broken, place)]
    | some s =>
      match s.lexeme with
      | some .ending => [(.ending, place)]
      | some l => (l, place) ::
          scanFrom fuel s.mode (place.after (cs.take s.length)) (cs.drop s.length)
      | none => scanFrom fuel s.mode (place.after (cs.take s.length)) (cs.drop s.length)

/-- The lexemes of a template. A step without characters only enters a tag, so two steps for
each character are enough. -/
def scan (cs : List Char) : List (Lexeme × Place) :=
  scanFrom (2 * cs.length + 2) .plain .start cs

end Lexeme

end Template

end ProxyFleet
