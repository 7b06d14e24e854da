import ProxyFleet.Number.Decimal
import ProxyFleet.Value

/-!
# Tokens of data texts

A data text is read in one pass over its characters by an automaton. The state
is what the automaton is inside of (`Mode`) and the tokens seen so far, and
`Token.scan` is a fold, so reading `a ++ b` is reading `a` and then `b`.

A number or a word ends where a character stands that cannot continue it; only
then is it checked to be one.
-/

namespace ProxyFleet

/-- The tokens of a data text. -/
inductive Token where
  | openArray
  | closeArray
  | openRecord
  | closeRecord
  | comma
  | colon
  | scalar (v : Value)
  | text (s : String)
  deriving Repr

namespace Token

/-- What the scan is inside of. Characters seen are held last first. A text may hold the first
half of a character written as two escapes, waiting for its second half. -/
inductive Mode where
  | between
  | number (seen : List Char)
  | word (seen : List Char)
  | text (seen : List Char) (half : Option Nat)
  | escape (seen : List Char) (half : Option Nat)
  | code (seen : List Char) (half : Option Nat) (value left : Nat)
  deriving Repr

/-- A scan under way: the mode, and the finished tokens, last first. -/
structure Scan where
  mode : Mode
  done : List Token
  deriving Repr

/-- The four characters that may stand between tokens. -/
def isGap (c : Char) : Bool := c = ' ' || c = '\t' || c = '\n' || c = '\r'

/-- A character that can continue a number. -/
def continuesNumber (c : Char) : Bool :=
  c.isDigit || c = '.' || c = 'e' || c = 'E' || c = '+' || c = '-'

/-- The value a word stands for. -/
def wordValue? (w : List Char) : Option Value :=
  if w = "true".toList then some (.bool true)
  else if w = "false".toList then some (.bool false)
  else if w = "null".toList then some .null
  else none

/-- One character between tokens. -/
def start (done : List Token) (c : Char) : Option Scan :=
  if isGap c then some ⟨.between, done⟩
  else if c = '[' then some ⟨.between, .openArray :: done⟩
  else if c = ']' then some ⟨.between, .closeArray :: done⟩
  else if c = '{' then some ⟨.between, .openRecord :: done⟩
  else if c = '}' then some ⟨.between, .closeRecord :: done⟩
  else if c = ',' then some ⟨.between, .comma :: done⟩
  else if c = ':' then some ⟨.between, .colon :: done⟩
  else if c = '"' then some ⟨.text [] none, done⟩
  else if c = '-' || c.isDigit then some ⟨.number [c], done⟩
  else if c.isLower then some ⟨.word [c], done⟩
  else none

/-- A half character that stays alone is replaced. -/
def settle (seen : List Char) : Option Nat → List Char
  | some _ => '\uFFFD' :: seen
  | none => seen

/-- One escaped UTF-16 unit within a text. -/
def putUnit (seen : List Char) (half : Option Nat) (unit : Nat) : Mode :=
  if 0xD800 ≤ unit ∧ unit < 0xDC00 then .text (settle seen half) (some unit)
  else if 0xDC00 ≤ unit ∧ unit < 0xE000 then
    match half with
    | some h => .text (Char.ofNat (0x10000 + (h - 0xD800) * 0x400 + (unit - 0xDC00)) :: seen) none
    | none => .text ('\uFFFD' :: seen) none
  else .text (Char.ofNat unit :: settle seen half) none

/-- The character an escape of one letter stands for. -/
def escaped? (c : Char) : Option Char :=
  if c = '"' || c = '\\' || c = '/' then some c
  else if c = 'b' then some '\x08'
  else if c = 'f' then some '\x0c'
  else if c = 'n' then some '\n'
  else if c = 'r' then some '\r'
  else if c = 't' then some '\t'
  else none

/-- The value of a digit in base 16. -/
def hexDigit? (c : Char) : Option Nat :=
  if c.isDigit then some (c.toNat - '0'.toNat)
  else if 'a' ≤ c ∧ c ≤ 'f' then some (c.toNat - 'a'.toNat + 10)
  else if 'A' ≤ c ∧ c ≤ 'F' then some (c.toNat - 'A'.toNat + 10)
  else none

/-- One character of a data text. -/
def step (s : Scan) (c : Char) : Option Scan :=
  match s.mode with
  | .between => start s.done c
  | .number seen =>
    if continuesNumber c then some ⟨.number (c :: seen), s.done⟩
    else (Number.ofLexeme? seen.reverse).bind fun n => start (.scalar (.num n) :: s.done) c
  | .word seen =>
    if c.isLower then some ⟨.word (c :: seen), s.done⟩
    else (wordValue? seen.reverse).bind fun v => start (.scalar v :: s.done) c
  | .text seen half =>
    if c = '"' then some ⟨.between, .text (String.ofList (settle seen half).reverse) :: s.done⟩
    else if c = '\\' then some ⟨.escape seen half, s.done⟩
    else if c.toNat < 0x20 then none
    else some ⟨.text (c :: settle seen half) none, s.done⟩
  | .escape seen half =>
    if c = 'u' then some ⟨.code seen half 0 4, s.done⟩
    else (escaped? c).map fun e => ⟨.text (e :: settle seen half) none, s.done⟩
  | .code seen half value left =>
    (hexDigit? c).map fun d =>
      if left ≤ 1 then ⟨putUnit seen half (value * 16 + d), s.done⟩
      else ⟨.code seen half (value * 16 + d) (left - 1), s.done⟩

/-- The tokens of a finished scan, last first; a text must be closed. -/
def finish (s : Scan) : Option (List Token) :=
  match s.mode with
  | .between => some s.done
  | .number seen => (Number.ofLexeme? seen.reverse).map fun n => .scalar (.num n) :: s.done
  | .word seen => (wordValue? seen.reverse).map fun v => .scalar v :: s.done
  | .text .. | .escape .. | .code .. => none

/-- The tokens of a data text. -/
def scan (cs : List Char) : Option (List Token) :=
  (cs.foldlM step ⟨.between, []⟩).bind fun s => (finish s).map List.reverse

end Token

end ProxyFleet
