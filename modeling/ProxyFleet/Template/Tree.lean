import ProxyFleet.Template.Lexeme
import ProxyFleet.Value

/-!
# Templates as trees

What a template says, apart from how it is written. A program is a list of
statements; blocks hold up to two programs, one of them for the other case.
-/

namespace ProxyFleet

namespace Template

/-- A stretch of a template. -/
structure Span where
  start : Place
  stop : Place
  deriving DecidableEq, Repr

/-- A way to a value: `data` ways start in the private data of a block, others in the context,
`depth` blocks further out. -/
structure Path where
  data : Bool
  depth : Nat
  parts : List String
  spelling : String
  place : Place
  deriving DecidableEq, Repr

/-- A literal. -/
inductive Literal where
  | string (s : String)
  | number (n : Number)
  | bool (b : Bool)
  | undefined
  | null
  deriving DecidableEq, Repr

namespace Literal

/-- The value of a literal. -/
def value : Literal → Value
  | .string s => .str s
  | .number n => .num n
  | .bool b => .bool b
  | .undefined => .absent
  | .null => .null

/-- The text of a literal, without quotes. -/
def text : Literal → String
  | .string s => s
  | .number n => n.text
  | .bool true => "true"
  | .bool false => "false"
  | .undefined => "undefined"
  | .null => "null"

end Literal

/-- What a tag names first: a way or a literal. -/
inductive Head where
  | path (p : Path)
  | literal (l : Literal) (place : Place)
  deriving DecidableEq, Repr

namespace Head

/-- A head as it is written, for comparing the ends of a block. -/
def spelling : Head → Literal
  | .path p => .string p.spelling
  | .literal l _ => l

/-- Where a head stands. -/
def place : Head → Place
  | .path p => p.place
  | .literal _ place => place

/-- A literal that stands where a way is needed is the name of a field. -/
def toPath : Head → Path
  | .path p => p
  | .literal l place => ⟨false, 0, [l.text], l.text, place⟩

end Head

/-- What can be given to a helper. -/
inductive Expr where
  | head (h : Head)
  | call (head : Head) (params : List Expr) (named : List (String × Expr)) (span : Span)
  deriving Repr

/-- A head with what is given to it, in order and by name. The span is that of the whole tag, with
all that a block holds. -/
structure Call where
  head : Head
  params : List Expr
  named : List (String × Expr)
  span : Span
  deriving Repr

/-- The call with another end. -/
def Call.endingAt (c : Call) (stop : Place) : Call := { c with span := ⟨c.span.start, stop⟩ }

/-- Whether blanks before and behind a tag are dropped. -/
structure Trim where
  left : Bool
  right : Bool
  deriving DecidableEq, Repr

/-- Nothing is dropped. -/
def Trim.none : Trim := ⟨false, false⟩

mutual

/-- A statement of a template. Text keeps how it was written beside what is left of it. -/
inductive Statement where
  | content (written value : String) (trimmedLeft trimmedRight : Bool)
  | comment (trim : Trim)
  | insert (call : Call) (trim : Trim)
  | decorator (call : Call) (trim : Trim)
  | block (decorator : Bool) (call : Call) (program inverse : Option Program)
      (opened inverted closed : Trim)
  | partialTag (name : Expr) (params : List Expr) (named : List (String × Expr))
      (indent : String) (trim : Trim) (place : Place)
  | partialBlock (name : Expr) (params : List Expr) (named : List (String × Expr))
      (program : Program) (opened closed : Trim) (place : Place)

/-- Statements in order. `names` are the block parameters; a `chained` program stands for a
further condition of the same block. -/
inductive Program where
  | mk (body : List Statement) (names : List String) (chained : Bool)

end

namespace Program

/-- The statements of a program. -/
def body : Program → List Statement
  | .mk body _ _ => body

/-- The block parameters of a program. -/
def names : Program → List String
  | .mk _ names _ => names

/-- Whether a program stands for a further condition. -/
def chained : Program → Bool
  | .mk _ _ chained => chained

/-- The program with other statements. -/
def withBody (p : Program) (body : List Statement) : Program := .mk body p.names p.chained

end Program

/-- A text as a statement. -/
def Statement.ofText (s : String) : Statement := .content s s false false

end Template

end ProxyFleet
