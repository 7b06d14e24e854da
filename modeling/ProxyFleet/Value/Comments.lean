import ProxyFleet.Text.Blank
import ProxyFleet.Value.Reader

/-!
# Data texts with comments

Configuration files are often written with line comments, block comments and a
comma after the last item. Two passes take these out before the text is read:
neither looks inside a quoted text, and both leave every other character where
it stands.
-/

namespace ProxyFleet

namespace Comments

/-- Which part of a text a pass is in. -/
inductive Place where
  | plain
  | quoted
  | lineComment
  | blockComment
  deriving DecidableEq, Repr

/-- The text without its comments. A line comment ends before the end of its line, a block
comment that is never closed reaches to the end of the text. -/
def strip : Place → List Char → List Char
  | _, [] => []
  | .plain, '/' :: '/' :: cs => strip .lineComment cs
  | .plain, '/' :: '*' :: cs => strip .blockComment cs
  | .plain, c :: cs => c :: strip (if c = '"' then .quoted else .plain) cs
  | .quoted, '\\' :: c :: cs => '\\' :: c :: strip .quoted cs
  | .quoted, c :: cs => c :: strip (if c = '"' then .plain else .quoted) cs
  | .lineComment, c :: cs => if c = '\n' then c :: strip .plain cs else strip .lineComment cs
  | .blockComment, '*' :: '/' :: cs => strip .plain cs
  | .blockComment, _ :: cs => strip .blockComment cs

/-- Whether the first character that is not blank closes an array or a record. -/
def closesNext (cs : List Char) : Bool :=
  match cs.dropWhile isBlank with
  | c :: _ => c = ']' || c = '}'
  | [] => false

/-- The text without the commas that stand before a closing bracket. -/
def stripCommas (quoted : Bool) : List Char → List Char
  | [] => []
  | c :: cs =>
    if quoted then
      match c, cs with
      | '\\', d :: ds => '\\' :: d :: stripCommas true ds
      | c, cs => c :: stripCommas (c != '"') cs
    else if c = ',' && closesNext cs then stripCommas false cs
    else c :: stripCommas (c = '"') cs

end Comments

/-- A text without its comments. -/
def stripComments (s : String) : String := String.ofList (Comments.strip .plain s.toList)

/-- A text without the commas before closing brackets. -/
def stripTrailingCommas (s : String) : String :=
  String.ofList (Comments.stripCommas false s.toList)

/-- The value of a data text that may hold comments and closing commas. -/
def Value.ofCommentedText? (s : String) : Option Value :=
  Value.ofChars? (Comments.stripCommas false (Comments.strip .plain s.toList))

end ProxyFleet
