import ProxyFleet.Value.Token

/-!
# Reading data texts

The tokens of a text are read by a machine with a stack of open arrays and
records. It is a fold over the tokens, so no depth of nesting is a limit, and
what stands before a token is summed up in one state.

A name given twice in a record keeps its first place and its last value
(`Fields.put`).
-/

namespace ProxyFleet

namespace Reader

/-- An array or record that is still open. Items are held last first; `field` is a record that
waits for the value of a name. -/
inductive Open where
  | array (done : List Value)
  | record (done : Fields)
  | field (done : Fields) (name : String)
  deriving Repr

/-- What may come next. -/
inductive Expect where
  | value
  | itemOrClose
  | nameOrClose
  | name
  | colon (name : String)
  | after (v : Value)
  deriving Repr

/-- The state of the machine. -/
structure State where
  stack : List Open
  expect : Expect
  deriving Repr

/-- A token where a value is expected. -/
def stepValue (stack : List Open) : Token → Option State
  | .scalar v => some ⟨stack, .after v⟩
  | .text s => some ⟨stack, .after (.str s)⟩
  | .openArray => some ⟨.array [] :: stack, .itemOrClose⟩
  | .openRecord => some ⟨.record [] :: stack, .nameOrClose⟩
  | _ => none

/-- One token. -/
def step (s : State) (t : Token) : Option State :=
  match s.expect, t, s.stack with
  | .value, t, st => stepValue st t
  | .itemOrClose, .closeArray, .array done :: st => some ⟨st, .after (.arr done.reverse)⟩
  | .itemOrClose, t, st => stepValue st t
  | .nameOrClose, .closeRecord, .record done :: st => some ⟨st, .after (.obj done)⟩
  | .nameOrClose, .text k, st => some ⟨st, .colon k⟩
  | .name, .text k, st => some ⟨st, .colon k⟩
  | .colon k, .colon, .record done :: st => some ⟨.field done k :: st, .value⟩
  | .after v, .comma, .array done :: st => some ⟨.array (v :: done) :: st, .value⟩
  | .after v, .closeArray, .array done :: st => some ⟨st, .after (.arr (v :: done).reverse)⟩
  | .after v, .comma, .field done k :: st => some ⟨.record (Fields.put done k v) :: st, .name⟩
  | .after v, .closeRecord, .field done k :: st =>
    some ⟨st, .after (.obj (Fields.put done k v))⟩
  | _, _, _ => none

/-- The value of a machine that has read a whole text. -/
def finish : State → Option Value
  | ⟨[], .after v⟩ => some v
  | _ => none

/-- The value that tokens spell. -/
def ofTokens? (ts : List Token) : Option Value :=
  (ts.foldlM step ⟨[], .value⟩).bind finish

end Reader

/-- The value of a data text, if the text is well formed. -/
def Value.ofChars? (cs : List Char) : Option Value := (Token.scan cs).bind Reader.ofTokens?

/-- The value of a data text, if the text is well formed. -/
def Value.ofText? (s : String) : Option Value := Value.ofChars? s.toList

/-- The items of the array a text holds that satisfy a condition; none if it holds no array. -/
def Value.arrayOfText (keep : Value → Bool) (s : String) : List Value :=
  match Value.ofText? s with
  | some (.arr xs) => xs.filter keep
  | _ => []

end ProxyFleet
