import ProxyFleet.Template.Fault
import ProxyFleet.Template.Tree

/-!
# Reading templates

The lexemes of a template are read by descent. Besides lexemes that do not fit
there are three mistakes with a message of their own: a block closed under
another name, a way that goes out after it went in, and another branch for a
decorator.
-/

namespace ProxyFleet

namespace Template

/-- Why a template cannot be read. -/
inductive Mistake where
  | unreadable
  | mismatch (opened closed : Literal) (place : Place)
  | badPath (spelling : String) (place : Place)
  | inverseOnDecorator
  deriving Repr

/-- The text of a mistake. -/
def Mistake.message : Mistake → String
  | .unreadable => "parse error"
  | .mismatch opened closed place =>
    opened.text ++ " doesn't match " ++ closed.text ++ place.note
  | .badPath spelling place => "Invalid path: " ++ spelling ++ place.note
  | .inverseOnDecorator => "Unexpected inverse block on decorator"

/-- The lexemes still to be read. -/
abbrev Input := List (Lexeme × Place)

/-- Reading takes lexemes from the front. -/
abbrev Read := StateT Input (Except Mistake)

namespace Read

/-- The next lexeme and its place. -/
def peek : Read (Lexeme × Place) := do
  match ← get with
  | x :: _ => pure x
  | [] => throw .unreadable

/-- Takes the next lexeme. -/
def take : Read (Lexeme × Place) := do
  match ← get with
  | x :: xs => do set xs; pure x
  | [] => throw .unreadable

/-- Takes a lexeme that must come next. -/
def expect (l : Lexeme) : Read Unit := do
  let x ← take
  if x.1 = l then pure () else throw .unreadable

/-- Takes the closing braces of a tag: whether blanks behind them are dropped. -/
def close : Read Bool := do
  match ← take with
  | (.close right, _) => pure right
  | _ => throw .unreadable

/-! ## Ways and literals -/

/-- The part of a way that a name writes: what stands between square brackets, on one line. -/
def partOf (name : String) : String :=
  match name.toList with
  | '[' :: rest =>
    if rest.getLast? = some ']' && !rest.dropLast.any endsLine then String.ofList rest.dropLast
    else name
  | _ => name

/-- A part of a way that steps out of the context or stays in it. -/
def isStep (part : String) : Bool := part = ".." || part = "." || part = "this"

/-- Adds a part to a way. -/
def addPart (path : Path) (separator name : String) : Except Mistake Path :=
  let part := partOf name
  let spelling := path.spelling ++ separator ++ part
  if part = name && isStep part then
    if !path.parts.isEmpty then .error (.badPath spelling path.place)
    else .ok { path with
      depth := if part = ".." then path.depth + 1 else path.depth
      spelling := spelling }
  else .ok { path with parts := path.parts ++ [part], spelling := spelling }

/-- The separators and names that go on with a way. -/
def segments : Input → Except Mistake (List (String × String) × Input)
  | (.separator s, _) :: (.id t, _) :: rest => do
    let (more, rest) ← segments rest
    pure ((s, t) :: more, rest)
  | (.separator _, _) :: _ => .error .unreadable
  | rest => .ok ([], rest)

/-- A lexeme that may stand behind a way. -/
def mayFollowPath : Lexeme → Bool
  | .closeRaw | .close _ | .closeUnescaped _ | .openCall | .closeCall | .id _ | .openNames
  | .string _ | .number _ | .bool _ | .undefined | .null | .data => true
  | _ => false

/-- A way that begins with a name. -/
def path (data : Bool) (place : Place) : Read Path := do
  match ← take with
  | (.id first, _) =>
    let (more, rest) ← segments (← get)
    set rest
    let follows := rest.head?.any fun x => mayFollowPath x.1
    let start : Path := ⟨data, 0, [], if data then "@" else "", place⟩
    match (("", first) :: more).foldlM (fun p s => addPart p s.1 s.2) start with
    | .ok p => pure p
    | .error m => throw (if follows then m else .unreadable)
  | _ => throw .unreadable

/-- A way or a literal. -/
def head : Read Head := do
  let (l, place) ← peek
  match l with
  | .id _ => do pure (.path (← path false place))
  | .data => do let _ ← take; pure (.path (← path true place))
  | .string s => do let _ ← take; pure (.literal (.string s) place)
  | .number n => do let _ ← take; pure (.literal (.number n) place)
  | .bool b => do let _ ← take; pure (.literal (.bool b) place)
  | .undefined => do let _ ← take; pure (.literal .undefined place)
  | .null => do let _ ← take; pure (.literal .null place)
  | _ => throw .unreadable

/-! ## Calls -/

/-- A lexeme that begins something given to a helper. -/
def beginsParam : Lexeme → Bool
  | .id _ | .data | .string _ | .number _ | .bool _ | .undefined | .null | .openCall => true
  | _ => false

/-- The name of something given by name, if it comes next. -/
def nextName? : Input → Option String
  | (.id k, _) :: (.equals, _) :: _ => some k
  | _ => none

/-- Whether something given in order comes next. -/
def paramNext (input : Input) : Bool :=
  (nextName? input).isNone && input.head?.any fun x => beginsParam x.1

mutual

/-- Something given to a helper. -/
def expr : Nat → Read Expr
  | 0 => throw .unreadable
  | fuel + 1 => do
    let (l, place) ← peek
    if l = .openCall then
      let _ ← take
      let h ← head
      let ps ← params fuel
      let ns ← named fuel
      let stop := (← peek).2
      expect .closeCall
      pure (.call h ps ns ⟨place, { stop with column := stop.column + 1 }⟩)
    else do pure (.head (← head))

/-- What is given in order. -/
def params : Nat → Read (List Expr)
  | 0 => throw .unreadable
  | fuel + 1 => do
    if paramNext (← get) then
      let e ← expr fuel
      let es ← params fuel
      pure (e :: es)
    else pure []

/-- What is given by name. -/
def named : Nat → Read (List (String × Expr))
  | 0 => throw .unreadable
  | fuel + 1 => do
    match nextName? (← get) with
    | some k =>
      let _ ← take
      let _ ← take
      let e ← expr fuel
      let es ← named fuel
      pure ((partOf k, e) :: es)
    | none => pure []

end

/-- A head and what is given to it, in a tag that begins at a place. Where the tag ends is not yet
known. -/
def call (fuel : Nat) (place : Place) : Read Call := do
  let h ← head
  let ps ← params fuel
  let ns ← named fuel
  pure ⟨h, ps, ns, ⟨place, place⟩⟩

/-- A call whose tag ends here. -/
def finish (c : Call) : Read Call := do pure (c.endingAt (← peek).2)

/-- The name of a partial and what is given to it. -/
def partialCall (fuel : Nat) : Read (Expr × List Expr × List (String × Expr)) := do
  let name ← expr fuel
  let ps ← params fuel
  let ns ← named fuel
  pure (name, ps, ns)

/-- Names up to a bar. -/
def namesToBar : Input → Except Mistake (List String × Input)
  | (.id t, _) :: (.closeNames, _) :: rest => .ok ([t], rest)
  | (.id t, _) :: rest => do
    let (ts, rest) ← namesToBar rest
    pure (t :: ts, rest)
  | _ => .error .unreadable

/-- The names of block parameters, if there are any. -/
def blockNames : Read (List String) := do
  match ← get with
  | (.openNames, _) :: rest =>
    let (ts, rest) ← namesToBar rest
    set rest
    pure ts
  | _ => pure []

/-! ## Statements -/

/-- Another branch of a block: its flags and its program. -/
structure Branch where
  trim : Trim
  program : Program

/-- The block at the front of a program closed with other flags. -/
def closeFirst (closed : Trim) : List Statement → List Statement
  | .block d c p i opened inverted _ :: rest => .block d c p i opened inverted closed :: rest
  | body => body

/-- A block out of its parts. Of a chain of conditions, the inner one takes the closing flags
of the outer one. -/
def makeBlock (decorator : Bool) (c : Call) (names : List String) (body : List Statement)
    (branch : Option Branch) (inverted : Bool) (opened closed : Trim) :
    Except Mistake Statement :=
  let program : Program := .mk body names false
  if decorator && branch.isSome then .error .inverseOnDecorator
  else
    let other := branch.map fun b =>
      if b.program.chained then b.program.withBody (closeFirst closed b.program.body)
      else b.program
    let flags := (branch.map (·.trim)).getD .none
    .ok (if inverted then .block decorator c other (some program) opened flags closed
      else .block decorator c (some program) other opened flags closed)

/-- The end of a block: its head and flags. -/
def blockEnd : Read (Head × Trim) := do
  match ← take with
  | (.openEnd left, _) => do
    let h ← head
    let right ← close
    pure (h, ⟨left, right⟩)
  | _ => throw .unreadable

/-- A block must be closed under the name it was opened with. -/
def checkEnd (opened : Literal) (place : Place) (closed : Literal) : Read Unit :=
  if opened = closed then pure () else throw (.mismatch opened closed place)

/-- The name of a partial as it is written; a call has none. -/
def exprSpelling : Expr → Literal × Place
  | .head h => (h.spelling, h.place)
  | .call _ _ _ span => (.undefined, span.start)

/-- The plain text of a raw block. -/
def contents : Input → List Statement × Input
  | (.content s, _) :: rest =>
    let (ss, rest) := contents rest
    (Statement.ofText s :: ss, rest)
  | rest => ([], rest)

/-- A raw block, behind its opening braces. -/
def rawBlock (fuel : Nat) (place : Place) : Read Statement := do
  let c ← call fuel place
  expect .closeRaw
  let (body, rest) := contents (← get)
  set rest
  match ← take with
  | (.endRaw name, _) => do
    checkEnd c.head.spelling c.head.place (.string name)
    pure (.block false (← finish c) (some (.mk body [] false)) none .none .none .none)
  | _ => throw .unreadable

mutual

/-- Statements up to a lexeme that begins none. -/
def statements : Nat → Read (List Statement)
  | 0 => throw .unreadable
  | fuel + 1 => do
    match ← statement fuel with
    | some s => do
      let ss ← statements fuel
      pure (s :: ss)
    | none => pure []

/-- A statement, if one begins here. -/
def statement : Nat → Read (Option Statement)
  | 0 => throw .unreadable
  | fuel + 1 => do
    let (l, place) ← peek
    match l with
    | .content s => do let _ ← take; pure (some (Statement.ofText s))
    | .comment left right => do let _ ← take; pure (some (.comment ⟨left, right⟩))
    | .openTag left decorator => do
      let _ ← take
      let c ← call fuel place
      let right ← close
      let c ← finish c
      pure (some (if decorator then .decorator c ⟨left, right⟩ else .insert c ⟨left, right⟩))
    | .openUnescaped left => do
      let _ ← take
      let c ← call fuel place
      match ← take with
      | (.closeUnescaped right, _) => pure (some (.insert (← finish c) ⟨left, right⟩))
      | _ => throw .unreadable
    | .openRaw => do let _ ← take; pure (some (← rawBlock fuel place))
    | .openPartial left => do
      let _ ← take
      let (name, ps, ns) ← partialCall fuel
      let right ← close
      pure (some (.partialTag name ps ns "" ⟨left, right⟩ place))
    | .openPartialBlock left => do
      let _ ← take
      let (name, ps, ns) ← partialCall fuel
      let right ← close
      let body ← statements fuel
      let (closed, flags) ← blockEnd
      checkEnd (exprSpelling name).1 (exprSpelling name).2 closed.spelling
      pure (some (.partialBlock name ps ns (.mk body [] false) ⟨left, right⟩ flags place))
    | .openBlock left decorator => do
      let _ ← take
      let c ← call fuel place
      let names ← blockNames
      let right ← close
      let body ← statements fuel
      let other ← chain fuel
      let (closed, flags) ← blockEnd
      checkEnd c.head.spelling c.head.place closed.spelling
      pure (some (← makeBlock decorator (← finish c) names body other false ⟨left, right⟩ flags))
    | .openInverse left => do
      let _ ← take
      let c ← call fuel place
      let names ← blockNames
      let right ← close
      let body ← statements fuel
      let other ← otherwise fuel
      let (closed, flags) ← blockEnd
      checkEnd c.head.spelling c.head.place closed.spelling
      pure (some (← makeBlock false (← finish c) names body other true ⟨left, right⟩ flags))
    | _ => pure none

/-- The branch for all other cases, if it comes next. -/
def otherwise : Nat → Read (Option Branch)
  | 0 => throw .unreadable
  | fuel + 1 => do
    match ← peek with
    | (.inverse left right, _) => do
      let _ ← take
      let body ← statements fuel
      pure (some ⟨⟨left, right⟩, .mk body [] false⟩)
    | _ => pure none

/-- A branch with a further condition, or for all other cases. -/
def chain : Nat → Read (Option Branch)
  | 0 => throw .unreadable
  | fuel + 1 => do
    match ← peek with
    | (.openChain left, place) => do
      let _ ← take
      let c ← call fuel place
      let names ← blockNames
      let right ← close
      let body ← statements fuel
      let other ← chain fuel
      let closed := (other.map (·.trim)).getD .none
      let inner ← makeBlock false (← finish c) names body other false ⟨left, right⟩ closed
      pure (some ⟨⟨left, right⟩, .mk [inner] [] true⟩)
    | _ => otherwise fuel

end

/-- A whole template. -/
def template (fuel : Nat) : Read (List Statement) := do
  let body ← statements fuel
  expect .ending
  pure body

end Read

/-- The statements of a template. Every lexeme is behind at most four steps of descent. -/
def read (s : String) : Except Mistake Program :=
  let input := Lexeme.scan s.toList
  (Read.template (4 * input.length + 8) input).map fun r => .mk r.1 [] false

end Template

end ProxyFleet
