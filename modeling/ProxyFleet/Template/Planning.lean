import ProxyFleet.Template.Fault
import ProxyFleet.Template.Plan

/-!
# From programs to plans

A tag with parameters is a call, and so is a single name of a helper. Another
single name is a value or a function, whichever is found under it. Block
parameters are values, whatever follows.

Every plan is made once: a program that does the same as an earlier one is run
by the plan of that one (`Planning.share`), so that faults in it name the places
of the earlier one.
-/

namespace ProxyFleet

namespace Template

/-- What planning remembers: the plans of all blocks so far, each with whether block parameters
were read up to there, and whether the blocks of the current program read any. -/
structure Planned where
  plans : List (Plan × Bool)
  sharing : Bool

/-- Planning remembers plans, and stops at a partial that is given too much. -/
abbrev Planning := StateT Planned (Except RunFault)

namespace Planning

/-! ## Ways and tags -/

/-- A text holds the word for the context itself, or begins with a point. -/
def isScoped (spelling : String) : Bool :=
  spelling.toList.head? = some '.' || holdsThis spelling.toList
where
  /-- The word, not followed by a character of a word, stands somewhere. -/
  holdsThis : List Char → Bool
    | [] => false
    | c :: cs =>
      (match afterPrefix? "this".toList (c :: cs) with
        | some rest => !rest.head?.any Lexeme.isWordChar
        | none => false) || holdsThis cs

/-- A way of a single name in the context itself. -/
def isSimple (p : Path) : Bool :=
  p.parts.length = 1 && !isScoped p.spelling && p.depth = 0

/-- The block and the place of a block parameter; the names of the nearest block come first. -/
def findName (names : List (List String)) (name : String) : Option (Nat × Nat) :=
  names.zipIdx.findSome? fun (ns, depth) => (ns.findIdx? (· == name)).map fun i => (depth, i)

/-- The block parameter a way begins with. -/
def parameter? (names : List (List String)) (p : Path) : Option (Nat × Nat) :=
  match p.parts with
  | name :: _ => if p.depth = 0 && !isScoped p.spelling then findName names name else none
  | [] => none

/-- The way of a path. A path that begins with an empty name leads to the context. -/
def wayOf (names : List (List String)) (p : Path) : Way :=
  match parameter? names p with
  | some (block, index) => ⟨.parameter block index, p.parts, p.place⟩
  | none =>
    match p.parts with
    | [] | "" :: _ => ⟨.context p.depth, [], p.place⟩
    | parts => ⟨if p.data then .data p.depth else .context p.depth, parts, p.place⟩

/-- What a tag calls: the helper of its first name, if there is one. -/
def targetOf (names : List (List String)) (p : Path) (span : Span) : Target :=
  match p.parts.head?.bind Callee.ofName? with
  | some (.helper h) => .helper h
  | some (.control c) => .control c
  | none => .found (wayOf names p) ⟨p.spelling, span⟩

/-- A tag of a head and what is given to it; `given` says whether it stands for a call. -/
def tagOf (names : List (List String)) (p : Path) (span : Span) (given : Bool)
    (args : List Operand) (named : List (String × Operand)) : Tag :=
  if isSimple p && (parameter? names p).isSome then .value (wayOf names p)
  else if given then .call (targetOf names p span) args named
  else if isSimple p then
    if (p.parts.head?.bind Callee.ofName?).isSome then .call (targetOf names p span) [] []
    else .single (wayOf names p) ⟨p.parts.headD "", span⟩
  else .value (wayOf names p)

/-- Whether a call asks for a helper by name. -/
def asksHelper (p : Path) : Bool :=
  isSimple p || (p.parts.head?.bind Callee.ofName?).isSome

/-- The word for an absent value. -/
def isUndefined : Operand → Bool
  | .literal .undefined => true
  | _ => false

/-- What is given by name in the order it is worked out: from the last to the first, but indices
first, each name once with what was written first for it. Nothing is given by the word for an
absent value, or under the name `__proto__`. -/
def inOrder (named : List (String × Operand)) : List (String × Operand) :=
  (Fields.putAll [] named.reverse).filter fun n => n.1 != "__proto__" && !isUndefined n.2

mutual

/-- What is given to a call. Where there are no helpers (`helpers`), a call that asks for one is
refused. -/
def operandOf (helpers : Bool) (names : List (List String)) : Expr → Operand
  | .head (.literal l _) => .literal l
  | .head (.path p) => .way (wayOf names p)
  | .call h ps ns span =>
    let args := operandsOf helpers names ps
    let named := inOrder (namedOf helpers names ns)
    let p := h.toPath
    match tagOf names p span true args named with
    | .call target args named =>
      if !helpers && asksHelper p then .refused else .tag (.call target args named)
    | t => .tag t

/-- What is given to a call in order. -/
def operandsOf (helpers : Bool) (names : List (List String)) : List Expr → List Operand
  | [] => []
  | e :: es => operandOf helpers names e :: operandsOf helpers names es

/-- What is given to a call by name, as it is written. -/
def namedOf (helpers : Bool) (names : List (List String)) :
    List (String × Expr) → List (String × Operand)
  | [] => []
  | (k, e) :: es => (k, operandOf helpers names e) :: namedOf helpers names es

end

/-- The tag of a call. -/
def tagOfCall (names : List (List String)) (c : Call) : Tag :=
  tagOf names c.head.toPath c.span (!c.params.isEmpty || !c.named.isEmpty)
    (operandsOf true names c.params) (inOrder (namedOf true names c.named))

/-- The name of a partial. -/
def partialNameOf (names : List (List String)) : Expr → PartialName
  | .head h => .written h.spelling.text
  | e => .computed (operandOf true names e)

/-- A definition of a call. -/
def definitionOf (names : List (List String)) (c : Call) (block : Option Plan) : Step :=
  .definition c.head.toPath.spelling (operandsOf false names c.params)
    (inOrder (namedOf false names c.named)) block

/-! ## Statements -/

/-- The plan for steps whose blocks read block parameters or not. -/
def planOf (single : Bool) (steps : List Step) (sharing : Bool) : Plan :=
  .mk steps single (steps.any Step.outward) sharing

/-- Plans a program with nothing remembered of its blocks yet, and remembers for the program around
it. A plan that is alike takes its place. -/
def share (make : Planning Plan) : Planning Plan := do
  let around := (← get).sharing
  modify fun s => { s with sharing := false }
  let p ← make
  let s ← get
  match s.plans.find? fun q => q.1.alike p with
  | some (q, read) => do
    set (⟨s.plans, around || read⟩ : Planned)
    pure q
  | none => do
    let read := around || p.readsParameter
    set (⟨s.plans ++ [(p, read)], read⟩ : Planned)
    pure p

/-- A partial can be given one context. -/
def oneContext (ps : List Expr) (place : Place) : Planning Unit :=
  if 1 < ps.length then throw (.partialParams ps.length place) else pure ()

/-- A call of a partial. -/
def partialStep (names : List (List String)) (name : Expr) (ps : List Expr)
    (ns : List (String × Expr)) (block : Option Plan) (indent : String) : Step :=
  .partialCall (partialNameOf names name) ((operandsOf true names ps).head?)
    (if ns.isEmpty then none else some (inOrder (namedOf true names ns))) block indent

mutual

/-- The steps of a statement: one, or none if it yields nothing. -/
def statement (names : List (List String)) : Statement → Planning (List Step)
  | .content _ value _ _ => pure (if value = "" then [] else [.text value])
  | .comment _ => pure []
  | .insert c _ => pure [.tag (tagOfCall names c)]
  | .decorator c _ => pure [definitionOf names c none]
  | .block decorator c p i _ _ _ => do
    let p ← optional names p
    let i ← optional names i
    pure [if decorator then definitionOf names c p else .block (tagOfCall names c) p i]
  | .partialTag name ps ns indent _ place => do
    oneContext ps place
    pure [partialStep names name ps ns none indent]
  | .partialBlock name ps ns p _ _ place => do
    let block ← share (program names p)
    oneContext ps place
    pure [partialStep names name ps ns (some block) ""]

/-- The plan of a program that need not be there. -/
def optional (names : List (List String)) : Option Program → Planning (Option Plan)
  | some p => do pure (some (← share (program names p)))
  | none => pure none

/-- The steps of statements. -/
def statements (names : List (List String)) : List Statement → Planning (List Step)
  | [] => pure []
  | s :: ss => do
    let here ← statement names s
    let rest ← statements names ss
    pure (here ++ rest)

/-- The plan of a program; its block parameters come before those around it. -/
def program (names : List (List String)) : Program → Planning Plan
  | .mk body own _ => do
    let steps ← statements (own :: names) body
    pure (planOf (body.length = 1) steps (← get).sharing)

end

end Planning

/-- The plan of a template. -/
def Program.plan (p : Program) : Except RunFault Plan :=
  (Planning.program [] p ⟨[], false⟩).map (·.1)

end Template

end ProxyFleet
