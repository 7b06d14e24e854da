import ProxyFleet.Template.Helper.Apply
import ProxyFleet.Template.Scope

/-!
# Running plans

A plan is run with a context. What its steps yield is joined from the left, each
yield as soon as it is there, so that of two faults the one met first counts.

Partials that a block defines are known as soon as the block is met, so its
definitions are made then, whether or not the block is run afterwards. Partials
can call each other without end, so runs are given a depth; running out of it is
the same fault as any other call that cannot be made.
-/

namespace ProxyFleet

namespace Template

/-- The two programs of a block, if a call is one. A program that is not there yields nothing. -/
inductive Branches where
  | none
  | some (program inverse : Option Closure)

/-- A program of a block as a function. -/
def branchFunction : Option Closure → Function
  | some c => .program c
  | none => .empty

/-- A place as a value. -/
def Place.toValue (p : Place) : Value :=
  .obj [("line", .int p.line), ("column", .int p.column)]

/-- What a function is told about the tag that calls it: a record of the name in the tag, what is
given by name, the programs of the block, the private data, the block parameters if they are handed
on, and the stretch of the tag. -/
def callRecord (s : Scope) (site : CallSite) (named : List (String × Item)) (branches : Branches) :
    Run Item := do
  let hash := Item.record named (← newNumber)
  let programs ← match branches with
    | .none => pure []
    | .some program inverse => do
      let n ← newNumber
      pure [("fn", Item.function (branchFunction program) n),
        ("inverse", .function (branchFunction inverse) (← newNumber))]
  let params ← s.handedOn
  let span : Value := .obj [("start", site.span.start.toValue), ("end", site.span.stop.toValue)]
  let loc := Item.data span ⟨← newNumber, []⟩
  let fields := [("name", Item.text site.name), ("hash", hash)] ++ programs
    ++ [("data", s.frame)] ++ (if s.passing then [("blockParams", params)] else [])
    ++ [("loc", loc)]
  pure (.record fields (← newNumber))

/-- What a helper gives. What it notes is collected once it has come to its end; a helper that
faults has noted nothing. -/
def callHelper (h : Helper) (args : List Item) : Run Item := do
  modify (Progress.tell (.call ⟨h, args⟩))
  collect (← ofShape (h.apply args (← newNumber)))

/-- Every line of a text indented, but not an empty last one. -/
def indentLines (indent : String) (s : String) : String :=
  let lines := cutAt ['\n'] s.toList
  let last := lines.length - 1
  String.ofList (joinWith ['\n'] (lines.zipIdx.map fun (l, i) =>
    if l.isEmpty && i = last then l else indent.toList ++ l))

/-- The one kind of definition there is: that of a partial. -/
def definitionKind : String := "inline"

/-- The steps of an iteration: each value with what it is found under. -/
def iteration (i : Item) : List (Item × Value) :=
  if i.isArray then i.items.zipIdx.map fun (x, n) => (x, .int n)
  else if i.isObject then i.parts.map fun (k, x) => (x, .str k)
  else []

/-- Whether a condition holds of a value. Zero does not count as true unless it is asked for. -/
def holds (i : Item) (named : List (String × Item)) : Bool :=
  ((named.lookup "includeZero").any Item.isTruthy || i.isTruthy) && !i.isEmpty

/-- What a partial runs: the function that a name, written or worked out, stands for, and the name
to say if there is none. Only a written name can lead to the block around; a name that is worked out
and missing is looked up as the word for it. -/
def findPartial (s : Scope) (name : String ⊕ Item) : Run (String × Option Function) :=
  let known (name : String) : Option Function :=
    match s.partials.lookup name with
    | some (some c) => some (.program c)
    | _ => none
  match name with
  | .inl name =>
    let around := match s.frame.own? blockName with
      | some (.function f _) => some f
      | _ => none
    pure (name, (known name).or (if name = "@" ++ blockName then around else none))
  | .inr (.function f _) => pure ("", some f)
  | .inr i => do
    let name ← if i.isTruthy then ofShape i.display else pure "undefined"
    pure (name, known name)

mutual

/-- The value of what is given to a call. -/
def evalOperand : Nat → Scope → Operand → Run Item
  | 0, _, _ => throw .shape
  | fuel + 1, s, o =>
    match o with
    | .literal l => pure (.plain l.value)
    | .way w => lookUp s false w
    | .tag t => evalTag fuel s t (pure .none)
    | .refused => throw .noHelpers

/-- The values of what is given by name. -/
def evalNamed : Nat → Scope → List (String × Operand) → Run (List (String × Item))
  | 0, _, _ => throw .shape
  | fuel + 1, s, named => named.mapM fun n => do pure (n.1, ← evalOperand fuel s n.2)

/-- The value of a tag. A tag of a block meets the programs of the block after what is given to
the call has been worked out. A function that is found as a value is called. -/
def evalTag : Nat → Scope → Tag → Run Branches → Run Item
  | 0, _, _, _ => throw .shape
  | fuel + 1, s, t, branches =>
    match t with
    | .value w => do
      let i ← lookUp s true w
      callValue fuel s i
    | .single w site => do
      let i ← lookUp s true w
      let branches ← branches
      match i with
      | .function f _ => do callFunction fuel s.partials f [← callRecord s site [] branches]
      | i => pure i
    | .call (.control .reserved) _ _ => throw .shape
    | .call (.control c) args named => do
      let args ← args.mapM (evalOperand fuel s)
      let named ← evalNamed fuel s named
      evalControl fuel s c args named (← branches)
    | .call (.helper h) args named => do
      let args ← args.mapM (evalOperand fuel s)
      let _ ← evalNamed fuel s named
      let _ ← branches
      callHelper h args
    | .call (.found w site) args named => do
      let i ← lookUp s true w
      if i.isNothing then throw .shape
      let args ← args.mapM (evalOperand fuel s)
      let named ← evalNamed fuel s named
      let branches ← branches
      match i with
      | .function f _ => do
        callFunction fuel s.partials f (args ++ [← callRecord s site named branches])
      | _ => throw .shape

/-- A function that is met as a value is called with nothing; all else is a value. -/
def callValue : Nat → Scope → Item → Run Item
  | 0, _, _ => throw .shape
  | fuel + 1, s, i =>
    match i with
    | .function f _ => callFunction fuel s.partials f []
    | i => pure i

/-- Calls a function: the first value given to it is the context, and the second tells about the
call. The block of a partial has private data of its own, which hold the block of the call around
it. -/
def callFunction : Nat → List (String × Option Closure) → Function → List Item → Run Item
  | 0, _, _, _ => throw .shape
  | fuel + 1, partials, f, args => do
    let context := args.getD 0 .absent
    let call := match args.getD 1 .absent with
      | .data .absent _ => Item.record [] 0
      | i => i
    match f with
    | .empty => pure (.text "")
    | .program c => do
      let frame ← ofShape (call.field "data")
      let param ← ofShape (call.field "blockParams")
      invoke fuel partials c context (if frame.isTruthy then some frame else none) param
    | .block c outer => do
      if !call.isObject then throw .shape
      let around ← ofShape (call.field "data")
      let param ← ofShape (call.field "blockParams")
      let frame ← newFrame around [(blockName, outer)]
      invoke fuel partials c context (some frame) param

/-- A control helper. -/
def evalControl : Nat → Scope → Control → List Item → List (String × Item) → Branches → Run Item
  | 0, _, _, _, _, _ => throw .shape
  | fuel + 1, s, c, args, named, branches =>
    match c, args with
    | .each, [] => throw .noIterator
    | .each, [i] => do
      let i ← callValue fuel s i
      if (iteration i).isEmpty then runBranch fuel s false s.receiver branches
      else eachItem fuel s i branches
    | .each, _ :: o :: _ => throw (if o.isTruthy then .shape else .noIterator)
    | .ifTrue, [i] => do
      let i ← callValue fuel s i
      runBranch fuel s (holds i named) s.receiver branches
    | .ifTrue, _ => throw (.oneArgument "if")
    | .unlessTrue, [i] => do
      let i ← callValue fuel s i
      runBranch fuel s (!holds i named) s.receiver branches
    | .unlessTrue, _ => throw (.oneArgument "unless")
    | .within, [i] => do
      let i ← callValue fuel s i
      if i.isEmpty then runBranch fuel s false s.receiver branches
      else match branches with
        | .none => throw .shape
        | .some none _ => pure (.text "")
        | .some (some p) _ => do
          let param := Item.list [i] (← newNumber)
          invoke fuel s.partials p i none param
    | .within, _ => throw (.oneArgument "with")
    | .lookup, i :: rest =>
      if !i.isTruthy then pure i
      else match rest with
        | [key] => do pure ((i.own? (← ofShape key.display)).getD .absent)
        | _ => throw .shape
    | .lookup, [] => throw .shape
    | .log, _ => pure .absent
    | .reserved, _ => throw .shape

/-- Runs one of the programs of a block with a context. -/
def runBranch : Nat → Scope → Bool → Item → Branches → Run Item
  | 0, _, _, _, _ => throw .shape
  | fuel + 1, s, holds, context, branches =>
    match branches with
    | .none => throw .shape
    | .some program inverse =>
      match if holds then program else inverse with
      | some c => invoke fuel s.partials c context none .absent
      | none => pure (.text "")

/-- Runs the program of a block for every value that another holds. -/
def eachItem : Nat → Scope → Item → Branches → Run Item
  | 0, _, _, _ => throw .shape
  | fuel + 1, s, i, branches =>
    match branches with
    | .none => throw .shape
    | .some none _ => pure (.text "")
    | .some (some c) _ => do
      let steps := iteration i
      let texts ← steps.zipIdx.mapM fun ((item, key), n) => do
        let frame ← newFrame s.frame [("key", .plain key), ("index", .plain (.int n)),
          ("first", .plain (.bool (n = 0))), ("last", .plain (.bool (n + 1 = steps.length)))]
        let param := Item.list [item, .plain key] (← newNumber)
        ofShape (← invoke fuel s.partials c item (some frame) param).display
      pure (.text (String.join texts))

/-- Runs a block for a value: once if it is true or neither a truth value nor an array, for every
item of an array, else the other program. -/
def runBlockFor : Nat → Scope → Item → Branches → Run Item
  | 0, _, _, _ => throw .shape
  | fuel + 1, s, i, branches =>
    if i.isNothing then runBranch fuel s false s.context branches
    else if i.isArray then
      if i.items.isEmpty then runBranch fuel s false s.context branches
      else eachItem fuel s i branches
    else match i, branches with
      | .data (.bool b) _, _ => runBranch fuel s b s.context branches
      | i, .some (some c) _ => do invoke fuel s.partials c i (some s.frame) (← s.handedOn)
      | _, _ => pure (.text "")

/-- A plan and what it sees here. The partials it defines are made now, with the context of the
nearest block. -/
def close : Nat → Scope → Plan → Run Closure
  | 0, _, _ => throw .shape
  | fuel + 1, s, p => do
    pure (.mk p s.params s.depths s.frame (← definitions fuel s p))

/-- An optional plan and what it sees here. -/
def closeOptional : Nat → Scope → Option Plan → Run (Option Closure)
  | 0, _, _ => throw .shape
  | _ + 1, _, none => pure none
  | fuel + 1, s, some p => do pure (some (← close fuel s p))

/-- The partials that a plan defines; the last definition of a name comes first. -/
def definitions : Nat → Scope → Plan → Run (List (String × Option Closure))
  | 0, _, _ => throw .shape
  | fuel + 1, s, p =>
    let inner : Scope := { s with context := ((s.depths.getD []).head?).getD .absent }
    p.steps.foldlM (fun (acc : List (String × Option Closure)) st => do
      match st with
      | .definition kind args named block => do
        if kind != definitionKind then throw (.noDefinition kind)
        let _ ← evalNamed fuel inner named
        let closure ← closeOptional fuel inner block
        let args ← args.mapM (evalOperand fuel inner)
        let name ← ofShape (args.headD .absent).display
        pure ((name, closure) :: acc)
      | _ => pure acc) []

/-- Runs a closure with a context. Its private data may be replaced, and its block parameters are
given values. -/
def invoke : Nat → List (String × Option Closure) → Closure → Item → Option Item → Item → Run Item
  | 0, _, _, _, _, _ => throw .shape
  | fuel + 1, partials, .mk p params depths frame own, context, frame', param => do
    let depths ← deepen context depths
    runPlan fuel
      ⟨context, if p.outward then depths else none, frame'.getD frame, param :: params,
        own ++ partials, false⟩ p

/-- Calls a partial. If it is not known, the block it is called with stands in. -/
def runPartial : Nat → Scope → PartialName → Option Operand → Option (List (String × Operand)) →
    Option Plan → String → Run Item
  | 0, _, _, _, _, _, _ => throw .shape
  | fuel + 1, s, name, context, named, block, indent => do
    let name ← match name with
      | .written t => pure (Sum.inl t)
      | .computed o => do pure (Sum.inr (← evalOperand fuel s o))
    let context ← match context with
      | some o => evalOperand fuel s o
      | none => pure s.context
    let context ← match named with
      | some ns => do extended context (← evalNamed fuel s ns)
      | none => pure context
    let block ← closeOptional fuel s block
    let (name, found) ← findPartial s name
    let outer := (s.frame.own? blockName).getD .absent
    let own ← match block with
      | some c => do pure (some (Function.block c outer, ← newNumber))
      | none => pure none
    let frame ← match own with
      | some (f, n) => newFrame s.frame [(blockName, .function f n)]
      | none => pure s.frame
    match found.or (own.map (·.1)) with
    | none => throw (.noPartial name)
    | some f => do
      let call : List (String × Item) := [("data", frame), ("blockParams", ← s.handedOn)]
      let i ← callFunction fuel s.partials f [context, .record call (← newNumber)]
      if indent = "" then pure i
      else match i with
        | .data (.str t) _ => pure (.text (indentLines indent t))
        | _ => throw .shape

/-- What a step yields. -/
def runStep : Nat → Scope → Step → Run Item
  | 0, _, _ => throw .shape
  | fuel + 1, s, st =>
    let branches (program inverse : Option Plan) : Run Branches := do
      let program ← closeOptional fuel s program
      let inverse ← closeOptional fuel s inverse
      pure (.some program inverse)
    match st with
    | .text t => pure (.text t)
    | .tag t => evalTag fuel s t (pure .none)
    | .block (.call target args named) program inverse =>
      evalTag fuel s (.call target args named) (branches program inverse)
    | .block (.single w site) program inverse => do
      let i ← lookUp s true w
      let bs ← branches program inverse
      let i ← match i with
        | .function f _ => do callFunction fuel s.partials f [← callRecord s site [] bs]
        | i => pure i
      runBlockFor fuel s i bs
    | .block t program inverse => do
      let i ← evalTag fuel s t (pure .none)
      runBlockFor fuel s i (← branches program inverse)
    | .partialCall name context named block indent =>
      runPartial fuel s name context named block indent
    | .definition .. => pure .absent

/-- What a plan yields. A plan that was written as one statement keeps its value. -/
def runPlan : Nat → Scope → Plan → Run Item
  | 0, _, _ => throw .shape
  | fuel + 1, s, p => do
    if p.single then
      match p.turns with
      | t :: _ => do pure (orEmpty (← runStep fuel { s with passing := t.passing } t.step))
      | [] => pure (.text "")
    else
      let j ← p.turns.foldlM (fun (j : Joined) t => do
        let s := { s with passing := t.passing }
        if t.step.settles then
          let before ← j.all
          let i ← runStep fuel s t.step
          let after ← if i.isNothing then pure before else joinOnto (some before) i
          pure ⟨some after, none⟩
        else
          let i := orEmpty (← runStep fuel s t.step)
          if t.settledLater then pure { j with since := some (← joinOnto j.since i) }
          else pure { j with settled := some (← joinOnto j.settled i) }) ⟨none, none⟩
      j.all

end

end Template

end ProxyFleet
