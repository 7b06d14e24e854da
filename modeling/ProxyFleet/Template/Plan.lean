import ProxyFleet.Template.Helper
import ProxyFleet.Template.Tree

/-!
# Plans

What a program does, apart from how it is written: every tag is understood as a
value, a call, or a name that may be either, every name of a block parameter is
replaced by where its value will stand, and what yields nothing is gone.

Two plans are alike if they do the same, wherever they stand (`Plan.alike`).
-/

namespace ProxyFleet

namespace Template

/-- Where a way starts: in the context or in the private data some blocks further out, or at a
block parameter, found by its block and its place there. -/
inductive Start where
  | context (depth : Nat)
  | data (depth : Nat)
  | parameter (block index : Nat)
  deriving DecidableEq, Repr

/-- A way to a value, with all names as written; the first name of a way that starts at a block
parameter is that of the parameter. -/
structure Way where
  start : Start
  names : List String
  place : Place
  deriving DecidableEq, Repr

/-- What a function can learn about the tag that calls it. -/
structure CallSite where
  name : String
  span : Span
  deriving DecidableEq, Repr

/-- What a tag calls: a helper, or what it finds at the end of a way. -/
inductive Target where
  | helper (h : Helper)
  | control (c : Control)
  | found (w : Way) (site : CallSite)
  deriving DecidableEq, Repr

mutual

/-- What is given to a call. A call that cannot be made where it stands is `refused`. -/
inductive Operand where
  | literal (l : Literal)
  | way (w : Way)
  | tag (t : Tag)
  | refused
  deriving Repr

/-- A tag: a value, a single name that may be a value or a function, or a call. What is given by
name stands in the order in which it is worked out. -/
inductive Tag where
  | value (w : Way)
  | single (w : Way) (site : CallSite)
  | call (target : Target) (args : List Operand) (named : List (String × Operand))
  deriving Repr

end

/-- The name of a partial: written, or worked out. -/
inductive PartialName where
  | written (name : String)
  | computed (o : Operand)
  deriving Repr

mutual

/-- A step of a plan. A definition yields nothing; it is made before the plan is run. -/
inductive Step where
  | text (s : String)
  | tag (t : Tag)
  | block (t : Tag) (program inverse : Option Plan)
  | partialCall (name : PartialName) (context : Option Operand)
      (named : Option (List (String × Operand))) (block : Option Plan) (indent : String)
  | definition (kind : String) (args : List Operand) (named : List (String × Operand))
      (block : Option Plan)

/-- Steps in order. A `single` plan was written as one statement. A plan is `outward` if something
in it looks into a context around it, and `sharing` if a plan in it reads block parameters. -/
inductive Plan where
  | mk (steps : List Step) (single outward sharing : Bool)

end

namespace Plan

/-- The steps of a plan. -/
def steps : Plan → List Step
  | .mk steps _ _ _ => steps

/-- Whether the plan was written as one statement. -/
def single : Plan → Bool
  | .mk _ single _ _ => single

/-- Whether something in the plan looks into a context around it. -/
def outward : Plan → Bool
  | .mk _ _ outward _ => outward

/-- Whether a plan in the plan reads block parameters. -/
def sharing : Plan → Bool
  | .mk _ _ _ sharing => sharing

end Plan

/-! ## Which ways a step holds -/

mutual

/-- Whether a way in an operand has a property. -/
def Operand.anyWay (p : Way → Bool) : Operand → Bool
  | .literal _ | .refused => false
  | .way w => p w
  | .tag t => t.anyWay p

/-- Whether a way in a tag has a property. -/
def Tag.anyWay (p : Way → Bool) : Tag → Bool
  | .value w | .single w _ => p w
  | .call target args named =>
    (match target with
      | .found w _ => p w
      | _ => false) || anyWayIn p args || anyWayNamed p named

/-- Whether a way in one of some operands has a property. -/
def anyWayIn (p : Way → Bool) : List Operand → Bool
  | [] => false
  | o :: os => o.anyWay p || anyWayIn p os

/-- Whether a way in one of some named operands has a property. -/
def anyWayNamed (p : Way → Bool) : List (String × Operand) → Bool
  | [] => false
  | (_, o) :: os => o.anyWay p || anyWayNamed p os

end

namespace Step

/-- Whether a way in a step, outside of its blocks, has a property. -/
def anyWay (p : Way → Bool) : Step → Bool
  | .text _ => false
  | .tag t | .block t _ _ => t.anyWay p
  | .partialCall name context named _ _ =>
    (match name with
      | .computed o => o.anyWay p
      | .written _ => false) || context.any (·.anyWay p) || named.any (anyWayNamed p)
  | .definition _ args named _ => anyWayIn p args || anyWayNamed p named

/-- The plans of a step. -/
def plans : Step → List Plan
  | .block _ program inverse => program.toList ++ inverse.toList
  | .partialCall _ _ _ b _ | .definition _ _ _ b => b.toList
  | _ => []

/-- A definition. -/
def isDefinition : Step → Bool
  | .definition .. => true
  | _ => false

/-- A block that is run for what a single name turns out to be. What was yielded before it is
joined up before it is run. -/
def settles : Step → Bool
  | .block (.single ..) _ _ => true
  | _ => false

/-- Whether a step, outside of its blocks, reads a block parameter. -/
def readsParameter (s : Step) : Bool :=
  s.anyWay fun w => match w.start with
    | .parameter .. => true
    | _ => false

/-- Whether something in a step looks into a context around the block. Definitions count, as they
see nothing else. -/
def outward (s : Step) : Bool :=
  s.isDefinition || s.plans.any Plan.outward || s.anyWay fun w => match w.start with
    | .context depth | .data depth => depth != 0
    | .parameter .. => false

end Step

/-- A step with what has to be known about the steps around it. -/
structure Turn where
  step : Step
  /-- Whether block parameters are handed on. -/
  passing : Bool
  /-- Whether a later step settles what was yielded before it. -/
  settledLater : Bool

namespace Plan

/-- The steps that yield something, each with what has to be known about the others. Block
parameters are handed on from the first step on that reads one, and everywhere if a plan in the
plan does. -/
def turns (p : Plan) : List Turn :=
  go p.sharing p.steps
where
  /-- The turns of the steps from one on. -/
  go (passing : Bool) : List Step → List Turn
    | [] => []
    | s :: rest =>
      let passing := passing || s.readsParameter
      if s.isDefinition then go passing rest
      else ⟨s, passing, rest.any Step.settles⟩ :: go passing rest

/-- Whether a plan or one in it reads block parameters. -/
def readsParameter (p : Plan) : Bool := p.sharing || p.steps.any Step.readsParameter

end Plan

/-! ## Plans that do the same -/

/-- Two ways lead to the same. -/
def Way.alike (v w : Way) : Bool := v.start = w.start && v.names = w.names

/-- Two tags call the same. -/
def Target.alike : Target → Target → Bool
  | .helper a, .helper b => a = b
  | .control a, .control b => a = b
  | .found v a, .found w b => v.alike w && a.name = b.name
  | _, _ => false

mutual

/-- Two operands give the same. -/
def Operand.alike : Operand → Operand → Bool
  | .literal a, .literal b => a = b
  | .way v, .way w => v.alike w
  | .tag s, .tag t => s.alike t
  | .refused, .refused => true
  | _, _ => false

/-- Two tags do the same. -/
def Tag.alike : Tag → Tag → Bool
  | .value v, .value w => v.alike w
  | .single v _, .single w _ => v.alike w
  | .call s as ms, .call t bs ns => s.alike t && alikeIn as bs && alikeNamed ms ns
  | _, _ => false

/-- Operands give the same, one by one. -/
def alikeIn : List Operand → List Operand → Bool
  | [], [] => true
  | a :: as, b :: bs => a.alike b && alikeIn as bs
  | _, _ => false

/-- Operands give the same under the same names, one by one. -/
def alikeNamed : List (String × Operand) → List (String × Operand) → Bool
  | [], [] => true
  | (m, a) :: as, (n, b) :: bs => m = n && a.alike b && alikeNamed as bs
  | _, _ => false

end

/-- Two names of partials are the same. -/
def PartialName.alike : PartialName → PartialName → Bool
  | .written a, .written b => a = b
  | .computed a, .computed b => a.alike b
  | _, _ => false

/-- Two optional things are alike: both are missing, or they are. -/
def alikeOptional {α : Type} (alike : α → α → Bool) : Option α → Option α → Bool
  | some a, some b => alike a b
  | none, none => true
  | _, _ => false

mutual

/-- Two steps do the same. -/
def Step.alike : Step → Step → Bool
  | .text a, .text b => a = b
  | .tag s, .tag t => s.alike t
  | .block s p i, .block t q j => s.alike t && alikePlans p q && alikePlans i j
  | .partialCall m a as p x, .partialCall n b bs q y =>
    m.alike n && alikeOptional Operand.alike a b && alikeOptional alikeNamed as bs
      && alikePlans p q && x = y
  | .definition k as ms p, .definition l bs ns q =>
    k = l && alikeIn as bs && alikeNamed ms ns && alikePlans p q
  | _, _ => false

/-- Two plans do the same. -/
def Plan.alike : Plan → Plan → Bool
  | .mk as _ _ _, .mk bs _ _ _ => alikeSteps as bs

/-- Steps do the same, one by one. -/
def alikeSteps : List Step → List Step → Bool
  | [], [] => true
  | a :: as, b :: bs => a.alike b && alikeSteps as bs
  | _, _ => false

/-- Two optional plans do the same, or both are missing. -/
def alikePlans : Option Plan → Option Plan → Bool
  | some p, some q => p.alike q
  | none, none => true
  | _, _ => false

end

end Template

end ProxyFleet
