import ProxyFleet.Noted
import ProxyFleet.Template.Fault
import ProxyFleet.Template.Item

/-!
# What a template sees while it runs

Ways start in the context, in the contexts further out (`depths`), in the private
data of the block (`frame`) or at block parameters.

A name that is written for its value must be there (`strictField`); on the way to
it, and for what is given to a helper, a missing name gives an absent value
(`Item.field`).
-/

namespace ProxyFleet

namespace Template

/-- A way being followed. -/
structure Search where
  way : Way
  /-- Whether the way is written for its value, and not given to a call. -/
  needed : Bool
  /-- The value that the names are followed from. -/
  start : Item

namespace Search

/-- The names that are followed. The values of block parameters are found by their place. -/
def names (q : Search) : List String :=
  match q.way.start with
  | .parameter _ index => toString index :: q.way.names.drop 1
  | _ => q.way.names

/-- Whether the last name must be there. What is behind a block parameter need not be. -/
def strict (q : Search) : Bool :=
  match q.way.start with
  | .parameter .. => false
  | _ => q.needed

end Search

/-- A helper that is called, and what is given to it. -/
structure HelperCall where
  helper : Helper
  args : List Item

/-- What is told of helpers: that one is called, and what it notes. -/
inductive Told where
  | call (c : HelperCall)
  | note (text : String)

namespace Told

/-- The text of a note. -/
def note? : Told → Option String
  | note text => some text
  | call _ => none

/-- The helper that is called. -/
def call? : Told → Option HelperCall
  | call c => some c
  | note _ => none

end Told

/-- What a run has brought about so far: what was told of helpers, how many values were made, and
the searches there were. What was told and searched last comes first. -/
structure Progress where
  told : List Told
  made : Nat
  searches : List Search

namespace Progress

/-- The notes of helpers, in order. -/
def notes (p : Progress) : List String := p.told.reverse.filterMap Told.note?

/-- The calls of helpers, in order. -/
def calls (p : Progress) : List HelperCall := p.told.reverse.filterMap Told.call?

/-- One thing more is told. -/
def tell (t : Told) (p : Progress) : Progress := { p with told := t :: p.told }

end Progress

/-- Running may break off; what it has brought about until then stays. -/
abbrev Run := ExceptT RunFault (StateM Progress)

/-- A fault in the shape of a value breaks a run off. -/
def ofShape {α : Type} (r : Except ShapeFault α) : Run α :=
  match r with
  | .ok a => pure a
  | .error e => throw (.misshapen e)

/-- A result with notes, which are collected. -/
def collect {α : Type} (r : Noted α) : Run α := do
  modify fun p => r.notes.foldl (fun p text => p.tell (.note text)) p
  pure r.value

/-- A number that nothing that was made has. -/
def newNumber : Run Nat := do
  let n := (← get).made
  modify fun p => { p with made := n + 1 }
  pure n

/-- What a running plan sees. Contexts further out are there only if something in the plan asks
for them; block parameters are handed on if `passing` says so. -/
structure Scope where
  context : Item
  depths : Option (List Item)
  frame : Item
  params : List Item
  partials : List (String × Option Closure)
  passing : Bool

namespace Scope

/-- The context for a template as a whole. -/
def rootContext (v : Value) : Item := .data v ⟨0, []⟩

/-- The context as helpers see it where there is none. -/
def nobody : Item := .data (.obj []) ⟨1, []⟩

/-- The private data of a template as a whole. -/
def rootFrame (root : Item) : Item := .record [("root", root)] 2

/-- The numbers from here on are for what is made while a template runs. -/
def firstNumber : Nat := 3

/-- The context a number of blocks further out. -/
def outward (s : Scope) (depth : Nat) : Item :=
  if depth = 0 then s.context else ((s.depths.getD [])[depth]?).getD .absent

/-- The context as helpers see it; there always is one. -/
def receiver (s : Scope) : Item := if s.context.isNothing then nobody else s.context

/-- The values of the block parameters as one value, if they are handed on. -/
def handedOn (s : Scope) : Run Item := do
  if s.passing then pure (.list s.params (← newNumber)) else pure .absent

end Scope

/-! ## Private data -/

/-- The name under which private data hold those of the block around. -/
def aroundName : String := "_parent"

/-- The name under which private data hold the block that a partial was called with. -/
def blockName : String := "partial-block"

/-- Private data inside others: they hold the same, those others, and what is theirs. -/
def newFrame (around : Item) (own : List (String × Item)) : Run Item := do
  let fields := Fields.put (Fields.putAll [] around.parts) aroundName around
  pure (.record (Fields.putAll fields own) (← newNumber))

/-- The private data a number of blocks further out. -/
def frameOutward : Nat → Item → Item
  | 0, frame => frame
  | n + 1, frame =>
    if frame.isTruthy then frameOutward n ((frame.own? aroundName).getD .absent) else frame

/-! ## Following a way -/

/-- The last name of a way that is written for its value: it must be there. -/
def strictField (parent : Item) (name : String) (place : Place) : Run Item := do
  if parent.isTruthy && !parent.isObject then throw (.noNames name)
  else if parent.isTruthy && parent.hasName name then
    pure ((parent.own? name).getD .absent)
  else throw (.undefinedName name (← ofShape parent.display) place)

/-- Follows names from a value; if `strict`, the last name must be there. -/
def follow (strict : Bool) (place : Place) : Item → List String → Run Item
  | i, [] => pure i
  | i, [name] => if strict then strictField i name place else ofShape (i.field name)
  | i, name :: names => do follow strict place (← ofShape (i.field name)) names

/-- The value that a way starts from. That of a block parameter is all there is for its block. -/
def Scope.startOf (s : Scope) : Start → Item
  | .context depth => s.outward depth
  | .data depth => frameOutward depth s.frame
  | .parameter block _ => (s.params[block]?).getD .absent

/-- The value a way leads to. -/
def lookUp (s : Scope) (needed : Bool) (w : Way) : Run Item := do
  let q : Search := ⟨w, needed, s.startOf w.start⟩
  modify fun p => { p with searches := q :: p.searches }
  follow q.strict w.place q.start q.names

/-! ## Going into blocks -/

/-- The contexts around a block that is run with a context, if anybody asks for them. -/
def deepen (context : Item) : Option (List Item) → Run (Option (List Item))
  | none => pure none
  | some depths => do
    let nearest := depths.head?.getD .absent
    if (← ofShape (context.looselySame nearest))
        || (context.same Scope.nobody && nearest.toValue == .null) then pure (some depths)
    else pure (some (context :: depths))

/-- A context with values added by name, as a value of its own. -/
def extended (context : Item) (named : List (String × Item)) : Run Item := do
  let own := context.parts.filter (·.1 != "__proto__")
  pure (.record (Fields.putAll (Fields.putAll [] own) named) (← newNumber))

/-! ## Joining what a plan yields -/

/-- What has been joined: what was settled, and what was yielded since. -/
structure Joined where
  settled : Option Item
  since : Option Item

/-- A value joined to what is already there. -/
def joinOnto (start : Option Item) (i : Item) : Run Item :=
  match start with
  | some a => ofShape (a.plus i)
  | none => pure i

/-- What is there for text: a missing yield is empty text. -/
def orEmpty (i : Item) : Item := if i.isNothing then .text "" else i

/-- Everything that has been joined. -/
def Joined.all (j : Joined) : Run Item :=
  match j.since with
  | some i => joinOnto j.settled i
  | none => pure (j.settled.getD (.text ""))

end Template

end ProxyFleet
