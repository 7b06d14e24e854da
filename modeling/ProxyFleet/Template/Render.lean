import ProxyFleet.Context.Sample
import ProxyFleet.Failure
import ProxyFleet.Template.Planning
import ProxyFleet.Template.Reader
import ProxyFleet.Template.Run
import ProxyFleet.Template.Standalone

/-!
# Rendering

From the text of a template and a context to the text of a configuration. A
rendering fails at one of three stages: reading the template, running it, and
reading what came out as data. Notes that were made before a failure stay.

An expression of a template ends with two braces, and in a data text a third one
often follows, which would be read as the end of another kind of expression. A
space is put between them first. Nothing else of the text changes.

Many callers share one renderer, and each may give it an array for its notes.
-/

namespace ProxyFleet

namespace Template

/-! ## Braces behind an expression -/

/-- Which part of a template a pass is in: plain text, an expression between two braces or three,
or a comment that two hyphens open. -/
inductive BracePlace where
  | text
  | two
  | three
  | comment
  deriving DecidableEq, Repr

/-- What two opening braces begin, by what follows them. -/
def openedBy : List Char → BracePlace
  | '{' :: _ => .three
  | '!' :: '-' :: '-' :: _ => .comment
  | _ => .two

/-- A space, if a closing brace comes next. -/
def gapBefore (cs : List Char) : List Char := if cs.head? = some '}' then [' '] else []

/-- The text with its expressions set apart from braces behind them. -/
def separate : BracePlace → List Char → List Char
  | _, [] => []
  | .text, '{' :: '{' :: cs => '{' :: '{' :: separate (openedBy cs) cs
  | .two, '}' :: '}' :: cs => '}' :: '}' :: (gapBefore cs ++ separate .text cs)
  | .three, '}' :: '}' :: '}' :: cs => '}' :: '}' :: '}' :: separate .text cs
  | .comment, '-' :: '-' :: '}' :: '}' :: cs =>
    '-' :: '-' :: '}' :: '}' :: (gapBefore cs ++ separate .text cs)
  | place, c :: cs => c :: separate place cs

/-- A template with its expressions set apart from braces behind them. -/
def separateBraces (s : String) : String := String.ofList (separate .text s.toList)

/-! ## One rendering -/

/-- The outcome of rendering, and the notes made on the way to it. -/
structure Rendering where
  result : Except Failure String
  notes : List String

/-- How deep a run may go. -/
def runDepth : Nat := 3000

/-- A template read, or the failure to. -/
def parse (content : String) : Except Failure Program :=
  match read (separateBraces content) with
  | .ok p => .ok p.settled
  | .error m => .error (.template .reading ("template syntax error: " ++ m.message))

/-- A template run with a context as its root. -/
def runTemplate (p : Program) (context : Value) : Run String := do
  match p.plan with
  | .error f => throw f
  | .ok plan => do
    let root := Scope.rootContext context
    let start : Scope := ⟨.absent, some [], Scope.rootFrame root, [], [], false⟩
    let partials ← definitions runDepth start plan
    let depths := if plan.outward then some [root] else none
    let i ← runPlan runDepth { start with context := root, depths, partials } plan
    ofShape i.display

/-- The text a template gives for a context. -/
def renderRaw (content : String) (context : Value) : Rendering :=
  match parse content with
  | .error f => ⟨.error f, []⟩
  | .ok p =>
    let r := runTemplate p context ⟨[], Scope.firstNumber, []⟩
    match r.1 with
    | .ok s => ⟨.ok s, r.2.notes⟩
    | .error f =>
      ⟨.error (.template .running ("template execution error: " ++ f.message)), r.2.notes⟩

/-- The data a template gives for a context, laid out anew. -/
def render (content : String) (context : Value) : Rendering :=
  let raw := renderRaw content context
  match raw.result with
  | .error f => ⟨.error f, raw.notes⟩
  | .ok s =>
    match Value.ofText? s with
    | some v => ⟨.ok v.spreadText, raw.notes⟩
    | none => ⟨.error (.template .output ("invalid JSON output: " ++ badTextReason)), raw.notes⟩

/-- The data a template gives for the sample context. -/
def preview (content : String) : Except Failure String :=
  (render content (.obj Context.sample)).result

/-! ## Many renderings -/

/-- A renderer: the arrays that callers have for notes, each by its number, and the one that notes
go to at present. -/
structure Renderer where
  arrays : Nat → List String
  sink : Option Nat

namespace Renderer

/-- A note goes to the end of an array, or nowhere. -/
def push (r : Renderer) (text : String) : Renderer :=
  match r.sink with
  | none => r
  | some n => { r with arrays := fun m => if m = n then r.arrays m ++ [text] else r.arrays m }

/-- Renders with an array for the notes, if one is given. Notes go to it from when the template was
read until its run has ended or broken off. -/
def renderRaw (content : String) (context : Value) (given : Option Nat) :
    StateM Renderer (Except Failure String) :=
  match parse content with
  | .error f => pure (.error f)
  | .ok p => do
    modify fun r => { r with sink := given }
    let run := runTemplate p context ⟨[], Scope.firstNumber, []⟩
    modify fun r => run.2.notes.foldl push r
    modify fun r => { r with sink := none }
    match run.1 with
    | .ok s => pure (.ok s)
    | .error f => pure (.error (.template .running ("template execution error: " ++ f.message)))

/-- Renders data with an array for the notes, if one is given. -/
def render (content : String) (context : Value) (given : Option Nat) :
    StateM Renderer (Except Failure String) := do
  match ← renderRaw content context given with
  | .error f => pure (.error f)
  | .ok s =>
    match Value.ofText? s with
    | some v => pure (.ok v.spreadText)
    | none => pure (.error (.template .output ("invalid JSON output: " ++ badTextReason)))

/-- Renders data for the sample context; no array is given for the notes. -/
def preview (content : String) : StateM Renderer (Except Failure String) :=
  render content (.obj Context.sample) none

end Renderer

end Template

end ProxyFleet
