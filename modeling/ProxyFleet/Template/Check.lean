import ProxyFleet.ConfigCheck
import ProxyFleet.Template.Render

/-!
# Checking templates

A template is checked by what it gives for the sample context. This makes four
kinds of requests that are made to one renderer.
-/

namespace ProxyFleet

namespace Template

/-- Checks a template of a type. -/
def check (content type : String) : Verdict :=
  match preview content with
  | .error f => ⟨["Template render error: " ++ f.message], []⟩
  | .ok output => ConfigCheck.checkStructure "template" type ((Value.ofText? output).getD .absent)

namespace Renderer

/-- Checks a template of a type. -/
def check (content type : String) : StateM Renderer Verdict := do
  match ← preview content with
  | .error f => pure ⟨["Template render error: " ++ f.message], []⟩
  | .ok output =>
    pure (ConfigCheck.checkStructure "template" type ((Value.ofText? output).getD .absent))

/-- What a renderer is asked for, with the array that is given for notes if there can be one. -/
inductive Request where
  | renderRaw (content : String) (context : Value) (given : Option Nat)
  | render (content : String) (context : Value) (given : Option Nat)
  | preview (content : String)
  | check (content type : String)

/-- What comes of a request. -/
inductive Answer where
  | text (r : Except Failure String)
  | verdict (v : Verdict)

/-- A renderer answers a request. -/
def serve : Request → StateM Renderer Answer
  | .renderRaw content context given => .text <$> renderRaw content context given
  | .render content context given => .text <$> render content context given
  | .preview content => .text <$> preview content
  | .check content type => .verdict <$> check content type

/-- A renderer answers requests, one after the other. -/
def serveAll (rs : List Request) : StateM Renderer (List Answer) := rs.mapM serve

end Renderer

end Template

end ProxyFleet
