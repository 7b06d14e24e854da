import ProxyFleet.Template.Lexeme
import ProxyFleet.Value.Shape

/-!
# Faults of running templates

Why a template that can be read breaks off, and what is said then.
-/

namespace ProxyFleet

namespace Template

/-- A place at the end of a message. -/
def Place.note (p : Place) : String := " - " ++ toString p.line ++ ":" ++ toString p.column

/-- Why a template breaks off. -/
inductive RunFault where
  /-- A call that cannot be made: of what is no function, with what does not fit, or too deep. -/
  | shape
  /-- A value does not have the shape that it was needed in. -/
  | misshapen (f : ShapeFault)
  /-- Whether it has a name was asked of a value that has none. -/
  | noNames (name : String)
  /-- A name that must be there is not. -/
  | undefinedName (name parent : String) (place : Place)
  /-- A helper that takes one value was given none or more. -/
  | oneArgument (helper : String)
  /-- Nothing was given to run a block for. -/
  | noIterator
  /-- No partial has the name. -/
  | noPartial (name : String)
  /-- A partial was given more than one context. -/
  | partialParams (count : Nat) (place : Place)
  /-- A helper was called in the head of a definition, where none can be. -/
  | noHelpers
  /-- There are no definitions of the kind. -/
  | noDefinition (kind : String)
  deriving DecidableEq, Repr

/-- The text of a fault. The runtime has words of its own for values that are misused; one text
stands for all of them here. -/
def RunFault.message : RunFault → String
  | .shape | .misshapen _ | .noNames _ => "type error"
  | .undefinedName name parent place =>
    "\"" ++ name ++ "\" not defined in " ++ parent ++ place.note
  | .oneArgument helper => "#" ++ helper ++ " requires exactly one argument"
  | .noIterator => "Must pass iterator to #each"
  | .noPartial name => "The partial " ++ name ++ " could not be found"
  | .partialParams count place =>
    "Unsupported number of partial arguments: " ++ toString count ++ place.note
  | .noHelpers => "helpers is not defined"
  | .noDefinition kind => "Missing decorator: \"" ++ kind ++ "\""

end Template

end ProxyFleet
