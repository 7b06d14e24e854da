import ProxyFleet.Failure
import ProxyFleet.Store
import ProxyFleet.Value.Shape

/-!
# Problems

Whatever work may break off with: a failure that was foreseen, a refused write, a
stored record of the wrong shape, or something an agent's side came up with.
-/

namespace ProxyFleet

/-- The message of a fault; the value that was asked in vain is null. -/
def ShapeFault.message : ShapeFault → String
  | .noFields name => "Cannot read properties of null (reading '" ++ name ++ "')"
  | .noItems => "value is not iterable"
  | .noText => "Cannot convert object to primitive value"

/-- Why work broke off. -/
inductive Problem where
  | failure (f : Failure)
  | refused (e : StoreError)
  | misshapen (f : ShapeFault)
  /-- An error that is none of the foreseen failures. -/
  | unforeseen (message : String)
  /-- Bare words in the place of an error. -/
  | words (text : String)
  deriving DecidableEq, Repr

/-- A problem in words. -/
def Problem.message : Problem → String
  | .failure f => f.message
  | .refused e => e.message
  | .misshapen f => f.message
  | .unforeseen message => message
  | .words text => text

end ProxyFleet
