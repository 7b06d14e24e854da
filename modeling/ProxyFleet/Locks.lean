/-!
# Locks that never wait

Who wants a key that is taken is turned away at once. Taking a key gives a
claim on it; releasing a claim frees its key only while that claim still holds
it, so a claim released twice, or late, never frees the key for a later holder.

Claims are numbered in the order they were given out, which tells the holders
of one key apart.
-/

namespace ProxyFleet

/-- A claim on a key. -/
structure Claim where
  key : String
  number : Nat
  deriving DecidableEq, Repr

/-- The claims that hold their keys, and how many were ever given out. -/
structure Locks where
  held : List Claim
  given : Nat
  deriving DecidableEq, Repr

namespace Locks

/-- No key is taken. -/
def empty : Locks := ⟨[], 0⟩

/-- Whether a key is taken. -/
def isHeld (l : Locks) (key : String) : Bool := l.held.any (·.key == key)

/-- How many keys are taken. -/
def size (l : Locks) : Nat := l.held.length

/-- Takes a key, if it is free. -/
def acquire? (l : Locks) (key : String) : Option (Claim × Locks) :=
  if l.isHeld key then none
  else
    let claim : Claim := ⟨key, l.given⟩
    some (claim, ⟨l.held ++ [claim], l.given + 1⟩)

/-- Gives up a claim: frees its key if it is this claim that holds it. -/
def release (l : Locks) (claim : Claim) : Locks :=
  { l with held := l.held.filter (· != claim) }

end Locks

/-- The key of an instance on an agent host. -/
def instanceKey (host instanceId : String) : String := host ++ ":" ++ instanceId

end ProxyFleet
