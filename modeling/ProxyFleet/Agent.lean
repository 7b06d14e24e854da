import ProxyFleet.Capability.Rule
import ProxyFleet.Text.Units

/-!
# Agents

What is known of the core an agent runs, and what a template may ask of it. A
version that is too low makes a template incompatible; a missing capability is
only noted.
-/

namespace ProxyFleet

/-- The core an agent runs. -/
structure Agent where
  coreType : String
  coreVersion : String
  capabilities : List Capability
  buildTags : List String
  deriving Repr

/-- Whether a template may be used, and what speaks against it. -/
structure Compatibility where
  compatible : Bool
  warnings : List String
  errors : List String
  deriving DecidableEq, Repr

namespace Agent

/-- The core that an agent reports. Reported capabilities count if there are any; else they are
derived from version and build tags. -/
def resolve (coreType coreVersion : String) (reported buildTags : List String) : Agent :=
  let named := Capability.ofNames reported
  let capabilities :=
    if named.isEmpty && !isAllBlank coreVersion then
      Capability.derive coreType coreVersion buildTags
    else named
  ⟨coreType, coreVersion, capabilities, buildTags⟩

/-- Whether the core has the capability of a name. -/
def supports (a : Agent) (name : String) : Bool :=
  a.capabilities.any fun c => c.name == Capability.normalizeName name

/-- Whether the core has at least a version; no version is asked for by a blank text. -/
def supportsVersion (a : Agent) (minimum : String) : Bool :=
  if isAllBlank minimum then true
  else if isAllBlank a.coreVersion then false
  else versionAtLeast a.coreVersion minimum

/-- The rule by which a capability would come with the agent's engine, in words. -/
def requirement (a : Agent) (c : Capability) : String :=
  match Engine.ofName? a.coreType with
  | none => "not available for this core"
  | some e =>
    match e.versionRules.find? (·.capability == c) with
    | none => "not available for this core"
    | some r => "requires " ++ e.name ++ " >= " ++ r.minVersion
      ++ match r.buildTag with
        | some t => " with build tag " ++ t
        | none => ""

/-- Whether a template that asks for a version and capabilities may be used. -/
def compatibility (a : Agent) (minVersion : String) (capabilities : List String) :
    Compatibility :=
  let needed := (capabilities.filter fun c => !a.supports c).map fun c =>
    "Template requires capability '" ++ c ++ "', which the agent does not support"
  let head := "Template requires version " ++ minVersion
  if isAllBlank minVersion then ⟨true, needed, []⟩
  else if isAllBlank a.coreVersion then
    ⟨false, (head ++ ", agent version is unknown") :: needed, []⟩
  else if a.supportsVersion minVersion then ⟨true, needed, []⟩
  else ⟨false, needed, [head ++ ", agent has " ++ a.coreVersion]⟩

end Agent

end ProxyFleet
