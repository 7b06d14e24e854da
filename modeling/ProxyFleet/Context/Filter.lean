import ProxyFleet.Agent
import ProxyFleet.Inbound.Record
import ProxyFleet.Noted
import ProxyFleet.Value.Display
import ProxyFleet.Xray.Writing

/-!
# Fitting a context to an agent

A template context is cut down to what the agent's core can do: listeners lose
parts that are switched on and not supported, and listeners of a protocol that
the target core cannot serve go as a whole. Every removal is noted.
-/

namespace ProxyFleet

namespace Context

/-- The note on a part that is removed. -/
def removal (a : Agent) (feature : String) (c : Capability) (tag : Value) :
    Except ShapeFault String := do
  pure ("Removing " ++ feature ++ " from inbound '" ++ (← tag.display)
    ++ "' - not supported by agent (" ++ a.requirement c ++ ")")

/-- Whether a part that is there has `enabled` set; null parts cannot be asked. -/
def switchedOn (part : Value) : Except ShapeFault Bool :=
  match part with
  | .absent => .ok false
  | p => do pure (← p.field "enabled").isTruthy

/-- The fields of a listener without a Reality the agent does not support. -/
def fitReality (a : Agent) (fs : Fields) : Except ShapeFault (Noted Fields) := do
  let tls := Fields.get fs "tls"
  if (← switchedOn (tls.get "reality")) && !a.supports Capability.reality.name then
    pure ⟨Fields.overwrite "tls" (.obj (Fields.erase (tls.fields?.getD []) "reality")) fs,
      [← removal a "Reality" .reality (Fields.get fs "tag")]⟩
  else pure (pure fs)

/-- The fields of a listener without a multiplexing, or a fixed rate in it, that the agent does
not support. -/
def fitMultiplex (a : Agent) (fs : Fields) : Except ShapeFault (Noted Fields) := do
  let multiplex := Fields.get fs "multiplex"
  if multiplex.isAbsent then pure (pure fs)
  else if (← switchedOn multiplex) && !a.supports Capability.multiplex.name then
    pure ⟨Fields.erase fs "multiplex", [← removal a "Multiplex" .multiplex (Fields.get fs "tag")]⟩
  else if (← switchedOn (multiplex.get "brutal")) && !a.supports Capability.brutal.name then
    pure ⟨Fields.overwrite "multiplex"
        (.obj (Fields.erase (multiplex.fields?.getD []) "brutal")) fs,
      [← removal a "Brutal" .brutal (Fields.get fs "tag")]⟩
  else pure (pure fs)

/-- A listener without what the agent does not support. -/
def fitInbound (a : Agent) (v : Value) : Except ShapeFault (Noted Value) :=
  match v with
  | .obj fs => do
    let r ← fitReality a fs
    let m ← fitMultiplex a r.value
    pure ⟨.obj m.value.withRequirements, r.notes ++ m.notes⟩
  | .arr xs => pure (pure (.arr xs))
  | _ => .error (.noFields "tls")

/-- Whether the target core can serve the protocol of a listener. -/
def servable (target : Value) (v : Value) : Except ShapeFault Bool := do
  match target with
  | .str t =>
    if Engine.ofName? t = some .xray then
      pure (!(← v.field "type").text?.any (Xray.unservable.contains ·))
    else pure true
  | _ => .error (.noFields "trim")

/-- The listeners that the target core can serve. -/
def servableOnly (target : Value) : List Value → Except ShapeFault (Noted (List Value))
  | [] => pure (pure [])
  | v :: vs => do
    if ← servable target v then
      let rest ← servableOnly target vs
      pure ⟨v :: rest.value, rest.notes⟩
    else
      let text := "Removing inbound '" ++ (← (v.get "tag").display) ++ "' - protocol '"
        ++ (← (v.get "type").display) ++ "' is not supported by xray"
      let rest ← servableOnly target vs
      pure ⟨rest.value, text :: rest.notes⟩

/-- Every listener without what the agent does not support. -/
def fitInbounds (a : Agent) : List Value → Except ShapeFault (Noted (List Value))
  | [] => pure (pure [])
  | v :: vs => do
    let one ← fitInbound a v
    let rest ← fitInbounds a vs
    pure ⟨one.value :: rest.value, one.notes ++ rest.notes⟩

/-- Whether the agent's core offers the statistics interface. -/
def keepsV2rayApi (a : Agent) : Bool :=
  match Engine.ofName? a.coreType with
  | some .xray => true
  | some .singBox => a.supports Capability.v2rayApi.name && a.buildTags.contains v2rayApiTag
  | none => false

/-- The experimental settings without what the agent does not support. -/
def fitExperimental (a : Agent) (v : Value) : Noted Value :=
  let fs := v.fields?.getD []
  if !(Fields.get fs "v2rayApi").isAbsent && !keepsV2rayApi a then
    ⟨.obj (Fields.erase fs "v2rayApi"),
      ["Removing v2ray_api from experimental - not supported by agent (requires build tag "
        ++ v2rayApiTag ++ ")"]⟩
  else pure (.obj fs)

/-- A context without what the agent does not support. The target core is the one the context
itself names. -/
def fit (a : Agent) (ctx : Fields) : Except ShapeFault (Noted Fields) := do
  let inbounds ← (Fields.get ctx "inbounds").itemsOrFault
  let target ← match inbounds with
    | [] => pure (.str "")
    | _ => do (← (Value.obj ctx).field "agent").field "coreType"
  let served ← servableOnly target inbounds
  let fitted ← fitInbounds a served.value
  let experimental := fitExperimental a (Fields.get ctx "experimental")
  pure ⟨Fields.put (Fields.put ctx "inbounds" (.arr fitted.value)) "experimental"
      experimental.value,
    served.notes ++ fitted.notes ++ experimental.notes⟩

end Context

end ProxyFleet
