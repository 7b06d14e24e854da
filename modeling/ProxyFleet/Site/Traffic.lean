import ProxyFleet.Site.Cores
import ProxyFleet.Site.Start
import ProxyFleet.Site.Switch

/-!
# Calls underway

Many calls can wait for their agents at once, and other work is done meanwhile.
A call underway is known by a label, under which its end is brought in later.
-/

namespace ProxyFleet

/-- Asks for a core to be started, as a first instance or in place of another. -/
inductive CallRequest where
  | start (r : StartRequest)
  | replace (r : ReplaceRequest)
  deriving DecidableEq, Repr

/-- An open call, together with what settling it needs besides. -/
inductive Pending where
  | start (c : OpenCall) (instanceId : String)
  | replace (c : OpenCall) (previous : Option CoreInstance)
  deriving DecidableEq, Repr

/-- The open call itself. -/
def Pending.call : Pending → OpenCall
  | .start c _ => c
  | .replace c _ => c

/-- What a settled call gives. -/
inductive CallResult where
  | started (i : CoreInstance)
  | switched (o : SwitchOutcome)
  deriving DecidableEq, Repr

/-- What a settled call gives, as a record. -/
def CallResult.toValue : CallResult → Value
  | .started i => i.toValue
  | .switched o => o.toValue

namespace Work

/-- Opens a call. -/
def begin : CallRequest → Work Pending
  | .start r => do
    let c ← openStart r
    pure (.start c (trim r.instanceId))
  | .replace r => do
    let (c, previous) ← openSwitch r
    pure (.replace c previous)

/-- Settles a call. -/
def settle (p : Pending) (e : CallEnd) : Work CallResult :=
  match p with
  | .start c instanceId => do return .started (← settleStart c instanceId e)
  | .replace c previous => do return .switched (← settleSwitch c previous e)

/-- Opens a call and settles it at once. -/
def perform (r : CallRequest) (e : CallEnd) : Work CallResult := do settle (← begin r) e

end Work

/-- A site with the calls underway there, each under its label. -/
structure Traffic where
  site : Site
  underway : List (String × Pending)
  deriving Repr

namespace Traffic

/-- Does some work at the site. -/
def run {α : Type} (t : Traffic) (w : Work α) : Except Problem α × Traffic :=
  let r := w.runAt t.site
  (r.1, { t with site := r.2 })

/-- Opens a call under a label. -/
def begin (t : Traffic) (label : String) (r : CallRequest) : Except Problem Pending × Traffic :=
  match t.run (Work.begin r) with
  | (.ok p, t) =>
    (.ok p, { t with underway := (label, p) :: t.underway.filter (·.1 != label) })
  | (.error p, t) => (.error p, t)

/-- Brings in the end of the call under a label, if there is one. -/
def settle (t : Traffic) (label : String) (e : CallEnd) :
    Option (Except Problem CallResult) × Traffic :=
  match t.underway.lookup label with
  | none => (none, t)
  | some p =>
    let (result, t) := t.run (Work.settle p e)
    (some result, { t with underway := t.underway.filter (·.1 != label) })

end Traffic

end ProxyFleet
