import ProxyFleet.Store.Edit
import ProxyFleet.Tool.Call

/-!
# What happens at a site

A run of a site is a list of actions. Calls are opened and settled in any order,
tools are called, others write to the same store, writes begin to fail and cease
to, and the program may be started anew on the store it left behind.
-/

namespace ProxyFleet

/-- Something that happens at a site. -/
inductive Action where
  /-- A call is opened. A label names one call at a time. -/
  | begin (label : String) (r : CallRequest)
  /-- The agent's part in a call ends. -/
  | settle (label : String) (e : CallEnd)
  /-- An instance is to be taken off the record. -/
  | deleteInstance (hostId instanceId : String)
  /-- A tool is called; a call to an agent made by it is answered at once. -/
  | tool (name : String) (arguments : Value) (agent : AgentSide)
  /-- Somebody else writes to the store. -/
  | edit (e : Edit)
  /-- From now on writes of a kind break off. -/
  | breakWrites (t : Table) (e : RowEvent) (status : Option String) (message : String)
  /-- No write breaks off any more. -/
  | mendWrites
  /-- From now on no client can be made, or clients can be made again. -/
  | bar (why : Option String)
  /-- The clock is read. -/
  | tick (now : Instant)
  /-- The program ends, and starts anew. Calls underway are gone with it. -/
  | restart

namespace Work

/-- Makes an edit. -/
def edit (e : Edit) : Work Unit :=
  if e.isNew then create fun s id now => (s.edit e id now).map ((), ·)
  else write fun s now => (s.edit e "" now).map ((), ·)

end Work

namespace Traffic

/-- A site where nothing happened yet. -/
def start (rpc : RpcSettings) (now : Instant) (spareToken : String) : Traffic where
  site := {
    store := .empty
    now := now
    issued := 0
    opened := 0
    spareToken := spareToken
    desk := ⟨rpc, .empty, none⟩
    entries := []
    events := []
  }
  underway := []

/-- Changes the site at once. -/
def mapSite (t : Traffic) (f : Site → Site) : Traffic := { t with site := f t.site }

/-- The site as a program that starts anew finds it. -/
def restarted (t : Traffic) : Traffic where
  site := { t.site with
    opened := 0
    desk := { t.site.desk with locks := .empty }
    entries := []
    events := [] }
  underway := []

/-- The traffic after an action. -/
def act (t : Traffic) : Action → Traffic
  | .begin label r => if (t.underway.lookup label).isSome then t else (t.begin label r).2
  | .settle label e => (t.settle label e).2
  | .deleteInstance hostId instanceId => (t.run (Work.deleteInstance hostId instanceId)).2
  | .tool name arguments agent => (callTool t name arguments agent).2
  | .edit e => (t.run (Work.edit e)).2
  | .breakWrites table event status message => t.mapSite fun site =>
      { site with store := { site.store with
          faults := ⟨table, event, status, some message⟩ :: site.store.faults } }
  | .mendWrites => t.mapSite fun site => { site with store := { site.store with faults := [] } }
  | .bar why => t.mapSite fun site => { site with desk := { site.desk with barrier := why } }
  | .tick now => t.mapSite fun site => { site with now := now }
  | .restart => t.restarted

/-- The traffic after some actions, one after the other. -/
def after (t : Traffic) (actions : List Action) : Traffic := actions.foldl act t

@[simp] theorem after_nil (t : Traffic) : t.after [] = t := rfl

@[simp] theorem after_cons (t : Traffic) (a : Action) (actions : List Action) :
    t.after (a :: actions) = (t.act a).after actions := rfl

end Traffic

end ProxyFleet
