import ProxyFleet.Agent.Address
import ProxyFleet.Generation
import ProxyFleet.Locks
import ProxyFleet.Store.Instances
import ProxyFleet.Store.SwitchLogs
import ProxyFleet.Wire.Message

/-!
# Sites

A site is all that one running program has in hand: its store, its clock, the
desk at which calls come in, and what it has told its operator and its agents.
`Work α` is work at a site: it changes the site, and gives an `α` or breaks off
with a problem. What it changed before it broke off stays changed.
-/

namespace ProxyFleet

/-- What a site does to an agent, over a client of a number. -/
inductive AgentEvent where
  | connect (client : Nat) (c : Connection)
  | getCores (client : Nat)
  | switchCore (client : Nat) (r : SwitchRequest)
  | close (client : Nat)
  deriving DecidableEq, Repr

/-- The client something is done over. -/
def AgentEvent.client : AgentEvent → Nat
  | .connect client _ | .getCores client | .switchCore client _ | .close client => client

/-- Where calls come in: how agents are reached from there, which instances are busy, and why no
client can be made, if none can (say, because a certificate cannot be read). -/
structure Desk where
  rpc : RpcSettings
  locks : Locks
  barrier : Option String
  deriving DecidableEq, Repr

/-- The connection to the agent of a host. -/
def Desk.connection (d : Desk) (h : AgentHost) : Connection where
  address := agentAddress h.host d.rpc.defaultPort.text
  token := h.token
  scheme := d.rpc.scheme
  timeout := d.rpc.timeout
  keepAlive := d.rpc.keepAlive
  caFile := d.rpc.caFile
  certFile := d.rpc.certFile
  keyFile := d.rpc.keyFile
  insecureSkipVerify := d.rpc.insecureSkipVerify

/-- All that a running program has in hand. Ids are given out by number, clients are numbered as
they are opened, and `spareToken` is what a host gets that comes without a token. -/
structure Site where
  store : Store
  now : Instant
  issued : Nat
  opened : Nat
  spareToken : String
  desk : Desk
  entries : List LogEntry
  events : List AgentEvent
  deriving Repr

/-- Work at a site. -/
abbrev Work := ExceptT Problem (StateM Site)

namespace Work

variable {α β : Type}

/-- Does some work at a site: what comes of it, and the site afterwards. -/
def runAt (w : Work α) (site : Site) : Except Problem α × Site := (ExceptT.run w).run site

@[simp] theorem runAt_pure (a : α) (site : Site) : runAt (pure a) site = (.ok a, site) := rfl

@[simp] theorem runAt_throw (p : Problem) (site : Site) :
    runAt (throw p : Work α) site = (.error p, site) := rfl

@[simp] theorem runAt_get (site : Site) : runAt (get : Work Site) site = (.ok site, site) := rfl

@[simp] theorem runAt_set (new site : Site) :
    runAt (set new : Work PUnit) site = (.ok ⟨⟩, new) := rfl

@[simp] theorem runAt_modify (f : Site → Site) (site : Site) :
    runAt (modify f : Work PUnit) site = (.ok ⟨⟩, f site) := rfl

theorem runAt_bind (w : Work α) (f : α → Work β) (site : Site) :
    runAt (w >>= f) site = match runAt w site with
      | (.ok a, after) => runAt (f a) after
      | (.error p, after) => (.error p, after) := by
  change (ExceptT.bindCont f (w site).1) (w site).2 = _
  cases h : w site with
  | mk r after =>
    cases r <;> (simp only [runAt, ExceptT.run, StateT.run, h]; rfl)

theorem runAt_tryCatch (w : Work α) (f : Problem → Work α) (site : Site) :
    runAt (tryCatch w f) site = match runAt w site with
      | (.ok a, after) => (.ok a, after)
      | (.error p, after) => runAt (f p) after := by
  cases h : w site with
  | mk r after =>
    cases r <;> simp [runAt, tryCatch, tryCatchThe, MonadExceptOf.tryCatch, ExceptT.tryCatch,
      ExceptT.run, ExceptT.mk, StateT.run, bind, StateT.bind, h] <;> rfl

/-- Breaks off with a failure. -/
def refuse (f : Failure) : Work α := throw (.failure f)

/-- Goes on with a result, or breaks off with its failure. -/
def ofResult : Except Failure α → Work α
  | .ok a => pure a
  | .error f => refuse f

/-- What the store says. -/
def ask (f : Store → α) : Work α := do return f (← get).store

/-- The present time. -/
def now : Work Instant := do return (← get).now

/-- The id of a number. -/
def idOf (n : Nat) : String := "id-" ++ toString n

/-- An id that was never given out before. -/
def freshId : Work String := do
  let n := (← get).issued + 1
  modify fun site => { site with issued := n }
  pure (idOf n)

/-- Writes to the store; a refused write changes nothing. -/
def write (f : Store → Instant → Except StoreError (α × Store)) : Work α := do
  let site ← get
  match f site.store site.now with
  | .error e => throw (.refused e)
  | .ok (a, s) =>
    set { site with store := s }
    pure a

/-- Puts something new into the store, under a fresh id. -/
def create (f : Store → String → Instant → Except StoreError (α × Store)) : Work α := do
  let id ← freshId
  write fun s now => f s id now

/-- Takes something out of the store; tells whether it was there. -/
def remove (f : Store → Except StoreError (Store × Bool)) : Work Bool :=
  write fun s _ => (f s).map Prod.swap

/-- Tells the operator something. -/
def tell (level : LogLevel) (message : String) (facts : Fields) : Work Unit :=
  modify fun site => { site with entries := site.entries ++ [⟨level, message, facts⟩] }

/-- Does something to an agent. -/
def signal (e : AgentEvent) : Work Unit :=
  modify fun site => { site with events := site.events ++ [e] }

/-- What comes of some work, a problem included. -/
def attempt (w : Work α) : Work (Except Problem α) :=
  tryCatch (do return .ok (← w)) fun p => pure (.error p)

/-- Opens a client for the agent of a host. -/
def connect (h : AgentHost) : Work Nat := do
  let site ← get
  match site.desk.barrier with
  | some why => throw (.unforeseen why)
  | none =>
    set { site with opened := site.opened + 1 }
    signal (.connect site.opened (site.desk.connection h))
    pure site.opened

/-- Takes the lock of a key, or breaks off with a conflict. -/
def takeLock (key : String) (taken : Conflict) : Work Claim := do
  let site ← get
  match site.desk.locks.acquire? key with
  | none => refuse (.conflict taken)
  | some (claim, locks) =>
    set { site with desk := { site.desk with locks := locks } }
    pure claim

/-- Gives a lock back. -/
def giveBack (claim : Claim) : Work Unit :=
  modify fun site =>
    { site with desk := { site.desk with locks := site.desk.locks.release claim } }

/-- The host of an id, which must be there. -/
def requireHost (id : String) : Work AgentHost := do
  match ← ask (·.host? id) with
  | some h => pure h
  | none => refuse (.missing (.agentHost id))

/-- The template of an id, which must be there. -/
def requireTemplate (id : String) : Work ConfigTemplate := do
  match ← ask (·.template? id) with
  | some t => pure t
  | none => refuse (.missing (.template id))

end Work

end ProxyFleet
