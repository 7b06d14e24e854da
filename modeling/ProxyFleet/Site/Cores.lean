import ProxyFleet.Conversion
import ProxyFleet.Site.Call

/-!
# Work on cores and their records

What agents say about their cores, what is on record about instances and
switches, and taking an instance off the record.
-/

namespace ProxyFleet

/-- Asks for a page of the switch logs of a host. -/
structure LogsRequest where
  filter : LogFilter
  limit : Option Number
  offset : Option Number
  deriving DecidableEq, Repr

/-- A page of switch logs, and how many there are on all pages. -/
structure LogsPage where
  logs : List SwitchLog
  total : Nat
  deriving DecidableEq, Repr

/-- A page as a record. -/
def LogsPage.toValue (p : LogsPage) : Value :=
  .obj [("logs", .arr (p.logs.map SwitchLog.toValue)), ("total", .int p.total)]

namespace Store

/-- A page of the switch logs asked for. -/
def logsPage (s : Store) (r : LogsRequest) : LogsPage where
  logs := s.findLogs r.filter (some (pageSize r.limit)) (some (pageStart r.offset))
  total := s.countLogs r.filter

end Store

namespace Work

/-- Asks the agent of a host for its cores; `answer` is what comes of that. -/
def getCores {α : Type} (hostId : String) (answer : Except Problem α) : Work α := do
  let host ← callHost hostId
  let client ← connect host
  signal (.getCores client)
  signal (.close client)
  match answer with
  | .ok cores => pure cores
  | .error p => throw p

/-- The instances on record for a host. -/
def getInstances (hostId : String) : Work (List CoreInstance) := do
  let _ ← callHost hostId
  ask (·.instancesOf hostId)

/-- A page of the switch logs of a host. -/
def getSwitchLogs (r : LogsRequest) : Work LogsPage := do
  if isAllBlank r.filter.hostId then refuse (.invalid .hostIdRequired)
  ask (·.logsPage r)

/-- Takes an instance off the record, unless it is busy. -/
def deleteInstance (hostId instanceId : String) : Work Unit := do
  let name := trim instanceId
  if name = "" then refuse (.invalid .instanceIdRequired)
  match ← ask (·.instanceNamed? hostId name) with
  | none => refuse (.missing (.instance name))
  | some i =>
    if (← get).desk.locks.isHeld (instanceKey hostId name) then
      refuse (.conflict (.instanceBusy name hostId))
    let _ ← remove (·.removeInstance i.id)

/-- Converts the text of a file of one engine into that of a file of another. -/
def convert (source target text : String) : Work (Noted String) :=
  ofResult (convertConfig source target text)

end Work

end ProxyFleet
