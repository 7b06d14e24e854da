import ProxyFleet.Store.Hosts
import ProxyFleet.SwitchLog.Page

/-!
# Switch logs in the store

Every switch that is tried leaves a log. It starts as pending and moves on as
`SwitchStatus.next` allows; a log that came to an end is never written again.
-/

namespace ProxyFleet

/-- The log of a switch. -/
structure SwitchLog where
  id : String
  hostId : String
  switchId : String
  fromInstanceId : Option String
  toInstanceId : Option String
  fromCoreType : Option String
  toCoreType : String
  status : SwitchStatus
  message : String
  operatorId : Option String
  createdAt : String
  completedAt : Option String
  deriving DecidableEq, Repr

/-- The log a row tells of. -/
def SwitchLogRow.toLog (r : SwitchLogRow) : SwitchLog where
  id := r.id
  hostId := r.hostId
  switchId := r.switchId
  fromInstanceId := r.fromInstanceId
  toInstanceId := r.toInstanceId
  fromCoreType := r.fromCoreType
  toCoreType := r.toCoreType
  status := r.status
  message := r.message
  operatorId := r.operatorId
  createdAt := r.createdAt
  completedAt := r.completedAt

/-- A log as a record. -/
def SwitchLog.toValue (l : SwitchLog) : Value :=
  .ofFields [
    ("id", .str l.id),
    ("agentHostId", .str l.hostId),
    ("switchId", .str l.switchId),
    ("fromInstanceId", .ofOption .str l.fromInstanceId),
    ("toInstanceId", .ofOption .str l.toInstanceId),
    ("fromCoreType", .ofOption .str l.fromCoreType),
    ("toCoreType", .str l.toCoreType),
    ("status", .str l.status.name),
    ("message", .str l.message),
    ("operatorId", .ofOption .str l.operatorId),
    ("createdAt", .str l.createdAt),
    ("completedAt", .ofOption .str l.completedAt)]

/-- What is told of a switch that is tried. -/
structure NewSwitchLog where
  hostId : String
  switchId : String
  fromInstanceId : Option String
  toInstanceId : Option String
  fromCoreType : Option String
  toCoreType : String
  message : String
  operatorId : Option String
  deriving DecidableEq, Repr

/-- What is written together with a move. -/
structure MoveDetails where
  message : Option String
  toInstanceId : Option String
  completedAt : Option String
  deriving DecidableEq, Repr

/-- Which logs are asked for: those of a host, of a status, and within a time, both ends
included. -/
structure LogFilter where
  hostId : String
  status : Option String
  startAt : Option String
  endAt : Option String
  deriving DecidableEq, Repr

/-- Whether a log is asked for. -/
def LogFilter.keeps (f : LogFilter) (r : SwitchLogRow) : Bool :=
  r.hostId == f.hostId
    && f.status.all (· == r.status.name)
    && f.startAt.all (textLe · r.createdAt)
    && f.endAt.all (textLe r.createdAt ·)

namespace Store

/-- Puts a log in; it is pending. -/
def createLog (s : Store) (id : String) (now : Instant) (new : NewSwitchLog) :
    Except StoreError (SwitchLog × Store) := do
  let row : SwitchLogRow := {
    id := id
    hostId := new.hostId
    switchId := new.switchId
    fromInstanceId := new.fromInstanceId
    toInstanceId := new.toInstanceId
    fromCoreType := new.fromCoreType
    toCoreType := new.toCoreType
    status := .pending
    message := new.message
    operatorId := new.operatorId
    createdAt := now.text
    completedAt := none
  }
  let s ← s.addLog row
  pure (row.toLog, s)

/-- The log of an id. -/
def log? (s : Store) (id : String) : Option SwitchLog :=
  (s.logs.find? (·.id == id)).map SwitchLogRow.toLog

/-- A log moved on to a status. The time of an end is written with it. -/
def movedLog (now : Instant) (target : SwitchStatus) (details : MoveDetails) (r : SwitchLogRow) :
    SwitchLogRow :=
  { r with
    status := target
    message := details.message.getD r.message
    toInstanceId := details.toInstanceId.or r.toInstanceId
    completedAt := if target.isFinal then some (details.completedAt.getD now.text)
      else r.completedAt }

@[simp] theorem movedLog_status (now : Instant) (target : SwitchStatus) (details : MoveDetails)
    (r : SwitchLogRow) : (movedLog now target details r).status = target := rfl

/-- Moves a log on, if its status allows it; tells whether it was moved. -/
def moveLog (s : Store) (id : String) (now : Instant) (target : SwitchStatus)
    (details : MoveDetails) : Except StoreError (Bool × Store) := do
  let r ← s.changeLog id target.sources (movedLog now target details)
  pure (r.2, r.1)

/-- The rows asked for, the newest first, and the last put in first among those of one age. -/
def logRows (s : Store) (f : LogFilter) : List SwitchLogRow :=
  sortBy (fun a b => textLe b.createdAt a.createdAt) (s.logs.filter f.keeps).reverse

/-- How many rows a number lets through: all of them if it is negative. -/
def takeUpTo {α : Type} (limit : Number) (rows : List α) : List α :=
  match limit.toInt? with
  | some n => if n < 0 then rows else rows.take n.toNat
  | none => rows

/-- The rows that remain after passing over a number of them. -/
def dropFirst {α : Type} (offset : Number) (rows : List α) : List α :=
  match offset.toInt? with
  | some n => rows.drop n.toNat
  | none => rows

/-- The logs asked for, the newest first: those that follow the first `offset`, and of these not
more than `limit`. -/
def findLogs (s : Store) (f : LogFilter) (limit offset : Option Number) : List SwitchLog :=
  (takeUpTo (limit.getD (Number.ofInt (-1))) (dropFirst (offset.getD 0) (s.logRows f))).map
    SwitchLogRow.toLog

/-- How many logs are asked for. -/
def countLogs (s : Store) (f : LogFilter) : Nat := (s.logs.filter f.keeps).length

end Store

end ProxyFleet
