/-!
# Stages of a switch

A switch is recorded as pending, may be marked as in progress, and ends as
completed or failed. Ends are final.
-/

namespace ProxyFleet

/-- The stage a recorded switch is in. -/
inductive SwitchStatus where
  | pending
  | inProgress
  | completed
  | failed
  deriving DecidableEq, Repr

namespace SwitchStatus

/-- The word for a stage. -/
def name : SwitchStatus → String
  | .pending => "pending"
  | .inProgress => "in_progress"
  | .completed => "completed"
  | .failed => "failed"

/-- All stages, in order. -/
def all : List SwitchStatus := [.pending, .inProgress, .completed, .failed]

/-- The stage a word stands for. -/
def ofName? (s : String) : Option SwitchStatus := all.find? (·.name == s)

/-- The stages that may follow. -/
def next : SwitchStatus → List SwitchStatus
  | .pending => [.inProgress, .completed, .failed]
  | .inProgress => [.completed, .failed]
  | .completed | .failed => []

/-- Whether a stage may follow another. -/
def canMove (source target : SwitchStatus) : Bool := source.next.contains target

/-- Nothing follows. -/
def isFinal (s : SwitchStatus) : Bool := s.next.isEmpty

/-- The stages that a stage may follow. -/
def sources (target : SwitchStatus) : List SwitchStatus := all.filter (·.canMove target)

end SwitchStatus

end ProxyFleet
