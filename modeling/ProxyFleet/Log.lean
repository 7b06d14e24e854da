import ProxyFleet.Text.Case
import ProxyFleet.Value.Printer

/-!
# Log entries

What is worth telling the operator: how grave it is, what happened, and the
facts that belong to it. An entry is written as one line, for a terminal or as
a record. Entries below the level asked for are not written.
-/

namespace ProxyFleet

/-- How grave an entry is. -/
inductive LogLevel where
  | debug
  | info
  | warn
  | error
  deriving DecidableEq, Repr

namespace LogLevel

/-- The word for a level. -/
def name : LogLevel → String
  | .debug => "debug"
  | .info => "info"
  | .warn => "warn"
  | .error => "error"

/-- All levels, the gravest last. -/
def all : List LogLevel := [.debug, .info, .warn, .error]

/-- The level a word stands for. -/
def ofName? (s : String) : Option LogLevel := all.find? (·.name == s)

/-- The place of a level among all levels. -/
def rank : LogLevel → Nat
  | .debug => 0
  | .info => 1
  | .warn => 2
  | .error => 3

end LogLevel

/-- One entry. -/
structure LogEntry where
  level : LogLevel
  message : String
  facts : Fields
  deriving Repr

namespace LogEntry

/-- An entry made where some facts are known already; those the entry gives itself win. -/
def within (scope : Fields) (e : LogEntry) : LogEntry :=
  { e with facts := Fields.putAll scope e.facts }

/-- An entry made within several scopes, the outermost first. -/
def withinAll (scopes : List Fields) (e : LogEntry) : LogEntry :=
  scopes.foldr (fun scope e => e.within scope) e

end LogEntry

/-! ## Lines -/

/-- How the lines of a log look. -/
inductive LogFormat where
  | text
  | record
  deriving DecidableEq, Repr

/-- The word for a format. -/
def LogFormat.name : LogFormat → String
  | .text => "text"
  | .record => "json"

/-- The colour of a level on a terminal. -/
def LogLevel.colour : LogLevel → String
  | .debug => "\x1b[36m"
  | .info => "\x1b[32m"
  | .warn => "\x1b[33m"
  | .error => "\x1b[31m"

/-- Ends a colour on a terminal. -/
def plainColour : String := "\x1b[0m"

/-- The word for a level in capitals, filled up with blanks to five characters. -/
def LogLevel.title (l : LogLevel) : String :=
  let word := upper l.name
  word ++ String.ofList (List.replicate (5 - word.length) ' ')

namespace LogEntry

/-- An entry for a terminal. -/
def terminalLine (time : String) (e : LogEntry) : String :=
  let head := e.level.colour ++ "[" ++ time ++ "] " ++ e.level.title ++ plainColour ++ " "
    ++ e.message
  if e.facts.isEmpty then head else head ++ " " ++ (Value.obj e.facts).tightText

/-- An entry as a record. Facts of the same names stand in place of its time, level and
message. -/
def recordLine (time : String) (e : LogEntry) : String :=
  (Value.obj (Fields.putAll
    [("timestamp", .str time), ("level", .str e.level.name), ("message", .str e.message)]
    e.facts)).tightText

/-- The line of an entry, if it is grave enough. -/
def line? (least : LogLevel) (format : LogFormat) (time : String) (e : LogEntry) : Option String :=
  if e.level.rank < least.rank then none
  else match format with
    | .text => some (e.terminalLine time)
    | .record => some (e.recordLine time)

end LogEntry

end ProxyFleet
