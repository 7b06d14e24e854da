import ProxyFleet.Engine
import ProxyFleet.Value.Comments

/-!
# Configuration files

Where a file keeps its listeners, and which engine it was written for. A file is
an array of listeners or a record with the array under `inbounds`.
-/

namespace ProxyFleet

namespace ConfigFile

/-- The listeners of a file as they stand there. -/
def elements (engine : Engine) (file text : String) : Except Failure (List Value) :=
  match Value.ofCommentedText? text with
  | none => .error (.unreadable (.badText engine.name file badTextReason))
  | some (.arr xs) => .ok xs
  | some (.obj fs) =>
    match Fields.get fs "inbounds" with
    | .absent => .ok []
    | .arr xs => .ok xs
    | _ => .error (.unreadable (.inboundsNotArray engine.name file))
  | some _ => .error (.unreadable (.notContainer engine.name file))

/-- The listeners of a file that are records; none if the file has no array of listeners. -/
def records (text : String) : List Fields :=
  match Value.ofCommentedText? text with
  | some (.arr xs) => xs.filterMap Value.fields?
  | some (.obj fs) =>
    match Fields.get fs "inbounds" with
    | .arr xs => xs.filterMap Value.fields?
    | _ => []
  | _ => []

/-- A listener with a field that only Xray writes. -/
def hasXrayField (el : Fields) : Bool := Fields.has el "protocol" || Fields.has el "streamSettings"

/-- A listener with a text for its type. -/
def hasType (el : Fields) : Bool := (Fields.get el "type").text?.isSome

/-- Whether a file looks like one of an engine. -/
def looksLike (engine : Engine) (text : String) : Bool :=
  match engine with
  | .singBox => (records text).any hasType && !(records text).any hasXrayField
  | .xray => (records text).any hasXrayField

/-- The engine a file looks like. -/
def detect (text : String) : Option Engine :=
  if looksLike .xray text then some .xray
  else if looksLike .singBox text then some .singBox
  else none

end ConfigFile

end ProxyFleet
