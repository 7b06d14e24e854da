import ProxyFleet.SingBox.Writing
import ProxyFleet.Xray.Writing

/-!
# Conversion

A file of one engine is read into listeners, and listeners are written as a file
of an engine. Neither direction stops at what it cannot keep; the notes of both
are handed on, those of reading first.
-/

namespace ProxyFleet

namespace Engine

/-- The listeners of a file written for an engine. -/
def read (e : Engine) (file text : String) : Except Failure (Noted (List Inbound)) :=
  match e with
  | .singBox => SingBox.read file text
  | .xray => Xray.read file text

/-- The listeners as an engine writes them. -/
def write (e : Engine) (is : List Inbound) : Noted (List Value) :=
  match e with
  | .singBox => SingBox.write is
  | .xray => Xray.write is

/-- One listener as an engine writes it, if the engine can serve it. -/
def writeInbound (e : Engine) (i : Inbound) (index : Nat) : Noted (Option Fields) :=
  match e with
  | .singBox => do pure (some (← SingBox.writeInbound i index))
  | .xray => Xray.writeInbound i index

end Engine

/-- The name of a file that was given without one. -/
def defaultFile : String := "config.json"

/-- The text of a file with the given listeners. -/
def inboundsText (native : List Value) : String :=
  Value.spreadText (.obj [("inbounds", .arr native)])

/-- Listeners as the text of a file of an engine. -/
def convert (is : List Inbound) (target : Engine) : Noted String := do
  pure (inboundsText (← target.write is))

/-- The listeners of a file whose engine is found out from the file. -/
def parseAny (file text : String) : Except Failure (Engine × Noted (List Inbound)) :=
  match ConfigFile.detect text with
  | none => .error (.unreadable (.formatUnknown file))
  | some e => (e.read file text).map (e, ·)

/-- The text of a file of one engine as the text of a file of another. -/
def convertConfig (source target text : String) : Except Failure (Noted String) :=
  if isAllBlank source then .error (.invalid .sourceEngineRequired)
  else if isAllBlank target then .error (.invalid .targetEngineRequired)
  else if isAllBlank text then .error (.invalid .configRequired)
  else do
    let source ← Engine.ofName source
    let target ← Engine.ofName target
    let found ← source.read defaultFile text
    pure (found >>= (convert · target))

end ProxyFleet
