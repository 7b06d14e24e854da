import ProxyFleet.Failure
import ProxyFleet.Text.Blank
import ProxyFleet.Text.Case

/-!
# Engines

The two proxy engines, and how their names are read: letter case and blanks
around a name do not matter, and sing-box has two more spellings.
-/

namespace ProxyFleet

/-- A proxy engine. -/
inductive Engine where
  | singBox
  | xray
  deriving DecidableEq, Repr

namespace Engine

/-- The name of an engine. -/
def name : Engine → String
  | .singBox => "sing-box"
  | .xray => "xray"

/-- Both engines. -/
def all : List Engine := [.singBox, .xray]

/-- The engine a name stands for. -/
def ofName? (name : String) : Option Engine :=
  let n := lower (trim name)
  if n = "sing-box" || n = "singbox" || n = "sing_box" then some .singBox
  else if n = "xray" then some .xray
  else none

/-- The engine a name stands for; an unknown name is refused. -/
def ofName (name : String) : Except Failure Engine :=
  match ofName? name with
  | some e => .ok e
  | none => .error (.invalid (.unknownEngine name))

end Engine

end ProxyFleet
