import ProxyFleet.Failure
import ProxyFleet.Value.Reader
import ProxyFleet.Wire.Body

/-!
# One exchange with an agent

A call goes out, and an answer comes back or does not. Whatever goes wrong ends
as a failure of the agent, in words that say at which call.
-/

namespace ProxyFleet

/-- A call as it goes over the net. -/
structure WireCall where
  method : String
  baseUrl : String
  url : String
  timeout : Number
  authorization : Option String
  contentType : String
  body : Option String
  deriving DecidableEq, Repr

/-- What comes back from the net. -/
inductive WireAnswer where
  /-- An answer with a status; its body is a value, or a text that may stand for one. -/
  | answered (status : Number) (body : Value)
  /-- No answer, for this reason. -/
  | broken (reason : String)
  deriving Repr

/-- The calls an agent takes. -/
inductive AgentCall where
  | getCores
  | switchCore
  deriving DecidableEq, Repr

/-- The name of a call in messages. -/
def AgentCall.name : AgentCall → String
  | .getCores => "GetCores"
  | .switchCore => "SwitchCore"

namespace Connection

/-- A call over a connection. -/
def call (c : Connection) (method url : String) (body : Option String) : WireCall where
  method := method
  baseUrl := c.scheme.name ++ "://" ++ c.address
  url := url
  timeout := c.timeout
  authorization := if c.token = "" then none else some ("Bearer " ++ c.token)
  contentType := "application/json"
  body := body

/-- The call that asks for the cores. -/
def coresCall (c : Connection) : WireCall := c.call "get" "/v1/cores" none

/-- The call that asks for a switch. -/
def switchCall (c : Connection) (request : Value) : WireCall :=
  c.call "post" "/v1/cores/switch" (if request.isAbsent then none else some request.tightText)

end Connection

namespace WireAnswer

/-- The value of a body: a text that can be read as one stands for it. -/
def bodyValue : Value → Value
  | .str s => (Value.ofText? s).getD (.str s)
  | v => v

/-- The reason an agent gives in a body, if it gives one. -/
def reason? (body : Value) : Option String :=
  ["error", "message"].findSome? fun name =>
    match (body.get name).text? with
    | some s => if s = "" then none else some s
    | none => none

/-- The body of an answer that is not an error, or what went wrong. -/
def toBody (call : AgentCall) : WireAnswer → Except Failure Value
  | .broken reason => .error (.agent (call.name ++ " failed: " ++ reason) none)
  | .answered status body =>
    let body := bodyValue body
    if status.lt 400 then .ok body
    else
      let reason := (reason? body).getD ("Request failed with status code " ++ status.text)
      .error (.agent (call.name ++ " failed (HTTP " ++ status.text ++ "): " ++ reason) none)

/-- What an answer says, if its body is what it must be. -/
def read {α : Type} (call : AgentCall) (ofBody : Value → Checked α) (a : WireAnswer) :
    Except Failure α := do
  match (ofBody (← a.toBody call)).toExcept with
  | .ok r => pure r
  | .error ms =>
    throw (.agent (call.name ++ " returned an unexpected body: " ++ Mismatch.listText ms) none)

end WireAnswer

/-- How a call given up before it went out ends. -/
def AgentCall.cancelled (call : AgentCall) : Failure := .agent (call.name ++ " cancelled") none

/-- An exchange: what it comes to, and the calls that went out. -/
def exchange {α : Type} (call : AgentCall) (sent : WireCall) (ofBody : Value → Checked α)
    (givenUp : Bool) (answer : WireAnswer) : Except Failure α × List WireCall :=
  if givenUp then (.error call.cancelled, []) else (answer.read call ofBody, [sent])

namespace Connection

/-- Asks an agent for its cores. -/
def getCores (c : Connection) (givenUp : Bool) (answer : WireAnswer) :
    Except Failure (List CoreInfo) × List WireCall :=
  exchange .getCores c.coresCall coresOfBody givenUp answer

/-- Asks an agent for a switch. -/
def switchCore (c : Connection) (request : Value) (givenUp : Bool) (answer : WireAnswer) :
    Except Failure SwitchReply × List WireCall :=
  exchange .switchCore (c.switchCall request) SwitchReply.ofBody givenUp answer

end Connection

end ProxyFleet
