import ProxyFleet.Log
import ProxyFleet.Number.Decimal
import ProxyFleet.Text.Blank

/-!
# Settings from the environment

Each setting has a variable and a default. A variable that is set must make
sense; one that does not refuses the whole environment.
-/

namespace ProxyFleet

/-- Where the program runs. -/
inductive Deployment where
  | development
  | production
  | test
  deriving DecidableEq, Repr

/-- The word for a deployment. -/
def Deployment.name : Deployment → String
  | .development => "development"
  | .production => "production"
  | .test => "test"

/-- How to reach agents. -/
inductive Scheme where
  | http
  | https
  deriving DecidableEq, Repr

/-- The word for a scheme. -/
def Scheme.name : Scheme → String
  | .http => "http"
  | .https => "https"

/-- What connections to agents have in common. The numbers are as they were given: a port and
two spans of milliseconds. -/
structure RpcSettings where
  defaultPort : Number
  scheme : Scheme
  timeout : Number
  keepAlive : Number
  caFile : Option String
  certFile : Option String
  keyFile : Option String
  insecureSkipVerify : Bool
  deriving DecidableEq, Repr

namespace RpcSettings

/-- The settings where nothing is said. -/
def standard : RpcSettings where
  defaultPort := 19090
  scheme := .http
  timeout := 30000
  keepAlive := 30000
  caFile := none
  certFile := none
  keyFile := none
  insecureSkipVerify := false

end RpcSettings

/-- All settings. -/
structure Settings where
  deployment : Deployment
  databasePath : String
  logLevel : LogLevel
  logFormat : LogFormat
  rpc : RpcSettings
  deriving DecidableEq, Repr

/-- The variables that are set, each with its text. -/
structure Environment where
  bindings : List (String × String)

namespace Environment

/-- A variable that takes a default: absent gives the default, and one that is set is read. -/
def read {α : Type} (env : Environment) (name : String) (default : α)
    (parse : String → Option α) : Option α :=
  match env.bindings.lookup name with
  | none => some default
  | some text => parse text

/-- One of a few words. -/
def choice {α : Type} (name : α → String) (all : List α) (text : String) : Option α :=
  all.find? (name · == text)

/-- A number; what follows it does not matter. -/
def number (text : String) : Option Number :=
  Number.ofLeadingDecimal? (text.toList.dropWhile isBlank)

/-- The words for yes and no. -/
def flag (text : String) : Option Bool :=
  if ["true", "t", "yes", "on", "1"].contains text then some true
  else if ["false", "f", "no", "off", "0"].contains text then some false
  else none

/-- A path; the empty one stands for none. -/
def path (text : String) : Option (Option String) :=
  some (if text = "" then none else some text)

/-- The settings of an environment, if all of it makes sense. -/
def settings? (env : Environment) : Option Settings := do
  let standard := RpcSettings.standard
  pure {
    deployment := ← env.read "NODE_ENV" .development
      (choice Deployment.name [.development, .production, .test])
    databasePath := ← env.read "COREPIPE_DB_PATH" "corepipe.db" some
    logLevel := ← env.read "LOG_LEVEL" .info LogLevel.ofName?
    logFormat := ← env.read "LOG_FORMAT" .text (choice LogFormat.name [.text, .record])
    rpc := {
      defaultPort := ← env.read "AGENT_RPC_PORT" standard.defaultPort number
      scheme := ← env.read "AGENT_RPC_SCHEME" standard.scheme
        (choice Scheme.name [.http, .https])
      timeout := ← env.read "AGENT_RPC_TIMEOUT_MS" standard.timeout number
      keepAlive := ← env.read "AGENT_RPC_KEEPALIVE_MS" standard.keepAlive number
      caFile := ← env.read "AGENT_RPC_CA_FILE" none path
      certFile := ← env.read "AGENT_RPC_CERT_FILE" none path
      keyFile := ← env.read "AGENT_RPC_KEY_FILE" none path
      insecureSkipVerify := ← env.read "AGENT_RPC_INSECURE_SKIP_VERIFY"
        standard.insecureSkipVerify flag
    }
  }

end Environment

end ProxyFleet
