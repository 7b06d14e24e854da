import ProxyFleet.Store.Instances
import ProxyFleet.Store.Servers
import ProxyFleet.Store.SwitchLogs
import ProxyFleet.Store.Templates
import ProxyFleet.Store.Users

/-!
# Edits

All that can be asked to be written to the store, as data: for each table what
puts a row in, changes one or takes one out.
-/

namespace ProxyFleet

/-- Something to be written to the store. -/
inductive Edit where
  | createHost (new : NewHost)
  | reportHost (id : String) (report : CoreReport)
  | assignTemplate (id : String) (templateId : Option String)
  | removeHost (id : String)
  | createTemplate (new : NewTemplate)
  | updateTemplate (id : String) (change : TemplateChange)
  | removeTemplate (id : String)
  | createServer (new : NewServer)
  | updateInbounds (id : String) (inbounds : List Value)
  | removeServer (id : String)
  | createUser (new : NewUser)
  | setEnabled (id : String) (enabled : Bool)
  | removeUser (id : String)
  | createInstance (new : NewInstance)
  | updateInstance (id : String) (change : InstanceChange)
  | removeInstance (id : String)
  | createLog (new : NewSwitchLog)
  | moveLog (id : String) (target : SwitchStatus) (details : MoveDetails)
  deriving Repr

/-- Whether an edit puts a row in, which needs an id. -/
def Edit.isNew : Edit → Bool
  | .createHost _ | .createTemplate _ | .createServer _ | .createUser _ | .createInstance _
  | .createLog _ => true
  | _ => false

namespace Store

/-- The store after an edit; a row that is put in gets the id. -/
def edit (s : Store) (e : Edit) (id : String) (now : Instant) : Except StoreError Store :=
  match e with
  | .createHost new => (s.createHost id now new).map Prod.snd
  | .reportHost host report => (s.reportHost host now report).map Prod.snd
  | .assignTemplate host template => (s.assignTemplate host now template).map Prod.snd
  | .removeHost host => (s.removeHost host).map Prod.fst
  | .createTemplate new => (s.createTemplate id now new).map Prod.snd
  | .updateTemplate template change => (s.updateTemplate template now change).map Prod.snd
  | .removeTemplate template => (s.removeTemplate template).map Prod.fst
  | .createServer new => (s.createServer id now new).map Prod.snd
  | .updateInbounds server inbounds => (s.updateInbounds server now inbounds).map Prod.snd
  | .removeServer server => (s.removeServer server).map Prod.fst
  | .createUser new => (s.createUser id now new).map Prod.snd
  | .setEnabled user enabled => (s.setEnabled user enabled).map Prod.snd
  | .removeUser user => (s.removeUser user).map Prod.fst
  | .createInstance new => (s.createInstance id now new).map Prod.snd
  | .updateInstance i change => (s.updateInstance i now change).map Prod.snd
  | .removeInstance i => (s.removeInstance i).map Prod.fst
  | .createLog new => (s.createLog id now new).map Prod.snd
  | .moveLog log target details => (s.moveLog log now target details).map Prod.snd

end Store

end ProxyFleet
