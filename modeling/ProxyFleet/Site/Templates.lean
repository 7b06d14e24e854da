import ProxyFleet.Site
import ProxyFleet.Template.Check
import ProxyFleet.Template.Default

/-!
# Work on templates

Templates are written, changed and deleted. A template is checked whenever its
text or its type is written, and what comes of it is kept with the template.
-/

namespace ProxyFleet

/-- Asks for a template; without a text it gets the default text of its type. -/
structure TemplateRequest where
  name : String
  type : String
  content : Option String
  description : Option String
  minVersion : Option String
  capabilities : Option (List String)
  deriving DecidableEq, Repr

/-- Asks for changes of a template; what is left out stays. -/
structure TemplateEdit where
  name : Option String
  type : Option String
  content : Option String
  description : Option String
  minVersion : Option String
  capabilities : Option (List String)
  deriving DecidableEq, Repr

/-- The version of the form templates are stored in. -/
def templateForm : Number := 1

/-- A least version as it is kept: blank, or a text that is a version. -/
def checkMinVersion (text : String) : Except Failure String :=
  let trimmed := trim text
  if trimmed ≠ "" ∧ Version.ofText? trimmed = none then .error (.invalid (.badMinVersion text))
  else .ok trimmed

namespace Work

/-- Writes a new template. -/
def createTemplate (r : TemplateRequest) : Work ConfigTemplate := do
  let name := trim r.name
  if name = "" then refuse (.invalid .nameRequired)
  let type ← ofResult (Engine.ofName r.type)
  let content := r.content.getD (Template.default type)
  if isAllBlank content then refuse (.invalid .contentRequired)
  let verdict := Template.check content type.name
  let minVersion ← ofResult (checkMinVersion (r.minVersion.getD ""))
  create fun s id now => s.createTemplate id now {
    name := name
    type := type.name
    content := content
    description := r.description.getD ""
    minVersion := minVersion
    capabilities := r.capabilities.getD []
    schemaVersion := templateForm
    isValid := verdict.valid
    validationError := verdict.firstError
  }

/-- What comes of checking a template after an edit, if the edit calls for it. -/
def verdictAfter (t : ConfigTemplate) (content : Option String) (type : Option Engine) :
    Option Verdict :=
  if content.isNone && type.isNone then none
  else some (Template.check (content.getD t.content) (type.getD t.type).name)

/-- Changes a template. -/
def updateTemplate (id : String) (r : TemplateEdit) : Work ConfigTemplate := do
  let current ← requireTemplate id
  let name := r.name.map trim
  if name = some "" then refuse (.invalid .nameEmptied)
  let type ← r.type.mapM fun word => ofResult (Engine.ofName word)
  if r.content.any isAllBlank then refuse (.invalid .contentEmptied)
  let verdict := verdictAfter current r.content type
  let minVersion ← r.minVersion.mapM fun text => ofResult (checkMinVersion text)
  let updated ← write fun s now => s.updateTemplate id now {
    name := name
    type := type.map Engine.name
    content := r.content
    description := r.description
    minVersion := minVersion
    capabilities := r.capabilities
    isValid := verdict.map Verdict.valid
    validationError := verdict.map Verdict.firstError
  }
  match updated with
  | some t => pure t
  | none => refuse (.missing (.template id))

/-- Deletes a template. -/
def deleteTemplate (id : String) : Work Unit := do
  unless ← remove (·.removeTemplate id) do refuse (.missing (.template id))

/-- The templates, or those of one type. -/
def listTemplates (type : Option String) : Work (List ConfigTemplate) := do
  let type ← type.mapM fun word => ofResult (Engine.ofName word)
  ask (·.allTemplates (type.map Engine.name))

/-- The default template of a type, and the engine the type stands for. -/
def defaultTemplate (type : String) : Work (Engine × String) := do
  let engine ← ofResult (Engine.ofName type)
  pure (engine, Template.default engine)

/-- The data a template gives for the sample context. -/
def previewTemplate (content : String) : Work String := ofResult (Template.preview content)

end Work

end ProxyFleet
