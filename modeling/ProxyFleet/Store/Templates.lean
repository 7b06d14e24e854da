import ProxyFleet.Store.Hosts

/-!
# Configuration templates in the store

A template is a text that gives a configuration for one engine, together with
what it asks of a core and what came of checking it.
-/

namespace ProxyFleet

/-- A template that gives a configuration. -/
structure ConfigTemplate where
  id : String
  name : String
  type : Engine
  content : String
  description : String
  minVersion : String
  capabilities : List String
  schemaVersion : Number
  isValid : Bool
  validationError : String
  createdAt : String
  updatedAt : String
  deriving DecidableEq, Repr

/-- The engine whose very name a word is. -/
def Engine.ofWord? (s : String) : Option Engine := all.find? (·.name == s)

/-- The template a row tells of. -/
def TemplateRow.toTemplate (r : TemplateRow) : ConfigTemplate where
  id := r.id
  name := r.name
  type := r.type
  content := r.content
  description := r.description
  minVersion := r.minVersion
  capabilities := textsOfText r.capabilitiesText
  schemaVersion := r.schemaVersion
  isValid := r.isValid
  validationError := r.validationError
  createdAt := r.createdAt
  updatedAt := r.updatedAt

/-- A template as a record. -/
def ConfigTemplate.toValue (t : ConfigTemplate) : Value :=
  .ofFields [
    ("id", .str t.id),
    ("name", .str t.name),
    ("type", .str t.type.name),
    ("content", .str t.content),
    ("description", .str t.description),
    ("minVersion", .str t.minVersion),
    ("capabilities", .texts t.capabilities),
    ("schemaVersion", .num t.schemaVersion),
    ("isValid", .bool t.isValid),
    ("validationError", .str t.validationError),
    ("createdAt", .str t.createdAt),
    ("updatedAt", .str t.updatedAt)]

/-- What is told of a new template; its type is the name of an engine. -/
structure NewTemplate where
  name : String
  type : String
  content : String
  description : String
  minVersion : String
  capabilities : List String
  schemaVersion : Number
  isValid : Bool
  validationError : String
  deriving DecidableEq, Repr

/-- What is to change of a template. -/
structure TemplateChange where
  name : Option String
  type : Option String
  content : Option String
  description : Option String
  minVersion : Option String
  capabilities : Option (List String)
  isValid : Option Bool
  validationError : Option String
  deriving DecidableEq, Repr

namespace Store

/-- Puts a template in. -/
def createTemplate (s : Store) (id : String) (now : Instant) (new : NewTemplate) :
    Except StoreError (ConfigTemplate × Store) := do
  let time := now.text
  let row : Except StoreError TemplateRow := do
    match Engine.ofWord? new.type with
    | none => throw .badType
    | some type => pure {
        id := id
        name := new.name
        type := type
        content := new.content
        description := new.description
        minVersion := new.minVersion
        capabilitiesText := textsText new.capabilities
        schemaVersion := new.schemaVersion
        isValid := new.isValid
        validationError := new.validationError
        createdAt := time
        updatedAt := time
      }
  let s ← s.addTemplate row
  pure ({
    id := id
    name := new.name
    type := (Engine.ofWord? new.type).getD .singBox
    content := new.content
    description := new.description
    minVersion := new.minVersion
    capabilities := new.capabilities
    schemaVersion := new.schemaVersion
    isValid := new.isValid
    validationError := new.validationError
    createdAt := time
    updatedAt := time
  }, s)

/-- The template of an id. -/
def template? (s : Store) (id : String) : Option ConfigTemplate :=
  (s.templates.find? (·.id == id)).map TemplateRow.toTemplate

/-- All templates, or those of one type, by name, and by age among those of one name. -/
def allTemplates (s : Store) (type : Option String) : List ConfigTemplate :=
  let chosen := match type with
    | none => s.templates
    | some word => s.templates.filter (·.type.name == word)
  (sortBy (fun a b => textPairLe (a.name, a.createdAt) (b.name, b.createdAt)) chosen).map
    TemplateRow.toTemplate

/-- Changes a template. -/
def updateTemplate (s : Store) (id : String) (now : Instant) (change : TemplateChange) :
    Except StoreError (Option ConfigTemplate × Store) := do
  let r ← s.changeTemplate id fun t => do
    let type ← match change.type with
      | none => pure t.type
      | some word => match Engine.ofWord? word with
        | some type => pure type
        | none => throw StoreError.badType
    pure { t with
      name := change.name.getD t.name
      type := type
      content := change.content.getD t.content
      description := change.description.getD t.description
      minVersion := change.minVersion.getD t.minVersion
      capabilitiesText := (change.capabilities.map textsText).getD t.capabilitiesText
      isValid := change.isValid.getD t.isValid
      validationError := change.validationError.getD t.validationError
      updatedAt := now.text }
  pure (if r.2 then r.1.template? id else none, r.1)

end Store

end ProxyFleet
