import ApiModels.Json.Reader
import ApiModels.Swagger.Document

/-!
# Reading schema documents

How each part of a document is written in JSON. Fields stand in the order in which a record written
as an array lists them. A few are checked and not kept, because nothing is made of them.
-/

namespace ApiModels.Swagger

open Json Json.Reader

/-- A reader that may call itself for what lies deeper. Every step opens a level, so the number of
levels bounds the steps. -/
def nested (step : Reader α → Reader α) : Nat → Reader α
  | 0 => fun _ d => .error d.mismatch
  | steps + 1 => step (nested step steps)

/-- A field that is checked and not kept. -/
def unused (f : (α → σ → σ) → RecordField σ) : RecordField σ := f fun _ s => s

/-- Fields of a group, version and kind. -/
def groupVersionKindFields : List (RecordField GroupVersionKind) :=
  [ .defaulted "group" text fun a s => { s with group := a },
    .required "version" text fun a s => { s with version := a },
    .required "kind" text fun a s => { s with kind := a } ]

/-- Reads group, version and kind. -/
def readGroupVersionKind : Reader GroupVersionKind := record groupVersionKindFields default

/-- Changes what a schema says about itself. -/
def onFacts (change : α → Facts → Facts) (a : α) : Schema → Schema
  | .mk f p i v => .mk (change a f) p i v

/-- A field of a schema that belongs to its facts. -/
def fact (name : String) (r : Reader α) (change : Option α → Facts → Facts) : RecordField Schema :=
  .optional name r (onFacts change)

/-- Fields of a schema, given how the schemas in it are read. -/
def schemaFields (schema : Reader Schema) : List (RecordField Schema) :=
  [ fact "$ref" text fun a f => { f with reference := a },
    fact "type" text fun a f => { f with type := a },
    fact "format" text fun a f => { f with format := a },
    fact "description" text fun a f => { f with description := a },
    .defaulted "properties" (pairs schema) fun a s => .mk s.facts a s.items s.values,
    .defaulted "required" (list text) (onFacts fun a f => { f with required := a }),
    .optional "items" schema fun a s => .mk s.facts s.properties a s.values,
    .optional "additionalProperties" (firstOf [fun l d => (fun _ => none) <$> bool l d,
      fun l d => some <$> schema l d]) fun a s => .mk s.facts s.properties s.items a.join,
    fact "pattern" text fun a f => { f with pattern := a },
    fact "enum" (list json) fun a f => { f with values := a },
    fact "minimum" real fun a f => { f with minimum := a },
    fact "maximum" real fun a f => { f with maximum := a },
    fact "minItems" count fun a f => { f with minItems := a },
    fact "maxItems" count fun a f => { f with maxItems := a },
    .defaulted "x-kubernetes-group-version-kind" (list readGroupVersionKind)
      (onFacts fun a f => { f with kinds := a }),
    unused (.optional "x-kubernetes-preserve-unknown-fields" bool),
    fact "x-kubernetes-int-or-string" bool fun a f => { f with intOrString := a } ]

/-- Reads a schema. -/
def readSchema : Reader Schema :=
  nested (fun schema => record (schemaFields schema) default) (maxLevels + 1)

/-- Fields of a parameter. -/
def parameterFields : List (RecordField Parameter) :=
  [ .required "name" text fun a s => { s with name := a },
    .required "in" text fun a s => { s with location := a },
    .optional "description" text fun a s => { s with description := a },
    .defaulted "required" bool fun a s => { s with required := a },
    .optional "type" text fun a s => { s with type := a },
    .optional "format" text fun a s => { s with format := a },
    .optional "items" readSchema fun a s => { s with items := a },
    .optional "schema" readSchema fun a s => { s with schema := a },
    unused (.defaulted "uniqueItems" bool) ]

/-- Reads a parameter written out. -/
def readParameter : Reader Parameter := record parameterFields default

/-- Reads a parameter or the reference to one. An object with a `$ref` text is a reference whatever
else it holds. -/
def readParameterUse : Reader ParameterUse :=
  firstOf
    [ fun l d => .ref <$> objectRecord [.required "$ref" text fun a _ => a] "" l d,
      fun l d => .inline <$> readParameter l d ]

/-- Fields of a response. -/
def responseFields : List (RecordField (Option Schema)) :=
  [ unused (.optional "description" text), .optional "schema" readSchema fun a _ => a ]

/-- Fields of an operation. -/
def operationFields : List (RecordField Operation) :=
  [ .optional "operationId" text fun a s => { s with id := a },
    .optional "description" text fun a s => { s with description := a },
    .defaulted "parameters" (list readParameterUse) fun a s => { s with parameters := a },
    .defaulted "responses" (pairs (record responseFields none)) fun a s =>
      { s with responses := a },
    unused (.defaulted "consumes" (list text)),
    unused (.defaulted "tags" (list text)),
    .optional "x-kubernetes-action" text fun a s => { s with action := a },
    .optional "x-kubernetes-group-version-kind" readGroupVersionKind
      fun a s => { s with kind := a } ]

/-- Reads an operation. -/
def readOperation : Reader Operation := record operationFields default

/-- The field of a path that holds the operation of a verb. -/
def verbField (v : Verb) : RecordField PathItem :=
  .optional v.key readOperation fun a s =>
    { s with operations := s.operations ++ (a.map fun op => (v, op)).toList }

/-- Fields of a path. -/
def pathItemFields : List (RecordField PathItem) :=
  .defaulted "parameters" (list readParameterUse) (fun a s => { s with parameters := a })
    :: Verb.all.map verbField

/-- The operations of a path in the fixed order of verbs. -/
def PathItem.inVerbOrder (p : PathItem) : PathItem :=
  { p with operations := Verb.all.flatMap fun v => p.operations.filter fun o => o.1 = v }

/-- Reads a path. -/
def readPathItem : Reader PathItem := fun l d =>
  PathItem.inVerbOrder <$> record pathItemFields default l d

/-- Fields of what a document says about itself. -/
def infoFields : List (RecordField (Option String × Option String)) :=
  [ ⟨"title", .defaulted, fun l d s => (fun a => (a, s.2)) <$> nullable text l d⟩,
    ⟨"version", .defaulted, fun l d s => (fun a => (s.1, a)) <$> nullable text l d⟩ ]

/-- Fields of a document. -/
def documentFields : List (RecordField Document) :=
  [ ⟨"swagger", .defaulted, fun l d s => (fun a => { s with swagger := a }) <$> nullable text l d⟩,
    ⟨"info", .defaulted, fun l d s =>
      (fun a => { s with title := a.bind Prod.fst, version := a.bind Prod.snd })
        <$> nullable (record infoFields (none, none)) l d⟩,
    .defaulted "definitions" (pairs readSchema) fun a s => { s with definitions := a },
    .defaulted "paths" (pairs readPathItem) fun a s => { s with paths := a },
    .defaulted "parameters" (pairs readParameter) fun a s => { s with parameters := a } ]

/-- Reads a schema document. -/
def readDocument : Reader Document := record documentFields default

/-- The document a text holds. -/
def Document.ofText (text : String) : Except Fault Document := Reader.ofText readDocument text

end ApiModels.Swagger
