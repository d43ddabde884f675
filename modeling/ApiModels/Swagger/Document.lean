import ApiModels.Json.Value
import ApiModels.Verb
import ApiModels.Version

/-!
# Schema documents

The parts of a Swagger 2.0 document that models are made of. Definitions, properties, paths and
responses are lists, because their order is kept: types, fields and methods come out in it.
-/

namespace ApiModels.Swagger

/-- Group, version and kind of a resource. -/
structure GroupVersionKind where
  group : String
  version : String
  kind : String
deriving DecidableEq, Repr, Inhabited

/-- The api version of a resource. -/
def GroupVersionKind.apiVersion (g : GroupVersionKind) : String :=
  joinApiVersion g.group g.version

/-- What a schema says about itself, apart from the schemas inside it. Bounds are bits of a binary64
number. -/
structure Facts where
  reference : Option String := none
  type : Option String := none
  format : Option String := none
  description : Option String := none
  required : List String := []
  pattern : Option String := none
  values : Option (List Json) := none
  minimum : Option UInt64 := none
  maximum : Option UInt64 := none
  minItems : Option Nat := none
  maxItems : Option Nat := none
  kinds : List GroupVersionKind := []
  intOrString : Option Bool := none
deriving Repr, Inhabited

/-- A schema: its own facts, its properties, the schema of its items if it is an array, and the
schema of its values if it is a map. -/
inductive Schema where
  | mk (facts : Facts) (properties : List (String × Schema)) (items values : Option Schema)
deriving Repr

namespace Schema

/-- A schema that says nothing. -/
def blank : Schema := .mk {} [] none none

instance : Inhabited Schema := ⟨blank⟩

/-- What the schema says about itself. -/
def facts : Schema → Facts
  | .mk f _ _ _ => f

/-- Properties in source order. -/
def properties : Schema → List (String × Schema)
  | .mk _ p _ _ => p

/-- Schema of the items of an array. -/
def items : Schema → Option Schema
  | .mk _ _ i _ => i

/-- Schema of the values of a map. -/
def values : Schema → Option Schema
  | .mk _ _ _ v => v

/-- Whether the schema has a property of this name. -/
def hasProperty (s : Schema) (name : String) : Bool := s.properties.any fun p => p.1 == name

end Schema

/-- The definition key a reference names. -/
def definitionKey (reference : String) : String := Text.dropStart "#/definitions/" reference

/-- A parameter of an operation. -/
structure Parameter where
  name : String := ""
  location : String := ""
  description : Option String := none
  required : Bool := false
  type : Option String := none
  format : Option String := none
  items : Option Schema := none
  schema : Option Schema := none
deriving Repr, Inhabited

/-- The type fields of a parameter that is not a body, as a schema. -/
def Parameter.asSchema (p : Parameter) : Schema :=
  .mk { type := p.type, format := p.format } [] p.items none

/-- A parameter written out, or the name of a shared one. -/
inductive ParameterUse where
  | ref (reference : String)
  | inline (parameter : Parameter)
deriving Repr, Inhabited

/-- The name of the shared parameter a reference names. -/
def parameterKey (reference : String) : String := Text.dropStart "#/parameters/" reference

/-- An operation of a path. A response is its code and its schema, if it has one. -/
structure Operation where
  id : Option String := none
  description : Option String := none
  parameters : List ParameterUse := []
  responses : List (String × Option Schema) := []
  action : Option String := none
  kind : Option GroupVersionKind := none
deriving Repr, Inhabited

/-- A path: the parameters all its operations share, and its operations in verb order. -/
structure PathItem where
  parameters : List ParameterUse := []
  operations : List (Verb × Operation) := []
deriving Repr, Inhabited

/-- A schema document. -/
structure Document where
  swagger : Option String := none
  title : Option String := none
  version : Option String := none
  definitions : List (String × Schema) := []
  paths : List (String × PathItem) := []
  parameters : List (String × Parameter) := []
deriving Repr, Inhabited

end ApiModels.Swagger
