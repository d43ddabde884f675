import ApiModels.DefinitionKey
import ApiModels.Json.Value
import ApiModels.Verb
import ApiModels.VersionLists

/-!
# The model of a release

What a schema document says, resolved: one type for every definition and one operation for every
verb of every path. Types and operations are numbered in source order, and whatever mentions one
does so by its number, so reference graphs may have cycles. A model grows by one type or operation
at a time, which is listed under its version as it comes.
-/

namespace ApiModels

/-- Number of a type in its release. -/
abbrev TypeId := Nat

/-- Number of an operation in its release. -/
abbrev OperationId := Nat

/-- A type that needs no definition. -/
inductive Primitive where
  | string
  | bytes
  | dateTime
  | intOrString
  | int32
  | int64
  | number
  | boolean
  /-- Free-form JSON. -/
  | json
deriving DecidableEq, Repr, Inhabited

/-- Name of a primitive. -/
def Primitive.text : Primitive → String
  | .string => "String"
  | .bytes => "Bytes"
  | .dateTime => "DateTime"
  | .intOrString => "IntOrString"
  | .int32 => "Int32"
  | .int64 => "Int64"
  | .number => "Number"
  | .boolean => "Boolean"
  | .json => "Json"

/-- What a property, parameter or response refers to. -/
inductive TypeRef where
  | named (id : TypeId)
  | primitive (p : Primitive)
deriving DecidableEq, Repr, Inhabited

/-- The type a reference names. -/
def TypeRef.named? : TypeRef → Option TypeId
  | .named id => some id
  | .primitive _ => none

/-- How values of the type referred to are held. -/
inductive Container where
  | plain
  | optional
  | list
  /-- A map with text keys. -/
  | map
deriving DecidableEq, Repr, Inhabited

/-- Name of a container. -/
def Container.text : Container → String
  | .plain => "none"
  | .optional => "optional"
  | .list => "list"
  | .map => "map"

/-- Whether a container holds at most one value, which then lies inside its owner. -/
def Container.isSingle : Container → Bool
  | .plain | .optional => true
  | .list | .map => false

/-- Restrictions on the values of a property. Bounds are bits of a binary64 number. -/
structure Modifiers where
  pattern : Option String := none
  values : Option (List Json) := none
  minimum : Option UInt64 := none
  maximum : Option UInt64 := none
  minItems : Option Nat := none
  maxItems : Option Nat := none
deriving Repr, Inhabited

/-- Whether nothing is restricted. -/
def Modifiers.isEmpty (m : Modifiers) : Bool :=
  m.pattern.isNone && m.values.isNone && m.minimum.isNone && m.maximum.isNone
    && m.minItems.isNone && m.maxItems.isNone

/-- A property of a type, under the name it has on the wire. -/
structure Property where
  name : String
  type : TypeRef
  container : Container
  description : Option String
  modifiers : Modifiers
deriving Repr, Inhabited

/-- A type with properties, or another name for a primitive. -/
inductive TypeKind where
  | object
  | scalar (p : Primitive)
deriving DecidableEq, Repr, Inhabited

/-- The markers that make a type a document: a resource that stands by itself. -/
structure DocumentInfo where
  apiVersion : String
  kind : String
deriving DecidableEq, Repr

/-- A definition, resolved. -/
structure TypeDef where
  name : String
  group : Option String
  version : String
  key : String
  kind : TypeKind
  properties : List Property
  /-- Names of required properties, in order. -/
  required : List String
  document : Option DocumentInfo
  description : Option String
deriving Repr, Inhabited

namespace TypeDef

/-- Whether the type is a document. -/
def isDocument (t : TypeDef) : Bool := t.document.isSome

/-- Types the properties name, in property order and as often as they do. -/
def references (t : TypeDef) : List TypeId := t.properties.filterMap fun p => p.type.named?

/-- The first property of a name, with its index. -/
def property? (t : TypeDef) (name : String) : Option (Nat × Property) :=
  (t.properties.zipIdx.find? fun p => p.1.name == name).map fun p => (p.2, p.1)

end TypeDef

/-- Where a parameter is sent. -/
inductive ParamLocation where
  | path
  | query
  | body
  | header
deriving DecidableEq, Repr, Inhabited

/-- Name of a location. -/
def ParamLocation.text : ParamLocation → String
  | .path => "path"
  | .query => "query"
  | .body => "body"
  | .header => "header"

/-- A parameter of an operation. -/
structure Param where
  name : String
  location : ParamLocation
  type : TypeRef
  container : Container
  required : Bool
  description : Option String
deriving Repr, Inhabited

/-- An operation, resolved. -/
structure Operation where
  operationId : String
  /-- The operation id without group and version. -/
  methodName : String
  verb : Verb
  /-- Path template. -/
  path : String
  /-- Group as served, empty for core. -/
  apiGroup : Option String
  /-- Group as definition keys name it. -/
  group : Option String
  version : String
  /-- Parameters of the path, then of the operation. -/
  params : List Param
  response : Option (TypeRef × Container)
  description : Option String
  /-- Names it refers to that have no definition, in order. -/
  missing : List String
  watchCapable : Bool
  namespaced : Bool
  action : Option String
deriving Repr, Inhabited

namespace Operation

/-- Whether every type the operation mentions is defined. -/
def isBindable (o : Operation) : Bool := o.missing.isEmpty

/-- The body parameter. -/
def body? (o : Operation) : Option Param := o.params.find? fun p => p.location = .body

/-- Types that parameters and response name, in that order. -/
def references (o : Operation) : List TypeId :=
  o.params.filterMap (fun p => p.type.named?) ++ (o.response.bind fun r => r.1.named?).toList

end Operation

/-- Types and operations of one release, and which of them each version has. -/
structure ReleaseModel where
  label : String
  types : Array TypeDef
  operations : Array Operation
  versionLists : Table VersionList
  /-- A version lists its own types and operations in source order. -/
  listed : ListsPlaces (types.toList.map (·.version)) (operations.toList.map (·.version))
    versionLists
deriving Repr

namespace ReleaseModel

/-- The model without types and operations. -/
def empty (label : String) : ReleaseModel where
  label
  types := #[]
  operations := #[]
  versionLists := {}
  listed := .empty

instance : Inhabited ReleaseModel := ⟨empty ""⟩

variable (m : ReleaseModel)

/-- Gives a type the next number and lists it under its version. -/
def addType (t : TypeDef) : ReleaseModel where
  label := m.label
  types := m.types.push t
  operations := m.operations
  versionLists := enter t.version (.addType m.types.size) m.versionLists
  listed := by
    have hlisted := m.listed.enterType t.version
    rw [List.length_map, Array.length_toList] at hlisted
    rw [Array.toList_push, List.map_append]
    exact hlisted

/-- Gives an operation the next number and lists it under its version. -/
def addOperation (o : Operation) : ReleaseModel where
  label := m.label
  types := m.types
  operations := m.operations.push o
  versionLists := enter o.version (.addOperation m.operations.size) m.versionLists
  listed := by
    have hlisted := m.listed.enterOperation o.version
    rw [List.length_map, Array.length_toList] at hlisted
    rw [Array.toList_push, List.map_append]
    exact hlisted

/-- The type of a number. -/
def type (id : TypeId) : TypeDef := m.types.getD id default

/-- The operation of a number. -/
def operation (id : OperationId) : Operation := m.operations.getD id default

/-- Numbers of all types. -/
def typeIds : List TypeId := List.range m.types.size

/-- Numbers of all operations. -/
def operationIds : List OperationId := List.range m.operations.size

/-- Every version that a type or operation belongs to, in order. -/
def versions : List String := m.versionLists.keys

/-- Whether a type or operation belongs to a version. -/
def hasVersion (version : String) : Bool := m.versionLists.contains version

/-- What a version has. -/
def versionList (version : String) : VersionList := (m.versionLists.get? version).getD {}

/-- Types of a version in source order. -/
def typesOf (version : String) : List TypeId := (m.versionList version).types

/-- Operations of a version in source order. -/
def operationsOf (version : String) : List OperationId := (m.versionList version).operations

/-- The first type with a definition key. -/
def findKey? (key : String) : Option TypeId := m.typeIds.find? fun id => (m.type id).key == key

/-- Types of a version with a simple name. -/
def find (version name : String) : List TypeId :=
  (m.typesOf version).filter fun id => (m.type id).name == name

/-- The first operation with an operation id. -/
def findOperation? (operationId : String) : Option OperationId :=
  m.operationIds.find? fun id => (m.operation id).operationId == operationId

end ReleaseModel

end ApiModels
