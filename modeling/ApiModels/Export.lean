import ApiModels.Model

/-!
# Structural schemas

A type of the model written as a schema in which every reference is replaced by the schema it refers
to. Where a type lies inside itself, the inner one is cut off as an object that may hold anything.
-/

namespace ApiModels.Export

/-- An object of fields with text values. -/
def textFields (fields : List (String × String)) : Json :=
  .object (fields.map fun f => (f.1, .string f.2))

/-- The schema of a primitive. -/
def primitiveSchema : Primitive → Json
  | .string => textFields [("type", "string")]
  | .bytes => textFields [("type", "string"), ("format", "byte")]
  | .dateTime => textFields [("type", "string"), ("format", "date-time")]
  | .intOrString => .object [("x-kubernetes-int-or-string", .bool true)]
  | .int32 => textFields [("type", "integer"), ("format", "int32")]
  | .int64 => textFields [("type", "integer"), ("format", "int64")]
  | .number => textFields [("type", "number")]
  | .boolean => textFields [("type", "boolean")]
  | .json => .object [("x-kubernetes-preserve-unknown-fields", .bool true)]

/-- An object that may hold anything. -/
def openObject : Json :=
  .object [("type", .string "object"), ("x-kubernetes-preserve-unknown-fields", .bool true)]

/-- The schema with a field set, if there is a value for it. -/
def withSome (name : String) (value : Option Json) (schema : Json) : Json :=
  match value with
  | some v => schema.withField name v
  | none => schema

/-- The schema of a container whose items or values have the given schema. -/
def containerSchema (container : Container) (item : Json) : Json :=
  match container with
  | .plain | .optional => item
  | .list => .object [("type", .string "array"), ("items", item)]
  | .map => .object [("type", .string "object"), ("additionalProperties", item)]

/-- The schema of a property, given that of the type it refers to. -/
def propertySchema (p : Property) (item : Json) : Json :=
  let m := p.modifiers
  let real (bits : UInt64) : Json := .number (.real bits)
  containerSchema p.container item
    |> withSome "pattern" (m.pattern.map .string)
    |> withSome "enum" (m.values.map .array)
    |> withSome "minimum" (m.minimum.map real)
    |> withSome "maximum" (m.maximum.map real)
    |> withSome "minItems" (m.minItems.map Json.ofNat)
    |> withSome "maxItems" (m.maxItems.map Json.ofNat)
    |> withSome "description" (p.description.map .string)

/-- The schema of an object with the given schemas of properties. -/
def objectSchema (t : TypeDef) (properties : List (String × Json)) : Json :=
  let object : Json := .object [("type", .string "object"), ("properties", Json.ofPairs properties)]
  if t.required.isEmpty then object
  else object.withField "required" (.array (t.required.map .string))

/-- A schema with the description of the type that it is for. -/
def described (t : TypeDef) (schema : Json) : Json :=
  withSome "description" (t.description.map .string) schema

/-- A run that keeps the objects it is inside of, the innermost first. It comes to nothing if it goes
deeper than it may. -/
abbrev Nesting := StateT (List TypeId) Option

/-- The schema of what a reference refers to. -/
def itemSchema (named : TypeId → Nesting Json) : TypeRef → Nesting Json
  | .named id => named id
  | .primitive p => return primitiveSchema p

/-- The name and the schema of a property. -/
def propertyEntry (named : TypeId → Nesting Json) (p : Property) : Nesting (String × Json) := do
  let item ← itemSchema named p.type
  return (p.name, propertySchema p item)

/-- The schema of a type, where at most `depth` types may lie inside each other. -/
def namedSchema (m : ReleaseModel) : (depth : Nat) → TypeId → Nesting Json
  | 0, _ => failure
  | depth + 1, id => do
    let ancestors ← get
    if ancestors.contains id then return openObject
    let t := m.type id
    match t.kind with
    | .scalar p => return described t (primitiveSchema p)
    | .object =>
      modify (id :: ·)
      let properties ← t.properties.mapM (propertyEntry (namedSchema m depth))
      modify List.tail
      return described t (objectSchema t properties)

/-- The schema of a type. Each object that one is inside of is another one, so the number of types
bounds the depth. -/
def typeSchema (m : ReleaseModel) (id : TypeId) : Json :=
  match (namedSchema m (m.types.size + 1) id).run [] with
  | some (schema, _) => schema
  | none => openObject

end ApiModels.Export
