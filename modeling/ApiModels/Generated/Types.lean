import ApiModels.Build
import ApiModels.Generated.Syntax

/-!
# Types in the generated code

How the model's types are written where a field, an argument or a result mentions them. A type of
another version is reached through that version's module. The partner of a split type means its
base; everyone else means the split type itself.
-/

namespace ApiModels.Generated

open Source (Ident)

/-- The type of a primitive. -/
def primitiveType : Primitive → Ty
  | .string | .bytes | .dateTime => .plain ["String"]
  | .intOrString => .plain ["keel_model", "IntOrString"]
  | .int32 => .plain ["i32"]
  | .int64 => .plain ["i64"]
  | .number => .plain ["f64"]
  | .boolean => .plain ["bool"]
  | .json => .plain ["serde_json", "Value"]

/-- A shared reference. -/
def refTo (t : Ty) : Ty := .reference none false t

/-- The type of an argument that is a primitive. What is costly to copy is borrowed. -/
def primitiveArg (p : Primitive) : Ty :=
  match p with
  | .string | .bytes | .dateTime => refTo (.plain ["str"])
  | .intOrString | .json => refTo (primitiveType p)
  | p => primitiveType p

/-- A type with arguments. -/
def applied (names : List String) (args : List Ty) : Ty := .named (Path.of names) args

/-- A map from texts. -/
def mapOf (t : Ty) : Ty := applied ["std", "collections", "BTreeMap"] [.plain ["String"], t]

/-- The type of a container. -/
def contained (t : Ty) : Container → Ty
  | .plain => t
  | .optional => applied ["Option"] [t]
  | .list => applied ["Vec"] [t]
  | .map => mapOf t

/-- The identifier of a type. -/
def typeIdent (b : Build) (id : TypeId) : Ident := .ofName (b.names.name id)

/-- The identifier that stands for a type when a given type refers to it. -/
def referenceIdent (b : Build) (referrer : Option TypeId) (id : TypeId) : Ident :=
  .ofName ((referrer.bind fun r => b.order.baseRef? r id).getD (b.names.name id))

/-- A type as seen from the module of a version. -/
def typePath (b : Build) (version : String) (referrer : Option TypeId) (id : TypeId) : Ty :=
  let ident := referenceIdent b referrer id
  let home := (b.model.type id).version
  if home = version then .named [ident] [] else .named [⟨"super", false⟩, .ofModule home, ident] []

/-- What a reference refers to, as seen from the module of a version. -/
def refType (b : Build) (version : String) (referrer : Option TypeId) : TypeRef → Ty
  | .named id => typePath b version referrer id
  | .primitive p => primitiveType p

/-- The type of an argument that is sent as text. Objects are passed in their text form. -/
def scalarArg (b : Build) : TypeRef → Ty
  | .primitive p => primitiveArg p
  | .named id =>
    match (b.model.type id).kind with
    | .scalar p => primitiveArg p
    | .object => primitiveArg .string

/-- Lines of documentation for a description. -/
def docLines (description : Option String) : List Attribute :=
  match description.map Text.trim with
  | some d => if d.isEmpty then [] else (Text.lines d).map fun l => .doc (" " ++ l)
  | none => []

end ApiModels.Generated
