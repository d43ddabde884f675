import ApiModels.Diagnostics
import ApiModels.Model
import ApiModels.Swagger.Document

/-!
# From document to model

Every definition becomes a type and every verb of every path an operation. References are resolved
to the numbers of definitions; one that names no definition is reported and stands for free-form
JSON from there on.
-/

namespace ApiModels.Ingest

open Swagger

/-- Definition keys that published schemas refer to without defining them. -/
def knownMissing : List String :=
  [ "io.k8s.apimachinery.pkg.apis.meta.v1.Patch",
    "io.k8s.apimachinery.pkg.apis.meta.v1.WatchEvent",
    "io.k8s.apimachinery.pkg.runtime.RawExtension" ]

/-- Response codes whose schema an operation answers with, in order of preference. -/
def responseCodes : List String := ["200", "201", "202"]

/-! ## Types of schemas -/

/-- How a schema holds the type it refers to, before it is known whether it is required. -/
inductive Shape where
  | plain
  | list
  | map
deriving DecidableEq, Repr

/-- The container of a shape. Lists and maps are never optional: absent is empty. -/
def Shape.container (s : Shape) (required : Bool) : Container :=
  match s with
  | .list => .list
  | .map => .map
  | .plain => if required then .plain else .optional

/-- The primitive of a type and format. -/
def primitiveOf (type : String) (format : Option String) : Primitive :=
  match type, format with
  | "string", some "date-time" => .dateTime
  | "string", some "byte" => .bytes
  | "string", some "int-or-string" => .intOrString
  | "string", _ => .string
  | "integer", some "int32" => .int32
  | "integer", _ => .int64
  | "number", _ => .number
  | "boolean", _ => .boolean
  | _, _ => .json

/-- A schema resolved: names that have no definition, in the order met, the type, and its shape. -/
structure Resolved where
  missing : List String
  type : TypeRef
  shape : Shape
deriving Repr

/-- Free-form JSON of a shape. -/
def Resolved.json (shape : Shape) : Resolved := ⟨[], .primitive .json, shape⟩

/-- A container of what was resolved. Containers do not nest: inside another they are free-form. -/
def Resolved.within (r : Resolved) (shape : Shape) : Resolved :=
  match r.shape with
  | .plain => ⟨r.missing, r.type, shape⟩
  | .list | .map => ⟨r.missing, .primitive .json, shape⟩

/-- The numbers of definitions by key. -/
abbrev Keys := String → Option TypeId

/-- The type and shape of a schema. A reference comes before everything else a schema says. -/
def resolve (keys : Keys) : Schema → Resolved
  | .mk facts _ items values =>
    match facts.reference with
    | some reference =>
      match keys (definitionKey reference) with
      | some id => ⟨[], .named id, .plain⟩
      | none => ⟨[definitionKey reference], .primitive .json, .plain⟩
    | none =>
      if facts.intOrString = some true then ⟨[], .primitive .intOrString, .plain⟩
      else if facts.type = some "array" then
        match items with
        | some inner => (resolve keys inner).within .list
        | none => .json .list
      else
        match facts.type.filter (· ≠ "object") with
        | some type => ⟨[], .primitive (primitiveOf type facts.format), .plain⟩
        | none =>
          match values with
          | some inner => (resolve keys inner).within .map
          | none => .json .plain

/-- The kind of type a definition makes. Objects without properties, arrays and untyped definitions
are free-form. -/
def kindOf (s : Schema) : TypeKind :=
  if !s.properties.isEmpty then .object
  else if s.facts.intOrString = some true then .scalar .intOrString
  else
    match s.facts.type with
    | some type =>
      if ["string", "integer", "number", "boolean"].contains type then
        .scalar (primitiveOf type s.facts.format)
      else .scalar .json
    | none => .scalar .json

/-- The markers of a definition that names its group, version and kind and has properties for
them. -/
def documentOf (s : Schema) : Option DocumentInfo :=
  match s.facts.kinds.head? with
  | some kind =>
    if s.hasProperty "apiVersion" && s.hasProperty "kind" then some ⟨kind.apiVersion, kind.kind⟩
    else none
  | none => none

/-- Restrictions a schema puts on its values. -/
def modifiersOf (f : Facts) : Modifiers :=
  { pattern := f.pattern, values := f.values, minimum := f.minimum, maximum := f.maximum,
    minItems := f.minItems, maxItems := f.maxItems }

/-! ## Definitions -/

/-- The number of the definition with a key; of several with one key, the last. -/
def definitionId? (definitions : List (String × Schema)) : Keys := fun key =>
  (definitions.zipIdx.reverse.find? fun d => d.1.1 == key).map Prod.snd

/-- A property of a definition that requires the given names. -/
def property (keys : Keys) (required : List String) (name : String) (s : Schema) : Property :=
  let r := resolve keys s
  { name, type := r.type, container := r.shape.container (required.contains name),
    description := s.facts.description, modifiers := modifiersOf s.facts }

/-- The type of a definition. Only objects have properties. -/
def typeOf (keys : Keys) (key : String) (s : Schema) : TypeDef :=
  let parts := splitDefinitionKey key
  { name := parts.name, group := parts.group, version := parts.version, key,
    kind := kindOf s,
    properties :=
      if kindOf s = .object then
        s.properties.map fun p => property keys s.facts.required p.1 p.2
      else [],
    required := sortedTexts s.facts.required,
    document := documentOf s,
    description := s.facts.description }

/-- The anomaly of a name that has no definition. -/
def missingAnomaly (version subject name : String) : Anomaly :=
  if knownMissing.contains name then
    ⟨.knownMissingType, version, subject, "references known-missing " ++ name⟩
  else ⟨.undefinedReference, version, subject, "references undefined " ++ name⟩

/-- Anomalies of a definition, in property order. -/
def definitionAnomalies (keys : Keys) (key : String) (s : Schema) : Diagnostics :=
  if kindOf s = .object then
    (s.properties.flatMap fun p => (resolve keys p.2).missing).map
      (missingAnomaly (splitDefinitionKey key).version key)
  else []

/-! ## Operations -/

/-- Group and version an operation is served under: those it states, else those of its path. -/
def groupVersionOf (path : String) (op : Swagger.Operation) : Option String × String :=
  match op.kind with
  | some kind => (some kind.group, kind.version)
  | none =>
    match Text.split '/' (Text.dropLeading ['/'] path) with
    | "api" :: v :: _ => if isVersion v then (some "", v) else (none, unversioned)
    | "apis" :: g :: v :: _ => if isVersion v then (some g, v) else (none, unversioned)
    | _ => (none, unversioned)

/-- Where a parameter is sent. Form data goes with the query. -/
def locationOf (p : Parameter) : ParamLocation :=
  match p.location with
  | "path" => .path
  | "body" => .body
  | "header" => .header
  | _ => .query

/-- Adds a parameter, dropping an earlier one with the same name and place. -/
def override (params : List Parameter) (p : Parameter) : List Parameter :=
  (params.filter fun q => !(q.name == p.name && q.location == p.location)) ++ [p]

/-- Parameters of a path and of an operation, shared ones looked up, later ones overriding earlier
ones; and the references that name no shared parameter. -/
def gatherParameters (shared : String → Option Parameter) :
    List ParameterUse → List Parameter × List String
  | uses => uses.foldl (fun (params, unknown) use =>
      match use with
      | .inline p => (override params p, unknown)
      | .ref reference =>
        match shared (parameterKey reference) with
        | some p => (override params p, unknown)
        | none => (params, unknown ++ [reference])) ([], [])

/-- The schema that gives a parameter its type: its own for a body, else its type fields. -/
def parameterSchema (p : Parameter) : Schema :=
  match p.schema, locationOf p with
  | some s, .body => s
  | _, _ => p.asSchema

/-- A parameter resolved. What stands in the path is always required. -/
def parameter (keys : Keys) (p : Parameter) : Param :=
  let r := resolve keys (parameterSchema p)
  let required := p.required || locationOf p = .path
  { name := p.name, location := locationOf p, type := r.type,
    container := r.shape.container required, required, description := p.description }

/-- The schema an operation answers with: that of the first response code that has one. -/
def responseSchema? (op : Swagger.Operation) : Option Schema :=
  responseCodes.findSome? fun code =>
    (op.responses.find? fun r => r.1 == code && r.2.isSome).bind Prod.snd

/-- The operation id, made up from verb and path where the document gives none. -/
def operationIdOf (path : String) (verb : Verb) (op : Swagger.Operation) : String :=
  op.id.getD (verb.key ++ Text.pascalCase path)

/-- The operation of a verb of a path, with its anomalies. -/
def operationOf (keys : Keys) (shared : String → Option Parameter) (path : String)
    (pathParameters : List ParameterUse) (verb : Verb) (op : Swagger.Operation) :
    ApiModels.Operation × Diagnostics :=
  let (apiGroup, version) := groupVersionOf path op
  let operationId := operationIdOf path verb op
  let (raw, unknown) := gatherParameters shared (pathParameters ++ op.parameters)
  let params := raw.map (parameter keys)
  let response := (responseSchema? op).map (resolve keys)
  let missing := (raw.flatMap fun p => (resolve keys (parameterSchema p)).missing)
    ++ (response.map (·.missing)).getD []
  ({ operationId,
     methodName := stripGroupVersion operationId apiGroup version,
     verb, path, apiGroup, group := apiGroup.map shortGroup, version, params,
     response := response.map fun r => (r.type, r.shape.container true),
     description := op.description,
     missing := sortedTexts missing,
     watchCapable := (params.any fun p => p.location = .query && p.name == "watch")
       || op.action = some "watch" || op.action = some "watchlist",
     namespaced := Text.contains "\x7bnamespace\x7d" path,
     action := op.action },
   unknown.map (fun reference =>
     ⟨.undefinedReference, version, operationId,
       "parameter reference " ++ reference ++ " is undefined"⟩)
     ++ missing.map (missingAnomaly version operationId))

/-! ## Documents -/

/-- The shared parameter of a name; of several with one name, the last. -/
def sharedParameter? (parameters : List (String × Parameter)) (name : String) :
    Option Parameter :=
  parameters.reverse.lookup name

/-- The model of a document, with the anomalies found on the way. Types come in the order of their
definitions, then operations in that of paths and, within a path, of verbs. -/
def ingest (label : String) (doc : Document) : ReleaseModel × Diagnostics :=
  let keys := definitionId? doc.definitions
  let shared := sharedParameter? doc.parameters
  let types := doc.definitions.map fun d => typeOf keys d.1 d.2
  let operations := doc.paths.flatMap fun p =>
    p.2.operations.map fun o => operationOf keys shared p.1 p.2.parameters o.1 o.2
  let withTypes := types.foldl .addType (.empty label)
  ((operations.map Prod.fst).foldl .addOperation withTypes,
   doc.definitions.flatMap (fun d => definitionAnomalies keys d.1 d.2)
     ++ operations.flatMap Prod.snd)

end ApiModels.Ingest
