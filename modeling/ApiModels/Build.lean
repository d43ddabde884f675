import ApiModels.CrudPlan
import ApiModels.Ingest
import ApiModels.Registry.Entry

/-!
# Builds

Everything derived from the schema document of one release: its model, the names and the order of
its types, the bindings of its operations and the roles among them. Builds of different releases
share nothing.
-/

namespace ApiModels

/-- What is configured for a release. -/
structure ReleaseConfig where
  label : String
  /-- Semantic version of the output. -/
  semver : String
  /-- The version preferred at the root of the release. -/
  defaultVersion : String
  /-- Groups preferred for types of one simple name. -/
  preferences : Preferences
  /-- Canonical names by aliases of every version. -/
  deprecations : Table String
deriving Repr, BEq

/-- A build of one release. -/
structure Build where
  config : ReleaseConfig
  model : ReleaseModel
  names : Names
  order : Order
  bindings : Bindings
  plans : List CrudPlan
  diagnostics : Diagnostics
  /-- The version offered at the root of the release. -/
  defaultVersion : String

/-- Numbers that sum up a build. -/
structure Summary where
  release : String
  versions : Nat
  types : Nat
  excluded : Nat
  bound : Nat
  unbound : Nat
  crud : Nat
  aliases : Nat
  undefined : Nat
deriving DecidableEq, Repr

/-- A summary on one line. -/
def Summary.text (s : Summary) : String :=
  s.release ++ ": " ++ toString s.versions ++ " versions, " ++ toString s.types ++ " types ("
    ++ toString s.excluded ++ " excluded, " ++ toString s.aliases ++ " aliased), "
    ++ toString s.bound ++ " bound / " ++ toString s.unbound ++ " unbound operations, "
    ++ toString s.crud ++ " CRUD classes, " ++ toString s.undefined ++ " undefined references"

/-- The version at the root of a release: the configured one if the release has it, else the first
stable one, else the first that is a version, else the first there is. -/
def chooseDefaultVersion (m : ReleaseModel) (configured : String) : String :=
  let versions := m.versions
  if versions.contains configured then configured
  else
    (((versions.find? isStableVersion).or (versions.find? isVersion)).or versions.head?).getD
      configured

namespace Build

/-- Builds a release from its document. -/
def ofDocument (config : ReleaseConfig) (doc : Swagger.Document) : Build :=
  let (model, ingesting) := Ingest.ingest config.label doc
  let names := Names.resolve model config.preferences
  let (order, ordering) := Order.ofModel model names
  let (bindings, binding) := Binding.bindRelease model names order
  { config, model, names, order, bindings,
    plans := CrudPlan.synthesize model order bindings,
    diagnostics := ingesting ++ ordering ++ binding,
    defaultVersion := chooseDefaultVersion model config.defaultVersion }

variable (b : Build)

/-- Label of the release. -/
def label : String := b.config.label

/-- The numbers of a build. -/
def summary : Summary :=
  { release := b.label,
    versions := b.model.versions.length,
    types := b.model.types.size,
    excluded := b.order.excluded.length,
    bound := b.bindings.bound.length,
    unbound := b.bindings.unbound.length,
    crud := b.plans.length,
    aliases := b.names.aliasCount,
    undefined := b.diagnostics.count .undefinedReference }

/-- Items of a version in emission order. -/
def items (version : String) : List Emit :=
  ((b.order.version? version).map (·.items)).getD []

/-- Documents of a version in emission order. -/
def documents (version : String) : List TypeId :=
  ((b.items version).filter fun e => !e.isBase && (b.model.type e.id).isDocument).map Emit.id

/-- Classes of a version with a method that can watch, within a namespace or across the cluster, in
the order of their names. -/
def watchables (version : String) (namespaced : Bool) : List String :=
  sortedTexts <| (b.bindings.byClass b.model).filterMap fun (id, methods) =>
    if (b.model.type id).version == version
      && methods.any (fun m =>
        (b.model.operation m.operation).watchCapable
          && (b.model.operation m.operation).namespaced == namespaced)
    then some (b.names.name id)
    else none

/-- Classes by the methods bound to them, for every version with methods. -/
def methodMap : Table (Table String) :=
  (b.bindings.byClass b.model).foldl (fun versions (id, methods) =>
    let version := (b.model.type id).version
    let table := methods.foldl (fun t m => t.insert m.methodName (b.names.name id))
      ((versions.get? version).getD {})
    versions.insert version table) {}

/-- What readers of the release need to know: aliases derived from collisions, and the configured
ones, which take precedence. -/
def registryEntry : ReleaseEntry :=
  { release := b.label,
    semver := b.config.semver,
    defaultVersion := b.defaultVersion,
    versions := b.model.versions,
    deprecations := .ofList <| (b.model.versions.map fun version =>
      (version, (b.names.deprecations version).update b.config.deprecations)).filter
        fun e => !e.2.isEmpty }

/-- The plan of a document. -/
def plan? (id : TypeId) : Option CrudPlan := b.plans.find? fun p => p.target == id

end Build

end ApiModels
