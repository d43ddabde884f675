import ApiModels.Binding

/-!
# Roles of operations

The operations that create, read, update and delete a document are found by name among its methods:
`createPod` or `createNamespacedPod` creates a `Pod`. A document that can be created and deleted
gets a plan; reading and updating are optional, and a patch is preferred to a replacement.
-/

namespace ApiModels

/-- What an operation does to a document. -/
inductive Role where
  | create
  | read
  | patch
  | replace
  | delete
deriving DecidableEq, Repr

namespace Role

/-- Every role. -/
def all : List Role := [.create, .read, .patch, .replace, .delete]

/-- How the name of an operation in the role begins. -/
def text : Role → String
  | .create => "create"
  | .read => "read"
  | .patch => "patch"
  | .replace => "replace"
  | .delete => "delete"

/-- The role that the name of an operation gives it for a kind. -/
def of? (methodName kind : String) : Option Role :=
  all.find? fun role =>
    match Text.dropStart? role.text methodName with
    | some rest => Text.dropStart "Namespaced" rest == kind
    | none => false

end Role

/-- How an update is sent. -/
inductive UpdateKind where
  /-- As a merge patch. -/
  | mergePatch
  /-- As the whole representation. -/
  | replace
deriving DecidableEq, Repr

/-- The operations that stand for the roles of a document. -/
structure CrudPlan where
  target : TypeId
  create : OperationId
  read : Option OperationId
  update : Option (OperationId × UpdateKind)
  delete : OperationId
deriving DecidableEq, Repr

namespace CrudPlan

/-- The first method of a class that has a role. -/
def inRole? (m : ReleaseModel) (bindings : Bindings) (target : TypeId) (role : Role) :
    Option OperationId :=
  ((bindings.methods target).find? fun b =>
    Role.of? (m.operation b.operation).methodName (m.type target).name = some role).map
      (·.operation)

/-- The plan of a document, if it can be created and deleted. -/
def for? (m : ReleaseModel) (order : Order) (bindings : Bindings) (target : TypeId) :
    Option CrudPlan :=
  if !(m.type target).isDocument || order.isExcluded target then none
  else
    let role := inRole? m bindings target
    match role .create, role .delete with
    | some create, some delete =>
      some
        { target, create, read := role .read,
          update := ((role .patch).map fun op => (op, UpdateKind.mergePatch)).or
            ((role .replace).map fun op => (op, UpdateKind.replace)),
          delete }
    | _, _ => none

/-- The plans of a release in the order of types. -/
def synthesize (m : ReleaseModel) (order : Order) (bindings : Bindings) : List CrudPlan :=
  m.typeIds.filterMap (for? m order bindings)

end CrudPlan

end ApiModels
