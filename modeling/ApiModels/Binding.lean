import ApiModels.Order

/-!
# Binding operations to classes

Every operation becomes a method of at most one class. A document in the request body makes it an
instance method of that document; failing that, a document in the response makes it a static method
of that one; failing that, the name of the operation may give a class. What remains is unbound, and
reported.
-/

namespace ApiModels

/-- Envelopes that many operations share. They are no class an operation belongs to. -/
def carrierNames : List String := ["DeleteOptions", "Status", "WatchEvent", "Patch"]

/-- Whether a type is such an envelope. -/
def TypeDef.isCarrier (t : TypeDef) : Bool := carrierNames.contains t.name

/-- How a method is called. -/
inductive BindingKind where
  /-- On an instance, which is the request body. -/
  | instanceMethod
  /-- On the class. -/
  | staticMethod
deriving DecidableEq, Repr

/-- What gave an operation its class. -/
inductive BindRule where
  | body
  | response
  | name
deriving DecidableEq, Repr

/-- An operation bound to a class as a method. -/
structure MethodBinding where
  operation : OperationId
  target : TypeId
  kind : BindingKind
  rule : BindRule
  methodName : String
deriving DecidableEq, Repr

/-- Operations bound, and those that are not, in the order in which they were taken. -/
structure Bindings where
  bound : List MethodBinding := []
  unbound : List OperationId := []
deriving Repr

namespace Bindings

/-- Methods of a class. -/
def methods (b : Bindings) (id : TypeId) : List MethodBinding :=
  b.bound.filter fun m => m.target = id

/-- The binding of an operation. -/
def bindingOf? (b : Bindings) (op : OperationId) : Option MethodBinding :=
  b.bound.find? fun m => m.operation == op

/-- Classes that have methods, with their methods, in the order of types. -/
def byClass (b : Bindings) (m : ReleaseModel) : List (TypeId × List MethodBinding) :=
  (m.typeIds.map fun id => (id, b.methods id)).filter fun c => !c.2.isEmpty

end Bindings

namespace Binding

/-! ## Classes -/

/-- Irregular operation names and the class each belongs to. -/
def irregular : List (String × String) :=
  [("readNamespacedPodLog", "Pod"), ("getCodeVersion", "Info"), ("logFileListHandler", "Node")]

/-- Whether operations can be bound to a type on its own account. -/
def isEligible (m : ReleaseModel) (order : Order) (id : TypeId) : Bool :=
  (m.type id).isDocument && !(m.type id).isCarrier && !order.isExcluded id

/-- The type of a single value. -/
def single? (type : TypeRef) (container : Container) : Option TypeId :=
  if container.isSingle then type.named? else none

/-- The order of classes of one name for an operation: its own group first, then by group. -/
def compareFor (m : ReleaseModel) (own : Option String) (a b : TypeId) : Ordering :=
  (compare ((m.type a).group != own).toNat ((m.type b).group != own).toNat).then
    (compareGroups (m.type a).group (m.type b).group)

/-- The class of a name in the version of an operation. -/
def lookup? (m : ReleaseModel) (order : Order) (op : Operation) (name : String)
    (documentsOnly : Bool) : Option TypeId :=
  let found := (m.find op.version name).filter fun id =>
    !order.isExcluded id && (!documentsOnly || isEligible m order id)
  (found.mergeSort fun a b => compareFor m op.group a b != .gt).head?

/-- A name without its leading `Namespaced`. -/
def unscoped (name : String) : String := Text.dropStart "Namespaced" name

/-- The class that the name of an operation gives: an irregular one, or that of the kind after
`deleteCollection`, `delete` or `watch`. -/
def nameTarget? (m : ReleaseModel) (order : Order) (op : Operation) : Option TypeId :=
  match irregular.lookup op.methodName with
  | some name => lookup? m order op name false
  | none =>
    match Text.dropStart? "deleteCollection" op.methodName with
    | some rest =>
      (lookup? m order op (unscoped rest ++ "List") true).or
        (lookup? m order op (unscoped rest) true)
    | none =>
      match Text.dropStart? "delete" op.methodName with
      | some rest => lookup? m order op (unscoped rest) true
      | none =>
        match Text.dropStart? "watch" op.methodName with
        | some rest =>
          let name := (Text.dropEnd? "ForAllNamespaces" (unscoped rest)).getD (unscoped rest)
          (lookup? m order op name true).or
            ((Text.dropEnd? "List" name).bind fun one => lookup? m order op one true)
        | none => none

/-- The document that the body of an operation is. -/
def bodyTarget? (m : ReleaseModel) (order : Order) (op : Operation) : Option TypeId :=
  (op.body?.bind fun p => single? p.type p.container).filter (isEligible m order)

/-- The document that the response of an operation is. -/
def responseTarget? (m : ReleaseModel) (order : Order) (op : Operation) : Option TypeId :=
  (op.response.bind fun r => single? r.1 r.2).filter (isEligible m order)

/-- The class of an operation and the rule that gave it. -/
def classify? (m : ReleaseModel) (order : Order) (op : Operation) :
    Option (TypeId × BindingKind × BindRule) :=
  match bodyTarget? m order op with
  | some id => some (id, .instanceMethod, .body)
  | none =>
    match responseTarget? m order op with
    | some id => some (id, .staticMethod, .response)
    | none => (nameTarget? m order op).map fun id => (id, .staticMethod, .name)

/-- The class of an operation, or why it has none. -/
def classOf (m : ReleaseModel) (names : Names) (order : Order) (op : Operation) :
    Except String (TypeId × BindingKind × BindRule) :=
  if !op.isBindable then .error ("references undefined " ++ Text.join ", " op.missing)
  else
    match op.references.find? order.isExcluded with
    | some id => .error ("references excluded type " ++ names.name id)
    | none =>
      match classify? m order op with
      | some found => .ok found
      | none => .error "no class fits"

/-! ## Method names -/

/-- Method names that every class may have already. -/
def reserved : List String :=
  ["new", "create", "read", "read_into", "update", "delete", "modify", "absorb", "name",
    "namespace"]

/-- A method name for an operation: from its name without group and version if that is free, else
from the whole id, numbered if need be. -/
def methodName (op : Operation) (used : List String) : String :=
  let taken (name : String) : Bool := used.contains name || reserved.contains name
  let short := Text.snakeCase op.methodName
  let base := if taken short then Text.snakeCase op.operationId else short
  Text.firstFree taken (Text.numbered base) (used.length + reserved.length)

/-- Method names used by classes of a version. -/
def usedNames (m : ReleaseModel) (bound : List MethodBinding) (version : String) : List String :=
  (bound.filter fun b => (m.type b.target).version == version).map (·.methodName)

/-- Bindings so far, with the anomalies of operations left unbound. -/
structure State where
  bindings : Bindings := {}
  anomalies : Diagnostics := []

/-- Binds one operation. -/
def bindOne (m : ReleaseModel) (names : Names) (order : Order) (s : State) (id : OperationId) :
    State :=
  let op := m.operation id
  match classOf m names order op with
  | .error reason =>
    { bindings := { s.bindings with unbound := s.bindings.unbound ++ [id] },
      anomalies := s.anomalies ++ [⟨.unboundOperation, op.version, op.operationId, reason⟩] }
  | .ok (target, kind, rule) =>
    let used := usedNames m s.bindings.bound (m.type target).version
    let b := { operation := id, target, kind, rule, methodName := methodName op used }
    { s with bindings := { s.bindings with bound := s.bindings.bound ++ [b] } }

/-- Binds the operations of a release, version by version. -/
def bindRelease (m : ReleaseModel) (names : Names) (order : Order) : Bindings × Diagnostics :=
  let s := (m.versions.flatMap m.operationsOf).foldl (bindOne m names order) {}
  (s.bindings, s.anomalies)

end Binding

end ApiModels
