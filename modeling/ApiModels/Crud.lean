import ApiModels.Client
import ApiModels.CrudPlan

/-!
# Creating, reading, updating and deleting documents

A document type that names the operations for its roles can be created, read, updated and deleted
through any client. What a server answers is merged into the instance at hand; an instance stays as
it is when anything fails. Creating what exists already reads it instead.
-/

namespace ApiModels

/-- An operation in some role. -/
structure OpSpec where
  verb : Verb
  /-- The path, with `{namespace}` and `{name}` where they go. -/
  path : String
  namespaced : Bool
deriving DecidableEq, Repr

/-- The operations of a document type. -/
structure CrudOps where
  create : OpSpec
  read : Option OpSpec
  update : Option (OpSpec × UpdateKind)
  delete : OpSpec
deriving DecidableEq, Repr

/-- A document type: how its instances are read and written, and how they are addressed. -/
structure DocumentType (α : Type) where
  kind : String
  name : α → Option String
  ns : α → Option String
  encode : α → Except EncodeError Json
  reader : Json.Reader α
  ops : CrudOps

/-- Why an operation on a document failed. -/
inductive CrudError where
  | client (e : ClientError)
  | namespaceMismatch (explicit metadata : String)
  | missingNamespace (kind : String)
  | missingName (kind : String)
  | unsupported (kind role : String)
  | decode (e : DecodeError)
  /-- The change was refused before anything was sent. -/
  | aborted (reason : String)
deriving DecidableEq, Repr

/-- The error in words. -/
def CrudError.text : CrudError → String
  | client e => e.text
  | namespaceMismatch explicit metadata =>
    "namespace argument " ++ Text.quoted explicit ++ " contradicts metadata namespace "
      ++ Text.quoted metadata
  | missingNamespace kind => kind ++ " is namespaced but no namespace was given"
  | missingName kind => kind ++ " has no metadata.name"
  | unsupported kind role => kind ++ " has no " ++ role ++ " operation"
  | decode e => e.text
  | aborted reason => "modification aborted: " ++ reason

/-- What a server answers to a deletion. -/
inductive DeleteAnswer where
  | status (v : Json)
  | resource (v : Json)
  | empty
deriving Repr

/-- The answer that a body is. -/
def DeleteAnswer.ofJson : Json → DeleteAnswer
  | .null => .empty
  | v => if (v.field? "kind").bind Json.text? = some "Status" then .status v else .resource v

/-- The document that a deletion gave back, if it gave one. -/
def DeleteAnswer.returned? (reader : Json.Reader α) : DeleteAnswer → Option (Except DecodeError α)
  | .resource v => some ((Json.decode reader v).mapError fun _ => .json)
  | _ => none

namespace Crud

/-- The namespace that an operation goes to. An explicit one must agree with the one in the
metadata; an operation without namespaces goes to none. -/
def resolveNamespace (kind : String) (namespaced : Bool) (explicit metadata : Option String) :
    Except CrudError (Option String) :=
  match explicit, metadata with
  | some e, some m =>
    if e ≠ m then .error (.namespaceMismatch e m) else .ok (if namespaced then some e else none)
  | explicit, metadata =>
    if namespaced then
      match explicit.or metadata with
      | some ns => .ok (some ns)
      | none => .error (.missingNamespace kind)
    else .ok none

/-- The call of an operation. -/
def callFor (op : OpSpec) (ns name : Option String) : Call :=
  let call := Call.new op.verb op.path
  let call := match ns with
    | some ns => call.pathParam "namespace" ns
    | none => call
  match name with
  | some name => call.pathParam "name" name
  | none => call

variable {m : Type → Type} [Monad m] {α : Type} (t : DocumentType α) (client : Client m)

/-- A computation that may fail and has an instance at hand. Failing leaves the instance at what it
was then. -/
abbrev Editing (m : Type → Type) (α : Type) := ExceptT CrudError (StateT α m)

/-- The outcome of a computation, and the instance it leaves. -/
def edited (e : Editing m α Unit) (x : α) : m (Except CrudError Unit × α) := e.run.run x

/-- The operation of a role that need not exist. -/
def supported (role : String) (op : Option β) : Except CrudError β :=
  match op with
  | some op => .ok op
  | none => .error (.unsupported t.kind role)

/-- The name of an instance, which it is addressed by. -/
def nameOf (x : α) : Except CrudError String :=
  match t.name x with
  | some name => .ok name
  | none => .error (.missingName t.kind)

/-- An instance with an answer merged into it; what the answer says wins. -/
def merged (x : α) (answer : Json) : Except CrudError α :=
  match answer with
  | .null => .ok x
  | answer =>
    match t.encode x with
    | .error e => .error (.client (.encode e))
    | .ok current =>
      (Json.decode t.reader (Json.merge current answer)).mapError fun _ => .decode .json

/-- Merges an answer into the instance. -/
def absorb (answer : Json) : Editing m α Unit := do set (← merged t (← get) answer)

/-- Sends a call. -/
def ask (call : Call) : m (Except ClientError Response) := call.send client

/-- The instance that a response holds. -/
def parsed (result : Except ClientError Response) : Except CrudError α :=
  match result with
  | .ok response => (response.parse t.reader).mapError .decode
  | .error e => .error (.client e)

/-- The value of a response. -/
def valueOf (result : Except ClientError Response) : Except CrudError Json :=
  match result with
  | .ok response => response.value.mapError .decode
  | .error e => .error (.client e)

/-- Reads the current state of the instance and merges it. -/
def readInto (explicit : Option String) : Editing m α Unit := do
  let x ← get
  let op ← supported t "read" t.ops.read
  let name ← nameOf t x
  let ns ← resolveNamespace t.kind op.namespaced explicit (t.ns x)
  let result ← ask (m := m) client (callFor op ns (some name))
  absorb t (← valueOf result)

/-- Creates the instance and merges what was stored. If it exists already, its current state is read
and merged instead. -/
def create : Editing m α Unit := do
  let x ← get
  let op := t.ops.create
  let ns ← resolveNamespace t.kind op.namespaced none (t.ns x)
  let result ← ask (m := m) client ((callFor op ns none).jsonBody (t.encode x))
  match result with
  | .ok _ => absorb t (← valueOf result)
  | .error e =>
    if e.isConflict then
      if t.ops.read.isSome then readInto t client none
    else throw (.client e)

/-- Sends the instance as an update and merges what was stored. -/
def update : Editing m α Unit := do
  let x ← get
  let (op, _) ← supported t "update" t.ops.update
  let name ← nameOf t x
  let ns ← resolveNamespace t.kind op.namespaced none (t.ns x)
  let result ← ask (m := m) client ((callFor op ns (some name)).jsonBody (t.encode x))
  absorb t (← valueOf result)

/-- Reads an instance by its name. -/
def read (name : String) (explicit : Option String) : ExceptT CrudError m α := do
  let op ← supported t "read" t.ops.read
  let ns ← resolveNamespace t.kind op.namespaced explicit none
  let result ← ask (m := m) client (callFor op ns (some name))
  parsed t result

/-- Deletes an instance by its name. The instance itself is left alone. -/
def delete (x : α) (explicit : Option String) : ExceptT CrudError m DeleteAnswer := do
  let op := t.ops.delete
  let name ← nameOf t x
  let ns ← resolveNamespace t.kind op.namespaced explicit (t.ns x)
  let result ← ask (m := m) client (callFor op ns (some name))
  return DeleteAnswer.ofJson (← valueOf result)

/-- Reads an instance, changes it and sends the update. If the change is refused, nothing is
sent. -/
def modify (name : String) (explicit : Option String) (change : α → Except String α) :
    ExceptT CrudError m α := do
  let x ← read t client name explicit
  let x ← (change x).mapError CrudError.aborted
  let (result, x) ← edited (m := m) (update t client) x
  let _ ← result
  return x

end Crud

end ApiModels
