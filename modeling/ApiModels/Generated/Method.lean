import ApiModels.Generated.Types
import ApiModels.Text.FirstFree

/-!
# Methods

A bound operation becomes a function that describes its call. The path parameters come first, then
the body unless the receiver is the body, then required and optional query parameters. A document
with a plan states the operations of its roles.
-/

namespace ApiModels.Generated

open Source (Ident)

/-- Gives each parameter an identifier made of its name, after which that name is taken. -/
def assignArgs : (taken : List String) → List String → List Ident
  | _, [] => []
  | taken, wire :: wires =>
    let snake := Text.snakeCase wire
    let base := if snake.isEmpty then "arg" else snake
    let name := Text.firstFree taken.contains (Text.numbered base) taken.length
    .ofName name :: assignArgs (name :: taken) wires

/-- The expression of a verb. -/
def verbExpr (v : Verb) : Expr := .plain ["keel_model", "Verb", v.title]

/-- A parameter of a generated function: its name on the wire, its type, and the step of the call it
is passed to. -/
structure Arg where
  wire : String
  type : Ty
  step : Ident → Ident × List Expr

/-- A step of a call that passes a value under its name on the wire. -/
def namedStep (step wire : String) (value : Expr → Expr) (ident : Ident) : Ident × List Expr :=
  (⟨step, false⟩, [.text wire, value (.path [ident])])

/-- The parameter for a value in the path. -/
def pathArg (b : Build) (p : ApiModels.Param) : Arg :=
  ⟨p.name, scalarArg b p.type, namedStep "path_param" p.name id⟩

/-- A step that passes the body. -/
def bodyStep (step : String) (ident : Ident) : Ident × List Expr :=
  (⟨step, false⟩, [.path [ident]])

/-- The parameter for the body. -/
def bodyArg (b : Build) (version : String) (p : ApiModels.Param) : Arg :=
  let inner := refType b version none p.type
  match p.container with
  | .plain => ⟨p.name, refTo inner, bodyStep "json_body"⟩
  | .optional => ⟨p.name, applied ["Option"] [refTo inner], bodyStep "maybe_json_body"⟩
  | .list => ⟨p.name, refTo (.slice inner), bodyStep "json_body"⟩
  | .map => ⟨p.name, refTo (mapOf inner), bodyStep "json_body"⟩

/-- The parameter for a value in the query. -/
def queryArg (b : Build) (p : ApiModels.Param) : Arg :=
  let scalar := scalarArg b p.type
  match p.container with
  | .list | .map => ⟨p.name, refTo (.slice scalar), namedStep "query_all" p.name id⟩
  | .plain | .optional =>
    if p.required then
      ⟨p.name, scalar, namedStep "query" p.name fun e => .call (.plain ["Some"]) [e]⟩
    else ⟨p.name, applied ["Option"] [scalar], namedStep "query" p.name id⟩

/-- Parameters of an operation that are sent in a place. -/
def paramsIn (op : Operation) (place : ParamLocation) : List ApiModels.Param :=
  op.params.filter fun p => p.location = place

/-- Parameters in the path. -/
def pathArgs (b : Build) (op : Operation) : List Arg := (paramsIn op .path).map (pathArg b)

/-- The body as a parameter, for functions without a receiver. -/
def bodyArgs (b : Build) (version : String) (op : Operation) : BindingKind → List Arg
  | .instanceMethod => []
  | .staticMethod => (op.body?.map (bodyArg b version)).toList

/-- Parameters in the query, required ones first. -/
def queryArgs (b : Build) (op : Operation) : List Arg :=
  let ps := paramsIn op .query
  ((ps.filter fun p => p.required) ++ ps.filter fun p => !p.required).map (queryArg b)

/-- The type that the response of an operation is read as. -/
def responseType (b : Build) (version : String) (op : Operation) : Ty :=
  match op.response with
  | some (.named id, .list) => contained (typePath b version none id) .list
  | some (.named id, .map) => contained (typePath b version none id) .map
  | some (.named id, _) => typePath b version none id
  | _ => primitiveType .json

/-- Documentation of a method: the description, then verb and path. -/
def methodDocs (op : Operation) : List Attribute :=
  let line : Attribute := .doc (" \x60" ++ op.verb.text ++ " " ++ op.path ++ "\x60")
  match op.description with
  | some d => docLines (some d) ++ [.doc "", line]
  | none => [line]

/-- The function of a bound operation. -/
def methodOf (b : Build) (version : String) (m : MethodBinding) : Function :=
  let op := b.model.operation m.operation
  let before := pathArgs b op
  let after := bodyArgs b version op m.kind ++ queryArgs b op
  let args := before ++ after
  let idents := assignArgs ["self"] (args.map Arg.wire)
  let named := args.zip idents
  let given := named.map fun a => a.1.step a.2
  let receiver : List (Ident × List Expr) := match m.kind with
    | .instanceMethod => [bodyStep "json_body" ⟨"self", false⟩]
    | .staticMethod => []
  let steps := given.take before.length ++ receiver ++ given.drop before.length
  let start : Expr :=
    .call (.plain ["keel_model", "ApiCall", "new"]) [verbExpr op.verb, .text op.path]
  { attributes := methodDocs op,
    visibility := .everywhere,
    name := .ofName m.methodName,
    params :=
      (match m.kind with
        | .instanceMethod => [.receiver false]
        | .staticMethod => [])
      ++ named.map fun a => .typed a.2 a.1.type,
    result := some (applied ["keel_model", "ApiCall"] [responseType b version op]),
    body := { result := some (steps.foldl (fun e s => .method e s.1 s.2) start) } }

/-- The methods of a class. -/
def methodItems (b : Build) (version : String) (id : TypeId) : List Item :=
  match b.bindings.methods id with
  | [] => []
  | ms =>
    [.implementation none (.named [typeIdent b id] [])
      (ms.map fun m => .function (methodOf b version m))]

/-- A field of a record expression. -/
def recordField (name : String) (value : Expr) : Ident × Expr := (⟨name, false⟩, value)

/-- What the runtime needs to know of an operation. -/
def operationExpr (b : Build) (id : OperationId) : Expr :=
  let op := b.model.operation id
  .record (Path.of ["keel_model", "OpSpec"])
    [ recordField "verb" (verbExpr op.verb),
      recordField "path" (.text op.path),
      recordField "namespaced" (.plain [if op.namespaced then "true" else "false"]) ]

/-- The expression of an update kind. -/
def updateKindExpr : UpdateKind → Expr
  | .mergePatch => .plain ["keel_model", "UpdateKind", "MergePatch"]
  | .replace => .plain ["keel_model", "UpdateKind", "Replace"]

/-- An optional value. -/
def optionExpr : Option Expr → Expr
  | some e => .call (.plain ["Some"]) [e]
  | none => .plain ["None"]

/-- The operations of the roles of a document. -/
def crudItems (b : Build) (id : TypeId) : List Item :=
  match b.plan? id with
  | none => []
  | some plan =>
    let update := plan.update.map fun u =>
      Expr.record (Path.of ["keel_model", "UpdateOp"])
        [recordField "op" (operationExpr b u.1), recordField "kind" (updateKindExpr u.2)]
    [.implementation (some (Path.of ["keel_model", "Crud"])) (.named [typeIdent b id] [])
      [.constant ⟨"OPS", false⟩ (.plain ["keel_model", "CrudOps"])
        (.record (Path.of ["keel_model", "CrudOps"])
          [ recordField "create" (operationExpr b plan.create),
            recordField "read" (optionExpr (plan.read.map (operationExpr b))),
            recordField "update" (optionExpr update),
            recordField "delete" (operationExpr b plan.delete) ])]]

end ApiModels.Generated
