import ApiModels.Crud
import ApiModels.Generated.Module
import ApiModels.Proofs.Plans

/-!
# The operations of generated documents

A plan names operations of the model, and the runtime is told of operations by a constant of the
generated code. What the constant says is read back here, and is what the model knows of the
operations of the plan: their verbs, their paths and whether these have a namespace.
-/

namespace ApiModels

/-- What the runtime is told of an operation. -/
def Operation.spec (op : Operation) : OpSpec := ⟨op.verb, op.path, op.namespaced⟩

/-- A document type with other operations. -/
def DocumentType.withOps {α : Type} (t : DocumentType α) (ops : CrudOps) : DocumentType α :=
  { t with ops }

namespace CrudPlan

/-- The operations of a plan, as the runtime is told of them. -/
def ops (m : ReleaseModel) (plan : CrudPlan) : CrudOps :=
  { create := (m.operation plan.create).spec,
    read := plan.read.map fun id => (m.operation id).spec,
    update := plan.update.map fun u => ((m.operation u.1).spec, u.2),
    delete := (m.operation plan.delete).spec }

end CrudPlan

namespace Generated

open ApiModels.Order ReleaseModel Build
open Source (Ident)

variable {b : Build} {version : String} {id : TypeId} {plan : CrudPlan}

/-! ## Reading expressions -/

namespace Expr

/-- The value that a record expression gives a field. -/
def field? (name : String) : Expr → Option Expr
  | .record _ fields => fields.lookup ⟨name, false⟩
  | _ => none

/-- The name that an expression is, if it is one of some names. -/
def named? (names : List (List String × α)) : Expr → Option α
  | .path p => (names.find? fun n => Path.of n.1 = p).map Prod.snd
  | _ => none

/-- The text that an expression is. -/
def text? : Expr → Option String
  | .text s => some s
  | _ => none

/-- The truth value that an expression is. -/
def truth? : Expr → Option Bool := named? [(["true"], true), (["false"], false)]

/-- The verb that an expression is. -/
def verb? : Expr → Option Verb :=
  named? (Verb.all.map fun v => (["keel_model", "Verb", v.title], v))

/-- The update kind that an expression is. -/
def updateKind? : Expr → Option UpdateKind :=
  named?
    [(["keel_model", "UpdateKind", "MergePatch"], .mergePatch),
      (["keel_model", "UpdateKind", "Replace"], .replace)]

/-- The optional value that an expression is. -/
def option? (value? : Expr → Option α) : Expr → Option (Option α)
  | .call (.path p) [e] => if p = Path.of ["Some"] then (value? e).map some else none
  | e => named? [(["None"], none)] e

/-- The operation that an expression describes. -/
def spec? (e : Expr) : Option OpSpec := do
  let verb ← (← e.field? "verb").verb?
  let path ← (← e.field? "path").text?
  let namespaced ← (← e.field? "namespaced").truth?
  return { verb, path, namespaced }

/-- The update that an expression describes. -/
def update? (e : Expr) : Option (OpSpec × UpdateKind) := do
  let op ← (← e.field? "op").spec?
  let kind ← (← e.field? "kind").updateKind?
  return (op, kind)

/-- The operations of a document that an expression describes. -/
def ops? (e : Expr) : Option CrudOps := do
  let create ← (← e.field? "create").spec?
  let read ← (← e.field? "read").option? spec?
  let update ← (← e.field? "update").option? update?
  let delete ← (← e.field? "delete").spec?
  return { create, read, update, delete }

end Expr

theorem verb?_verbExpr (v : Verb) : (verbExpr v).verb? = some v := by
  cases v <;> decide

theorem updateKind?_updateKindExpr (kind : UpdateKind) :
    (updateKindExpr kind).updateKind? = some kind := by
  cases kind <;> decide

theorem truth?_plain (truth : Bool) :
    (Expr.plain [if truth then "true" else "false"]).truth? = some truth := by
  cases truth <;> decide

theorem option?_optionExpr {value? : Expr → Option α} {expr : β → Expr} {meaning : β → α}
    (h : ∀ x, value? (expr x) = some (meaning x)) (o : Option β) :
    (optionExpr (o.map expr)).option? value? = some (o.map meaning) := by
  cases o with
  | none => rfl
  | some x =>
    simp only [Option.map_some, optionExpr, Expr.plain, Expr.option?, if_true, h]

theorem spec?_operationExpr (op : OperationId) :
    (operationExpr b op).spec? = some (b.model.operation op).spec := by
  have hrecord : (operationExpr b op).spec? = do
      let verb ← (verbExpr (b.model.operation op).verb).verb?
      let path ← (Expr.text (b.model.operation op).path).text?
      let namespaced ←
        (Expr.plain [if (b.model.operation op).namespaced then "true" else "false"]).truth?
      return { verb, path, namespaced } := rfl
  rw [hrecord, verb?_verbExpr, truth?_plain]
  rfl

theorem update?_record (u : OperationId × UpdateKind) :
    (Expr.record (Path.of ["keel_model", "UpdateOp"])
        [recordField "op" (operationExpr b u.1), recordField "kind" (updateKindExpr u.2)]).update?
      = some ((b.model.operation u.1).spec, u.2) := by
  have hrecord (op kind : Expr) : (Expr.record (Path.of ["keel_model", "UpdateOp"])
      [recordField "op" op, recordField "kind" kind]).update? = do
        let op ← op.spec?
        let kind ← kind.updateKind?
        return (op, kind) := rfl
  rw [hrecord, spec?_operationExpr, updateKind?_updateKindExpr]
  rfl

theorem ops?_record (plan : CrudPlan) :
    (Expr.record (Path.of ["keel_model", "CrudOps"])
        [ recordField "create" (operationExpr b plan.create),
          recordField "read" (optionExpr (plan.read.map (operationExpr b))),
          recordField "update" (optionExpr (plan.update.map fun u =>
            Expr.record (Path.of ["keel_model", "UpdateOp"])
              [ recordField "op" (operationExpr b u.1),
                recordField "kind" (updateKindExpr u.2) ])),
          recordField "delete" (operationExpr b plan.delete) ]).ops?
      = some (plan.ops b.model) := by
  have hrecord (create read update delete : Expr) :
      (Expr.record (Path.of ["keel_model", "CrudOps"])
        [ recordField "create" create, recordField "read" read, recordField "update" update,
          recordField "delete" delete ]).ops? = do
        let create ← create.spec?
        let read ← read.option? Expr.spec?
        let update ← update.option? Expr.update?
        let delete ← delete.spec?
        return { create, read, update, delete } := rfl
  rw [hrecord, spec?_operationExpr, spec?_operationExpr,
    option?_optionExpr spec?_operationExpr, option?_optionExpr update?_record]
  rfl

/-! ## The constant of a document -/

/-- The values that some items give the operations of the class of an identifier. -/
def opsConstants (name : Ident) (items : List Item) : List Expr :=
  items.flatMap fun
    | .implementation (some ofTrait) (.named [target] []) members =>
      if ofTrait = Path.of ["keel_model", "Crud"] ∧ target = name then
        members.filterMap fun
          | .constant ident _ value => if ident = ⟨"OPS", false⟩ then some value else none
          | _ => none
      else []
    | _ => []

theorem mem_opsConstants (name : Ident) (type : Ty) (value : Expr) :
    value ∈ opsConstants name
      [.implementation (some (Path.of ["keel_model", "Crud"])) (.named [name] [])
        [.constant ⟨"OPS", false⟩ type value]] := by
  simp [opsConstants]

/-- A document with a plan is told of the operations of the plan. -/
theorem exists_mem_opsConstants_crudItems (h : b.plan? id = some plan) :
    ∃ e ∈ opsConstants (typeIdent b id) (crudItems b id), e.ops? = some (plan.ops b.model) := by
  unfold crudItems
  rw [h]
  exact ⟨_, mem_opsConstants _ _ _, ops?_record plan⟩

theorem opsConstants_subset {name : Ident} {items more : List Item} (h : items ⊆ more) :
    opsConstants name items ⊆ opsConstants name more := by
  intro e he
  obtain ⟨item, hitem, he⟩ := List.mem_flatMap.mp he
  exact List.mem_flatMap.mpr ⟨item, h hitem, he⟩

/-- An emitted struct comes with the operations of its plan. -/
theorem crudItems_subset_itemsOf {e : Emit} (hitem : IsItem b.order.splits e)
    (hbase : e.isBase = false) (hkind : (b.model.type e.id).kind = .object) :
    crudItems b e.id ⊆ itemsOf b version e := by
  intro item hmem
  unfold itemsOf
  dsimp only
  rw [hkind]
  dsimp only
  cases e with
  | base id => cases hbase
  | plain id => exact List.mem_cons_of_mem _ (List.mem_append_right _ hmem)
  | derived id =>
    obtain ⟨s, hs⟩ := Option.isSome_iff_exists.mp hitem
    rw [show b.order.split? (Emit.derived id).id = some s from hs]
    exact List.mem_append_right _ (List.mem_append_right _ hmem)

section

variable (config : ReleaseConfig) (doc : Swagger.Document)
  (h : plan ∈ (ofDocument config doc).plans)

include h

/-- Every plan is the one made for its document. -/
theorem for?_target : plan.target < (ofDocument config doc).model.types.size
    ∧ CrudPlan.for? (ofDocument config doc).model (ofDocument config doc).order
        (ofDocument config doc).bindings plan.target = some plan := by
  obtain ⟨id, hid, hfor⟩ := List.mem_filterMap.mp h
  obtain ⟨rfl, -, -⟩ := for?_eq_some (b := ofDocument config doc) hfor
  exact ⟨mem_typeIds.mp hid, hfor⟩

theorem plan?_target : (ofDocument config doc).plan? plan.target = some plan := by
  obtain ⟨hlt, hfor⟩ := for?_target config doc h
  have hplans := filter_synthesize (ofDocument config doc).order (ofDocument config doc).bindings hlt
  rw [hfor] at hplans
  unfold Build.plan?
  rw [← List.head?_filter]
  exact congrArg List.head? hplans

/-- **The generated code tells the runtime of the operations of every plan.** -/
theorem exists_mem_opsConstants :
    let b := ofDocument config doc
    ∃ e ∈ opsConstants (typeIdent b plan.target)
        (versionModule b (b.model.type plan.target).version).items,
      e.ops? = some (plan.ops b.model) := by
  intro b
  have hb : Sorted b.model b.order := ofDocument_sorted config doc
  obtain ⟨hlt, hfor⟩ := for?_target config doc h
  have hkind := Ingest.kind_of_isDocument (madeFor_of_for? hfor).document
  obtain ⟨e, he, hops⟩ := exists_mem_opsConstants_crudItems (plan?_target config doc h)
  have hemitted : b.Emitted plan.target := (emitted_iff hb).mpr ⟨hlt, (for?_eq_some hfor).2.1⟩
  obtain ⟨item, hitem, hid, hbase⟩ : ∃ item ∈ b.items (b.model.type plan.target).version,
      item.id = plan.target ∧ item.isBase = false :=
    hemitted.elim (fun h => ⟨_, h, rfl, rfl⟩) fun h => ⟨_, h, rfl, rfl⟩
  refine ⟨e, opsConstants_subset (fun i hi => ?_) he, hops⟩
  refine List.mem_append_right _ (List.mem_flatMap.mpr ⟨item, hitem, ?_⟩)
  rw [← hid] at hi hkind
  exact crudItems_subset_itemsOf ((mem_items hb).mp hitem).2 hbase hkind hi

end

end Generated

end ApiModels
