import ApiModels.Proofs.BoundOrReported
import ApiModels.Proofs.NameEntries
import ApiModels.Proofs.NothingDangles

/-!
# Numbers stay in their model

Types and operations are looked up by number without a check. Every number that a stage has in hand
comes from the lists of versions, from a reference, from a search, or from an earlier stage. All of
these give numbers of the model, so no look-up goes past its end.
-/

namespace ApiModels

namespace ReleaseModel

variable {m : ReleaseModel} {id : TypeId} {op : OperationId}

theorem lt_of_findKey? {key : String} (h : m.findKey? key = some id) : id < m.types.size :=
  mem_typeIds.mp (List.mem_of_find?_eq_some h)

theorem lt_of_findOperation? {operationId : String} (h : m.findOperation? operationId = some op) :
    op < m.operations.size :=
  mem_operationIds.mp (List.mem_of_find?_eq_some h)

end ReleaseModel

namespace Build

open ApiModels.Order ReleaseModel

/-- Every number that the stages of a build have in hand is one of its model. -/
structure InRange (b : Build) : Prop where
  /-- Types listed for versions. -/
  types : ∀ version, ∀ id ∈ b.model.typesOf version, id < b.model.types.size
  /-- Operations listed for versions. -/
  operations : ∀ version, ∀ op ∈ b.model.operationsOf version, op < b.model.operations.size
  /-- What the properties of types refer to. -/
  references : ∀ id, ∀ r ∈ (b.model.type id).references, r < b.model.types.size
  /-- What the parameters and the response of operations refer to. -/
  mentions : ∀ op, ∀ r ∈ (b.model.operation op).references, r < b.model.types.size
  byKey : ∀ key id, b.model.findKey? key = some id → id < b.model.types.size
  byName : ∀ version name, ∀ id ∈ b.model.find version name, id < b.model.types.size
  byOperationId : ∀ operationId op, b.model.findOperation? operationId = some op →
    op < b.model.operations.size
  /-- Types that share a name. -/
  entries : ∀ e ∈ b.names.entries, ∀ id ∈ e.primary :: e.aliases.map Prod.fst,
    id < b.model.types.size
  excluded : ∀ id ∈ b.order.excluded, id < b.model.types.size
  items : ∀ v ∈ b.order.versions, ∀ e ∈ v.items, e.id < b.model.types.size
  splits : ∀ s ∈ b.order.splits, s.target < b.model.types.size ∧ s.partner < b.model.types.size
  bound : ∀ mb ∈ b.bindings.bound,
    mb.operation < b.model.operations.size ∧ mb.target < b.model.types.size
  unbound : ∀ op ∈ b.bindings.unbound, op < b.model.operations.size
  /-- Documents with a plan, and the operations in it. -/
  plans : ∀ plan ∈ b.plans, plan.target < b.model.types.size
    ∧ ∀ op ∈ operationsOf plan, op < b.model.operations.size

section

variable {b : Build} {plan : CrudPlan}

/-- Both types of a split are on a cycle, which has types of the model only. -/
theorem lt_of_mem_splits {m : ReleaseModel} {names : Names} {s : Split} (hm : m.Closed)
    (hs : s ∈ (ofModel m names).1.splits) : s.target < m.types.size ∧ s.partner < m.types.size := by
  obtain ⟨target, partner, hcycle, -, -, rfl⟩ := mem_splitsFor hs
  obtain ⟨-, -, hall⟩ := cycle_eq_component hm (List.mem_filter.mp hcycle).1
  have htarget : target ∈ [target, partner] := List.mem_cons_self
  have hpartner : partner ∈ [target, partner] := List.mem_cons_of_mem _ List.mem_cons_self
  exact ⟨(hall target htarget).1, (hall partner hpartner).1⟩

/-- The operations of a plan are bound. -/
theorem lt_of_mem_operationsOf
    (hbound : ∀ mb ∈ b.bindings.bound, mb.operation < b.model.operations.size) {id : TypeId}
    (hplan : CrudPlan.for? b.model b.order b.bindings id = some plan) {op : OperationId}
    (hop : op ∈ operationsOf plan) : op < b.model.operations.size := by
  obtain ⟨-, -, hroles⟩ := for?_eq_some hplan
  obtain ⟨role, hrole⟩ := hroles op hop
  obtain ⟨mb, hmb, rfl, -⟩ := inRole?_eq_some hrole
  exact hbound mb hmb

end

theorem order_eq (config : ReleaseConfig) (doc : Swagger.Document) : (ofDocument config doc).order
    = (ofModel (ofDocument config doc).model (ofDocument config doc).names).1 := by
  simp only [ofDocument]

/-- **No number leads out of the model of a build.** -/
theorem ofDocument_inRange (config : ReleaseConfig) (doc : Swagger.Document) :
    (ofDocument config doc).InRange := by
  let b := ofDocument config doc
  have hclosed : b.model.Closed := Ingest.closed
  have hsorted : Sorted b.model b.order := ofDocument_sorted config doc
  have hmentions : OperationsClosed b.model := fun op r hr => Ingest.operation_references hr
  have hdivided := ofDocument_divided config doc
  have hoperation : ∀ mb ∈ b.bindings.bound, mb.operation < b.model.operations.size := by
    intro mb hmb
    have hmem : mb.operation ∈ b.bindings.unbound ++ b.bindings.bound.map (·.operation) :=
      List.mem_append_right _ (List.mem_map.mpr ⟨mb, hmb, rfl⟩)
    exact List.mem_range.mp (hdivided.operations.mem_iff.mp hmem)
  exact {
    types := fun version id hid => (mem_typesOf.mp hid).1
    operations := fun version op hop => (mem_operationsOf.mp hop).1
    references := hclosed
    mentions := hmentions
    byKey := fun key id hid => lt_of_findKey? hid
    byName := fun version name id hid => (mem_find.mp hid).1
    byOperationId := fun operationId op hop => lt_of_findOperation? hop
    entries := by
      intro e he id hid
      have hfound : id ∈ b.model.find e.version e.name := (Names.types_perm he).mem_iff.mp hid
      exact (mem_find.mp hfound).1
    excluded := fun id hid => ((hsorted.excluded id).mp hid).1
    items := by
      intro v hv e he
      exact (mem_kept.mp ((hsorted.ordered v hv).mem e |>.mp he).1).1
    splits := by
      intro s hs
      rw [order_eq] at hs
      exact lt_of_mem_splits hclosed hs
    bound := by
      intro mb hmb
      have hemitted := emitted_of_mem_bound hsorted hmentions (ofDocument_bound config doc) hmb
      exact ⟨hoperation mb hmb, ((emitted_iff hsorted).mp hemitted).1⟩
    unbound := by
      intro op hop
      exact List.mem_range.mp (hdivided.operations.mem_iff.mp (List.mem_append_left _ hop))
    plans := by
      intro plan hplan
      obtain ⟨id, hid, hfor⟩ := List.mem_filterMap.mp hplan
      obtain ⟨rfl, -, -⟩ := for?_eq_some (b := b) hfor
      exact ⟨mem_typeIds.mp hid, fun op hop => lt_of_mem_operationsOf hoperation hfor hop⟩ }

end Build

end ApiModels
