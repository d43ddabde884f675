import ApiModels.Proofs.BoundOperations
import ApiModels.Proofs.Emitted

/-!
# Nothing dangles

Types are left out while versions are ordered; properties, operations, plans and lists come later
and name types all the same. Every type they name is emitted, because each of these stages looks at
what is left out before it names anything.
-/

namespace ApiModels.Build

open ApiModels.Order ReleaseModel

variable {b : Build} {version name : String} {id : TypeId} {op : OperationId} {mb : MethodBinding}
  {plan : CrudPlan} {role : Role}

/-! ## Operations -/

/-- What holds of the bindings of a build. -/
theorem ofDocument_bound (config : ReleaseConfig) (doc : Swagger.Document) :
    Binding.Bound (ofDocument config doc).model (ofDocument config doc).names
      (ofDocument config doc).order
      ((ofDocument config doc).model.versions.flatMap (ofDocument config doc).model.operationsOf)
      (ofDocument config doc).bindings :=
  Binding.bindRelease_bound _ _ _

/-- What the operations of a model refer to is in the model. -/
def OperationsClosed (m : ReleaseModel) : Prop :=
  ∀ op, ∀ r ∈ (m.operation op).references, r < m.types.size

section

variable {done : List OperationId} (hb : Sorted b.model b.order)
  (ho : OperationsClosed b.model) (hbound : Binding.Bound b.model b.names b.order done b.bindings)

include hb ho hbound

/-- Everything a bound operation mentions is emitted. -/
theorem emitted_of_mem_references (hmb : mb ∈ b.bindings.bound) (r : TypeId)
    (hr : r ∈ (b.model.operation mb.operation).references) : b.Emitted r := by
  obtain ⟨-, hkept, -⟩ := Binding.classOf_eq_ok (hbound.classes mb hmb)
  exact (emitted_iff hb).mpr ⟨ho _ r hr, hkept r hr⟩

/-- The class of a bound operation is emitted. -/
theorem emitted_of_mem_bound (hmb : mb ∈ b.bindings.bound) : b.Emitted mb.target := by
  obtain ⟨-, -, hclass⟩ := Binding.classOf_eq_ok (hbound.classes mb hmb)
  obtain ⟨hknown | ⟨name, hfound⟩, hex⟩ := Binding.classify?_eq_some hclass
  · exact (emitted_iff hb).mpr ⟨ho _ _ hknown, hex⟩
  · exact (emitted_iff hb).mpr ⟨(mem_find.mp hfound).1, hex⟩

/-- **A class that can be watched is one with a bound operation that can watch**, in its version and
of its scope; and it is emitted. -/
theorem mem_watchables {namespaced : Bool} : name ∈ b.watchables version namespaced ↔
    ∃ mb ∈ b.bindings.bound, b.Emitted mb.target ∧ (b.model.type mb.target).version = version
      ∧ (b.model.operation mb.operation).watchCapable = true
      ∧ (b.model.operation mb.operation).namespaced = namespaced
      ∧ b.names.name mb.target = name := by
  unfold watchables
  rw [mem_sortedTexts, List.mem_filterMap]
  constructor
  · rintro ⟨⟨id, methods⟩, hclass, hsome⟩
    obtain ⟨id', -, heq⟩ := List.mem_map.mp (List.mem_filter.mp hclass).1
    obtain ⟨rfl, rfl⟩ := Prod.mk.inj heq
    dsimp only at hsome
    split at hsome
    · rename_i hcond
      rw [Bool.and_eq_true, beq_iff_eq, List.any_eq_true] at hcond
      obtain ⟨hv, mb, hmethod, hwatch⟩ := hcond
      obtain ⟨hmb, htarget⟩ := List.mem_filter.mp hmethod
      rw [decide_eq_true_iff] at htarget
      rw [Bool.and_eq_true, beq_iff_eq] at hwatch
      rw [← htarget] at hv hsome
      exact ⟨mb, hmb, emitted_of_mem_bound hb ho hbound hmb, hv, hwatch.1, hwatch.2,
        Option.some.inj hsome⟩
    · simp at hsome
  · rintro ⟨mb, hmb, hemitted, hv, hwatch, hscope, hname⟩
    -- the class has a method, so it is listed
    have hmethod : mb ∈ b.bindings.methods mb.target :=
      List.mem_filter.mpr ⟨hmb, by simp⟩
    refine ⟨(mb.target, b.bindings.methods mb.target), List.mem_filter.mpr ⟨?_, ?_⟩, ?_⟩
    · exact List.mem_map.mpr ⟨mb.target, mem_typeIds.mpr ((emitted_iff hb).mp hemitted).1, rfl⟩
    · rw [Bool.not_eq_true', List.isEmpty_eq_false_iff]
      exact List.ne_nil_of_mem hmethod
    · dsimp only
      have hany : (b.bindings.methods mb.target).any (fun m =>
          (b.model.operation m.operation).watchCapable
            && (b.model.operation m.operation).namespaced == namespaced) = true :=
        List.any_eq_true.mpr ⟨mb, hmethod, by rw [hwatch, hscope]; simp⟩
      rw [hany, hv, hname]
      simp

end

/-! ## Plans -/

/-- The operations of a plan. -/
def operationsOf (plan : CrudPlan) : List OperationId :=
  plan.create :: plan.read.toList ++ (plan.update.map Prod.fst).toList ++ [plan.delete]

theorem inRole?_eq_some (h : CrudPlan.inRole? b.model b.bindings id role = some op) :
    ∃ mb ∈ b.bindings.bound, mb.operation = op ∧ mb.target = id := by
  obtain ⟨mb, hfind, rfl⟩ := Option.map_eq_some_iff.mp h
  obtain ⟨hmb, htarget⟩ := List.mem_filter.mp (List.mem_of_find?_eq_some hfind)
  exact ⟨mb, hmb, rfl, by simpa using htarget⟩

/-- A plan is made for a document that is kept, of the operations found in its roles. A patch is
preferred to a replacement. -/
structure MadeFor (m : ReleaseModel) (order : Order) (bindings : Bindings) (id : TypeId)
    (plan : CrudPlan) : Prop where
  target : plan.target = id
  document : (m.type id).isDocument = true
  kept : id ∉ order.excluded
  create : CrudPlan.inRole? m bindings id .create = some plan.create
  delete : CrudPlan.inRole? m bindings id .delete = some plan.delete
  read : CrudPlan.inRole? m bindings id .read = plan.read
  patch (op : OperationId) : plan.update = some (op, .mergePatch)
    ↔ CrudPlan.inRole? m bindings id .patch = some op
  replace (op : OperationId) : plan.update = some (op, .replace)
    ↔ CrudPlan.inRole? m bindings id .replace = some op
      ∧ CrudPlan.inRole? m bindings id .patch = none

theorem madeFor_of_for? {m : ReleaseModel} {order : Order} {bindings : Bindings}
    (h : CrudPlan.for? m order bindings id = some plan) : MadeFor m order bindings id plan := by
  unfold CrudPlan.for? at h
  split at h
  · cases h
  · rename_i hcond
    rw [Bool.or_eq_true, not_or, Bool.not_eq_true, Bool.not_eq_true, Bool.not_eq_false'] at hcond
    dsimp only at h
    split at h
    · rename_i create delete hcreate hdelete
      obtain rfl := Option.some.inj h
      refine ⟨rfl, hcond.1, Binding.isExcluded_eq_false.mp hcond.2, hcreate, hdelete, rfl,
        fun op => ?_, fun op => ?_⟩
      · cases CrudPlan.inRole? m bindings id .patch <;> simp
      · cases CrudPlan.inRole? m bindings id .patch <;> simp
    · cases h

/-- The operations of a plan stand in roles of its document, which is kept. -/
theorem for?_eq_some (h : CrudPlan.for? b.model b.order b.bindings id = some plan) :
    plan.target = id ∧ id ∉ b.order.excluded
      ∧ ∀ op ∈ operationsOf plan, ∃ role,
          CrudPlan.inRole? b.model b.bindings id role = some op := by
  have hmade := madeFor_of_for? h
  refine ⟨hmade.target, hmade.kept, fun op hop => ?_⟩
  unfold operationsOf at hop
  simp only [List.mem_append, List.mem_cons, List.not_mem_nil, or_false, Option.mem_toList,
    Option.map_eq_some_iff] at hop
  rcases hop with ((rfl | hread) | ⟨⟨op, kind⟩, hupdate, rfl⟩) | rfl
  · exact ⟨_, hmade.create⟩
  · exact ⟨_, hmade.read.trans hread⟩
  · cases kind with
    | mergePatch => exact ⟨_, (hmade.patch op).mp hupdate⟩
    | replace => exact ⟨_, ((hmade.replace op).mp hupdate).1⟩
  · exact ⟨_, hmade.delete⟩

/-! ## Documents -/

theorem mem_documents (hb : Sorted b.model b.order) : id ∈ b.documents version
    ↔ id ∈ b.model.typesOf version ∧ (b.model.type id).isDocument = true
      ∧ id ∉ b.order.excluded := by
  unfold documents
  simp only [List.mem_map, List.mem_filter, Bool.and_eq_true, Bool.not_eq_true', mem_items hb,
    mem_kept, mem_typesOf]
  constructor
  · rintro ⟨e, ⟨⟨⟨hlt, hv, hex⟩, -⟩, -, hdoc⟩, rfl⟩
    exact ⟨⟨hlt, hv⟩, hdoc, hex⟩
  · rintro ⟨⟨hlt, hv⟩, hdoc, hex⟩
    rcases plain_or_derived b.order.splits id with hitem | hitem
    · exact ⟨.plain id, ⟨⟨⟨hlt, hv, hex⟩, hitem⟩, rfl, hdoc⟩, rfl⟩
    · exact ⟨.derived id, ⟨⟨⟨hlt, hv, hex⟩, hitem⟩, rfl, hdoc⟩, rfl⟩

/-- Two items of one type are the base and the derived item of a split, so a document that is listed
without bases is listed once. -/
theorem nodup_documents (hb : Sorted b.model b.order) : (b.documents version).Nodup := by
  unfold documents
  refine ((nodup_items hb).filter _).map_on fun e he f hf hid => ?_
  obtain ⟨he, hebase⟩ := List.mem_filter.mp he
  obtain ⟨hf, hfbase⟩ := List.mem_filter.mp hf
  have hie := ((mem_items hb).mp he).2
  have hif := ((mem_items hb).mp hf).2
  cases e with
  | base _ => simp [Emit.isBase] at hebase
  | plain x =>
      cases f with
      | base _ => simp [Emit.isBase] at hfbase
      | plain y => exact congrArg Emit.plain hid
      | derived y =>
          obtain rfl : x = y := hid
          exact absurd hif (not_plain_and_derived hie)
  | derived x =>
      cases f with
      | base _ => simp [Emit.isBase] at hfbase
      | derived y => exact congrArg Emit.derived hid
      | plain y =>
          obtain rfl : x = y := hid
          exact absurd hie (not_plain_and_derived hif)

/-! ## Builds -/

/--
**Whatever a build names is emitted.**

That holds of the types that properties of emitted types name, of the classes of bound operations
and of all that their parameters and responses mention, of the documents with plans and of the
classes that can be watched. The operations of a plan are bound to its document, and the documents of a
version are listed each once.
-/
theorem nothing_dangles (config : ReleaseConfig) (doc : Swagger.Document) :
    let b := ofDocument config doc
    (∀ id r, b.Emitted id → b.model.Refers id r → b.Emitted r)
      ∧ (∀ mb ∈ b.bindings.bound, b.Emitted mb.target
          ∧ ∀ r ∈ (b.model.operation mb.operation).references, b.Emitted r)
      ∧ (∀ plan ∈ b.plans, b.Emitted plan.target ∧ ∀ op ∈ operationsOf plan,
          ∃ mb, b.bindings.bindingOf? op = some mb ∧ mb.target = plan.target)
      ∧ (∀ version namespaced name, name ∈ b.watchables version namespaced ↔
          ∃ mb ∈ b.bindings.bound, b.Emitted mb.target
            ∧ (b.model.type mb.target).version = version
            ∧ (b.model.operation mb.operation).watchCapable = true
            ∧ (b.model.operation mb.operation).namespaced = namespaced
            ∧ b.names.name mb.target = name)
      ∧ ∀ version, (b.documents version).Nodup ∧ ∀ id, id ∈ b.documents version
          ↔ id ∈ b.model.typesOf version ∧ (b.model.type id).isDocument = true
            ∧ id ∉ b.order.excluded := by
  intro b
  have hb : Sorted b.model b.order := ofDocument_sorted config doc
  have ho : OperationsClosed b.model := fun op r hr => Ingest.operation_references hr
  have hbound := ofDocument_bound config doc
  have hplans : b.plans = CrudPlan.synthesize b.model b.order b.bindings := rfl
  refine ⟨fun id r hid hr => hid.of_refers hb hr, fun mb hmb => ?_, fun plan hplan => ?_,
    fun version namespaced name => mem_watchables hb ho hbound,
    fun version => ⟨nodup_documents hb, fun id => mem_documents hb⟩⟩
  · exact ⟨emitted_of_mem_bound hb ho hbound hmb, emitted_of_mem_references hb ho hbound hmb⟩
  · rw [hplans] at hplan
    obtain ⟨id, hid, hfor⟩ := List.mem_filterMap.mp hplan
    obtain ⟨htarget, hex, hroles⟩ := for?_eq_some hfor
    rw [htarget]
    refine ⟨(emitted_iff hb).mpr ⟨mem_typeIds.mp hid, hex⟩, fun op hop => ?_⟩
    obtain ⟨role, hrole⟩ := hroles op hop
    obtain ⟨mb, hmb, hop', hmt⟩ := inRole?_eq_some hrole
    cases hfind : b.bindings.bindingOf? op with
    | none => exact absurd hop' (by simpa using List.find?_eq_none.mp hfind mb hmb)
    | some mb' =>
        have hop'' : mb'.operation = op := by simpa using List.find?_some hfind
        obtain rfl := hbound.unique (List.mem_of_find?_eq_some hfind) hmb (hop''.trans hop'.symm)
        exact ⟨mb', rfl, hmt⟩

end ApiModels.Build
