import ApiModels.Proofs.LeftOut
import ApiModels.Proofs.NothingDangles
import Mathlib.Data.List.Forall2

/-!
# Every operation is bound or reported

Operations are taken one after the other. Each ends up among the methods of a class or, without a
class, among the unbound ones, and then an anomaly says why. What class an operation has does not
depend on those taken before, so the two lists divide the operations of a release.
-/

namespace ApiModels

/-! ## Lists cut by a key -/

/-- The parts of a list that have one key each make up the list, if the keys are all there are. -/
theorem flatMap_filter_perm {α β : Type} [DecidableEq β] (key : α → β) {keys : List β}
    (hkeys : keys.Nodup) (l : List α) (hl : ∀ a ∈ l, key a ∈ keys) :
    (keys.flatMap fun k => l.filter fun a => key a = k).Perm l := by
  induction keys generalizing l with
  | nil =>
      obtain rfl : l = [] := List.eq_nil_iff_forall_not_mem.mpr fun a ha => by simpa using hl a ha
      exact List.Perm.refl []
  | cons k keys ih =>
      obtain ⟨hk, hkeys⟩ := List.nodup_cons.mp hkeys
      have hrest : (keys.flatMap fun k' => l.filter fun a => key a = k')
          = keys.flatMap fun k' => (l.filter fun a => !decide (key a = k)).filter
              fun a => key a = k' := by
        refine List.flatMap_congr fun k' hk' => ?_
        rw [List.filter_filter]
        refine List.filter_congr fun a _ => ?_
        by_cases h : key a = k'
        · have hne : k' ≠ k := fun he => hk (he ▸ hk')
          simp [h, hne]
        · simp [h]
      have hcut := ih hkeys (l.filter fun a => !decide (key a = k)) fun a ha => by
        obtain ⟨ha, hne⟩ := List.mem_filter.mp ha
        exact (List.mem_cons.mp (hl a ha)).resolve_left (by simpa using hne)
      rw [List.flatMap_cons, hrest]
      exact (hcut.append_left _).trans (List.filter_append_perm _ l)

namespace Binding

open ReleaseModel

variable {m : ReleaseModel} {names : Names} {order : Order} {op : Operation} {id : OperationId}
  {done : List OperationId} {s : State}

/-! ## Operations without a class -/

theorem classify?_eq_none : classify? m order op = none ↔ bodyTarget? m order op = none
    ∧ responseTarget? m order op = none ∧ nameTarget? m order op = none := by
  unfold classify?
  cases bodyTarget? m order op with
  | some id => simp
  | none =>
      cases responseTarget? m order op with
      | some id => simp
      | none => simp

/-- **What leaves an operation without a class**: a name that is not defined, a type that is left
out, or that neither its body nor its response nor its own name gives one. -/
theorem classOf_eq_error : (∃ reason, classOf m names order op = .error reason) ↔
    op.missing ≠ [] ∨ (∃ r ∈ op.references, r ∈ order.excluded)
      ∨ bodyTarget? m order op = none ∧ responseTarget? m order op = none
        ∧ nameTarget? m order op = none := by
  rw [← classify?_eq_none, classOf, Operation.isBindable]
  by_cases hmissing : op.missing = []
  · cases hfind : op.references.find? order.isExcluded with
    | some r =>
        have hr : ∃ r ∈ op.references, r ∈ order.excluded :=
          ⟨r, List.mem_of_find?_eq_some hfind, List.contains_iff_mem.mp (List.find?_some hfind)⟩
        simp [hmissing, hr]
    | none =>
        have hr : ¬ ∃ r ∈ op.references, r ∈ order.excluded := fun ⟨r, hr, hex⟩ =>
          List.find?_eq_none.mp hfind r hr (List.contains_iff_mem.mpr hex)
        cases hclass : classify? m order op with
        | some found => simp [hmissing, hr]
        | none => simp [hmissing]
  · simp [hmissing]

/-! ## One after the other -/

/-- An anomaly says of an operation that it is unbound, and why. -/
structure Reports (m : ReleaseModel) (names : Names) (order : Order) (id : OperationId)
    (a : Anomaly) : Prop where
  kind : a.kind = .unboundOperation
  version : a.version = (m.operation id).version
  subject : a.subject = (m.operation id).operationId
  reason : classOf m names order (m.operation id) = .error a.reason

/-- Where operations are once they are done. -/
structure Divided (m : ReleaseModel) (names : Names) (order : Order) (done : List OperationId)
    (s : State) : Prop where
  /-- Each is unbound or bound, and that once. -/
  operations : (s.bindings.unbound ++ s.bindings.bound.map (·.operation)).Perm done
  /-- The unbound ones are reported, in their order. -/
  reports : List.Forall₂ (Reports m names order) s.bindings.unbound s.anomalies

/-- **Kept by every operation.** -/
theorem Divided.bindOne (h : Divided m names order done s) (id : OperationId) :
    Divided m names order (done ++ [id]) (bindOne m names order s id) := by
  unfold Binding.bindOne
  dsimp only
  cases hc : classOf m names order (m.operation id) with
  | error reason =>
      refine ⟨?_, List.rel_append h.reports (.cons ⟨rfl, rfl, rfl, hc⟩ .nil)⟩
      -- the new one stands between those unbound and those bound
      refine List.Perm.trans ?_ (h.operations.append_right [id])
      dsimp only
      rw [List.append_assoc, List.append_assoc]
      exact List.perm_append_comm.append_left _
  | ok found =>
      obtain ⟨target, kind, rule⟩ := found
      refine ⟨?_, h.reports⟩
      dsimp only
      rw [List.map_append, ← List.append_assoc]
      exact h.operations.append_right [id]

/-- **How a release divides its operations.** -/
theorem bindRelease_divided (m : ReleaseModel) (names : Names) (order : Order) :
    Divided m names order m.operationIds
      ⟨(bindRelease m names order).1, (bindRelease m names order).2⟩ := by
  have hempty : Divided m names order [] {} := ⟨List.Perm.refl [], .nil⟩
  have hrun := foldl_bindOne (P := Divided m names order) (fun _ _ id h => h.bindOne id) hempty
    (m.versions.flatMap m.operationsOf)
  exact ⟨hrun.operations.trans operations_perm, hrun.reports⟩

/-- Nothing is both unbound and bound, or either of them twice. -/
theorem Divided.nodup (h : Divided m names order m.operationIds s) :
    (s.bindings.unbound ++ s.bindings.bound.map (·.operation)).Nodup :=
  h.operations.nodup_iff.mpr List.nodup_range

/-- **Unbound are the operations without a class.** -/
theorem Divided.mem_unbound (h : Divided m names order m.operationIds s)
    (hbound : Bound m names order done s.bindings) : id ∈ s.bindings.unbound ↔
      id < m.operations.size ∧ ∃ reason, classOf m names order (m.operation id) = .error reason := by
  have hids : ∀ i, i ∈ s.bindings.unbound ++ s.bindings.bound.map (·.operation)
      ↔ i < m.operations.size := fun i => h.operations.mem_iff.trans List.mem_range
  constructor
  · intro hid
    obtain ⟨i, hi, rfl⟩ := List.mem_iff_getElem.mp hid
    have hreport := (List.forall₂_iff_get.mp h.reports).2 i hi (h.reports.length_eq ▸ hi)
    exact ⟨(hids _).mp (List.mem_append_left _ hid), _, hreport.reason⟩
  · rintro ⟨hlt, reason, herror⟩
    refine (List.mem_append.mp ((hids id).mpr hlt)).resolve_right fun hid => ?_
    -- a bound operation has a class
    obtain ⟨mb, hmb, rfl⟩ := List.mem_map.mp hid
    rw [hbound.classes mb hmb] at herror
    exact absurd herror (by simp)

end Binding

/-! ## Anomalies about unbound operations -/

theorem filter_ingest (label : String) (doc : Swagger.Document) :
    (Ingest.ingest label doc).2.filter (fun a => a.kind = .unboundOperation) = [] := by
  refine List.filter_eq_nil_iff.mpr fun a ha => ?_
  rcases Ingest.kind_of_mem_anomalies ha with h | h
  · simp [h]
  · simp [h]

theorem filter_ofModel {m : ReleaseModel} {names : Names} (hm : m.Closed) :
    (Order.ofModel m names).2.filter (fun a => a.kind = .unboundOperation) = [] := by
  refine List.filter_eq_nil_iff.mpr fun a ha => ?_
  obtain ⟨u, -, h | h⟩ := Order.exists_of_mem_reports hm ha
  · have hkind : a.kind = .unsupportedCycle := congrArg Prod.fst h
    simp [hkind]
  · have hkind : a.kind = .dependsOnExcluded := congrArg Prod.fst h
    simp [hkind]

theorem filter_bindRelease (m : ReleaseModel) (names : Names) (order : Order) :
    (Binding.bindRelease m names order).2.filter (fun a => a.kind = .unboundOperation)
      = (Binding.bindRelease m names order).2 := by
  have hreports := (Binding.bindRelease_divided m names order).reports
  refine List.filter_eq_self.mpr fun a ha => ?_
  obtain ⟨i, hi, rfl⟩ := List.mem_iff_getElem.mp ha
  have hreport := (List.forall₂_iff_get.mp hreports).2 i (hreports.length_eq ▸ hi) hi
  exact decide_eq_true hreport.kind

/-! ## The methods of classes -/

namespace Bindings

variable {m : ReleaseModel} {b : Bindings} {mb : MethodBinding} {op : OperationId}

theorem mem_methods {id : TypeId} : mb ∈ b.methods id ↔ mb ∈ b.bound ∧ mb.target = id := by
  rw [methods, List.mem_filter, decide_eq_true_iff]

theorem mem_byClass {c : TypeId × List MethodBinding} : c ∈ b.byClass m ↔
    c.1 < m.types.size ∧ c.2 = b.methods c.1 ∧ c.2 ≠ [] := by
  rw [byClass, List.mem_filter, List.mem_map, Bool.not_eq_true', List.isEmpty_eq_false_iff]
  constructor
  · rintro ⟨⟨id, hid, rfl⟩, hne⟩
    exact ⟨ReleaseModel.mem_typeIds.mp hid, rfl, hne⟩
  · rintro ⟨hlt, hmethods, hne⟩
    exact ⟨⟨c.1, ReleaseModel.mem_typeIds.mpr hlt, by rw [← hmethods]⟩, hne⟩

theorem nodup_byClass : ((b.byClass m).map Prod.fst).Nodup := by
  have hsub := (List.filter_sublist (l := m.typeIds.map fun id => (id, b.methods id))
    (p := fun c => !c.2.isEmpty)).map Prod.fst
  rw [List.map_map] at hsub
  exact ReleaseModel.nodup_typeIds.sublist (List.map_id _ ▸ hsub)

/-- The methods of all classes are the bindings, if their classes are types of the model. -/
theorem byClass_perm (h : ∀ mb ∈ b.bound, mb.target < m.types.size) :
    ((b.byClass m).flatMap Prod.snd).Perm b.bound := by
  -- classes without methods add nothing
  have hall : ∀ classes : List (TypeId × List MethodBinding),
      (classes.filter fun c => !c.2.isEmpty).flatMap Prod.snd = classes.flatMap Prod.snd := by
    intro classes
    induction classes with
    | nil => rfl
    | cons c classes ih =>
        obtain ⟨id, methods⟩ := c
        cases methods with
        | nil => simpa using ih
        | cons mb methods => simpa using ih
  rw [byClass, hall, List.flatMap_map]
  exact flatMap_filter_perm (·.target) ReleaseModel.nodup_typeIds b.bound fun mb hmb =>
    ReleaseModel.mem_typeIds.mpr (h mb hmb)

/-- The binding of an operation is the one that is bound for it. -/
theorem bindingOf?_eq_some (hnd : (b.bound.map (·.operation)).Nodup) :
    b.bindingOf? op = some mb ↔ mb ∈ b.bound ∧ mb.operation = op := by
  constructor
  · intro h
    exact ⟨List.mem_of_find?_eq_some h, by simpa using List.find?_some h⟩
  · rintro ⟨hmb, rfl⟩
    cases hfind : b.bindingOf? mb.operation with
    | none => exact absurd hfind (Option.isSome_iff_ne_none.mp
        (List.find?_isSome.mpr ⟨mb, hmb, beq_self_eq_true _⟩))
    | some mb' =>
        have hop : mb'.operation = mb.operation := by simpa using List.find?_some hfind
        rw [List.inj_on_of_nodup_map hnd (List.mem_of_find?_eq_some hfind) hmb hop]

theorem bindingOf?_eq_none : b.bindingOf? op = none ↔ op ∉ b.bound.map (·.operation) := by
  rw [bindingOf?, List.find?_eq_none, List.mem_map]
  constructor
  · rintro h ⟨mb, hmb, rfl⟩
    exact h mb hmb (beq_self_eq_true _)
  · rintro h mb hmb hop
    exact h ⟨mb, hmb, by simpa using hop⟩

end Bindings

/-! ## Builds -/

namespace Build

open Binding ReleaseModel

section

variable {b : Build} {anomalies : Diagnostics} {op : OperationId} {mb : MethodBinding}
  (h : Divided b.model b.names b.order b.model.operationIds ⟨b.bindings, anomalies⟩)

include h

theorem nodup_bound : (b.bindings.bound.map (·.operation)).Nodup :=
  (List.nodup_append.mp h.nodup).2.1

/-- The unbound operations and the methods of the classes are all operations. -/
theorem operations_byClass_perm (hlt : ∀ mb ∈ b.bindings.bound, mb.target < b.model.types.size) :
    (b.bindings.unbound
      ++ ((b.bindings.byClass b.model).flatMap Prod.snd).map (·.operation)).Perm
      b.model.operationIds :=
  (((Bindings.byClass_perm hlt).map _).append_left _).trans h.operations

/-- The binding of an operation is the method that its class lists. -/
theorem bindingOf?_of_mem_byClass {c : TypeId × List MethodBinding}
    (hc : c ∈ b.bindings.byClass b.model) (hmb : mb ∈ c.2) :
    mb.target = c.1 ∧ b.bindings.bindingOf? mb.operation = some mb := by
  obtain ⟨-, heq, -⟩ := Bindings.mem_byClass.mp hc
  rw [heq, Bindings.mem_methods] at hmb
  exact ⟨hmb.2, (Bindings.bindingOf?_eq_some (nodup_bound h)).mpr ⟨hmb.1, rfl⟩⟩

theorem bindingOf?_of_mem_unbound (hop : op ∈ b.bindings.unbound) :
    b.bindings.bindingOf? op = none :=
  Bindings.bindingOf?_eq_none.mpr fun hmem =>
    (List.nodup_append.mp h.nodup).2.2 op hop op hmem rfl

theorem length_operations :
    b.summary.bound + b.bindings.unbound.length = b.model.operations.size := by
  have hlen := h.operations.length_eq
  rw [List.length_append, List.length_map, operationIds, List.length_range] at hlen
  rw [Nat.add_comm]
  exact hlen

/-- **Which operations of a build are unbound.** -/
theorem mem_unbound {done : List OperationId}
    (hbound : Bound b.model b.names b.order done b.bindings) : op ∈ b.bindings.unbound ↔
      op < b.model.operations.size
        ∧ ((b.model.operation op).missing ≠ []
          ∨ (∃ r ∈ (b.model.operation op).references, r ∈ b.order.excluded)
          ∨ bodyTarget? b.model b.order (b.model.operation op) = none
            ∧ responseTarget? b.model b.order (b.model.operation op) = none
            ∧ nameTarget? b.model b.order (b.model.operation op) = none) :=
  (h.mem_unbound hbound).trans (and_congr_right' classOf_eq_error)

end

/-- The classes of a build's bindings are types of its model. -/
theorem target_lt (config : ReleaseConfig) (doc : Swagger.Document) {mb : MethodBinding}
    (h : mb ∈ (ofDocument config doc).bindings.bound) :
    mb.target < (ofDocument config doc).model.types.size := by
  have hb := ofDocument_sorted config doc
  have ho : OperationsClosed (ofDocument config doc).model :=
    fun op r hr => Ingest.operation_references hr
  exact ((emitted_iff hb).mp (emitted_of_mem_bound hb ho (ofDocument_bound config doc) h)).1

theorem bindings_eq (config : ReleaseConfig) (doc : Swagger.Document) :
    (ofDocument config doc).bindings = (bindRelease (ofDocument config doc).model
      (ofDocument config doc).names (ofDocument config doc).order).1 := by
  simp only [ofDocument]

theorem diagnostics_eq (config : ReleaseConfig) (doc : Swagger.Document) :
    (ofDocument config doc).diagnostics = (Ingest.ingest config.label doc).2
      ++ (Order.ofModel (ofDocument config doc).model (ofDocument config doc).names).2
      ++ (bindRelease (ofDocument config doc).model (ofDocument config doc).names
        (ofDocument config doc).order).2 := by
  simp only [ofDocument]

/-- **How a build divides its operations**, and which of its anomalies are about them. -/
theorem ofDocument_divided (config : ReleaseConfig) (doc : Swagger.Document) :
    Divided (ofDocument config doc).model (ofDocument config doc).names
      (ofDocument config doc).order (ofDocument config doc).model.operationIds
      ⟨(ofDocument config doc).bindings,
        (ofDocument config doc).diagnostics.filter fun a => a.kind = .unboundOperation⟩ := by
  have hm : (ofDocument config doc).model.Closed := Ingest.closed
  rw [diagnostics_eq, List.filter_append, List.filter_append, filter_ingest, filter_ofModel hm,
    filter_bindRelease, List.nil_append, List.nil_append, bindings_eq]
  exact bindRelease_divided _ _ _

/--
**Every operation of a build is a method of one class, or unbound and reported.**

The unbound operations and the methods of the classes are together all operations, each once. The
binding of an operation is the method that its class lists, and an unbound operation has none. The
anomalies about unbound operations are those of the unbound ones, one for one and in their order. And
unbound is an operation for three reasons only: it names something undefined, it mentions a type that
is left out, or none of its body, its response and its name gives a class.
-/
theorem bound_or_reported (config : ReleaseConfig) (doc : Swagger.Document) :
    let b := ofDocument config doc
    let classes := b.bindings.byClass b.model
    (b.bindings.unbound ++ (classes.flatMap Prod.snd).map (·.operation)).Perm b.model.operationIds
      ∧ (classes.map Prod.fst).Nodup
      ∧ (∀ c ∈ classes, ∀ mb ∈ c.2,
          mb.target = c.1 ∧ b.bindings.bindingOf? mb.operation = some mb)
      ∧ (∀ op ∈ b.bindings.unbound, b.bindings.bindingOf? op = none)
      ∧ b.summary.bound + b.bindings.unbound.length = b.model.operations.size
      ∧ List.Forall₂ (Reports b.model b.names b.order) b.bindings.unbound
          (b.diagnostics.filter fun a => a.kind = .unboundOperation)
      ∧ ∀ op, op ∈ b.bindings.unbound ↔ op < b.model.operations.size
          ∧ ((b.model.operation op).missing ≠ []
            ∨ (∃ r ∈ (b.model.operation op).references, r ∈ b.order.excluded)
            ∨ bodyTarget? b.model b.order (b.model.operation op) = none
              ∧ responseTarget? b.model b.order (b.model.operation op) = none
              ∧ nameTarget? b.model b.order (b.model.operation op) = none) := by
  intro b classes
  have hbound := ofDocument_bound config doc
  have hdivided := ofDocument_divided config doc
  exact ⟨operations_byClass_perm hdivided fun mb hmb => target_lt config doc hmb,
    Bindings.nodup_byClass, fun c hc mb hmb => bindingOf?_of_mem_byClass hdivided hc hmb,
    fun op hop => bindingOf?_of_mem_unbound hdivided hop, length_operations hdivided,
    hdivided.reports, fun op => mem_unbound hdivided hbound⟩

end Build

end ApiModels
