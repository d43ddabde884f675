import ApiModels.Proofs.BoundOrReported
import ApiModels.Proofs.NameEntries
import ApiModels.Proofs.RoleNames

/-!
# Documents with a plan

A document has a plan when an operation that creates it and one that deletes it are among its
methods. Two matchers of names decide that, and they do not know of each other: binding gives an
operation its class, and the class of an operation that deletes is often found by name only; the
plan then looks for roles among the methods of the class.

They agree on every document that can be told by its name. An operation whose body is the document
and whose name says that it creates the kind is bound to it by its body. One whose name says that it
deletes the kind is bound to it by its response or, failing that, by its name, if it is of the
version and group of the document. Both names give the roles that they say.
-/

namespace ApiModels

/-! ## Classes -/

namespace Binding

open ReleaseModel

variable {m : ReleaseModel} {order : Order} {op : Operation} {d t : TypeId} {own : Option String}

/-- A type that operations may be bound to on its own account. -/
structure Eligible (m : ReleaseModel) (order : Order) (t : TypeId) : Prop where
  document : (m.type t).isDocument = true
  carrier : (m.type t).name ∉ carrierNames
  kept : t ∉ order.excluded

theorem isEligible_iff : isEligible m order t = true ↔ Eligible m order t := by
  unfold isEligible TypeDef.isCarrier
  rw [Bool.and_eq_true, Bool.and_eq_true, Bool.not_eq_true', Bool.not_eq_true',
    isExcluded_eq_false, ← Bool.not_eq_true, List.contains_iff_mem]
  exact ⟨fun ⟨⟨hdocument, hcarrier⟩, hkept⟩ => ⟨hdocument, hcarrier, hkept⟩,
    fun h => ⟨⟨h.document, h.carrier⟩, h.kept⟩⟩

/-- One value of a type, and not a list or a map of them. -/
def IsSingle (type : TypeRef) (container : Container) (t : TypeId) : Prop :=
  type = .named t ∧ container.isSingle = true

theorem single?_eq_some_iff {type : TypeRef} {container : Container} :
    single? type container = some t ↔ IsSingle type container t := by
  unfold single? IsSingle
  cases type with
  | primitive p => simp [TypeRef.named?]
  | named r =>
    cases container.isSingle with
    | false => simp
    | true => simp [TypeRef.named?]

/-- A target is what is found if it is eligible. -/
theorem filter_isEligible_eq_some {found : Option TypeId} (h : Eligible m order t)
    (hfound : found = some t) : found.filter (isEligible m order) = some t :=
  Option.filter_eq_some_iff.mpr ⟨hfound, isEligible_iff.mpr h⟩

theorem filter_isEligible_eq_none {found : Option TypeId}
    (h : ∀ t, found = some t → ¬ Eligible m order t) :
    found.filter (isEligible m order) = none :=
  Option.filter_eq_none_iff.mpr fun t ht heligible => h t ht (isEligible_iff.mp heligible)

instance (m : ReleaseModel) (own : Option String) : Std.TransCmp (compareFor m own) :=
  inferInstanceAs (Std.TransCmp (compareLex
    (compareOn fun id => ((m.type id).group != own).toNat)
    (Ordering.byKey (fun id => (m.type id).group) compareGroups)))

/-- Nothing comes before a type of the operation's own group but a type of that group. -/
theorem group_of_compareFor_isLE (h : (compareFor m own t d).isLE = true)
    (hd : (m.type d).group = own) : (m.type t).group = own := by
  by_contra ht
  have hd' : ((m.type d).group != own) = false := by simpa using hd
  have ht' : ((m.type t).group != own) = true := by simpa using ht
  unfold compareFor at h
  rw [hd', ht'] at h
  cases h

/-- **By its name an operation finds the only document of its group that has it.** -/
theorem lookup?_eq_some_of_unique (hd : Eligible m order d) (hlt : d < m.types.size)
    (hversion : (m.type d).version = op.version) (hgroup : (m.type d).group = op.group)
    (hunique : ∀ t < m.types.size, (m.type t).group = (m.type d).group →
      (m.type t).version = (m.type d).version → (m.type t).name = (m.type d).name → t = d) :
    lookup? m order op (m.type d).name true = some d := by
  unfold lookup?
  dsimp only
  generalize hfound : (m.find op.version (m.type d).name).filter (fun id =>
    !order.isExcluded id && (!true || isEligible m order id)) = found
  have hmem : d ∈ found := by
    rw [← hfound, List.mem_filter, isExcluded_eq_false.mpr hd.kept, isEligible_iff.mpr hd]
    exact ⟨mem_find.mpr ⟨hlt, hversion, rfl⟩, rfl⟩
  have hsorted := Names.pairwise_mergeSort (compareFor m op.group) found
  have hperm := List.mergeSort_perm found fun a b => compareFor m op.group a b != .gt
  rw [← hperm.mem_iff] at hmem
  cases hsort : found.mergeSort fun a b => compareFor m op.group a b != .gt with
  | nil =>
    rw [hsort] at hmem
    cases hmem
  | cons t rest =>
    rw [hsort] at hmem hsorted
    rcases List.mem_cons.mp hmem with rfl | hrest
    · rfl
    · -- what stands before the document is of its group, and so it is the document
      have hgroup' := group_of_compareFor_isLE ((List.pairwise_cons.mp hsorted).1 d hrest) hgroup
      have ht : t ∈ found := by
        rw [← hperm.mem_iff, hsort]
        exact List.mem_cons_self
      rw [← hfound] at ht
      obtain ⟨htlt, htversion, htname⟩ := mem_find.mp (List.mem_filter.mp ht).1
      exact congrArg some (hunique t htlt (hgroup'.trans hgroup.symm)
        (htversion.trans hversion.symm) htname)

/-- The name of an operation that deletes gives the class that is looked up under the kind. -/
theorem nameTarget?_of_delete {kind : String} (hscope : ¬ "Namespaced".toList <+: kind.toList)
    (hcollection : ¬ "Collection".toList <+: kind.toList)
    (hname : Role.delete.Says kind op.methodName) :
    nameTarget? m order op = lookup? m order op kind true := by
  obtain ⟨rest, hrest, hkind⟩ := hname.exists_rest hscope
  have hirregular : irregular.lookup op.methodName = none := by
    refine List.lookup_eq_none_iff.mpr fun e he => ?_
    have hstart : Text.dropStart? "delete" e.1 = none := by
      revert e
      decide
    rw [bne_iff_ne]
    intro heq
    rw [← heq, hrest, show "delete" = Role.delete.text from rfl, Text.dropStart?_append] at hstart
    cases hstart
  -- deleting a collection is a pattern of its own, which the kind must not complete
  have hnot : Text.dropStart? "deleteCollection" op.methodName = none := by
    refine Text.dropStart?_eq_none fun hprefix => ?_
    have hdelete : "deleteCollection".toList = "delete".toList ++ "Collection".toList := by decide
    rcases hname with h | h
    · rw [h, String.toList_append, hdelete] at hprefix
      exact hcollection ((List.prefix_append_right_inj _).mp hprefix)
    · rw [h, String.toList_append, String.toList_append, hdelete] at hprefix
      have hscoped := (List.prefix_append_right_inj _).mp hprefix
      rcases List.prefix_or_prefix_of_prefix hscoped (List.prefix_append _ _) with hr | hr
      · exact absurd hr (by decide)
      · exact absurd hr (by decide)
  have hstart : Text.dropStart? "delete" op.methodName = some rest := by
    rw [hrest]
    exact Text.dropStart?_append _ _
  unfold nameTarget?
  rw [hirregular]
  dsimp only
  rw [hnot]
  dsimp only
  rw [hstart]
  exact congrArg (lookup? m order op · true) hkind

end Binding

/-! ## Plans -/

namespace Build

open ApiModels.Order Binding ReleaseModel

variable {b : Build} {d : TypeId} {op : OperationId} {role : Role} {mb : MethodBinding}

/-- A document that is emitted and can be told by its name: it is no envelope, its name does not
begin with what operation names put before a kind, and no other type of its group and version has
it. -/
structure Distinguished (b : Build) (d : TypeId) : Prop where
  document : (b.model.type d).isDocument = true
  emitted : b.Emitted d
  carrier : (b.model.type d).name ∉ carrierNames
  scope : ¬ "Namespaced".toList <+: (b.model.type d).name.toList
  collection : ¬ "Collection".toList <+: (b.model.type d).name.toList
  unique : ∀ t < b.model.types.size, (b.model.type t).group = (b.model.type d).group →
    (b.model.type t).version = (b.model.type d).version →
    (b.model.type t).name = (b.model.type d).name → t = d

/-- An operation that can be bound: all it mentions is defined and kept. -/
structure Available (b : Build) (op : OperationId) : Prop where
  lt : op < b.model.operations.size
  bindable : (b.model.operation op).isBindable = true
  kept : ∀ r ∈ (b.model.operation op).references, r ∉ b.order.excluded

/-- An operation that creates a document, by its name and its body. -/
structure Creates (b : Build) (d : TypeId) (op : OperationId) : Prop extends Available b op where
  name : Role.create.Says (b.model.type d).name (b.model.operation op).methodName
  body : ∃ p, (b.model.operation op).body? = some p ∧ IsSingle p.type p.container d

/-- An operation of the group and version of a document that deletes it, by its name, and has
neither in its body nor in its response another document that it could be bound to. -/
structure Deletes (b : Build) (d : TypeId) (op : OperationId) : Prop extends Available b op where
  name : Role.delete.Says (b.model.type d).name (b.model.operation op).methodName
  version : (b.model.operation op).version = (b.model.type d).version
  group : (b.model.operation op).group = (b.model.type d).group
  body : ∀ p, (b.model.operation op).body? = some p →
    ∀ t, IsSingle p.type p.container t → ¬ Eligible b.model b.order t
  response : ∀ r, (b.model.operation op).response = some r →
    ∀ t, IsSingle r.1 r.2 t → t = d ∨ ¬ Eligible b.model b.order t

/-- A method of a document is in a role. -/
def HasRole (b : Build) (d : TypeId) (role : Role) (mb : MethodBinding) : Prop :=
  Role.of? (b.model.operation mb.operation).methodName (b.model.type d).name = some role

/-- The first of the methods of a document that is in a role. -/
def FirstIn (b : Build) (d : TypeId) (role : Role) (op : OperationId) : Prop :=
  ∃ before mb after, b.bindings.methods d = before ++ mb :: after ∧ mb.operation = op
    ∧ HasRole b d role mb ∧ ∀ mb' ∈ before, ¬ HasRole b d role mb'

theorem inRole?_eq_some_iff :
    CrudPlan.inRole? b.model b.bindings d role = some op ↔ FirstIn b d role op := by
  unfold CrudPlan.inRole? FirstIn HasRole
  rw [Option.map_eq_some_iff]
  constructor
  · rintro ⟨mb, hfind, rfl⟩
    obtain ⟨hrole, before, after, hmethods, hbefore⟩ := List.find?_eq_some_iff_append.mp hfind
    exact ⟨before, mb, after, hmethods, rfl, of_decide_eq_true hrole,
      fun mb' hmb' => by simpa using hbefore mb' hmb'⟩
  · rintro ⟨before, mb, after, hmethods, rfl, hrole, hbefore⟩
    refine ⟨mb, List.find?_eq_some_iff_append.mpr ⟨decide_eq_true hrole, before, after, hmethods,
      fun mb' hmb' => ?_⟩, rfl⟩
    simpa using hbefore mb' hmb'

theorem inRole?_eq_none_iff : CrudPlan.inRole? b.model b.bindings d role = none
    ↔ ∀ mb ∈ b.bindings.methods d, ¬ HasRole b d role mb := by
  unfold CrudPlan.inRole? HasRole
  rw [Option.map_eq_none_iff, List.find?_eq_none]
  simp only [decide_eq_true_eq]

theorem isSome_inRole?_iff : (CrudPlan.inRole? b.model b.bindings d role).isSome
    ↔ ∃ mb ∈ b.bindings.methods d, HasRole b d role mb := by
  rw [Option.isSome_iff_ne_none, ne_eq, inRole?_eq_none_iff]
  simp only [not_forall, not_not, exists_prop]

/-! ### Operations are bound to their document -/

section

variable (hb : Sorted b.model b.order) (hd : b.Distinguished d)

include hb hd

theorem Distinguished.eligible : Eligible b.model b.order d :=
  ⟨hd.document, hd.carrier, ((emitted_iff hb).mp hd.emitted).2⟩

/-- What creates a document has it for its class. -/
theorem Creates.classify? (h : b.Creates d op) :
    classify? b.model b.order (b.model.operation op) = some (d, .instanceMethod, .body) := by
  obtain ⟨p, hp, hsingle⟩ := h.body
  have hbody : bodyTarget? b.model b.order (b.model.operation op) = some d := by
    refine filter_isEligible_eq_some (hd.eligible hb) ?_
    rw [hp]
    exact single?_eq_some_iff.mpr hsingle
  unfold Binding.classify?
  rw [hbody]

/-- What deletes a document has it for its class, by its response or by its name. -/
theorem Deletes.classify? (h : b.Deletes d op) :
    ∃ rule, classify? b.model b.order (b.model.operation op) = some (d, .staticMethod, rule) := by
  have hbody : bodyTarget? b.model b.order (b.model.operation op) = none := by
    refine filter_isEligible_eq_none fun t ht => ?_
    obtain ⟨p, hp, hsingle⟩ := Option.bind_eq_some_iff.mp ht
    exact h.body p hp t (single?_eq_some_iff.mp hsingle)
  have hname : nameTarget? b.model b.order (b.model.operation op) = some d := by
    rw [nameTarget?_of_delete hd.scope hd.collection h.name]
    exact lookup?_eq_some_of_unique (hd.eligible hb) ((emitted_iff hb).mp hd.emitted).1
      h.version.symm h.group.symm hd.unique
  unfold Binding.classify?
  rw [hbody]
  dsimp only
  -- a response that could be the class is the document, so the name is asked only without one
  cases hresponse : responseTarget? b.model b.order (b.model.operation op) with
  | none =>
    rw [hname]
    exact ⟨_, rfl⟩
  | some t =>
    obtain ⟨hfound, heligible⟩ := Option.filter_eq_some_iff.mp hresponse
    obtain ⟨r, hr, hsingle⟩ := Option.bind_eq_some_iff.mp hfound
    rcases h.response r hr t (single?_eq_some_iff.mp hsingle) with rfl | hnot
    · exact ⟨_, rfl⟩
    · exact absurd (isEligible_iff.mp heligible) hnot

end

/-- **An operation that can be bound is a method of its class.** -/
theorem exists_mem_methods (config : ReleaseConfig) (doc : Swagger.Document) {op : OperationId}
    {d : TypeId} {kind : BindingKind} {rule : BindRule}
    (h : (ofDocument config doc).Available op)
    (hclass : classify? (ofDocument config doc).model (ofDocument config doc).order
      ((ofDocument config doc).model.operation op) = some (d, kind, rule)) :
    ∃ mb ∈ (ofDocument config doc).bindings.methods d, mb.operation = op := by
  have hbound := ofDocument_bound config doc
  have hdivided := ofDocument_divided config doc
  have hnot : op ∉ (ofDocument config doc).bindings.unbound := by
    rw [mem_unbound hdivided hbound, ← classify?_eq_none, hclass]
    rintro ⟨-, hmissing | ⟨r, hr, hexcluded⟩ | hnone⟩
    · exact hmissing (List.isEmpty_iff.mp h.bindable)
    · exact h.kept r hr hexcluded
    · cases hnone
  have hmem := hdivided.operations.mem_iff.mpr (List.mem_range.mpr h.lt)
  obtain ⟨mb, hmb, rfl⟩ := List.mem_map.mp ((List.mem_append.mp hmem).resolve_left hnot)
  refine ⟨mb, Bindings.mem_methods.mpr ⟨hmb, ?_⟩, rfl⟩
  have hclass' := (classOf_eq_ok (hbound.classes mb hmb)).2.2
  rw [hclass] at hclass'
  exact (Prod.mk.inj (Option.some.inj hclass')).1.symm

/-! ### The plan of a document -/

/-- The plans of a document are the one made for it, if there is one. -/
theorem filter_synthesize (order : Order) (bindings : Bindings) {m : ReleaseModel}
    (hd : d < m.types.size) :
    (CrudPlan.synthesize m order bindings).filter (fun p => p.target = d)
      = (CrudPlan.for? m order bindings d).toList := by
  have htarget : ∀ t, ∀ p ∈ (CrudPlan.for? m order bindings t).toList, p.target = t :=
    fun t p hp => (madeFor_of_for? (Option.mem_toList.mp hp)).target
  unfold CrudPlan.synthesize
  rw [List.filterMap_eq_flatMap_toList,
    Names.filter_flatMap_key CrudPlan.target htarget nodup_typeIds, if_pos (mem_typeIds.mpr hd)]

/--
**A document that can be created and deleted has one plan.**

If an operation creates a document and one deletes it, the document has exactly one plan. It creates
and deletes by the first methods of the document in these roles. It reads by the first method that
reads, if there is any. It updates by the first method that patches, if there is any, and by the
first that replaces otherwise.
-/
theorem plan_of_document (config : ReleaseConfig) (doc : Swagger.Document) (d : TypeId)
    (create delete : OperationId) (hd : (ofDocument config doc).Distinguished d)
    (hcreate : (ofDocument config doc).Creates d create)
    (hdelete : (ofDocument config doc).Deletes d delete) :
    let b := ofDocument config doc
    ∃ plan, b.plans.filter (fun p => p.target = d) = [plan]
      ∧ FirstIn b d .create plan.create ∧ FirstIn b d .delete plan.delete
      ∧ (∀ op, plan.read = some op ↔ FirstIn b d .read op)
      ∧ (plan.read.isSome ↔ ∃ mb ∈ b.bindings.methods d, HasRole b d .read mb)
      ∧ (∀ op, plan.update = some (op, .mergePatch) ↔ FirstIn b d .patch op)
      ∧ ∀ op, plan.update = some (op, .replace) ↔
          FirstIn b d .replace op ∧ ∀ mb ∈ b.bindings.methods d, ¬ HasRole b d .patch mb := by
  intro b
  have hb : Sorted b.model b.order := ofDocument_sorted config doc
  obtain ⟨hlt, hkept⟩ := (emitted_iff hb).mp hd.emitted
  have hfound : ∀ {role : Role} {op : OperationId},
      (∃ mb ∈ b.bindings.methods d, mb.operation = op) →
      role.Says (b.model.type d).name (b.model.operation op).methodName →
      ∃ first, CrudPlan.inRole? b.model b.bindings d role = some first := by
    rintro role op ⟨mb, hmb, rfl⟩ hsays
    exact Option.isSome_iff_exists.mp
      (isSome_inRole?_iff.mpr ⟨mb, hmb, Role.of?_eq_some hd.scope hsays⟩)
  -- both operations are bound to the document, and their names give them the roles
  obtain ⟨rule, hclass⟩ := hdelete.classify? hb hd
  obtain ⟨first, hfirst⟩ := hfound
    (exists_mem_methods config doc hcreate.toAvailable (hcreate.classify? hb hd)) hcreate.name
  obtain ⟨last, hlast⟩ := hfound
    (exists_mem_methods config doc hdelete.toAvailable hclass) hdelete.name
  have hfor : CrudPlan.for? b.model b.order b.bindings d = some
      { target := d, create := first, read := CrudPlan.inRole? b.model b.bindings d .read,
        update := ((CrudPlan.inRole? b.model b.bindings d .patch).map
            fun op => (op, UpdateKind.mergePatch)).or
          ((CrudPlan.inRole? b.model b.bindings d .replace).map fun op => (op, UpdateKind.replace)),
        delete := last } := by
    unfold CrudPlan.for?
    rw [hd.document, isExcluded_eq_false.mpr hkept]
    dsimp only
    rw [hfirst, hlast]
    rfl
  refine ⟨_, (filter_synthesize b.order b.bindings hlt).trans (by rw [hfor]; rfl),
    inRole?_eq_some_iff.mp hfirst, inRole?_eq_some_iff.mp hlast, fun op => inRole?_eq_some_iff,
    isSome_inRole?_iff, fun op => ?_, fun op => ?_⟩
  · dsimp only
    rw [← inRole?_eq_some_iff]
    cases CrudPlan.inRole? b.model b.bindings d .patch with
    | some patch => simp
    | none => simp
  · dsimp only
    rw [← inRole?_eq_some_iff, ← inRole?_eq_none_iff]
    cases CrudPlan.inRole? b.model b.bindings d .patch with
    | some patch => simp
    | none => simp

/-- A document with pods that are created and deleted. -/
def pods : Swagger.Document :=
  let kind : Swagger.GroupVersionKind := ⟨"", "v1", "Pod"⟩
  let text : Swagger.Schema := .mk { type := some "string" } [] none none
  let pod : Swagger.Schema :=
    .mk { type := some "object", kinds := [kind] } [("apiVersion", text), ("kind", text)] none none
  let toPod : Swagger.Schema :=
    .mk { reference := some "#/definitions/io.k8s.api.core.v1.Pod" } [] none none
  let body : Swagger.Parameter := { name := "body", location := "body", schema := some toPod }
  let create : Swagger.Operation :=
    { id := some "createCoreV1Pod", kind := some kind, parameters := [.inline body] }
  let delete : Swagger.Operation := { id := some "deleteCoreV1Pod", kind := some kind }
  { definitions := [("io.k8s.api.core.v1.Pod", pod)],
    paths :=
      [("/api/v1/pods", { operations := [(.post, create)] }),
        ("/api/v1/pods/\x7bname\x7d", { operations := [(.delete, delete)] })] }

/-- Pods are created by their body and deleted by name. -/
theorem plan_of_document_pod :
    let config : ReleaseConfig :=
      { label := "rel", semver := "1.0.0", defaultVersion := "v1", preferences := {},
        deprecations := {} }
    let b := ofDocument config pods
    b.Distinguished 0 ∧ b.Creates 0 0 ∧ b.Deletes 0 1
      ∧ ∃ plan, b.plans.filter (fun p => p.target = 0) = [plan] ∧ plan.create = 0
        ∧ plan.read = none ∧ plan.update = none ∧ plan.delete = 1 := by
  intro config b
  have hsize : b.model.types.size = 1 := by decide +kernel
  have hd : b.Distinguished 0 :=
    { document := by decide +kernel
      emitted := .inl (by decide +kernel)
      carrier := by decide +kernel
      scope := by decide +kernel
      collection := by decide +kernel
      unique := fun t ht _ _ _ => Nat.lt_one_iff.mp (hsize ▸ ht) }
  have hcreate : b.Creates 0 0 :=
    { lt := by decide +kernel
      bindable := by decide +kernel
      kept := by decide +kernel
      name := .inl (by decide +kernel)
      body := by
        have hbody : (b.model.operation 0).body?.map (fun p => (p.type, p.container))
            = some (.named 0, .optional) := by
          decide +kernel
        obtain ⟨p, hp, hsingle⟩ := Option.map_eq_some_iff.mp hbody
        obtain ⟨htype, hcontainer⟩ := Prod.mk.inj hsingle
        exact ⟨p, hp, htype, by rw [hcontainer]; rfl⟩ }
  have hdelete : b.Deletes 0 1 :=
    { lt := by decide +kernel
      bindable := by decide +kernel
      kept := by decide +kernel
      name := .inl (by decide +kernel)
      version := by decide +kernel
      group := by decide +kernel
      body := by
        have hbody : (b.model.operation 1).body?.isNone = true := by decide +kernel
        intro p hp
        rw [hp] at hbody
        cases hbody
      response := by
        have hresponse : (b.model.operation 1).response = none := by decide +kernel
        intro r hr
        rw [hresponse] at hr
        cases hr }
  refine ⟨hd, hcreate, hdelete, ?_⟩
  obtain ⟨plan, hplan, -⟩ := plan_of_document config pods 0 0 1 hd hcreate hdelete
  have hplans : b.plans = [⟨0, 0, none, none, 1⟩] := by decide +kernel
  refine ⟨plan, hplan, ?_⟩
  rw [show (ofDocument config pods).plans = _ from hplans] at hplan
  obtain rfl := List.singleton_inj.mp hplan
  exact ⟨rfl, rfl, rfl, rfl⟩

end Build

end ApiModels
