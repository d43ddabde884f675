import ApiModels.Binding
import ApiModels.Proofs.References
import Mathlib.Data.List.Induction

/-!
# Bound operations

Operations are bound one after the other. What is known of each binding in the end is what was
checked when it was made: its operation refers to nothing that is left out, and its class was kept
by whichever rule gave it.
-/

namespace ApiModels.Binding

open ApiModels.ReleaseModel

variable {m : ReleaseModel} {names : Names} {order : Order} {op : Operation} {id : OperationId}
  {target r : TypeId} {kind : BindingKind} {rule : BindRule}

theorem isExcluded_eq_false : order.isExcluded r = false ↔ r ∉ order.excluded := by
  rw [Order.isExcluded, Bool.eq_false_iff, ne_eq, List.contains_iff_mem]

/-! ## Classes -/

theorem single?_eq_some {type : TypeRef} {container : Container}
    (h : single? type container = some r) : type.named? = some r := by
  unfold single? at h
  split at h
  · exact h
  · simp at h

theorem notMem_of_isEligible (h : isEligible m order r = true) : r ∉ order.excluded := by
  unfold isEligible at h
  rw [Bool.and_eq_true, Bool.not_eq_true'] at h
  exact isExcluded_eq_false.mp h.2

theorem isDocument_of_isEligible (h : isEligible m order r = true) :
    (m.type r).isDocument = true := by
  unfold isEligible at h
  rw [Bool.and_eq_true, Bool.and_eq_true] at h
  exact h.1.1

theorem bodyTarget?_eq_some (h : bodyTarget? m order op = some target) :
    target ∈ op.references ∧ target ∉ order.excluded := by
  obtain ⟨hbody, hok⟩ := Option.filter_eq_some_iff.mp h
  obtain ⟨p, hp, hsingle⟩ := Option.bind_eq_some_iff.mp hbody
  refine ⟨List.mem_append_left _ ?_, notMem_of_isEligible hok⟩
  exact List.mem_filterMap.mpr ⟨p, List.mem_of_find?_eq_some hp, single?_eq_some hsingle⟩

theorem responseTarget?_eq_some (h : responseTarget? m order op = some target) :
    target ∈ op.references ∧ target ∉ order.excluded := by
  obtain ⟨hresponse, hok⟩ := Option.filter_eq_some_iff.mp h
  obtain ⟨type, htype, hsingle⟩ := Option.bind_eq_some_iff.mp hresponse
  refine ⟨List.mem_append_right _ ?_, notMem_of_isEligible hok⟩
  rw [Option.mem_toList, htype]
  exact single?_eq_some hsingle

/-- A class found by name is a type of the operation's version that is kept. -/
theorem lookup?_eq_some {name : String} {documentsOnly : Bool}
    (h : lookup? m order op name documentsOnly = some target) :
    target ∈ m.find op.version name ∧ target ∉ order.excluded := by
  have hmem := List.mem_mergeSort.mp (List.mem_of_head? h)
  obtain ⟨hfind, hok⟩ := List.mem_filter.mp hmem
  rw [Bool.and_eq_true, Bool.not_eq_true'] at hok
  exact ⟨hfind, isExcluded_eq_false.mp hok.1⟩

/-- Whatever an operation is called, its name gives a class by looking one up. -/
theorem nameTarget?_eq_some (h : nameTarget? m order op = some target) :
    ∃ name documentsOnly, lookup? m order op name documentsOnly = some target := by
  unfold nameTarget? at h
  split at h
  · exact ⟨_, _, h⟩
  · split at h
    · -- after `deleteCollection`, the list of a kind before the kind
      rcases Option.or_eq_some_iff.mp h with h | ⟨-, h⟩
      · exact ⟨_, _, h⟩
      · exact ⟨_, _, h⟩
    · split at h
      · exact ⟨_, _, h⟩
      · split at h
        · rcases Option.or_eq_some_iff.mp h with h | ⟨-, h⟩
          · exact ⟨_, _, h⟩
          · obtain ⟨one, -, h⟩ := Option.bind_eq_some_iff.mp h
            exact ⟨_, _, h⟩
        · simp at h

/-- The class of an operation is a type it refers to or one of its version, and kept. -/
theorem classify?_eq_some (h : classify? m order op = some (target, kind, rule)) :
    (target ∈ op.references ∨ ∃ name, target ∈ m.find op.version name)
      ∧ target ∉ order.excluded := by
  unfold classify? at h
  split at h
  · rename_i id hbody
    obtain ⟨rfl, -⟩ := Prod.mk.inj (Option.some.inj h)
    exact ⟨.inl (bodyTarget?_eq_some hbody).1, (bodyTarget?_eq_some hbody).2⟩
  · split at h
    · rename_i id hresponse
      obtain ⟨rfl, -⟩ := Prod.mk.inj (Option.some.inj h)
      exact ⟨.inl (responseTarget?_eq_some hresponse).1, (responseTarget?_eq_some hresponse).2⟩
    · obtain ⟨id, hname, heq⟩ := Option.map_eq_some_iff.mp h
      obtain ⟨rfl, -⟩ := Prod.mk.inj heq
      obtain ⟨name, documentsOnly, hlookup⟩ := nameTarget?_eq_some hname
      exact ⟨.inr ⟨name, (lookup?_eq_some hlookup).1⟩, (lookup?_eq_some hlookup).2⟩

theorem isDocument_of_lookup? {name : String} (h : lookup? m order op name true = some target) :
    (m.type target).isDocument = true := by
  obtain ⟨-, hok⟩ := List.mem_filter.mp (List.mem_mergeSort.mp (List.mem_of_head? h))
  rw [Bool.and_eq_true, Bool.or_eq_true] at hok
  rcases hok.2 with hfalse | heligible
  · cases hfalse
  · exact isDocument_of_isEligible heligible

/-- A class is a document unless an irregular name gave it. -/
theorem isDocument_or_irregular (h : classify? m order op = some (target, kind, rule)) :
    (m.type target).isDocument = true
      ∨ rule = .name ∧ (irregular.lookup op.methodName).isSome = true := by
  unfold classify? at h
  split at h
  · rename_i id hbody
    cases h
    exact .inl (isDocument_of_isEligible (Option.filter_eq_some_iff.mp hbody).2)
  · split at h
    · rename_i id hresponse
      cases h
      exact .inl (isDocument_of_isEligible (Option.filter_eq_some_iff.mp hresponse).2)
    · obtain ⟨id, hname, heq⟩ := Option.map_eq_some_iff.mp h
      cases heq
      unfold nameTarget? at hname
      split at hname
      · rename_i name hirregular
        exact .inr ⟨rfl, by rw [hirregular]; rfl⟩
      · -- every other name is looked up among documents only
        refine .inl ?_
        split at hname
        · rcases Option.or_eq_some_iff.mp hname with hname | ⟨-, hname⟩
          · exact isDocument_of_lookup? hname
          · exact isDocument_of_lookup? hname
        · split at hname
          · exact isDocument_of_lookup? hname
          · split at hname
            · rcases Option.or_eq_some_iff.mp hname with hname | ⟨-, hname⟩
              · exact isDocument_of_lookup? hname
              · obtain ⟨one, -, hname⟩ := Option.bind_eq_some_iff.mp hname
                exact isDocument_of_lookup? hname
            · cases hname

/-- **An operation with a class refers to nothing left out.** -/
theorem classOf_eq_ok (h : classOf m names order op = .ok (target, kind, rule)) :
    op.isBindable = true ∧ (∀ r ∈ op.references, r ∉ order.excluded)
      ∧ classify? m order op = some (target, kind, rule) := by
  unfold classOf at h
  split at h
  · simp at h
  · rename_i hbindable
    split at h
    · simp at h
    · rename_i hnone
      split at h
      · rename_i found hfound
        refine ⟨by simpa using hbindable, fun r hr => ?_, ?_⟩
        · exact isExcluded_eq_false.mp (by simpa using List.find?_eq_none.mp hnone r hr)
        · rw [hfound, Except.ok.inj h]
      · simp at h

/-! ## Bindings -/

/-- What holds of the bindings once some operations are done: each is bound once at most, to the
class it has. -/
structure Bound (m : ReleaseModel) (names : Names) (order : Order) (done : List OperationId)
    (b : Bindings) : Prop where
  operations : (b.bound.map (·.operation)).Sublist done
  classes : ∀ mb ∈ b.bound,
    classOf m names order (m.operation mb.operation) = .ok (mb.target, mb.kind, mb.rule)

/-- **Kept by every operation.** -/
theorem Bound.bindOne {done : List OperationId} {s : State}
    (h : Bound m names order done s.bindings) (id : OperationId) :
    Bound m names order (done ++ [id]) (bindOne m names order s id).bindings := by
  unfold Binding.bindOne
  dsimp only
  cases hc : classOf m names order (m.operation id) with
  | error reason =>
      exact ⟨h.operations.trans (List.sublist_append_left _ _), h.classes⟩
  | ok found =>
      obtain ⟨target, kind, rule⟩ := found
      refine ⟨?_, fun mb hmb => ?_⟩
      · dsimp only
        rw [List.map_append]
        exact h.operations.append (List.Sublist.refl _)
      · rcases List.mem_append.mp hmb with hmb | hmb
        · exact h.classes mb hmb
        · obtain rfl := List.mem_singleton.mp hmb
          exact hc

/-- What every operation keeps holds of any number of them, one after the other. -/
theorem foldl_bindOne {P : List OperationId → State → Prop}
    (hstep : ∀ done s id, P done s → P (done ++ [id]) (Binding.bindOne m names order s id))
    {s : State} (h : P [] s) (ids : List OperationId) :
    P ids (ids.foldl (Binding.bindOne m names order) s) := by
  induction ids using List.reverseRecOn with
  | nil => exact h
  | append_singleton done id ih =>
      rw [List.foldl_append]
      exact hstep done _ id ih

/-- The operations of a release, version by version. -/
theorem nodup_operations : (m.versions.flatMap m.operationsOf).Nodup := by
  rw [List.nodup_flatMap]
  refine ⟨fun v _ => nodup_operationsOf, nodup_versions.imp ?_⟩
  intro v w hne id hv hw
  exact hne ((mem_operationsOf.mp hv).2.symm.trans (mem_operationsOf.mp hw).2)

/-- They are all the operations there are. -/
theorem operations_perm : (m.versions.flatMap m.operationsOf).Perm m.operationIds := by
  refine (List.perm_ext_iff_of_nodup nodup_operations List.nodup_range).mpr fun id => ?_
  rw [List.mem_flatMap]
  constructor
  · rintro ⟨v, -, hid⟩
    exact mem_operationIds.mpr (mem_operationsOf.mp hid).1
  · intro hid
    have hlt := mem_operationIds.mp hid
    exact ⟨(m.operation id).version, mem_versions.mpr (.inr ⟨id, hlt, rfl⟩),
      mem_operationsOf.mpr ⟨hlt, rfl⟩⟩

/-- **The bindings of a release.** -/
theorem bindRelease_bound (m : ReleaseModel) (names : Names) (order : Order) :
    Bound m names order (m.versions.flatMap m.operationsOf) (bindRelease m names order).1 := by
  have hempty : Bound m names order [] ({} : State).bindings := ⟨List.Sublist.refl _, by simp⟩
  exact foldl_bindOne (P := fun done s => Bound m names order done s.bindings)
    (fun _ _ id h => h.bindOne id) hempty _

/-- No operation is bound twice. -/
theorem Bound.unique {b : Bindings} {mb mb' : MethodBinding}
    (h : Bound m names order (m.versions.flatMap m.operationsOf) b) (hb : mb ∈ b.bound)
    (hb' : mb' ∈ b.bound) (heq : mb.operation = mb'.operation) : mb = mb' :=
  List.inj_on_of_nodup_map (nodup_operations.sublist h.operations) hb hb' heq

end ApiModels.Binding
