import ApiModels.Model
import ApiModels.Proofs.Table

/-!
# What versions have

A model is filled by one type or operation after the other, each of which is entered in the list of
its version. So a version has, in increasing order, the numbers of all types and operations that are
of it, whatever was filled in between, and every version has one.
-/

namespace ApiModels

/-! ## Numbered things -/

/-- What is numbered one after the other comes behind what was there. -/
theorem toList_foldl_push {α β : Type} (items : β → Array α) (step : β → α → β)
    (hpush : ∀ b x, items (step b x) = (items b).push x) (xs : List α) (b : β) :
    (items (xs.foldl step b)).toList = (items b).toList ++ xs := by
  induction xs generalizing b with
  | nil => exact (List.append_nil _).symm
  | cons x xs ih =>
      rw [List.foldl_cons, ih, hpush, Array.toList_push, List.append_assoc, List.singleton_append]

section

variable {α : Type} [Inhabited α]

/-- The places of a version among numbered things are the numbers of those that are of it. -/
theorem placesOf_map (items : Array α) (versionOf : α → String) (version : String) :
    placesOf (items.toList.map versionOf) version
      = (List.range items.size).filter fun id => versionOf (items.getD id default) == version := by
  unfold placesOf
  rw [List.length_map, Array.length_toList]
  refine List.filter_congr fun id hid => ?_
  have hlt : id < items.size := List.mem_range.mp hid
  have hitem : (items.toList.map versionOf)[id]? = some (versionOf items[id]) := by simp [hlt]
  rw [hitem, ← Array.getElem_eq_getD (h := hlt), Bool.eq_iff_iff, beq_iff_eq, beq_iff_eq,
    Option.some.injEq]

theorem mem_map_iff_number {items : Array α} {versionOf : α → String} {version : String} :
    version ∈ items.toList.map versionOf
      ↔ ∃ id < items.size, versionOf (items.getD id default) = version := by
  rw [List.mem_map]
  constructor
  · rintro ⟨x, hx, rfl⟩
    obtain ⟨id, hlt, rfl⟩ := Array.mem_iff_getElem.mp (Array.mem_toList_iff.mp hx)
    exact ⟨id, hlt, by rw [← Array.getElem_eq_getD (h := hlt)]⟩
  · rintro ⟨id, hlt, rfl⟩
    exact ⟨items[id], by simp, by rw [← Array.getElem_eq_getD (h := hlt)]⟩

end

namespace ReleaseModel

variable {m : ReleaseModel} {version name : String} {id : Nat}

/-! ## Numbers -/

theorem mem_typeIds : id ∈ m.typeIds ↔ id < m.types.size := List.mem_range

theorem mem_operationIds : id ∈ m.operationIds ↔ id < m.operations.size := List.mem_range

theorem nodup_typeIds : m.typeIds.Nodup := List.nodup_range

theorem type_of_lt (h : id < m.types.size) : m.type id = m.types[id] := by
  simp [type, h]

/-- A number that is no type's stands for a type without properties. -/
theorem type_of_ge (h : m.types.size ≤ id) : m.type id = default := by
  simp [type, Array.getD, Nat.not_lt.mpr h]

theorem operation_of_lt {op : OperationId} (h : op < m.operations.size) :
    m.operation op = m.operations[op] := by
  simp [operation, h]

/-! ## Filling a model -/

theorem toList_types_foldl_addType (types : List TypeDef) :
    (types.foldl addType m).types.toList = m.types.toList ++ types :=
  toList_foldl_push ReleaseModel.types addType (fun _ _ => rfl) types m

theorem operations_foldl_addType (types : List TypeDef) :
    (types.foldl addType m).operations = m.operations := by
  induction types generalizing m with
  | nil => rfl
  | cons t types ih => exact ih

theorem types_foldl_addOperation (operations : List Operation) :
    (operations.foldl addOperation m).types = m.types := by
  induction operations generalizing m with
  | nil => rfl
  | cons o operations ih => exact ih

theorem toList_operations_foldl_addOperation (operations : List Operation) :
    (operations.foldl addOperation m).operations.toList = m.operations.toList ++ operations :=
  toList_foldl_push ReleaseModel.operations addOperation (fun _ _ => rfl) operations m

/-! ## Types and operations of a version -/

/-- **A version lists its own types**, in the order of their numbers. -/
theorem typesOf_eq (m : ReleaseModel) (version : String) :
    m.typesOf version = m.typeIds.filter fun id => (m.type id).version == version := by
  rw [typesOf, versionList, m.listed.list]
  exact placesOf_map m.types (·.version) version

/-- **A version lists its own operations**, in the order of their numbers. -/
theorem operationsOf_eq (m : ReleaseModel) (version : String) :
    m.operationsOf version = m.operationIds.filter fun id => (m.operation id).version == version := by
  rw [operationsOf, versionList, m.listed.list]
  exact placesOf_map m.operations (·.version) version

theorem mem_typesOf :
    id ∈ m.typesOf version ↔ id < m.types.size ∧ (m.type id).version = version := by
  rw [typesOf_eq, List.mem_filter, mem_typeIds, beq_iff_eq]

theorem mem_find : id ∈ m.find version name ↔
    id < m.types.size ∧ (m.type id).version = version ∧ (m.type id).name = name := by
  simp [find, mem_typesOf, and_assoc]

theorem mem_operationsOf : id ∈ m.operationsOf version
    ↔ id < m.operations.size ∧ (m.operation id).version = version := by
  rw [operationsOf_eq, List.mem_filter, mem_operationIds, beq_iff_eq]

theorem pairwise_typesOf : (m.typesOf version).Pairwise (· < ·) := by
  rw [typesOf_eq]
  exact List.pairwise_lt_range.filter _

theorem pairwise_operationsOf : (m.operationsOf version).Pairwise (· < ·) := by
  rw [operationsOf_eq]
  exact List.pairwise_lt_range.filter _

theorem nodup_typesOf : (m.typesOf version).Nodup := pairwise_typesOf.imp Nat.ne_of_lt

theorem nodup_operationsOf : (m.operationsOf version).Nodup :=
  pairwise_operationsOf.imp Nat.ne_of_lt

/-! ## Versions -/

/-- **The versions are those of types and operations**, in order. -/
theorem versions_eq (m : ReleaseModel) : m.versions
    = sortedTexts (m.types.toList.map (·.version) ++ m.operations.toList.map (·.version)) :=
  Table.keys_eq_sortedTexts fun version => (m.listed.keys version).trans List.mem_append.symm

theorem pairwise_versions : m.versions.Pairwise (· < ·) := m.versionLists.keys_pairwise

theorem nodup_versions : m.versions.Nodup := m.versionLists.nodup_keys

/-- A model has exactly the versions of its types and operations. -/
theorem mem_versions : version ∈ m.versions ↔ (∃ id < m.types.size, (m.type id).version = version)
    ∨ ∃ id < m.operations.size, (m.operation id).version = version := by
  rw [versions, m.listed.keys]
  exact or_congr mem_map_iff_number mem_map_iff_number

/-- A model has the version of each of its types. -/
theorem version_mem_versions (h : id < m.types.size) : (m.type id).version ∈ m.versions :=
  mem_versions.mpr (.inl ⟨id, h, rfl⟩)

/-- **The lists of versions**: those that have a type or an operation, in their order, each with the
numbers of its own types and operations. -/
theorem entries_versionLists (m : ReleaseModel) : m.versionLists.entries
    = (sortedTexts (m.types.toList.map (·.version) ++ m.operations.toList.map (·.version))).map
        fun version => (version,
          ⟨m.typeIds.filter fun id => (m.type id).version == version,
            m.operationIds.filter fun id => (m.operation id).version == version⟩) := by
  rw [← versions_eq, versions, Table.keys, List.map_map]
  refine (List.map_id _).symm.trans (List.map_congr_left fun e he => ?_)
  have hlist : m.versionList e.1 = e.2 := by
    rw [versionList, Table.mem_entries.mp he, Option.getD_some]
  rw [Function.comp_apply, ← typesOf_eq, ← operationsOf_eq, typesOf, operationsOf, hlist]
  rfl

end ReleaseModel

end ApiModels
