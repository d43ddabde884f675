import ApiModels.Ingest
import ApiModels.Proofs.References

/-!
# Models read from documents

Whatever a schema refers to is looked up among the definitions, and what is not found there stands
for free-form JSON. So no reference of a type or of an operation leads out of the model, and later
stages can look up every number they meet.
-/

namespace ApiModels.Ingest

open Swagger

variable {keys : Keys} {key : String} {label : String} {doc : Document} {id r : TypeId}

/-- What a schema resolves to is free-form or a definition that was found. -/
theorem resolve_named {s : Schema} (h : (resolve keys s).type = .named id) :
    ∃ key, keys key = some id := by
  fun_induction resolve keys s with
  | case1 _ _ _ _ reference _ id' hid =>
      obtain rfl : id' = id := by simpa using h
      exact ⟨_, hid⟩
  | case2 => simp at h
  | case3 => simp at h
  | case4 _ _ _ _ _ _ inner ih =>
      refine ih ?_
      rw [Resolved.within] at h
      split at h
      · exact h
      · simp at h
      · simp at h
  | case5 => simp [Resolved.json] at h
  | case6 => simp at h
  | case7 _ _ _ _ _ _ _ inner ih =>
      refine ih ?_
      rw [Resolved.within] at h
      split at h
      · exact h
      · simp at h
      · simp at h
  | case8 => simp [Resolved.json] at h

/-- A definition found is one of the definitions. -/
theorem definitionId?_lt {definitions : List (String × Schema)}
    (h : definitionId? definitions key = some id) : id < definitions.length := by
  obtain ⟨⟨d, i⟩, hf, rfl⟩ := Option.map_eq_some_iff.mp h
  have hm := List.mem_of_find?_eq_some hf
  rw [List.mem_reverse] at hm
  have hlt := (List.mem_zipIdx hm).2.1
  rw [Nat.zero_add] at hlt
  exact hlt

theorem resolve_lt {s : Schema} {definitions : List (String × Schema)}
    (h : (resolve (definitionId? definitions) s).type.named? = some id) :
    id < definitions.length := by
  cases ht : (resolve (definitionId? definitions) s).type with
  | primitive p => rw [ht] at h; simp [TypeRef.named?] at h
  | named id' =>
      rw [ht] at h
      obtain rfl : id' = id := by simpa [TypeRef.named?] using h
      obtain ⟨key, hkey⟩ := resolve_named ht
      exact definitionId?_lt hkey

/-! ## Types -/

/-- Every definition gives one type, in their order. Operations that come later change none. -/
theorem types_ingest (label : String) (doc : Document) : (ingest label doc).1.types.toList
    = doc.definitions.map fun d => typeOf (definitionId? doc.definitions) d.1 d.2 := by
  unfold ingest
  dsimp only
  rw [ReleaseModel.types_foldl_addOperation, ReleaseModel.toList_types_foldl_addType]
  rfl

theorem size_types : (ingest label doc).1.types.size = doc.definitions.length := by
  rw [← Array.length_toList, types_ingest, List.length_map]

/-- The type of a number is that of the definition in its place. -/
theorem type_eq (h : id < doc.definitions.length) :
    (ingest label doc).1.type id
      = typeOf (definitionId? doc.definitions) doc.definitions[id].1 doc.definitions[id].2 := by
  rw [ReleaseModel.type_of_lt (by rw [size_types]; exact h), ← Array.getElem_toList]
  simp only [types_ingest, List.getElem_map]

/-- Only objects have properties. -/
theorem kind_of_mem_properties {p : ApiModels.Property}
    (h : p ∈ ((ingest label doc).1.type id).properties) :
    ((ingest label doc).1.type id).kind = .object := by
  by_cases hlt : id < doc.definitions.length
  · rw [type_eq hlt, typeOf] at h ⊢
    dsimp only at h ⊢
    split at h
    · rename_i hkind
      exact hkind
    · simp at h
  · rw [ReleaseModel.type_of_ge (by rw [size_types]; exact Nat.le_of_not_lt hlt)]
    rfl

/-- Only objects are documents, for a document has properties for its markers. -/
theorem kind_of_isDocument (h : ((ingest label doc).1.type id).isDocument = true) :
    ((ingest label doc).1.type id).kind = .object := by
  by_cases hlt : id < doc.definitions.length
  · rw [type_eq hlt] at h ⊢
    unfold TypeDef.isDocument typeOf documentOf at h
    dsimp only at h
    split at h
    · split at h
      · rename_i hmarkers
        rw [Bool.and_eq_true] at hmarkers
        have hproperties : doc.definitions[id].2.properties.isEmpty = false := by
          obtain ⟨p, hp, -⟩ := List.any_eq_true.mp hmarkers.1
          exact List.isEmpty_eq_false_iff.mpr (List.ne_nil_of_mem hp)
        unfold typeOf kindOf
        dsimp only
        rw [hproperties]
        rfl
      · cases h
    · cases h
  · rw [ReleaseModel.type_of_ge (by rw [size_types]; exact Nat.le_of_not_lt hlt)] at h
    cases h

/-- **No type refers out of its model.** -/
theorem closed : (ingest label doc).1.Closed := by
  intro u v h
  have hu := h.lt
  rw [size_types] at hu ⊢
  rw [ReleaseModel.Refers, type_eq hu] at h
  obtain ⟨p, hp, hv⟩ := List.mem_filterMap.mp h
  rw [typeOf] at hp
  dsimp only at hp
  split at hp
  · obtain ⟨q, -, rfl⟩ := List.mem_map.mp hp
    exact resolve_lt hv
  · simp at hp

/-! ## Operations -/

/-- What an operation refers to is defined. -/
theorem operationOf_references {shared : String → Option Parameter} {path : String}
    {uses : List ParameterUse} {verb : Verb} {op : Swagger.Operation}
    (h : r ∈ (operationOf (definitionId? doc.definitions) shared path uses verb op).1.references) :
    r < doc.definitions.length := by
  rcases List.mem_append.mp h with h | h
  · obtain ⟨p, hp, hr⟩ := List.mem_filterMap.mp h
    obtain ⟨q, -, rfl⟩ := List.mem_map.mp hp
    exact resolve_lt hr
  · obtain ⟨response, hresp, hr⟩ := Option.bind_eq_some_iff.mp (Option.mem_toList.mp h)
    obtain ⟨resolved, hres, rfl⟩ := Option.map_eq_some_iff.mp hresp
    obtain ⟨s, -, rfl⟩ := Option.map_eq_some_iff.mp hres
    exact resolve_lt hr

/-- Every verb of every path gives one operation, in their order. -/
theorem operations_ingest (label : String) (doc : Document) :
    (ingest label doc).1.operations.toList = doc.paths.flatMap fun p => p.2.operations.map fun o =>
      (operationOf (definitionId? doc.definitions) (sharedParameter? doc.parameters) p.1
        p.2.parameters o.1 o.2).1 := by
  unfold ingest
  dsimp only
  rw [ReleaseModel.toList_operations_foldl_addOperation, ReleaseModel.operations_foldl_addType,
    List.map_flatMap]
  simp only [List.map_map]
  rfl

/-- Every operation of the model is that of a verb of a path. -/
theorem mem_operations {o : ApiModels.Operation} (h : o ∈ (ingest label doc).1.operations) :
    ∃ path uses verb op, o = (operationOf (definitionId? doc.definitions)
      (sharedParameter? doc.parameters) path uses verb op).1 := by
  rw [← Array.mem_toList_iff, operations_ingest] at h
  obtain ⟨p, -, hp⟩ := List.mem_flatMap.mp h
  obtain ⟨q, -, rfl⟩ := List.mem_map.mp hp
  exact ⟨p.1, p.2.parameters, q.1, q.2, rfl⟩

/-- **No operation refers out of its model.** -/
theorem operation_references {op : OperationId}
    (h : r ∈ ((ingest label doc).1.operation op).references) :
    r < (ingest label doc).1.types.size := by
  rw [size_types]
  by_cases hop : op < (ingest label doc).1.operations.size
  · obtain ⟨path, uses, verb, o, ho⟩ := mem_operations (Array.getElem_mem hop)
    rw [ReleaseModel.operation_of_lt hop, ho] at h
    exact operationOf_references h
  · have hnil : (default : ApiModels.Operation).references = [] := rfl
    rw [ReleaseModel.operation, Array.getD, dif_neg hop, hnil] at h
    exact absurd h List.not_mem_nil

/-! ## Anomalies -/

theorem missingAnomaly_kind (version subject name : String) :
    (missingAnomaly version subject name).kind = .knownMissingType
      ∨ (missingAnomaly version subject name).kind = .undefinedReference := by
  unfold missingAnomaly
  split
  · exact .inl rfl
  · exact .inr rfl

/-- Reading a document reports names without a definition, and nothing else. -/
theorem kind_of_mem_anomalies {a : Anomaly} (h : a ∈ (ingest label doc).2) :
    a.kind = .knownMissingType ∨ a.kind = .undefinedReference := by
  rw [ingest] at h
  dsimp only at h
  rcases List.mem_append.mp h with h | h
  · obtain ⟨d, -, ha⟩ := List.mem_flatMap.mp h
    rw [definitionAnomalies] at ha
    split at ha
    · obtain ⟨name, -, rfl⟩ := List.mem_map.mp ha
      exact missingAnomaly_kind _ _ _
    · exact absurd ha List.not_mem_nil
  · obtain ⟨o, ho, ha⟩ := List.mem_flatMap.mp h
    obtain ⟨p, -, hp⟩ := List.mem_flatMap.mp ho
    obtain ⟨v, -, rfl⟩ := List.mem_map.mp hp
    -- shared parameters that do not exist, then names that have no definition
    rcases List.mem_append.mp ha with ha | ha
    · obtain ⟨reference, -, rfl⟩ := List.mem_map.mp ha
      exact .inr rfl
    · obtain ⟨name, -, rfl⟩ := List.mem_map.mp ha
      exact missingAnomaly_kind _ _ _

end ApiModels.Ingest
