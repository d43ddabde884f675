import ApiModels.Proofs.IngestedModel
import Mathlib.Logic.Equiv.Defs

/-!
# Types under other numbers

The number of a type is the place of its definition in the document. Definitions in another order
give a model whose types have other numbers and are otherwise the same, with every reference
renumbered. Whatever is said of a model by way of references, the cycles of its types above all,
holds of the other model under the other numbers.
-/

namespace ApiModels

/-- A reference under other numbers. -/
def TypeRef.renumber (σ : TypeId → TypeId) : TypeRef → TypeRef
  | .named id => .named (σ id)
  | .primitive p => .primitive p

theorem TypeRef.named?_renumber (σ : TypeId → TypeId) (r : TypeRef) :
    (r.renumber σ).named? = r.named?.map σ := by
  cases r with
  | named id => rfl
  | primitive p => rfl

/-- A property under other numbers. -/
def Property.renumber (σ : TypeId → TypeId) (p : Property) : Property :=
  { p with type := p.type.renumber σ }

/-- A type under other numbers. -/
def TypeDef.renumber (σ : TypeId → TypeId) (t : TypeDef) : TypeDef :=
  { t with properties := t.properties.map (Property.renumber σ) }

theorem TypeDef.references_renumber (σ : TypeId → TypeId) (t : TypeDef) :
    (t.renumber σ).references = t.references.map σ := by
  unfold references renumber
  rw [List.filterMap_map, List.map_filterMap]
  exact List.filterMap_congr fun p _ => TypeRef.named?_renumber σ p.type

/-- Renumbering back. -/
theorem TypeDef.renumber_symm (σ : Equiv.Perm TypeId) (t : TypeDef) :
    (t.renumber σ).renumber σ.symm = t := by
  have hproperty : ∀ p : Property, (p.renumber σ).renumber σ.symm = p := by
    rintro ⟨name, type, container, description, modifiers⟩
    cases type with
    | named id =>
        unfold Property.renumber TypeRef.renumber
        dsimp only
        rw [σ.symm_apply_apply]
    | primitive p => rfl
  have hproperties : (t.properties.map (Property.renumber σ)).map (Property.renumber σ.symm)
      = t.properties := by
    rw [List.map_map]
    exact List.map_id'' hproperty _
  unfold renumber
  dsimp only
  rw [hproperties]

namespace ReleaseModel

open Relation

variable {σ : Equiv.Perm TypeId} {m m' : ReleaseModel} {version name key : String}
  {id u v : TypeId}

/-- Two models have the same types under different numbers, and the same versions. -/
structure Renumbered (σ : Equiv.Perm TypeId) (m m' : ReleaseModel) : Prop where
  lt : ∀ id, σ id < m'.types.size ↔ id < m.types.size
  type : ∀ id, m'.type (σ id) = (m.type id).renumber σ
  versions : m'.versions = m.versions

/-- No two types of a model have one key. -/
def DistinctKeys (m : ReleaseModel) : Prop :=
  ∀ u < m.types.size, ∀ v < m.types.size, (m.type u).key = (m.type v).key → u = v

namespace Renumbered

theorem symm (h : Renumbered σ m m') : Renumbered σ.symm m' m where
  lt id := by
    rw [← h.lt, σ.apply_symm_apply]
  type id := by
    have htype := h.type (σ.symm id)
    rw [σ.apply_symm_apply] at htype
    rw [htype, TypeDef.renumber_symm]
  versions := h.versions.symm

/-! ## Lists of types -/

theorem typeKey (h : Renumbered σ m m') (id : TypeId) : (m'.type (σ id)).key = (m.type id).key := by
  rw [h.type]
  rfl

theorem typeVersion (h : Renumbered σ m m') (id : TypeId) :
    (m'.type (σ id)).version = (m.type id).version := by
  rw [h.type]
  rfl

theorem typeName (h : Renumbered σ m m') (id : TypeId) :
    (m'.type (σ id)).name = (m.type id).name := by
  rw [h.type]
  rfl

theorem typeGroup (h : Renumbered σ m m') (id : TypeId) :
    (m'.type (σ id)).group = (m.type id).group := by
  rw [h.type]
  rfl

/-- Types that fit are those that fit under the other numbers. -/
theorem filter_typeIds (h : Renumbered σ m m') {fits fits' : TypeId → Bool}
    (hfits : ∀ id, fits' (σ id) = fits id) :
    (m'.typeIds.filter fits').Perm ((m.typeIds.filter fits).map σ) := by
  refine (List.perm_ext_iff_of_nodup (nodup_typeIds.filter _)
    ((nodup_typeIds.filter _).map σ.injective)).mpr fun v => ?_
  obtain ⟨u, rfl⟩ := σ.surjective v
  rw [List.mem_map_of_injective σ.injective, List.mem_filter, List.mem_filter, mem_typeIds,
    mem_typeIds, h.lt, hfits]

theorem typesOf (h : Renumbered σ m m') (version : String) :
    (m'.typesOf version).Perm ((m.typesOf version).map σ) := by
  rw [typesOf_eq, typesOf_eq]
  exact h.filter_typeIds fun id => by rw [h.typeVersion]

theorem find (h : Renumbered σ m m') (version name : String) :
    (m'.find version name).Perm ((m.find version name).map σ) := by
  have hfilter := (h.typesOf version).filter fun id => (m'.type id).name == name
  rw [List.filter_map] at hfilter
  refine hfilter.trans ?_
  unfold ReleaseModel.find
  rw [List.filter_congr fun id _ => show _ = ((m.type id).name == name) by
    rw [Function.comp_apply, h.typeName]]

/-! ## Keys -/

theorem distinctKeys (h : Renumbered σ m m') (hm : m.DistinctKeys) : m'.DistinctKeys := by
  intro u' hu' v' hv' heq
  obtain ⟨u, rfl⟩ := σ.surjective u'
  obtain ⟨v, rfl⟩ := σ.surjective v'
  rw [h.typeKey, h.typeKey] at heq
  rw [hm u ((h.lt u).mp hu') v ((h.lt v).mp hv') heq]

end Renumbered

/-- **Where keys are distinct, each leads to the type that has it.** -/
theorem findKey?_eq_some_iff (hm : m.DistinctKeys) :
    m.findKey? key = some id ↔ id < m.types.size ∧ (m.type id).key = key := by
  unfold findKey?
  constructor
  · intro h
    exact ⟨mem_typeIds.mp (List.mem_of_find?_eq_some h), by simpa using List.find?_some h⟩
  · rintro ⟨hlt, rfl⟩
    cases hfound : m.typeIds.find? fun v => (m.type v).key == (m.type id).key with
    | none => exact absurd (List.find?_eq_none.mp hfound id (mem_typeIds.mpr hlt)) (by simp)
    | some v =>
        have hv := mem_typeIds.mp (List.mem_of_find?_eq_some hfound)
        rw [hm v hv id hlt (by simpa using List.find?_some hfound)]

theorem Renumbered.findKey? (h : Renumbered σ m m') (hm : m.DistinctKeys) (key : String) :
    m'.findKey? key = (m.findKey? key).map σ := by
  refine Option.ext fun v' => ?_
  obtain ⟨v, rfl⟩ := σ.surjective v'
  rw [findKey?_eq_some_iff (h.distinctKeys hm), h.lt, h.typeKey, ← findKey?_eq_some_iff hm,
    Option.map_eq_some_iff]
  exact ⟨fun hv => ⟨v, hv, rfl⟩, fun ⟨u, hu, heq⟩ => σ.injective heq ▸ hu⟩

/-! ## The reference graph -/

namespace Renumbered

theorem refers (h : Renumbered σ m m') : m'.Refers (σ u) (σ v) ↔ m.Refers u v := by
  unfold Refers
  rw [h.type, TypeDef.references_renumber, List.mem_map_of_injective σ.injective]

theorem reaches_of (h : Renumbered σ m m') (hr : m.Reaches u v) : m'.Reaches (σ u) (σ v) :=
  ReflTransGen.lift σ (fun _ _ hxy => h.refers.mpr hxy) _ _ hr

theorem reaches (h : Renumbered σ m m') : m'.Reaches (σ u) (σ v) ↔ m.Reaches u v := by
  refine ⟨fun hr => ?_, h.reaches_of⟩
  have hback := h.symm.reaches_of hr
  rwa [σ.symm_apply_apply, σ.symm_apply_apply] at hback

theorem mem_component (h : Renumbered σ m m') :
    σ v ∈ m'.component (σ u) ↔ v ∈ m.component u := and_congr h.reaches h.reaches

theorem component (h : Renumbered σ m m') (u : TypeId) :
    m'.component (σ u) = σ '' m.component u := by
  ext v'
  obtain ⟨v, rfl⟩ := σ.surjective v'
  rw [h.mem_component, σ.injective.mem_set_image]

/-- **Tangled types are tangled under any numbers.** -/
theorem tangled (h : Renumbered σ m m') : m'.Tangled (σ u) ↔ m.Tangled u := by
  unfold Tangled
  rw [h.component, Set.ncard_image_of_injective _ σ.injective]
  simp only [Set.exists_mem_image, h.typeVersion]

theorem closed (h : Renumbered σ m m') (hm : m.Closed) : m'.Closed := by
  intro u' v' hr
  obtain ⟨u, rfl⟩ := σ.surjective u'
  obtain ⟨v, rfl⟩ := σ.surjective v'
  exact (h.lt v).mpr (hm u v (h.refers.mp hr))

end Renumbered

end ReleaseModel

/-! ## Documents -/

namespace Ingest

open Swagger ReleaseModel

variable {definitions definitions' : List (String × Schema)} {key label : String}
  {doc doc' : Document} {id : TypeId} {σ : Equiv.Perm TypeId}

/-- Places of a list moved up by one, behind a new first place. -/
def behindFirst (σ : Equiv.Perm TypeId) : Equiv.Perm TypeId where
  toFun
    | 0 => 0
    | i + 1 => σ i + 1
  invFun
    | 0 => 0
    | i + 1 => σ.symm i + 1
  left_inv i := by
    cases i with
    | zero => rfl
    | succ i => exact congrArg (· + 1) (σ.symm_apply_apply i)
  right_inv i := by
    cases i with
    | zero => rfl
    | succ i => exact congrArg (· + 1) (σ.apply_symm_apply i)

/-- The first two places of a list exchanged. -/
def firstTwo : Equiv.Perm TypeId where
  toFun
    | 0 => 1
    | 1 => 0
    | i + 2 => i + 2
  invFun
    | 0 => 1
    | 1 => 0
    | i + 2 => i + 2
  left_inv i := by
    match i with
    | 0 | 1 | i + 2 => rfl
  right_inv i := by
    match i with
    | 0 | 1 | i + 2 => rfl

/-- **What is in a list is in a permutation of it, in another place.** -/
theorem exists_places {α : Type} {l l' : List α} (h : l.Perm l') :
    ∃ σ : Equiv.Perm TypeId, ∀ i : TypeId, l'[σ i]? = l[i]? := by
  induction h with
  | nil => exact ⟨Equiv.refl _, fun i => rfl⟩
  | cons a _ ih =>
      obtain ⟨σ, hσ⟩ := ih
      refine ⟨behindFirst σ, fun i => ?_⟩
      cases i with
      | zero => rfl
      | succ i => exact hσ i
  | swap a b l =>
      refine ⟨firstTwo, fun i => ?_⟩
      match i with
      | 0 | 1 | i + 2 => rfl
  | trans _ _ ih ih' =>
      obtain ⟨σ, hσ⟩ := ih
      obtain ⟨σ', hσ'⟩ := ih'
      exact ⟨σ.trans σ', fun i => (hσ' (σ i)).trans (hσ i)⟩

/-- Where keys are distinct, the definition of a key is the one that has it. -/
theorem definitionId?_eq_some_iff (hnodup : (definitions.map Prod.fst).Nodup) :
    definitionId? definitions key = some id ↔ (definitions.map Prod.fst)[id]? = some key := by
  unfold definitionId?
  rw [Option.map_eq_some_iff]
  constructor
  · rintro ⟨⟨d, i⟩, hfound, rfl⟩
    have hmem := List.mem_reverse.mp (List.mem_of_find?_eq_some hfound)
    rw [List.mem_zipIdx_iff_getElem?] at hmem
    rw [List.getElem?_map, hmem]
    simpa using List.find?_some hfound
  · intro hid
    obtain ⟨d, hd, rfl⟩ := Option.map_eq_some_iff.mp ((List.getElem?_map ..).symm.trans hid)
    -- The last definition of a key counts. As keys are distinct, it is this one.
    have hmem : (d, id) ∈ definitions.zipIdx.reverse :=
      List.mem_reverse.mpr (List.mem_zipIdx_iff_getElem?.mpr hd)
    cases hfound : definitions.zipIdx.reverse.find? fun e => e.1.1 == d.1 with
    | none => exact absurd (List.find?_eq_none.mp hfound _ hmem) (by simp)
    | some e =>
        refine ⟨e, rfl, ?_⟩
        have hkey : e.1.1 = d.1 := by simpa using List.find?_some hfound
        have he := List.mem_reverse.mp (List.mem_of_find?_eq_some hfound)
        rw [List.mem_zipIdx_iff_getElem?] at he
        have hother : (definitions.map Prod.fst)[e.2]? = some d.1 := by
          rw [List.getElem?_map, he, ← hkey]
          rfl
        obtain ⟨hlt, hhere⟩ := List.getElem?_eq_some_iff.mp hid
        obtain ⟨hlt', hthere⟩ := List.getElem?_eq_some_iff.mp hother
        exact hnodup.getElem_inj_iff.mp (hthere.trans hhere.symm)

/-- Keys lead to the same definitions, in their other places. -/
theorem definitionId?_renumber (hnodup : (definitions.map Prod.fst).Nodup)
    (hnodup' : (definitions'.map Prod.fst).Nodup)
    (hσ : ∀ i : TypeId, definitions'[σ i]? = definitions[i]?) (key : String) :
    definitionId? definitions' key = (definitionId? definitions key).map σ := by
  refine Option.ext fun v' => ?_
  obtain ⟨v, rfl⟩ := σ.surjective v'
  rw [definitionId?_eq_some_iff hnodup', List.getElem?_map, hσ, ← List.getElem?_map,
    ← definitionId?_eq_some_iff hnodup, Option.map_eq_some_iff]
  exact ⟨fun hv => ⟨v, hv, rfl⟩, fun ⟨u, hu, heq⟩ => σ.injective heq ▸ hu⟩

/-- What is resolved, under other numbers. -/
def Resolved.renumber (σ : TypeId → TypeId) (r : Resolved) : Resolved :=
  { r with type := r.type.renumber σ }

theorem within_renumber (r : Resolved) (shape : Shape) :
    (r.renumber σ).within shape = (r.within shape).renumber σ := by
  unfold Resolved.within Resolved.renumber
  cases hshape : r.shape with
  | plain => rfl
  | list => rfl
  | map => rfl

/-- **A schema resolves to the same type under other numbers.** -/
theorem resolve_renumber (keys : Keys) (s : Schema) :
    resolve (fun key => (keys key).map σ) s = (resolve keys s).renumber σ := by
  fun_induction resolve keys s with
  | case1 _ _ _ _ _ hreference _ hid =>
      unfold resolve
      simp [hreference, hid, Resolved.renumber, TypeRef.renumber]
  | case2 _ _ _ _ _ hreference hnone =>
      unfold resolve
      simp [hreference, hnone, Resolved.renumber, TypeRef.renumber]
  | case3 _ _ _ _ hreference hint =>
      unfold resolve
      simp [hreference, hint, Resolved.renumber, TypeRef.renumber]
  | case4 _ _ _ hreference hint htype _ ih =>
      conv_lhs => unfold resolve
      simp [hreference, hint, htype, ih, within_renumber]
  | case5 _ _ _ hreference hint htype =>
      unfold resolve
      simp [hreference, hint, htype, Resolved.json, Resolved.renumber, TypeRef.renumber]
  | case6 _ _ _ _ hreference hint htype _ hobject =>
      unfold resolve
      simp only [hreference, hint, htype, hobject, if_false]
      rfl
  | case7 _ _ _ hreference hint htype hobject _ ih =>
      conv_lhs => unfold resolve
      simp only [hreference, hint, htype, hobject, if_false, ih, within_renumber]
  | case8 _ _ _ hreference hint htype hobject =>
      unfold resolve
      simp only [hreference, hint, htype, hobject, if_false]
      rfl

theorem typeOf_renumber (keys : Keys) (key : String) (s : Schema) :
    typeOf (fun key => (keys key).map σ) key s = (typeOf keys key s).renumber σ := by
  have hproperty : ∀ (required : List String) (name : String) (s : Schema),
      property (fun key => (keys key).map σ) required name s
        = (property keys required name s).renumber σ := by
    intro required name s
    unfold property
    rw [resolve_renumber]
    rfl
  unfold typeOf TypeDef.renumber
  dsimp only
  congr 1
  split
  · rw [List.map_map]
    exact List.map_congr_left fun p _ => hproperty _ _ _
  · rfl

theorem map_version_operations :
    (ingest label doc).1.operations.toList.map (·.version)
      = doc.paths.flatMap fun p => p.2.operations.map fun o => (groupVersionOf p.1 o.2).2 := by
  rw [operations_ingest, List.map_flatMap]
  refine List.flatMap_congr fun p _ => ?_
  rw [List.map_map]
  rfl

theorem distinctKeys (hnodup : (doc.definitions.map Prod.fst).Nodup) :
    (ingest label doc).1.DistinctKeys := by
  intro u hu v hv heq
  rw [size_types] at hu hv
  rw [type_eq hu, type_eq hv] at heq
  have hu' : u < (doc.definitions.map Prod.fst).length := by rwa [List.length_map]
  have hv' : v < (doc.definitions.map Prod.fst).length := by rwa [List.length_map]
  have hkeys : (doc.definitions.map Prod.fst)[u] = (doc.definitions.map Prod.fst)[v] := by
    rw [List.getElem_map, List.getElem_map]
    exact heq
  exact hnodup.getElem_inj_iff.mp hkeys

/-- **Definitions in another order give the same model under other numbers.** -/
theorem exists_renumbered (label : String) (hpaths : doc'.paths = doc.paths)
    (hperm : doc.definitions.Perm doc'.definitions)
    (hnodup : (doc.definitions.map Prod.fst).Nodup) :
    ∃ σ : Equiv.Perm TypeId, Renumbered σ (ingest label doc).1 (ingest label doc').1 := by
  obtain ⟨σ, hσ⟩ := exists_places hperm
  have hnodup' : (doc'.definitions.map Prod.fst).Nodup := (hperm.map _).nodup_iff.mp hnodup
  have hlt : ∀ id, σ id < doc'.definitions.length ↔ id < doc.definitions.length := by
    intro id
    rw [← not_iff_not, Nat.not_lt, Nat.not_lt, ← List.getElem?_eq_none_iff,
      ← List.getElem?_eq_none_iff, hσ]
  refine ⟨σ, fun id => ?_, fun id => ?_, ?_⟩
  · rw [size_types, size_types, hlt]
  · by_cases hid : id < doc.definitions.length
    · have hid' : σ id < doc'.definitions.length := (hlt id).mpr hid
      have hplace : doc'.definitions[σ id] = doc.definitions[id] := by
        have hsome := hσ id
        rwa [List.getElem?_eq_getElem hid, List.getElem?_eq_getElem hid',
          Option.some.injEq] at hsome
      have hkeys : definitionId? doc'.definitions
          = fun key => (definitionId? doc.definitions key).map σ :=
        funext fun key => definitionId?_renumber hnodup hnodup' hσ key
      rw [type_eq hid, type_eq hid', hplace, hkeys, typeOf_renumber]
    · -- Behind the last definition all types are the default, which refers to none.
      have hid' : ¬ σ id < doc'.definitions.length := fun h => hid ((hlt id).mp h)
      rw [ReleaseModel.type_of_ge (by rw [size_types]; exact Nat.le_of_not_lt hid'),
        ReleaseModel.type_of_ge (by rw [size_types]; exact Nat.le_of_not_lt hid)]
      rfl
  · have htypes : ∀ d : Document, (ingest label d).1.types.toList.map (·.version)
        = d.definitions.map fun e => (splitDefinitionKey e.1).version := by
      intro d
      rw [types_ingest, List.map_map]
      rfl
    rw [versions_eq, versions_eq]
    refine sortedTexts_congr fun s => ?_
    rw [map_version_operations, map_version_operations, hpaths, htypes, htypes, List.mem_append,
      List.mem_append, (hperm.map _).mem_iff]

end Ingest

end ApiModels
