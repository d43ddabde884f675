import ApiModels.Export
import ApiModels.Proofs.IngestedModel
import ApiModels.Proofs.MergedJson

/-!
# The schema of a type is its unfolding

A type is written with the types it refers to written inside of it, and so on. On the way from the
root to a type lie its ancestors, which are objects. An object that is its own ancestor is cut off,
and everything else is written in full, so what is written below a type depends on its ancestors and
on nothing else. As every ancestor is another type, the way down ends.

The run keeps the ancestors in one list for all of it, to which it adds an object before the
properties and from which it takes one away after them. Whatever a run comes to, it leaves this list
as it found it. So each property is written as the first one is.
-/

namespace ApiModels.Export

open ReleaseModel

variable {m : ReleaseModel} {path : List TypeId} {id depth : Nat} {t : TypeDef} {p : Primitive}
  {schema : Json} {item item' : TypeId → Json}

/-! ## Unfoldings -/

/-- What a reference is written as, given what the types are. -/
def referenceSchema (item : TypeId → Json) : TypeRef → Json
  | .named id => item id
  | .primitive p => primitiveSchema p

/-- An object in full, given what the types it refers to are written as. -/
def fullSchema (t : TypeDef) (item : TypeId → Json) : Json :=
  described t <| objectSchema t <| t.properties.map fun p =>
    (p.name, propertySchema p (referenceSchema item p.type))

/--
`Unfolds m path id schema`: `schema` is what a type is written as below the ancestors `path`, the
innermost first.

A scalar is never cut off, whatever the ancestors. An object is cut off where it is one of them. Else
it is written in full, and each type it refers to below the same ancestors and itself. Every number
on the way is that of a type.
-/
inductive Unfolds (m : ReleaseModel) : List TypeId → TypeId → Json → Prop
  | scalar {path : List TypeId} {id : TypeId} {t : TypeDef} {p : Primitive} :
      m.types[id]? = some t → t.kind = .scalar p →
      Unfolds m path id (described t (primitiveSchema p))
  | cut {path : List TypeId} {id : TypeId} {t : TypeDef} :
      m.types[id]? = some t → t.kind = .object → id ∈ path → Unfolds m path id openObject
  | full {path : List TypeId} {id : TypeId} {t : TypeDef} {item : TypeId → Json} :
      m.types[id]? = some t → t.kind = .object → id ∉ path →
      (∀ v ∈ t.references, Unfolds m (id :: path) v (item v)) →
      Unfolds m path id (fullSchema t item)

theorem fullSchema_congr (h : ∀ v ∈ t.references, item v = item' v) :
    fullSchema t item = fullSchema t item' := by
  unfold fullSchema
  refine congrArg (fun entries => described t (objectSchema t entries)) ?_
  refine List.map_congr_left fun p hp => ?_
  cases htype : p.type with
  | primitive q => rfl
  | named v =>
      have hv : v ∈ t.references := List.mem_filterMap.mpr ⟨p, hp, congrArg TypeRef.named? htype⟩
      rw [referenceSchema, referenceSchema, h v hv]

theorem Unfolds.lt (h : Unfolds m path id schema) : id < m.types.size := by
  cases h with
  | scalar ht | cut ht | full ht => exact (Array.getElem?_eq_some_iff.mp ht).1

/-- A scalar is never cut off. -/
theorem unfolds_iff_of_scalar (ht : m.types[id]? = some t) (hkind : t.kind = .scalar p) :
    Unfolds m path id schema ↔ schema = described t (primitiveSchema p) := by
  constructor
  · intro h
    cases h with
    | scalar ht' hkind' =>
        cases ht.symm.trans ht'
        cases hkind.symm.trans hkind'
        rfl
    | cut ht' hkind' | full ht' hkind' =>
        cases ht.symm.trans ht'
        cases hkind.symm.trans hkind'
  · rintro rfl
    exact .scalar ht hkind

/-- An object that is its own ancestor is cut off. -/
theorem unfolds_iff_of_mem (ht : m.types[id]? = some t) (hkind : t.kind = .object)
    (hpath : id ∈ path) : Unfolds m path id schema ↔ schema = openObject := by
  constructor
  · intro h
    cases h with
    | scalar ht' hkind' =>
        cases ht.symm.trans ht'
        cases hkind.symm.trans hkind'
    | cut => rfl
    | full _ _ hnew => exact absurd hpath hnew
  · rintro rfl
    exact .cut ht hkind hpath

/-- Any other object is written in full. -/
theorem unfolds_iff_of_notMem (ht : m.types[id]? = some t) (hkind : t.kind = .object)
    (hnew : id ∉ path) : Unfolds m path id schema ↔ ∃ item, schema = fullSchema t item
      ∧ ∀ v ∈ t.references, Unfolds m (id :: path) v (item v) := by
  constructor
  · intro h
    cases h with
    | scalar ht' hkind' =>
        cases ht.symm.trans ht'
        cases hkind.symm.trans hkind'
    | cut _ _ hpath => exact absurd hpath hnew
    | full ht' _ _ hitems =>
        cases ht.symm.trans ht'
        exact ⟨_, rfl, hitems⟩
  · rintro ⟨item, rfl, hitems⟩
    exact .full ht hkind hnew hitems

/-- **A type has one unfolding below its ancestors.** -/
theorem Unfolds.unique {a b : Json} (ha : Unfolds m path id a) (hb : Unfolds m path id b) :
    a = b := by
  induction ha generalizing b with
  | scalar ht hkind => exact ((unfolds_iff_of_scalar ht hkind).mp hb).symm
  | cut ht hkind hpath => exact ((unfolds_iff_of_mem ht hkind hpath).mp hb).symm
  | full ht hkind hnew _ ih =>
      obtain ⟨item, rfl, hitems⟩ := (unfolds_iff_of_notMem ht hkind hnew).mp hb
      exact fullSchema_congr fun v hv => ih v hv (hitems v hv)

/-! ## The ancestors are left as they were -/

/-- A run leaves the ancestors as it finds them. -/
def Restores {α : Type} (run : Nesting α) : Prop :=
  ∀ path a rest, run.run path = some (a, rest) → rest = path

/-- **One after the other is as each alone**, for runs that leave the ancestors as they find them. -/
theorem run_mapM_eq_some_iff {α β : Type} {f : α → Nesting β} (hf : ∀ a, Restores (f a))
    {as : List α} {bs : List β} {rest : List TypeId} :
    (as.mapM f).run path = some (bs, rest)
      ↔ rest = path ∧ List.Forall₂ (fun a b => (f a).run path = some (b, path)) as bs := by
  induction as generalizing bs rest with
  | nil =>
      constructor
      · intro h
        cases h
        exact ⟨rfl, .nil⟩
      · rintro ⟨rfl, hbs⟩
        cases hbs
        rfl
  | cons a as ih =>
      rw [List.mapM_cons, StateT.run_bind]
      constructor
      · intro h
        obtain ⟨⟨b, between⟩, hb, h⟩ := Option.bind_eq_some_iff.mp h
        -- the first run leaves the ancestors as they were, so the others start from them, too
        cases hf a _ _ _ hb
        rw [StateT.run_bind] at h
        obtain ⟨⟨bs, rest⟩, hbs, hpure⟩ := Option.bind_eq_some_iff.mp h
        cases hpure
        obtain ⟨hrest, hforall⟩ := ih.mp hbs
        exact ⟨hrest, .cons hb hforall⟩
      · rintro ⟨rfl, hforall⟩
        obtain _ | ⟨hb, hbs⟩ := hforall
        simp [hb, ih.mpr ⟨rfl, hbs⟩]

theorem run_propertyEntry {named : TypeId → Nesting Json} {p : Property} :
    (propertyEntry named p).run path = ((itemSchema named p.type).run path).map
      fun r => ((p.name, propertySchema p r.1), r.2) := by
  simp [propertyEntry, Option.map_eq_bind]

theorem restores_propertyEntry {named : TypeId → Nesting Json} (h : ∀ id, Restores (named id))
    (p : Property) : Restores (propertyEntry named p) := by
  intro path entry rest hentry
  rw [run_propertyEntry] at hentry
  obtain ⟨⟨item, between⟩, hitem, hrest⟩ := Option.map_eq_some_iff.mp hentry
  cases hrest
  cases htype : p.type with
  | named id =>
      rw [htype] at hitem
      exact h id _ _ _ hitem
  | primitive q =>
      rw [htype] at hitem
      cases hitem
      rfl

/-! ## One type -/

theorem run_namedSchema_of_mem (hpath : id ∈ path) :
    (namedSchema m (depth + 1) id).run path = some (openObject, path) := by
  simp [namedSchema, hpath]

theorem run_namedSchema_of_scalar (hpath : id ∉ path) (hkind : (m.type id).kind = .scalar p) :
    (namedSchema m (depth + 1) id).run path
      = some (described (m.type id) (primitiveSchema p), path) := by
  simp [namedSchema, hpath, hkind]

/-- An object is added to the ancestors for its properties only. -/
theorem run_namedSchema_of_object (hpath : id ∉ path) (hkind : (m.type id).kind = .object) :
    (namedSchema m (depth + 1) id).run path
      = (((m.type id).properties.mapM (propertyEntry (namedSchema m depth))).run (id :: path)).map
        fun r => (described (m.type id) (objectSchema (m.type id) r.1), r.2.tail) := by
  simp [namedSchema, hpath, hkind, Option.map_eq_bind]

/-- **Every run leaves the ancestors as it found them**, whether it cuts off, goes on or how deep. -/
theorem restores_namedSchema (m : ReleaseModel) (depth : Nat) (id : TypeId) :
    Restores (namedSchema m depth id) := by
  induction depth generalizing id with
  | zero => exact fun path schema rest h => nomatch h
  | succ depth ih =>
      intro path schema rest h
      by_cases hpath : id ∈ path
      · cases (run_namedSchema_of_mem hpath).symm.trans h
        rfl
      cases hkind : (m.type id).kind with
      | scalar p =>
          cases (run_namedSchema_of_scalar hpath hkind).symm.trans h
          rfl
      | object =>
          rw [run_namedSchema_of_object hpath hkind] at h
          obtain ⟨⟨entries, inner⟩, hentries, hrest⟩ := Option.map_eq_some_iff.mp h
          -- after the properties the object is in front again, and it is what is taken away
          obtain ⟨rfl, -⟩ := (run_mapM_eq_some_iff (restores_propertyEntry ih)).mp hentries
          cases hrest
          rfl

/-! ## The whole run -/

/-- The ancestors of a type: objects of the model, each of them another one. -/
structure Ancestors (m : ReleaseModel) (path : List TypeId) : Prop where
  nodup : path.Nodup
  lt : ∀ u ∈ path, u < m.types.size
  object : ∀ u ∈ path, (m.type u).kind = .object

theorem Ancestors.cons (h : Ancestors m path) (hnew : id ∉ path) (hlt : id < m.types.size)
    (hkind : (m.type id).kind = .object) : Ancestors m (id :: path) where
  nodup := List.nodup_cons.mpr ⟨hnew, h.nodup⟩
  lt := List.forall_mem_cons.mpr ⟨hlt, h.lt⟩
  object := List.forall_mem_cons.mpr ⟨hkind, h.object⟩

/-- A type has no more ancestors than there are types. -/
theorem Ancestors.length_le (h : Ancestors m path) : path.length ≤ m.types.size := by
  have hsub : path.Subperm m.typeIds := h.nodup.subperm fun u hu => mem_typeIds.mpr (h.lt u hu)
  simpa [typeIds] using hsub.length_le

theorem run_itemSchema {named : TypeId → Nesting Json} {type : TypeRef}
    (h : ∀ v, type = .named v → (named v).run path = some (item v, path)) :
    (itemSchema named type).run path = some (referenceSchema item type, path) := by
  cases type with
  | named v => exact h v rfl
  | primitive q => rfl

theorem getElem?_types (h : id < m.types.size) : m.types[id]? = some (m.type id) := by
  rw [type_of_lt h, Array.getElem?_eq_getElem h]

/-- **A run that may go deep enough comes to the unfolding**, by induction on the depth. Either an
ancestor stops it, or there is one more of them. -/
theorem exists_run (hm : m.Closed) (hpath : Ancestors m path) (hid : id < m.types.size)
    (hdepth : m.types.size < depth + path.length) :
    ∃ schema, (namedSchema m depth id).run path = some (schema, path)
      ∧ Unfolds m path id schema := by
  induction depth generalizing path id with
  | zero =>
      -- the depth is not used up before all types are ancestors
      have hle := hpath.length_le
      omega
  | succ depth ih =>
      have ht := getElem?_types hid
      by_cases hnew : id ∈ path
      · exact ⟨openObject, run_namedSchema_of_mem hnew, .cut ht (hpath.object id hnew) hnew⟩
      cases hkind : (m.type id).kind with
      | scalar p => exact ⟨_, run_namedSchema_of_scalar hnew hkind, .scalar ht hkind⟩
      | object =>
          have hinner : ∀ v ∈ (m.type id).references, ∃ schema,
              (namedSchema m depth v).run (id :: path) = some (schema, id :: path)
                ∧ Unfolds m (id :: path) v schema := by
            intro v hv
            refine ih (hpath.cons hnew hid hkind) (hm id v hv) ?_
            rw [List.length_cons]
            omega
          -- what a type is written as here is the same for all the properties that refer to it
          choose! item hrun hunfolds using hinner
          refine ⟨fullSchema (m.type id) item, ?_, .full ht hkind hnew hunfolds⟩
          have hentries : ∀ p ∈ (m.type id).properties,
              (propertyEntry (namedSchema m depth) p).run (id :: path)
                = some ((p.name, propertySchema p (referenceSchema item p.type)), id :: path) := by
            intro p hp
            rw [run_propertyEntry, run_itemSchema fun v hv =>
              hrun v (Refers.of_property hp (congrArg TypeRef.named? hv))]
            rfl
          have hproperties := (run_mapM_eq_some_iff
            (restores_propertyEntry (restores_namedSchema m depth))).mpr
              ⟨rfl, List.forall₂_map_right_iff.mpr (List.forall₂_same.mpr hentries)⟩
          rw [run_namedSchema_of_object hnew hkind, hproperties]
          rfl

/-! ## What is written -/

end ApiModels.Export
