import ApiModels.Proofs.VersionLists
import Mathlib.Data.Set.Card
import Mathlib.Logic.Relation

/-!
# The reference graph of a release

Types refer to types through their properties, across versions and whatever the container. A type
that a release cannot emit is one that reaches a *tangled* component: types that all reach each
other, more than two of them or in more than one version.
-/

namespace ApiModels.ReleaseModel

open Relation

variable {m : ReleaseModel} {u v x : TypeId}

/-! ## Reaching -/

/-- A type refers to another through a property, in whatever container. -/
def Refers (m : ReleaseModel) (u v : TypeId) : Prop := v ∈ (m.type u).references

/-- A type leads to another through any number of references. -/
def Reaches (m : ReleaseModel) : TypeId → TypeId → Prop := ReflTransGen m.Refers

/-- No reference leads out of the model. -/
def Closed (m : ReleaseModel) : Prop := ∀ u v, m.Refers u v → v < m.types.size

theorem Refers.lt (h : m.Refers u v) : u < m.types.size := by
  by_contra hge
  rw [Refers, type_of_ge (Nat.le_of_not_lt hge)] at h
  have hnil : (default : TypeDef).references = [] := rfl
  rw [hnil] at h
  exact absurd h List.not_mem_nil

theorem Refers.of_property {p : Property} (hp : p ∈ (m.type u).properties)
    (hv : p.type.named? = some v) : m.Refers u v :=
  List.mem_filterMap.mpr ⟨p, hp, hv⟩

/-- What a type of the model reaches is in the model. -/
theorem Reaches.lt (hm : m.Closed) (h : m.Reaches u v) (hu : u < m.types.size) :
    v < m.types.size := by
  rcases ReflTransGen.cases_tail h with he | ⟨x, _, hx⟩
  · rw [he]
    exact hu
  · exact hm x v hx

/-- What reaches a type of the model is in the model. -/
theorem Reaches.lt_left (h : m.Reaches u v) (hv : v < m.types.size) : u < m.types.size := by
  rcases ReflTransGen.cases_head h with he | ⟨x, hx, _⟩
  · rw [he]
    exact hv
  · exact hx.lt

/-! ## Components -/

/-- The types that a type reaches and is reached from. -/
def component (m : ReleaseModel) (u : TypeId) : Set TypeId := {v | m.Reaches u v ∧ m.Reaches v u}

/-- A type lies in a component that no split can break: it has three types or more, or types of
more than one version. -/
def Tangled (m : ReleaseModel) (u : TypeId) : Prop :=
  3 ≤ (m.component u).ncard
    ∨ ∃ v ∈ m.component u, ∃ w ∈ m.component u, (m.type v).version ≠ (m.type w).version

/-! ## Heights

A type that cannot be reached back from what it refers to reaches strictly more. So the number of
types reached falls along references, except within a component. -/

/-- How many types a type reaches. -/
noncomputable def height (m : ReleaseModel) (u : TypeId) : Nat := {v | m.Reaches u v}.ncard

theorem finite_reached (hm : m.Closed) (u : TypeId) : {v | m.Reaches u v}.Finite := by
  refine ((Set.finite_lt_nat m.types.size).insert u).subset fun v hv => ?_
  rcases ReflTransGen.cases_tail hv with he | ⟨x, _, hx⟩
  · exact .inl he
  · exact .inr (hm x v hx)

theorem height_eq (h : v ∈ m.component u) : m.height v = m.height u := by
  have hset : {x | m.Reaches v x} = {x | m.Reaches u x} := by
    ext x
    exact ⟨fun hx => ReflTransGen.trans h.1 hx, fun hx => ReflTransGen.trans h.2 hx⟩
  rw [height, hset, height]

theorem height_lt (hm : m.Closed) (h : m.Refers u v) (hb : ¬ m.Reaches v u) :
    m.height v < m.height u := by
  refine Set.ncard_lt_ncard ⟨fun x hx => ReflTransGen.head h hx, fun hsub => ?_⟩
    (finite_reached hm u)
  have hu : m.Reaches v u := hsub ReflTransGen.refl
  exact hb hu

end ApiModels.ReleaseModel
