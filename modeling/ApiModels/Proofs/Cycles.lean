import ApiModels.Order
import ApiModels.Proofs.Components
import ApiModels.Proofs.References

/-!
# The cycles of a release

Cycles are looked for in a graph made of the references between different types, in the order of
versions and names. That a type may refer to itself, and the order, make no difference to what
reaches what. So the cycles are exactly the components of more than one type, each once, and the
ones a split can break are those that are not tangled.
-/

namespace ApiModels.Order

open Relation ReleaseModel

variable {m : ReleaseModel} {names : Names} {u v : TypeId} {c : List TypeId}

/-! ## The graph -/

theorem mem_nodes : u ∈ nodes m names ↔ u < m.types.size := by
  rw [nodes, List.mem_mergeSort, List.mem_flatMap]
  constructor
  · rintro ⟨version, -, hu⟩
    exact (mem_typesOf.mp hu).1
  · exact fun hu => ⟨_, version_mem_versions hu, mem_typesOf.mpr ⟨hu, rfl⟩⟩

theorem sortByName_perm (names : Names) (ids : List TypeId) : (sortByName names ids).Perm ids :=
  List.mergeSort_perm _ _

theorem mem_edges : v ∈ edges m names u ↔ v < m.types.size ∧ m.Refers u v ∧ v ≠ u := by
  rw [edges, (sortByName_perm names _).mem_iff, List.mem_filter, mem_typeIds, List.contains_iff_mem,
    List.mem_filter, decide_eq_true_iff]
  rfl

/-- The edges of every type, as the search for cycles looks them up. -/
def edgesAt (m : ReleaseModel) (names : Names) (u : TypeId) : List TypeId :=
  (m.typeIds.map (edges m names)).toArray.getD u []

theorem mem_edgesAt (hm : m.Closed) : v ∈ edgesAt m names u ↔ m.Refers u v ∧ v ≠ u := by
  by_cases hu : u < m.types.size
  · have hat : edgesAt m names u = edges m names u := by
      simp [edgesAt, typeIds, hu]
    rw [hat, mem_edges]
    exact ⟨fun h => h.2, fun h => ⟨hm u v h.1, h⟩⟩
  · have hat : edgesAt m names u = [] := by
      simp [edgesAt, typeIds, hu]
    rw [hat]
    exact ⟨fun h => absurd h List.not_mem_nil, fun h => absurd h.1.lt hu⟩

/-- References of types to themselves lead nowhere new. -/
theorem reaches_edgesAt (hm : m.Closed) : Graph.Reaches (edgesAt m names) u v ↔ m.Reaches u v := by
  constructor
  · intro h
    induction h with
    | refl => exact ReflTransGen.refl
    | tail _ hxy ih => exact ReflTransGen.tail ih ((mem_edgesAt hm).mp hxy).1
  · intro h
    induction h with
    | refl => exact ReflTransGen.refl
    | @tail x y _ hxy ih =>
        by_cases hne : y = x
        · rw [hne]
          exact ih
        · exact ReflTransGen.tail ih ((mem_edgesAt hm).mpr ⟨hxy, hne⟩)

theorem mutual_edgesAt (hm : m.Closed) :
    Graph.Mutual (edgesAt m names) u v ↔ v ∈ m.component u :=
  and_congr (reaches_edgesAt hm) (reaches_edgesAt hm)

theorem isComponents (names : Names) (hm : m.Closed) :
    Graph.IsComponents (edgesAt m names) (nodes m names)
      (Graph.components (edgesAt m names) (nodes m names)) := by
  refine Graph.isComponents_components fun x _ y hy => ?_
  exact mem_nodes.mpr (hm x y ((mem_edgesAt hm).mp hy).1)

/-! ## Cycles -/

theorem mem_cycles : c ∈ cycles m names ↔
    ∃ d ∈ Graph.components (edgesAt m names) (nodes m names),
      2 ≤ d.length ∧ sortByName names d = c := by
  rw [show cycles m names = ((Graph.components (edgesAt m names) (nodes m names)).filter
    fun c => 2 ≤ c.length).map (sortByName names) from rfl, List.mem_map]
  simp only [List.mem_filter, decide_eq_true_eq, and_assoc]

/-- A cycle lists a component of more than one type. -/
theorem cycle_eq_component (hm : m.Closed) (hc : c ∈ cycles m names) :
    2 ≤ c.length ∧ c.Nodup
      ∧ ∀ u ∈ c, u < m.types.size ∧ ∀ v, v ∈ c ↔ v ∈ m.component u := by
  obtain ⟨d, hd, hlen, rfl⟩ := mem_cycles.mp hc
  have hcs := isComponents names hm
  have hperm := sortByName_perm names d
  refine ⟨by rw [hperm.length_eq]; exact hlen, ?_, ?_⟩
  · rw [hperm.nodup_iff]
    exact (List.nodup_flatten.mp hcs.nodup).1 d hd
  · intro u hu
    rw [hperm.mem_iff] at hu
    refine ⟨mem_nodes.mp ((hcs.mem u).mp (List.mem_flatten.mpr ⟨d, hd, hu⟩)), fun v => ?_⟩
    rw [hperm.mem_iff, (hcs.classes d hd).2 u hu v, mutual_edgesAt hm]

/-- A type that another reaches and is reached from is in a cycle. -/
theorem exists_cycle (names : Names) (hm : m.Closed) (hu : u < m.types.size)
    (hv : v ∈ m.component u) (hne : v ≠ u) : ∃ c ∈ cycles m names, u ∈ c := by
  have hcs := isComponents names hm
  obtain ⟨d, hd, hud⟩ := List.mem_flatten.mp ((hcs.mem u).mpr (mem_nodes.mpr hu))
  have hvd : v ∈ d := ((hcs.classes d hd).2 u hud v).mpr ((mutual_edgesAt hm).mpr hv)
  refine ⟨sortByName names d, mem_cycles.mpr ⟨d, hd, ?_, rfl⟩,
    (sortByName_perm names d).mem_iff.mpr hud⟩
  -- the component holds both, and they differ
  have hsub : [v, u] ⊆ d := by
    intro x hx
    rcases List.mem_cons.mp hx with rfl | hx
    · exact hvd
    · exact List.mem_singleton.mp hx ▸ hud
  exact (List.subperm_of_subset (by simpa using hne) hsub).length_le

/-- No type is in two cycles, or twice in one. -/
theorem cycles_nodup (names : Names) (hm : m.Closed) : (cycles m names).flatten.Nodup := by
  have hcs := List.nodup_flatten.mp (isComponents names hm).nodup
  refine List.nodup_flatten.mpr ⟨fun c hc => (cycle_eq_component hm hc).2.1, ?_⟩
  refine List.pairwise_map.mpr ((hcs.2.filter _).imp ?_)
  intro c d hcd x hx hx'
  exact hcd ((sortByName_perm names c).mem_iff.mp hx) ((sortByName_perm names d).mem_iff.mp hx')

/-- The cycle of a type is determined by it. -/
theorem cycle_unique (hm : m.Closed) {d : List TypeId} (hc : c ∈ cycles m names)
    (hd : d ∈ cycles m names) (hu : u ∈ c) (hu' : u ∈ d) : c = d := by
  by_contra hne
  have hdisj := (List.nodup_flatten.mp (cycles_nodup names hm)).2
  have hsymm : Std.Symm (@List.Disjoint TypeId) := ⟨fun _ _ h => h.symm⟩
  exact hdisj.forall hc hd hne hu hu'

/-! ## Which cycles can be broken -/

theorem ncard_component (hm : m.Closed) (hc : c ∈ cycles m names) (hu : u ∈ c) :
    (m.component u).ncard = c.length := by
  obtain ⟨-, hnd, hall⟩ := cycle_eq_component hm hc
  have hset : m.component u = ↑c.toFinset := by
    ext v
    rw [List.coe_toFinset]
    exact ((hall u hu).2 v).symm
  rw [hset, Set.ncard_coe_finset, List.toFinset_card_of_nodup hnd]

/-- **A split can break exactly the cycles that are not tangled.** -/
theorem isSplittable_iff (hm : m.Closed) (hc : c ∈ cycles m names) (hu : u ∈ c) :
    isSplittable m c = true ↔ ¬ m.Tangled u := by
  obtain ⟨hlen, -, hall⟩ := cycle_eq_component hm hc
  -- the types of the cycle are those of the component, so both have the same versions
  have hne : c.map (fun id => (m.type id).version) ≠ [] := by
    intro h
    rw [List.map_eq_nil_iff.mp h] at hlen
    simp at hlen
  have hsame : (∀ s ∈ c.map fun id => (m.type id).version,
      ∀ t ∈ c.map fun id => (m.type id).version, s = t)
        ↔ ∀ v ∈ m.component u, ∀ w ∈ m.component u, (m.type v).version = (m.type w).version := by
    simp only [List.forall_mem_map, (hall u hu).2]
  rw [isSplittable, Bool.and_eq_true, decide_eq_true_iff, decide_eq_true_iff, versionsOf,
    length_sortedTexts_eq_one, hsame, Tangled, ncard_component hm hc hu]
  constructor
  · rintro ⟨htwo, -, hv⟩ (h | ⟨v, hv', w, hw', hdiff⟩)
    · omega
    · exact hdiff (hv v hv' w hw')
  · intro h
    rw [not_or] at h
    refine ⟨by omega, hne, fun v hv w hw => ?_⟩
    by_contra hdiff
    exact h.2 ⟨v, hv, w, hw, hdiff⟩

/-- A tangled type is not alone in its component. -/
theorem exists_of_tangled (h : m.Tangled u) : ∃ v ∈ m.component u, v ≠ u := by
  rcases h with h | ⟨v, hv, w, hw, hdiff⟩
  · by_contra hall
    push Not at hall
    -- a component of three is more than the type itself
    have hsub : m.component u ⊆ {u} := fun v hv => hall v hv
    have := Set.ncard_le_ncard hsub
    rw [Set.ncard_singleton] at this
    omega
  · by_cases hvu : v = u
    · refine ⟨w, hw, fun hwu => hdiff ?_⟩
      rw [hvu, hwu]
    · exact ⟨v, hv, hvu⟩

/-- **The cycles that no split can break hold exactly the tangled types.** -/
theorem mem_unsupported (hm : m.Closed) :
    u ∈ ((cycles m names).filter fun c => !isSplittable m c).flatten
      ↔ u < m.types.size ∧ m.Tangled u := by
  constructor
  · intro h
    obtain ⟨c, hc, hu⟩ := List.mem_flatten.mp h
    obtain ⟨hc, hsplit⟩ := List.mem_filter.mp hc
    refine ⟨((cycle_eq_component hm hc).2.2 u hu).1, ?_⟩
    by_contra hnt
    rw [(isSplittable_iff hm hc hu).mpr hnt] at hsplit
    simp at hsplit
  · rintro ⟨hlt, ht⟩
    obtain ⟨v, hv, hne⟩ := exists_of_tangled ht
    obtain ⟨c, hc, hu⟩ := exists_cycle names hm hlt hv hne
    refine List.mem_flatten.mpr ⟨c, List.mem_filter.mpr ⟨hc, ?_⟩, hu⟩
    rw [Bool.not_eq_true', Bool.eq_false_iff]
    exact fun hs => (isSplittable_iff hm hc hu).mp hs ht

end ApiModels.Order
