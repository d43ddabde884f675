import ApiModels.Proofs.Cycles
import ApiModels.Proofs.DistinctNames

/-!
# What is left out of a release

Dependents are left out in rounds, until a round finds none. A round that finds any leaves out a
type that was kept before, so no more rounds are needed than there are types. What is left out in
the end is what reaches a type left out in the beginning, and each such type is reported once.
-/

namespace ApiModels.Order

open Relation ReleaseModel

variable {m : ReleaseModel} {names : Names} {excluded : List TypeId} {rounds : Nat}
  {id u v culprit : TypeId}

/-! ## One round -/

theorem mem_dependents (h : (id, culprit) ∈ dependents m excluded) :
    id < m.types.size ∧ id ∉ excluded ∧ m.Refers id culprit ∧ culprit ∈ excluded := by
  obtain ⟨u, hu, hf⟩ := List.mem_filterMap.mp h
  obtain ⟨v, hv, he⟩ := Option.map_eq_some_iff.mp hf
  obtain ⟨rfl, rfl⟩ := Prod.mk.inj he
  obtain ⟨hlt, hne⟩ := List.mem_filter.mp hu
  refine ⟨mem_typeIds.mp hlt, by simpa using hne, List.mem_of_find?_eq_some hv, ?_⟩
  simpa using List.find?_some hv

/-- A round finds every type kept that refers to one left out. -/
theorem exists_mem_dependents (h : m.Refers u v) (hu : u ∉ excluded) (hv : v ∈ excluded) :
    ∃ c, (u, c) ∈ dependents m excluded := by
  have hsome : ((m.type u).references.find? excluded.contains).isSome := by
    rw [List.find?_isSome]
    exact ⟨v, h, by simpa using hv⟩
  obtain ⟨c, hc⟩ := Option.isSome_iff_exists.mp hsome
  refine ⟨c, List.mem_filterMap.mpr ⟨u, List.mem_filter.mpr ⟨mem_typeIds.mpr h.lt, ?_⟩, ?_⟩⟩
  · simpa using hu
  · rw [hc]
    rfl

theorem nodup_dependents : ((dependents m excluded).map Prod.fst).Nodup := by
  have hfst : ∀ ids : List TypeId, ((ids.filterMap fun id =>
      ((m.type id).references.find? excluded.contains).map fun culprit => (id, culprit)).map
        Prod.fst).Sublist ids := by
    intro ids
    induction ids with
    | nil => exact List.Sublist.refl []
    | cons id ids ih =>
        cases hc : (m.type id).references.find? excluded.contains with
        | none =>
            rw [List.filterMap_cons_none (by rw [hc]; rfl)]
            exact ih.cons id
        | some culprit =>
            rw [List.filterMap_cons_some (b := (id, culprit)) (by rw [hc]; rfl)]
            exact ih.cons_cons id
  exact (nodup_typeIds.filter _).sublist (hfst _)

/-! ## All rounds -/

/-- The anomaly of a type that refers to one left out. -/
def dependentAnomaly (m : ReleaseModel) (names : Names) (found : TypeId × TypeId) : Anomaly :=
  ⟨.dependsOnExcluded, (m.type found.1).version, names.name found.1,
    "references excluded type " ++ names.name found.2⟩

theorem spread_cons {found : TypeId × TypeId} {more : List (TypeId × TypeId)}
    (h : dependents m excluded = found :: more) :
    spread m names (rounds + 1) excluded
      = ((spread m names rounds (excluded ++ (dependents m excluded).map Prod.fst)).1,
        (dependents m excluded).map (dependentAnomaly m names)
          ++ (spread m names rounds (excluded ++ (dependents m excluded).map Prod.fst)).2) := by
  rw [spread, h]
  rfl

/-- **What the rounds add**: types that were kept, each once and with one anomaly, all of which
reach something left out before. -/
theorem spread_found (m : ReleaseModel) (names : Names) (rounds : Nat) (excluded : List TypeId) :
    ∃ found : List (TypeId × TypeId),
      (spread m names rounds excluded).1 = excluded ++ found.map Prod.fst
        ∧ (spread m names rounds excluded).2 = found.map (dependentAnomaly m names)
        ∧ (found.map Prod.fst).Nodup
        ∧ ∀ u ∈ found.map Prod.fst, u < m.types.size ∧ u ∉ excluded
          ∧ ∃ x ∈ excluded, m.Reaches u x := by
  induction rounds generalizing excluded with
  | zero => exact ⟨[], by simp [spread], by simp [spread], by simp, by simp⟩
  | succ rounds ih =>
      cases hd : dependents m excluded with
      | nil => exact ⟨[], by simp [spread, hd], by simp [spread, hd], by simp, by simp⟩
      | cons first more =>
          rw [spread_cons hd]
          -- what this round finds refers to something left out before it
          have hround : ∀ u ∈ (dependents m excluded).map Prod.fst, u < m.types.size
              ∧ u ∉ excluded ∧ ∃ x ∈ excluded, m.Reaches u x := by
            intro u hu
            obtain ⟨⟨u', c⟩, hm, rfl⟩ := List.mem_map.mp hu
            obtain ⟨hlt, hne, href, hc⟩ := mem_dependents hm
            exact ⟨hlt, hne, c, hc, ReflTransGen.single href⟩
          obtain ⟨found, hall, hdiags, hnd, hfound⟩ :=
            ih (excluded ++ (dependents m excluded).map Prod.fst)
          refine ⟨dependents m excluded ++ found, ?_, ?_, ?_, ?_⟩
          · rw [hall, List.map_append, List.append_assoc]
          · rw [hdiags, List.map_append]
          · rw [List.map_append]
            refine List.nodup_append.mpr ⟨nodup_dependents, hnd, ?_⟩
            intro a ha b hb hab
            exact (hfound b hb).2.1 (List.mem_append_right _ (hab ▸ ha))
          · intro u hu
            rw [List.map_append] at hu
            rcases List.mem_append.mp hu with hu | hu
            · exact hround u hu
            · obtain ⟨hlt, hne, x, hx, hr⟩ := hfound u hu
              refine ⟨hlt, fun he => hne (List.mem_append_left _ he), ?_⟩
              -- a later find reaches what this round found, and further what was left out before
              rcases List.mem_append.mp hx with hx | hx
              · exact ⟨x, hx, hr⟩
              · obtain ⟨-, -, y, hy, hxy⟩ := hround x hx
                exact ⟨y, hy, ReflTransGen.trans hr hxy⟩

/-- A round that finds a type leaves fewer kept. -/
theorem length_kept_lt (h : (id, culprit) ∈ dependents m excluded) :
    (m.typeIds.filter fun u =>
        !(excluded ++ (dependents m excluded).map Prod.fst).contains u).length
      < (m.typeIds.filter fun u => !excluded.contains u).length := by
  obtain ⟨hlt, hne, -, -⟩ := mem_dependents h
  have hnew : id ∈ (dependents m excluded).map Prod.fst := List.mem_map.mpr ⟨_, h, rfl⟩
  have heq : (m.typeIds.filter fun u =>
        !(excluded ++ (dependents m excluded).map Prod.fst).contains u)
      = (m.typeIds.filter fun u => !excluded.contains u).filter fun u =>
        !((dependents m excluded).map Prod.fst).contains u := by
    rw [List.filter_filter]
    refine List.filter_congr fun u _ => ?_
    rw [List.contains_append, Bool.not_or, Bool.and_comm]
  rw [heq]
  refine List.length_filter_lt_length_iff_exists.mpr ⟨id, ?_, ?_⟩
  · exact List.mem_filter.mpr ⟨mem_typeIds.mpr hlt, by simpa using hne⟩
  · simpa using hnew

/-- **With a round for every type kept, none is left that refers to one left out.** -/
theorem spread_settled (hr : (m.typeIds.filter fun id => !excluded.contains id).length ≤ rounds)
    (h : m.Refers u v) (hv : v ∈ (spread m names rounds excluded).1) :
    u ∈ (spread m names rounds excluded).1 := by
  induction rounds generalizing excluded with
  | zero =>
      -- no type is kept any more
      have hnil := List.eq_nil_of_length_eq_zero (Nat.le_zero.mp hr)
      have hu := List.filter_eq_nil_iff.mp hnil u (mem_typeIds.mpr h.lt)
      simpa [spread] using hu
  | succ rounds ih =>
      cases hd : dependents m excluded with
      | nil =>
          have heq : (spread m names (rounds + 1) excluded).1 = excluded := by simp [spread, hd]
          rw [heq] at hv ⊢
          by_contra hu
          obtain ⟨c, hc⟩ := exists_mem_dependents h hu hv
          rw [hd] at hc
          exact absurd hc List.not_mem_nil
      | cons first more =>
          rw [spread_cons hd] at hv ⊢
          refine ih ?_ hv
          -- the round has left out a type that was kept
          have hfirst : (first.1, first.2) ∈ dependents m excluded := by
            rw [hd]
            exact List.mem_cons_self
          have hlt := length_kept_lt hfirst
          omega

/-- **Left out in the end is what reaches a type left out in the beginning.** -/
theorem mem_spread : u ∈ (spread m names m.types.size excluded).1
    ↔ ∃ x ∈ excluded, m.Reaches u x := by
  have hall : ∀ {v}, v ∈ excluded → v ∈ (spread m names m.types.size excluded).1 := by
    intro v hv
    obtain ⟨found, heq, -⟩ := spread_found m names m.types.size excluded
    rw [heq]
    exact List.mem_append_left _ hv
  constructor
  · intro h
    obtain ⟨found, heq, -, -, hfound⟩ := spread_found m names m.types.size excluded
    rw [heq] at h
    rcases List.mem_append.mp h with h | h
    · exact ⟨u, h, ReflTransGen.refl⟩
    · exact (hfound u h).2.2
  · rintro ⟨x, hx, hr⟩
    have hrounds : (m.typeIds.filter fun id => !excluded.contains id).length ≤ m.types.size :=
      Nat.le_trans (List.length_filter_le _ _) (by simp [typeIds])
    induction hr using ReflTransGen.head_induction_on with
    | refl => exact hall hx
    | head hab _ ih => exact spread_settled hrounds hab ih

end ApiModels.Order
