import ApiModels.Proofs.EmissionOrder
import ApiModels.Proofs.IngestedModel

/-!
# Reports of what is left out

A type that is left out is reported once: as part of a cycle if it is tangled, as dependent on a
type left out otherwise. An anomaly names its type by version and name, which no two types share.
So the anomalies of a release can be counted type by type.
-/

namespace ApiModels.Order

open ReleaseModel

variable {m : ReleaseModel} {names : Names} {kind : AnomalyKind} {u v : TypeId} {a : Anomaly}
  {preferences : Preferences}

/-- What an anomaly reports, and of what. -/
def reported (a : Anomaly) : AnomalyKind × String × String := (a.kind, a.version, a.subject)

/-- The report of a type. -/
def reportOf (m : ReleaseModel) (names : Names) (kind : AnomalyKind) (u : TypeId) :
    AnomalyKind × String × String :=
  (kind, (m.type u).version, names.name u)

theorem reportOf_injective (hu : u < m.types.size) (hv : v < m.types.size)
    (h : reportOf m (Names.resolve m preferences) kind u
      = reportOf m (Names.resolve m preferences) kind v) : u = v := by
  unfold reportOf at h
  simp only [Prod.mk.injEq] at h
  exact Names.name_injective hu hv h.2.1 h.2.2

theorem map_reported_cycles (cs : List (List TypeId)) :
    (cs.flatMap (cycleAnomalies m names)).map reported
      = cs.flatten.map (reportOf m names .unsupportedCycle) := by
  induction cs with
  | nil => rfl
  | cons c cs ih =>
      rw [List.flatMap_cons, List.map_append, ih, List.flatten_cons, List.map_append]
      congr 1
      unfold cycleAnomalies
      rw [List.map_map]
      rfl

/-- **Reports of a release**: every tangled type, and every other type left out, each once. -/
theorem map_reported (names : Names) (hm : m.Closed) : ∃ tangled dependent : List TypeId,
    (ofModel m names).2.map reported
        = tangled.map (reportOf m names .unsupportedCycle)
          ++ dependent.map (reportOf m names .dependsOnExcluded)
      ∧ tangled.Nodup ∧ dependent.Nodup
      ∧ (∀ u, u ∈ tangled ↔ u < m.types.size ∧ m.Tangled u)
      ∧ ∀ u, u ∈ dependent ↔ u ∈ (ofModel m names).1.excluded ∧ ¬ m.Tangled u := by
  obtain ⟨hsorted, hanomalies⟩ := ofModel_sorted names hm
  obtain ⟨found, hall, hreports, hnd, hfound⟩ := spread_found m names m.types.size
    ((cycles m names).filter fun c => !isSplittable m c).flatten
  have htangled : ∀ u, u ∈ ((cycles m names).filter fun c => !isSplittable m c).flatten
      ↔ u < m.types.size ∧ m.Tangled u := fun u => mem_unsupported hm
  refine ⟨_, found.map Prod.fst, ?_, ?_, hnd, htangled, ?_⟩
  · rw [hanomalies, List.map_append, map_reported_cycles, leftOutByCycles, hreports,
      List.map_map, List.map_map]
    rfl
  · refine (cycles_nodup names hm).sublist ?_
    exact List.filter_sublist.flatten
  · intro u
    have hex : u ∈ (ofModel m names).1.excluded ↔ u ∈ (leftOutByCycles m names).1 :=
      (hsorted.excluded u).trans (mem_leftOutByCycles hm).symm
    rw [hex, leftOutByCycles, hall, List.mem_append]
    constructor
    · intro hu
      obtain ⟨hlt, hnot, -⟩ := hfound u hu
      exact ⟨.inr hu, fun ht => hnot ((htangled u).mpr ⟨hlt, ht⟩)⟩
    · rintro ⟨hu | hu, hnot⟩
      · exact absurd ((htangled u).mp hu).2 hnot
      · exact hu

/-- How often a type is reported with a kind, when the types reported with it are known. -/
theorem count_reportOf {ids : List TypeId} [Decidable (u ∈ ids)] (hids : ids.Nodup)
    (hlt : ∀ v ∈ ids, v < m.types.size) (hu : u < m.types.size) :
    (ids.map (reportOf m (Names.resolve m preferences) kind)).count
        (reportOf m (Names.resolve m preferences) kind u)
      = if u ∈ ids then 1 else 0 := by
  split
  · rename_i hmem
    refine List.count_eq_one_of_mem ?_ (List.mem_map_of_mem hmem)
    exact hids.map_on fun x hx y hy => reportOf_injective (hlt x hx) (hlt y hy)
  · rename_i hmem
    refine List.count_eq_zero_of_not_mem fun h => ?_
    obtain ⟨v, hv, heq⟩ := List.mem_map.mp h
    exact hmem (reportOf_injective (hlt v hv) hu heq ▸ hv)

theorem count_reportOf_ne {ids : List TypeId} {kind' : AnomalyKind} (hne : kind' ≠ kind) :
    (ids.map (reportOf m names kind')).count (reportOf m names kind u) = 0 := by
  refine List.count_eq_zero_of_not_mem fun h => ?_
  obtain ⟨v, -, heq⟩ := List.mem_map.mp h
  exact hne (congrArg Prod.fst heq)

open Classical in
/-- **How often a type of the model is reported**, as member of a cycle and as dependent. -/
theorem count_reported (hm : m.Closed) (preferences : Preferences) (hu : u < m.types.size) :
    ((ofModel m (Names.resolve m preferences)).2.map reported).count
        (reportOf m (Names.resolve m preferences) .unsupportedCycle u)
        = (if m.Tangled u then 1 else 0)
      ∧ ((ofModel m (Names.resolve m preferences)).2.map reported).count
          (reportOf m (Names.resolve m preferences) .dependsOnExcluded u)
        = if u ∈ (ofModel m (Names.resolve m preferences)).1.excluded ∧ ¬ m.Tangled u then 1
          else 0 := by
  obtain ⟨tangled, dependent, hreported, htnd, hdnd, htangled, hdependent⟩ :=
    map_reported (Names.resolve m preferences) hm
  obtain ⟨hsorted, -⟩ := ofModel_sorted (Names.resolve m preferences) hm
  have htlt : ∀ v ∈ tangled, v < m.types.size := fun v hv => ((htangled v).mp hv).1
  have hdlt : ∀ v ∈ dependent, v < m.types.size := fun v hv =>
    ((hsorted.excluded v).mp ((hdependent v).mp hv).1).1
  rw [hreported, List.count_append, List.count_append]
  constructor
  · rw [count_reportOf htnd htlt hu, count_reportOf_ne (by decide), Nat.add_zero]
    refine if_congr ?_ rfl rfl
    rw [htangled u]
    exact and_iff_right hu
  · rw [count_reportOf hdnd hdlt hu, count_reportOf_ne (by decide), Nat.zero_add]
    exact if_congr (hdependent u) rfl rfl

/-- Only what is left out is reported. -/
theorem exists_of_mem_reports (hm : m.Closed) (ha : a ∈ (ofModel m names).2) :
    ∃ u ∈ (ofModel m names).1.excluded, reported a = reportOf m names .unsupportedCycle u
      ∨ reported a = reportOf m names .dependsOnExcluded u := by
  obtain ⟨tangled, dependent, hreported, -, -, htangled, hdependent⟩ := map_reported names hm
  obtain ⟨hsorted, -⟩ := ofModel_sorted names hm
  have hmem : reported a ∈ (ofModel m names).2.map reported := List.mem_map_of_mem ha
  rw [hreported, List.mem_append, List.mem_map, List.mem_map] at hmem
  rcases hmem with ⟨u, hu, heq⟩ | ⟨u, hu, heq⟩
  · obtain ⟨hlt, ht⟩ := (htangled u).mp hu
    refine ⟨u, (hsorted.excluded u).mpr ⟨hlt, u, Relation.ReflTransGen.refl, ht⟩, ?_⟩
    exact .inl heq.symm
  · exact ⟨u, ((hdependent u).mp hu).1, .inr heq.symm⟩

/-! ## Reasons -/

/-- No cycle and no dependence is reported as one that splitting left over. -/
theorem reason_ne (hm : m.Closed) (ha : a ∈ (ofModel m names).2) :
    a.reason ≠ "still cyclic after splitting" := by
  obtain ⟨found, -, hreports, -⟩ := spread_found m names m.types.size
    ((cycles m names).filter fun c => !isSplittable m c).flatten
  rw [(ofModel_sorted names hm).2, List.mem_append, leftOutByCycles, hreports] at ha
  rcases ha with ha | ha
  · obtain ⟨c, -, ha⟩ := List.mem_flatMap.mp ha
    obtain ⟨u, -, rfl⟩ := List.mem_map.mp ha
    intro heq
    -- the reasons differ in their first letter
    have hfirst := congrArg (fun s => s.toList.head?) heq
    unfold cycleReason at hfirst
    dsimp only at hfirst
    split at hfirst
    · simp [String.toList_append] at hfirst
    · simp [String.toList_append] at hfirst
  · obtain ⟨u, -, rfl⟩ := List.mem_map.mp ha
    intro heq
    have hfirst := congrArg (fun s => s.toList.head?) heq
    unfold dependentAnomaly at hfirst
    simp [String.toList_append] at hfirst

/-! ## Releases -/

/--
**What a release leaves out, and how it reports it.**

Left out are the types that reach a tangled one, across versions and through any container. Tangled
types are reported as members of a cycle and the others as dependents, each once, and nothing else
is reported. Above all no version is left with a cycle that splitting should have broken.
-/
theorem excluded_and_reported (label : String) (doc : Swagger.Document)
    (preferences : Preferences) :
    let m := (Ingest.ingest label doc).1
    let names := Names.resolve m preferences
    let o := (ofModel m names).1
    let anomalies := (ofModel m names).2
    let reports := fun kind u => (anomalies.map reported).count (reportOf m names kind u)
    (∀ u, u ∈ o.excluded ↔ u < m.types.size ∧ ∃ v, m.Reaches u v ∧ m.Tangled v)
      ∧ (∀ u, u < m.types.size → m.Tangled u →
          reports .unsupportedCycle u = 1 ∧ reports .dependsOnExcluded u = 0)
      ∧ (∀ u ∈ o.excluded, ¬ m.Tangled u →
          reports .unsupportedCycle u = 0 ∧ reports .dependsOnExcluded u = 1)
      ∧ (∀ u, u < m.types.size → u ∉ o.excluded →
          reports .unsupportedCycle u = 0 ∧ reports .dependsOnExcluded u = 0)
      ∧ (∀ a ∈ anomalies, ∃ u ∈ o.excluded, reported a = reportOf m names .unsupportedCycle u
          ∨ reported a = reportOf m names .dependsOnExcluded u)
      ∧ (∀ a ∈ anomalies, a.reason ≠ "still cyclic after splitting")
      ∧ ∀ version ∈ m.versions, (versionOrder m names o.excluded o.splits version).2 = [] := by
  intro m names o anomalies reports
  have hm : m.Closed := Ingest.closed
  obtain ⟨hsorted, -⟩ := ofModel_sorted names hm
  have hcount := fun u (hu : u < m.types.size) => count_reported hm preferences hu
  refine ⟨hsorted.excluded, ?_, ?_, ?_, fun a ha => exists_of_mem_reports hm ha,
    fun a ha => reason_ne hm ha, fun version _ => (hsorted.settled.versionOrder names version).1⟩
  · intro u hu ht
    have h := hcount u hu
    rw [if_pos ht, if_neg fun hd => hd.2 ht] at h
    exact h
  · intro u hex hnt
    have h := hcount u ((hsorted.excluded u).mp hex).1
    rw [if_neg hnt, if_pos ⟨hex, hnt⟩] at h
    exact h
  · intro u hu hex
    -- a tangled type reaches itself, and so is left out
    have hnt : ¬ m.Tangled u := fun ht =>
      hex ((hsorted.excluded u).mpr ⟨hu, u, Relation.ReflTransGen.refl, ht⟩)
    have h := hcount u hu
    rw [if_neg hnt, if_neg fun hd => hex hd.1] at h
    exact h

end ApiModels.Order
