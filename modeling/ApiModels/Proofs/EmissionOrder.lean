import ApiModels.Proofs.Exclusion
import ApiModels.Proofs.IngestedModel
import ApiModels.Proofs.Release
import ApiModels.Proofs.Splits

/-!
# The order of items

Once the splits are settled, every version is ordered completely: the items of a version are those
of its types that are kept, each once, and none is left waiting. The reason is that an item only
waits for lighter ones. So no version leaves out a type on its own, and what is left out of a
release is what its cycles have left out.
-/

namespace ApiModels.Order

open Relation ReleaseModel

variable {m : ReleaseModel} {names : Names} {excluded excluded' : List TypeId}
  {splits : List Split} {version : String} {e f : Emit} {u v r id : TypeId} {keep : Nat → Bool}

/-! ## Items and what they need -/

/-- A type that is split has a base and a derived item, any other type a plain one. -/
def IsItem (splits : List Split) : Emit → Prop
  | .plain id => splitOf? splits id = none
  | .base id | .derived id => (splitOf? splits id).isSome

/-- An item needs the items of its version that its properties name, itself apart. The item of a
split type needs the base besides. -/
inductive Needs (m : ReleaseModel) (splits : List Split) : Emit → Emit → Prop where
  | base {id : TypeId} : Needs m splits (.derived id) (.base id)
  | property {e : Emit} {i : Nat} {p : Property} {r : TypeId} :
      Holds splits e i → (m.type e.id).properties[i]? = some p → p.type.named? = some r →
      r ≠ e.id → (m.type r).version = (m.type e.id).version →
      Needs m splits e (itemFor splits e.id r)

/-- Every type has a plain or a derived item. -/
theorem plain_or_derived (splits : List Split) (id : TypeId) :
    IsItem splits (.plain id) ∨ IsItem splits (.derived id) := by
  cases hs : splitOf? splits id with
  | none => exact .inl hs
  | some s => exact .inr (by rw [IsItem, hs]; rfl)

/-- No type has both. -/
theorem not_plain_and_derived (hplain : IsItem splits (.plain id)) :
    ¬ IsItem splits (.derived id) := by
  unfold IsItem at hplain ⊢
  dsimp only at hplain ⊢
  rw [hplain]
  simp

theorem itemFor_isItem : IsItem splits (itemFor splits u v) := by
  rw [itemFor]
  cases hs : splitOf? splits v with
  | none => exact hs
  | some s =>
      dsimp only
      split
      · rw [IsItem, hs]
        rfl
      · rw [IsItem, hs]
        rfl

/-- Only the item of a split type needs one of the same type. -/
theorem Needs.eq_base (h : Needs m splits e f) (hid : f.id = e.id) :
    e = .derived f.id ∧ f = .base f.id := by
  cases h with
  | base => exact ⟨rfl, rfl⟩
  | property _ _ _ hne _ =>
      rw [itemFor_id] at hid
      exact absurd hid hne

/-- The properties that an item holds need what the item needs of other types. -/
theorem mem_needs (hkeep : ∀ i, keep i = true ↔ Holds splits e i) :
    f ∈ needs m excluded splits e.id keep
      ↔ Needs m splits e f ∧ f.id ≠ e.id ∧ f.id ∉ excluded := by
  rw [needs]
  simp only [List.mem_filterMap, Prod.exists, List.mem_zipIdx_iff_getElem?]
  constructor
  · rintro ⟨p, i, hp, hf⟩
    split at hf
    · rename_i r hr
      split at hf
      · rename_i hcond
        obtain ⟨hne, hv, hex, hk⟩ := hcond
        obtain rfl := Option.some.inj hf
        rw [itemFor_id]
        exact ⟨.property ((hkeep i).mp hk) hp hr hne hv, hne, by simpa using hex⟩
      · simp at hf
    · simp at hf
  · rintro ⟨hneeds, hne, hex⟩
    cases hneeds with
    | base => exact absurd rfl hne
    | @property _ i p r hh hp hr hrne hv =>
        rw [itemFor_id] at hex
        refine ⟨p, i, hp, ?_⟩
        rw [hr]
        dsimp only
        rw [if_pos ⟨hrne, hv, by simpa using hex, (hkeep i).mpr hh⟩]

/-- The items of a type. -/
theorem mem_items_itemsOf :
    e ∈ (itemsOf m excluded splits id).map (·.item) ↔ e.id = id ∧ IsItem splits e := by
  rw [itemsOf]
  cases hs : splitOf? splits id with
  | none =>
      simp only [List.map_cons, List.map_nil, List.mem_singleton]
      constructor
      · rintro rfl
        exact ⟨rfl, hs⟩
      · rintro ⟨rfl, hitem⟩
        cases e with
        | plain _ => rfl
        | base id => rw [IsItem, show splitOf? splits id = none from hs] at hitem; simp at hitem
        | derived id => rw [IsItem, show splitOf? splits id = none from hs] at hitem; simp at hitem
  | some s =>
      simp only [List.map_cons, List.map_nil, List.mem_cons, List.not_mem_nil, or_false]
      constructor
      · rintro (rfl | rfl)
        · exact ⟨rfl, by rw [IsItem, hs]; rfl⟩
        · exact ⟨rfl, by rw [IsItem, hs]; rfl⟩
      · rintro ⟨rfl, hitem⟩
        cases e with
        | plain id => rw [IsItem, show splitOf? splits id = some s from hs] at hitem; simp at hitem
        | base _ => exact .inl rfl
        | derived _ => exact .inr rfl

theorem nodup_items_itemsOf : ((itemsOf m excluded splits id).map (·.item)).Nodup := by
  rw [itemsOf]
  split
  · simp
  · simp

/-- **An item waits for what it needs**, as far as that is kept. -/
theorem mem_waits {p : Pending} (hp : p ∈ itemsOf m excluded splits id) :
    f ∈ p.waits ↔ Needs m splits p.item f ∧ (f.id = p.item.id ∨ f.id ∉ excluded) := by
  -- an item that is not derived waits for items of other types only
  have hother : ∀ {e : Emit}, (∀ id, e ≠ .derived id) →
      (Needs m splits e f ∧ f.id ≠ e.id ∧ f.id ∉ excluded
        ↔ Needs m splits e f ∧ (f.id = e.id ∨ f.id ∉ excluded)) := by
    intro e hnot
    refine and_congr_right fun hneeds => ?_
    have hne : f.id ≠ e.id := fun hid => hnot _ (hneeds.eq_base hid).1
    exact ⟨fun h => .inr h.2, fun h => ⟨hne, h.resolve_left hne⟩⟩
  rw [itemsOf] at hp
  split at hp
  · rename_i s hs
    simp only [List.mem_cons, List.not_mem_nil, or_false] at hp
    rcases hp with rfl | rfl
    · have hkeep : ∀ i, (!s.closing.contains i) = true ↔ Holds splits (.base id) i := by
        intro i
        rw [holds_base hs]
        simp
      exact (mem_needs hkeep).trans (hother (by simp))
    · have hkeep : ∀ i, s.closing.contains i = true ↔ Holds splits (.derived id) i := by
        intro i
        rw [holds_derived hs, List.contains_iff_mem]
      rw [List.mem_cons]
      refine (or_congr_right (mem_needs hkeep)).trans ?_
      constructor
      · rintro (rfl | ⟨hneeds, -, hex⟩)
        · exact ⟨.base, .inl rfl⟩
        · exact ⟨hneeds, .inr hex⟩
      · rintro ⟨hneeds, hex⟩
        by_cases hid : f.id = (Emit.derived id).id
        · have hf := (hneeds.eq_base hid).2
          rw [hid] at hf
          exact .inl hf
        · exact .inr ⟨hneeds, hid, hex.resolve_left hid⟩
  · rename_i hs
    rw [List.mem_singleton] at hp
    subst hp
    have hkeep : ∀ i, true = true ↔ Holds splits (.plain id) i :=
      fun i => ⟨fun _ => .plain hs, fun _ => rfl⟩
    exact (mem_needs hkeep).trans (hother (by simp))

/-! ## One version -/

/-- The types of a version that are kept. -/
def kept (m : ReleaseModel) (excluded : List TypeId) (version : String) : List TypeId :=
  (m.typesOf version).filter fun id => !excluded.contains id

theorem mem_kept : id ∈ kept m excluded version
    ↔ id < m.types.size ∧ (m.type id).version = version ∧ id ∉ excluded := by
  rw [kept, List.mem_filter, mem_typesOf, and_assoc]
  simp

/-- The items of the types kept, with what each waits for. -/
def pendingOf (m : ReleaseModel) (excluded : List TypeId) (splits : List Split)
    (version : String) : List Pending :=
  (kept m excluded version).flatMap (itemsOf m excluded splits)

theorem mem_items_pendingOf : e ∈ (pendingOf m excluded splits version).map (·.item)
    ↔ e.id ∈ kept m excluded version ∧ IsItem splits e := by
  rw [pendingOf, List.map_flatMap, List.mem_flatMap]
  simp only [mem_items_itemsOf]
  constructor
  · rintro ⟨id, hid, rfl, hitem⟩
    exact ⟨hid, hitem⟩
  · rintro ⟨hid, hitem⟩
    exact ⟨e.id, hid, rfl, hitem⟩

theorem nodup_items_pendingOf : ((pendingOf m excluded splits version).map (·.item)).Nodup := by
  rw [pendingOf, List.map_flatMap, List.nodup_flatMap]
  refine ⟨fun id _ => nodup_items_itemsOf, ?_⟩
  refine List.Pairwise.imp ?_ (nodup_typesOf.filter _)
  intro u v hne e hu hv
  rw [mem_items_itemsOf] at hu hv
  exact hne (hu.1.symm.trans hv.1)

/-- **What an item of a kept type needs is an item of a kept type, and lighter.** -/
theorem Settled.needs (h : Settled m excluded splits) (he : e.id ∈ kept m excluded version)
    (hitem : IsItem splits e) (hneeds : Needs m splits e f) :
    f.id ∈ kept m excluded version ∧ IsItem splits f ∧ weight m f < weight m e := by
  obtain ⟨hlt, hv, hex⟩ := mem_kept.mp he
  cases hneeds with
  | @base id => exact ⟨he, hitem, weight_base_lt id⟩
  | @property _ i p r hh hp hr hne hsame =>
      have href : m.Refers e.id r := .of_property (List.mem_of_getElem? hp) hr
      rw [itemFor_id, mem_kept]
      exact ⟨⟨h.closed _ _ href, hsame.trans hv, fun hr' => hex (h.exclusion _ _ href hr')⟩,
        itemFor_isItem, h.weight_itemFor_lt hex hh hp hr hne⟩

theorem Settled.founded (h : Settled m excluded splits) (version : String) :
    Founded (weight m) (pendingOf m excluded splits version) where
  nodup := nodup_items_pendingOf
  waits := by
    intro p hp w hw
    obtain ⟨hid, hitem⟩ := mem_items_pendingOf.mp (List.mem_map_of_mem hp)
    obtain ⟨id, -, hp⟩ := List.mem_flatMap.mp hp
    obtain ⟨hkept, hw', hlt⟩ := h.needs hid hitem ((mem_waits hp).mp hw).1
    exact ⟨mem_items_pendingOf.mpr ⟨hkept, hw'⟩, hlt⟩

/-- The items of a version are in order: those of the types kept, each once, and each after what it
needs. -/
structure Ordered (m : ReleaseModel) (excluded : List TypeId) (splits : List Split)
    (v : VersionOrder) : Prop where
  nodup : v.items.Nodup
  /-- No type kept is missing, and there is no other item. -/
  mem : ∀ e, e ∈ v.items ↔ e.id ∈ kept m excluded v.version ∧ IsItem splits e
  after : ∀ e ∈ v.items, ∀ f, Needs m splits e f →
    f ∈ v.items ∧ v.items.idxOf f < v.items.idxOf e
  /-- The splits of the version are those of the types kept. -/
  splits : v.splits = (kept m excluded v.version).filterMap (splitOf? splits)

/-- The items of a version as they are released. -/
def releasedOf (m : ReleaseModel) (names : Names) (excluded : List TypeId) (splits : List Split)
    (version : String) : List Emit × List Pending :=
  release (precedes names splits) (pendingOf m excluded splits version).length
    (pendingOf m excluded splits version)

/-- Nothing is left waiting, so no type is stuck and no item is dropped. -/
theorem Settled.versionOrder_eq (h : Settled m excluded splits) (names : Names)
    (version : String) :
    versionOrder m names excluded splits version
      = (⟨version, (releasedOf m names excluded splits version).1,
          (kept m excluded version).filterMap (splitOf? splits)⟩, []) := by
  have hleft : (releasedOf m names excluded splits version).2 = [] :=
    ((h.founded version).release (precedes names splits) (Nat.le_refl _)).1
  generalize hr : releasedOf m names excluded splits version = r at hleft
  rw [← Prod.eta r, hleft] at hr
  unfold releasedOf pendingOf kept at hr
  rw [Order.versionOrder, hr]
  simp [kept]

/-- **A version is ordered completely.** -/
theorem Settled.versionOrder (h : Settled m excluded splits) (names : Names) (version : String) :
    (versionOrder m names excluded splits version).2 = []
      ∧ (versionOrder m names excluded splits version).1.version = version
      ∧ Ordered m excluded splits (versionOrder m names excluded splits version).1 := by
  have hreleased : Released (pendingOf m excluded splits version)
      (releasedOf m names excluded splits version).1 :=
    ((h.founded version).release (precedes names splits) (Nat.le_refl _)).2
  rw [h.versionOrder_eq]
  generalize releasedOf m names excluded splits version = r at hreleased
  refine ⟨rfl, rfl, ?_⟩
  have hmem : ∀ e, e ∈ r.1 ↔ e.id ∈ kept m excluded version ∧ IsItem splits e :=
    fun e => hreleased.perm.mem_iff.trans mem_items_pendingOf
  refine
    { nodup := hreleased.perm.nodup_iff.mpr nodup_items_pendingOf, mem := hmem,
      after := ?_, splits := rfl }
  intro e he f hneeds
  obtain ⟨hid, hitem⟩ := (hmem e).mp he
  obtain ⟨hf, hf', -⟩ := h.needs hid hitem hneeds
  refine ⟨(hmem f).mpr ⟨hf, hf'⟩, ?_⟩
  obtain ⟨p, hp, rfl⟩ := List.mem_map.mp (hreleased.perm.mem_iff.mp he)
  obtain ⟨id, -, hitems⟩ := List.mem_flatMap.mp hp
  exact hreleased.after p hp f
    ((mem_waits hitems).mpr ⟨hneeds, .inr (mem_kept.mp hf).2.2⟩)

/-- A kept type has an item of its own name: a plain one, or a derived one if it is split. -/
theorem Ordered.exists_item {v : VersionOrder} (h : Ordered m excluded splits v) :
    (.plain id ∈ v.items ∨ .derived id ∈ v.items) ↔ id ∈ kept m excluded v.version := by
  rw [h.mem, h.mem]
  constructor
  · rintro (⟨hid, -⟩ | ⟨hid, -⟩)
    · exact hid
    · exact hid
  · intro hid
    exact (plain_or_derived splits id).imp (⟨hid, ·⟩) (⟨hid, ·⟩)

/-- An ordered version leaves out nothing that is kept. -/
theorem Ordered.leftOut_subset {v : VersionOrder} (h : Ordered m excluded splits v)
    (hid : id ∈ leftOut m v) : id ∈ excluded := by
  obtain ⟨hmem, hnone⟩ := List.mem_filter.mp hid
  obtain ⟨hlt, hv⟩ := mem_typesOf.mp hmem
  by_contra hex
  simp only [Bool.not_eq_true', List.any_eq_false, beq_iff_eq] at hnone
  rcases h.exists_item.mpr (mem_kept.mpr ⟨hlt, hv, hex⟩) with hitem | hitem
  · exact hnone _ hitem rfl
  · exact hnone _ hitem rfl

/-! ## All versions -/

section

variable (heq : ∀ u, u ∈ excluded' ↔ u ∈ excluded)

include heq

theorem kept_congr : kept m excluded' version = kept m excluded version := by
  refine List.filter_congr fun u _ => ?_
  rw [Bool.eq_iff_iff]
  simp [heq u]

theorem releasedOf_congr (names : Names) : releasedOf m names excluded' splits version
    = releasedOf m names excluded splits version := by
  have hcontains : excluded'.contains = excluded.contains := by
    funext u
    rw [Bool.eq_iff_iff]
    simp [heq u]
  have hitems : itemsOf m excluded' splits = itemsOf m excluded splits := by
    unfold itemsOf needs
    rw [hcontains]
  unfold releasedOf pendingOf
  rw [kept_congr heq, hitems]

/-- Only what is left out matters, not in which order it was found. -/
theorem Settled.congr (h : Settled m excluded splits) : Settled m excluded' splits where
  closed := h.closed
  exclusion := fun u v hr hv => (heq u).mpr (h.exclusion u v hr ((heq v).mp hv))
  partner := h.partner
  closing := h.closing
  broken := fun u v hu hex => h.broken u v hu fun hu' => hex ((heq u).mpr hu')

theorem Ordered.congr {v : VersionOrder} (h : Ordered m excluded splits v) :
    Ordered m excluded' splits v where
  nodup := h.nodup
  mem := by rw [kept_congr heq]; exact h.mem
  after := h.after
  splits := by rw [kept_congr heq]; exact h.splits

end

/-- A version leaves out nothing that was not left out before. -/
theorem Settled.mem_append_leftOut (h : Settled m excluded splits) (names : Names)
    (version : String) (u : TypeId) :
    u ∈ excluded ++ leftOut m (Order.versionOrder m names excluded splits version).1
      ↔ u ∈ excluded := by
  rw [List.mem_append]
  exact or_iff_left_of_imp (h.versionOrder names version).2.2.leftOut_subset

/-- **Every version is ordered completely**, and none leaves out a type on its own. -/
theorem Settled.orderVersions (h : Settled m excluded splits) (names : Names)
    (versions : List String) :
    (orderVersions m names splits excluded versions).1.map (·.version) = versions
      ∧ (∀ v ∈ (orderVersions m names splits excluded versions).1, Ordered m excluded splits v)
      ∧ (∀ u, u ∈ (orderVersions m names splits excluded versions).2.1 ↔ u ∈ excluded)
      ∧ (orderVersions m names splits excluded versions).2.2 = [] := by
  induction versions generalizing excluded with
  | nil => exact ⟨rfl, by simp [Order.orderVersions], fun u => Iff.rfl, rfl⟩
  | cons version versions ih =>
      obtain ⟨hstuck, hversion, hordered⟩ := h.versionOrder names version
      have heq := h.mem_append_leftOut names version
      obtain ⟨hversions, hall, hex, hlater⟩ := ih (h.congr heq)
      rw [Order.orderVersions]
      refine ⟨by rw [List.map_cons, hversion, hversions], ?_, ?_, ?_⟩
      · intro v hv
        rcases List.mem_cons.mp hv with rfl | hv
        · exact hordered
        · exact (hall v hv).congr fun u => (heq u).symm
      · exact fun u => (hex u).trans (heq u)
      · dsimp only
        rw [hstuck, hlater]
        rfl

/-- The versions as they are ordered one by one. -/
theorem Settled.orderVersions_eq (h : Settled m excluded splits) (names : Names)
    (versions : List String) :
    (Order.orderVersions m names splits excluded versions).1 = versions.map fun version =>
      ⟨version, (releasedOf m names excluded splits version).1,
        (kept m excluded version).filterMap (splitOf? splits)⟩ := by
  induction versions generalizing excluded with
  | nil => rfl
  | cons version versions ih =>
      have heq := h.mem_append_leftOut names version
      have hlater := ih (h.congr heq)
      simp only [releasedOf_congr heq, kept_congr heq] at hlater
      rw [Order.orderVersions, List.map_cons]
      dsimp only
      rw [hlater, h.versionOrder_eq]

/-! ## Releases -/

/-- What holds of the order of a release. -/
structure Sorted (m : ReleaseModel) (o : Order) : Prop where
  /-- Left out is what reaches a tangled type. -/
  excluded : ∀ u, u ∈ o.excluded ↔ u < m.types.size ∧ ∃ v, m.Reaches u v ∧ m.Tangled v
  settled : Settled m o.excluded o.splits
  versions : o.versions.map (·.version) = m.versions
  ordered : ∀ v ∈ o.versions, Ordered m o.excluded o.splits v

/-- The types that cycles leave out, and those that reach them. -/
def leftOutByCycles (m : ReleaseModel) (names : Names) : List TypeId × Diagnostics :=
  spread m names m.types.size ((cycles m names).filter fun c => !isSplittable m c).flatten

theorem mem_leftOutByCycles (hm : m.Closed) : u ∈ (leftOutByCycles m names).1
    ↔ u < m.types.size ∧ ∃ v, m.Reaches u v ∧ m.Tangled v := by
  rw [leftOutByCycles, mem_spread]
  simp only [mem_unsupported hm]
  constructor
  · rintro ⟨v, ⟨hlt, ht⟩, hr⟩
    exact ⟨hr.lt_left hlt, v, hr, ht⟩
  · rintro ⟨hlt, v, hr, ht⟩
    exact ⟨v, ⟨hr.lt hm hlt, ht⟩, hr⟩

/-- **The order of a closed model**, and its anomalies: those of the cycles and those of what
refers to them, and no others. -/
theorem ofModel_sorted (names : Names) (hm : m.Closed) :
    Sorted m (ofModel m names).1 ∧ (ofModel m names).2
      = ((cycles m names).filter fun c => !isSplittable m c).flatMap (cycleAnomalies m names)
        ++ (leftOutByCycles m names).2 := by
  have hsettled : Settled m (leftOutByCycles m names).1 (splitsFor m names
      (leftOutByCycles m names).1 ((cycles m names).filter (isSplittable m))) := settled names hm
    (fun u v href hv => by
      obtain ⟨-, w, hr, ht⟩ := (mem_leftOutByCycles hm).mp hv
      exact (mem_leftOutByCycles hm).mpr ⟨href.lt, w, ReflTransGen.head href hr, ht⟩)
    (fun u hu ht => (mem_leftOutByCycles hm).mpr ⟨hu, u, ReflTransGen.refl, ht⟩)
  obtain ⟨hversions, hall, hex, hstuck⟩ := hsettled.orderVersions names m.versions
  have hmem : ∀ u, u ∈ (ofModel m names).1.excluded ↔ u ∈ (leftOutByCycles m names).1 := by
    intro u
    refine List.mem_filter.trans ?_
    rw [mem_typeIds, List.contains_iff_mem]
    refine (and_congr_right fun _ => hex u).trans ⟨fun h => h.2, fun h => ⟨?_, h⟩⟩
    exact ((mem_leftOutByCycles hm).mp h).1
  refine ⟨⟨fun u => (hmem u).trans (mem_leftOutByCycles hm), hsettled.congr hmem, hversions,
    fun v hv => (hall v hv).congr hmem⟩, ?_⟩
  refine Eq.trans ?_ (List.append_nil _)
  rw [← hstuck]
  rfl

/-- **The versions of a closed model**, each with the items released for it. -/
theorem ofModel_versions (names : Names) (hm : m.Closed) :
    (ofModel m names).1.versions = m.versions.map fun version =>
      ⟨version,
        (releasedOf m names (ofModel m names).1.excluded (ofModel m names).1.splits version).1,
        (kept m (ofModel m names).1.excluded version).filterMap
          (splitOf? (ofModel m names).1.splits)⟩ := by
  obtain ⟨hsorted, -⟩ := ofModel_sorted names hm
  have heq : ∀ u, u ∈ (leftOutByCycles m names).1 ↔ u ∈ (ofModel m names).1.excluded :=
    fun u => (mem_leftOutByCycles hm).trans (hsorted.excluded u).symm
  have hversions := (hsorted.settled.congr heq).orderVersions_eq names m.versions
  simp only [releasedOf_congr heq, kept_congr heq] at hversions
  exact hversions

/--
**The order of every version of a schema.**

A version has one plain item for each of its types that is kept and not split, one base and one
derived item for each that is split, and nothing else. Whatever an item needs is an item of the
version as well and comes before it.
-/
theorem emission_order (label : String) (doc : Swagger.Document) (preferences : Preferences) :
    let m := (Ingest.ingest label doc).1
    let o := (ofModel m (Names.resolve m preferences)).1
    o.versions.map (·.version) = m.versions
      ∧ ∀ v ∈ o.versions,
        v.items.Nodup
          ∧ (∀ e, e ∈ v.items ↔ e.id ∈ m.typesOf v.version ∧ e.id ∉ o.excluded
              ∧ IsItem o.splits e)
          ∧ (∀ e ∈ v.items, ∀ f, Needs m o.splits e f →
              f ∈ v.items ∧ v.items.idxOf f < v.items.idxOf e)
          ∧ v.splits = (kept m o.excluded v.version).filterMap o.split? := by
  intro m o
  obtain ⟨hsorted, -⟩ := ofModel_sorted (m := m) (Names.resolve m preferences) Ingest.closed
  refine ⟨hsorted.versions, fun v hv => ?_⟩
  have hordered := hsorted.ordered v hv
  refine ⟨hordered.nodup, fun e => ?_, hordered.after, hordered.splits⟩
  rw [hordered.mem, mem_kept, mem_typesOf, and_assoc, and_assoc, and_assoc]

end ApiModels.Order
