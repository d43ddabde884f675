import ApiModels.Proofs.Cycles

/-!
# Splits and the weight of items

A cycle of two types is broken by splitting one of them. Afterwards references between items run
downhill: an item that another one needs, or holds, has less *weight*. The weight of an item is
first of all the height of its type, which falls along references that leave a component. Within a
component of two the base of the split type is the lightest, then comes the partner, then the
derived type. That is the whole reason why splitting works, for the order of items in a version and
for the containment of the generated structs alike.
-/

namespace ApiModels.Order

open Relation ReleaseModel

variable {m : ReleaseModel} {names : Names} {excluded : List TypeId} {splits : List Split}
  {s t : Split} {e : Emit} {u v r : TypeId} {i : Nat}

/-- An item holds a property of its type: a plain item any, the base of a split type the properties
that do not close its cycle, the derived type those that do. -/
inductive Holds (splits : List Split) : Emit → Nat → Prop where
  | plain {id i} : splitOf? splits id = none → Holds splits (.plain id) i
  | base {id i s} : splitOf? splits id = some s → i ∉ s.closing → Holds splits (.base id) i
  | derived {id i s} : splitOf? splits id = some s → i ∈ s.closing → Holds splits (.derived id) i

theorem holds_base (h : splitOf? splits u = some s) :
    Holds splits (.base u) i ↔ i ∉ s.closing := by
  refine ⟨fun hh => ?_, .base h⟩
  cases hh with
  | base h' hi => exact Option.some.inj (h.symm.trans h') ▸ hi

theorem holds_derived (h : splitOf? splits u = some s) :
    Holds splits (.derived u) i ↔ i ∈ s.closing := by
  refine ⟨fun hh => ?_, .derived h⟩
  cases hh with
  | derived h' hi => exact Option.some.inj (h.symm.trans h') ▸ hi

/-- What later stages rely on: nothing kept refers to what is left out, and of two different types
kept that reach each other, one is split with the other as its partner. -/
structure Settled (m : ReleaseModel) (excluded : List TypeId) (splits : List Split) : Prop where
  closed : m.Closed
  /-- What refers to a type left out is left out. -/
  exclusion : ∀ u v, m.Refers u v → v ∈ excluded → u ∈ excluded
  /-- The partner of a split type is not split. -/
  partner : ∀ s ∈ splits, splitOf? splits s.partner = none
  /-- Properties that name the partner stay on the derived type, and so do those that name the type
  itself. -/
  closing : ∀ s ∈ splits, ∀ i p, (m.type s.target).properties[i]? = some p →
    (i ∈ s.closing ↔ p.type.named? = some s.partner ∨ p.type.named? = some s.target)
  /-- Two types that reach each other are broken apart. -/
  broken : ∀ u v, u < m.types.size → u ∉ excluded → v ∈ m.component u → v ≠ u →
    (∃ s ∈ splits, s.target = u ∧ s.partner = v ∧ splitOf? splits u = some s)
      ∨ ∃ s ∈ splits, s.target = v ∧ s.partner = u ∧ splitOf? splits v = some s

/-- What a type kept reaches is kept. -/
theorem notMem_of_reaches (hclosed : ∀ u v, m.Refers u v → v ∈ excluded → u ∈ excluded)
    (h : m.Reaches u v) (hu : u ∉ excluded) : v ∉ excluded := by
  induction h with
  | refl => exact hu
  | tail _ hab ih => exact fun hv => ih (hclosed _ _ hab hv)

theorem mem_of_splitOf? (h : splitOf? splits u = some s) : s ∈ splits ∧ s.target = u := by
  refine ⟨List.mem_of_find?_eq_some h, ?_⟩
  simpa using List.find?_some h

/-! ## The splits of a release -/

theorem mem_splitsFor {cs : List (List TypeId)} (h : s ∈ splitsFor m names excluded cs) :
    ∃ t p, [t, p] ∈ cs ∧ t ∉ excluded ∧ p ∉ excluded ∧ s = splitFor m names t p := by
  obtain ⟨c, hc, hs⟩ := List.mem_filterMap.mp h
  match c, hc, hs with
  | [t, p], hc, hs =>
      dsimp only at hs
      split at hs
      · simp at hs
      · rename_i hne
        simp only [Bool.or_eq_true, List.contains_iff_mem, not_or] at hne
        exact ⟨t, p, hc, hne.1, hne.2, (Option.some.inj hs).symm⟩

theorem mem_splitsFor_of (m : ReleaseModel) (names : Names) {cs : List (List TypeId)}
    {t p : TypeId} (hc : [t, p] ∈ cs)
    (ht : t ∉ excluded) (hp : p ∉ excluded) :
    splitFor m names t p ∈ splitsFor m names excluded cs := by
  refine List.mem_filterMap.mpr ⟨[t, p], hc, ?_⟩
  dsimp only
  rw [if_neg (by simp [ht, hp])]

/-- The closing properties of a split are those that name one of the two types. -/
theorem mem_closing {t p : TypeId} {q : Property} (h : (m.type t).properties[i]? = some q) :
    i ∈ (splitFor m names t p).closing
      ↔ q.type.named? = some p ∨ q.type.named? = some t := by
  have hmem : ∀ {q' : Property}, (q', i) ∈ (m.type t).properties.zipIdx ↔ q' = q := by
    intro q'
    rw [List.mem_zipIdx_iff_getElem?, h]
    exact ⟨fun he => (Option.some.inj he).symm, fun he => he ▸ rfl⟩
  rw [splitFor]
  simp only [List.mem_filterMap, Prod.exists]
  constructor
  · rintro ⟨q', j, hq', hj⟩
    split at hj
    · rename_i r hr
      split at hj
      · rename_i hrr
        obtain rfl := Option.some.inj hj
        obtain rfl := hmem.mp hq'
        rw [hr]
        exact hrr.imp (congrArg some) (congrArg some)
      · simp at hj
    · simp at hj
  · intro hr
    refine ⟨q, i, hmem.mpr rfl, ?_⟩
    rcases hr with hr | hr
    · rw [hr]; simp
    · rw [hr]; simp

section

variable {cs : List (List TypeId)} (hcs : ∀ c ∈ cs, c ∈ cycles m names)

include hcs

/-- A type is split once. -/
theorem splitOf?_of_mem (hm : m.Closed) (hs : s ∈ splitsFor m names excluded cs) :
    splitOf? (splitsFor m names excluded cs) s.target = some s := by
  cases hf : splitOf? (splitsFor m names excluded cs) s.target with
  | none => exact absurd (List.find?_eq_none.mp hf s hs) (by simp)
  | some s' =>
      -- two splits of one type come from the one cycle it is in
      obtain ⟨hs', htarget⟩ := mem_of_splitOf? hf
      obtain ⟨t, p, hc, -, -, rfl⟩ := mem_splitsFor hs
      obtain ⟨t', p', hc', -, -, rfl⟩ := mem_splitsFor hs'
      have htt : t' = t := htarget
      subst htt
      have heq := cycle_unique hm (hcs _ hc) (hcs _ hc') List.mem_cons_self List.mem_cons_self
      have hpp : p = p' := by simpa using heq
      rw [hpp]

/-- The partner of a split type is not split. -/
theorem splitOf?_partner (hm : m.Closed) (hs : s ∈ splitsFor m names excluded cs) :
    splitOf? (splitsFor m names excluded cs) s.partner = none := by
  cases hf : splitOf? (splitsFor m names excluded cs) s.partner with
  | none => rfl
  | some s' =>
      exfalso
      obtain ⟨hs', htarget⟩ := mem_of_splitOf? hf
      obtain ⟨t, p, hc, -, -, rfl⟩ := mem_splitsFor hs
      obtain ⟨t', p', hc', -, -, rfl⟩ := mem_splitsFor hs'
      have htp : t' = p := htarget
      subst htp
      -- the second of one cycle would be the first of another
      have heq := cycle_unique hm (hcs _ hc) (hcs _ hc') (by simp) List.mem_cons_self
      have hnd := (cycle_eq_component hm (hcs _ hc)).2.1
      simp only [List.cons.injEq] at heq
      rw [heq.1] at hnd
      simp at hnd

end

/-- **What is left out and split by a release is settled.** -/
theorem settled (names : Names) (hm : m.Closed)
    (hclosed : ∀ u v, m.Refers u v → v ∈ excluded → u ∈ excluded)
    (htangled : ∀ u, u < m.types.size → m.Tangled u → u ∈ excluded) :
    Settled m excluded
      (splitsFor m names excluded ((cycles m names).filter (isSplittable m))) := by
  have hcs : ∀ c ∈ (cycles m names).filter (isSplittable m), c ∈ cycles m names :=
    fun c hc => (List.mem_filter.mp hc).1
  refine
    { closed := hm, exclusion := hclosed,
      partner := fun s hs => splitOf?_partner hcs hm hs, closing := ?_, broken := ?_ }
  · intro s hs i p hp
    obtain ⟨t, q, -, -, -, rfl⟩ := mem_splitsFor hs
    exact mem_closing hp
  · intro u v hu hkept hv hne
    -- both are in one cycle, which has only the two as it is not tangled
    obtain ⟨c, hc, huc⟩ := exists_cycle names hm hu hv hne
    obtain ⟨-, -, hall⟩ := cycle_eq_component hm hc
    have hvc : v ∈ c := ((hall u huc).2 v).mpr hv
    have hsplit : isSplittable m c = true :=
      (isSplittable_iff hm hc huc).mpr fun ht => hkept (htangled u hu ht)
    have hlen : c.length = 2 := by
      rw [isSplittable, Bool.and_eq_true, decide_eq_true_iff] at hsplit
      exact hsplit.1
    obtain ⟨t, p, rfl⟩ := List.length_eq_two.mp hlen
    have hmem : [t, p] ∈ (cycles m names).filter (isSplittable m) :=
      List.mem_filter.mpr ⟨hc, hsplit⟩
    have hkeep : ∀ x ∈ [t, p], x ∉ excluded := fun x hx =>
      notMem_of_reaches hclosed (((hall u huc).2 x).mp hx).1 hkept
    have hs := mem_splitsFor_of m names hmem (hkeep t (by simp)) (hkeep p (by simp))
    have hof := splitOf?_of_mem hcs hm hs
    simp only [List.mem_cons, List.not_mem_nil, or_false] at huc hvc
    rcases huc with rfl | rfl <;> rcases hvc with rfl | rfl
    · exact absurd rfl hne
    · exact .inl ⟨_, hs, rfl, rfl, hof⟩
    · exact .inr ⟨_, hs, rfl, rfl, hof⟩
    · exact absurd rfl hne

/-! ## Weights -/

/-- The weight of an item. -/
noncomputable def weight (m : ReleaseModel) : Emit → Nat
  | .base id => 3 * m.height id
  | .plain id => 3 * m.height id + 1
  | .derived id => 3 * m.height id + 2

theorem weight_bounds (m : ReleaseModel) (e : Emit) :
    3 * m.height e.id ≤ weight m e ∧ weight m e ≤ 3 * m.height e.id + 2 := by
  cases e <;> simp [weight, Emit.id]

theorem itemFor_id : (itemFor splits u v).id = v := by
  rw [itemFor]
  split
  · split <;> rfl
  · rfl

theorem weight_base_lt (id : TypeId) : weight m (.base id) < weight m (.derived id) := by
  simp [weight]

/-- A property of a split type that names its partner is on the derived type. -/
theorem Settled.holds_partner (h : Settled m excluded splits) {p : Property} (hs : s ∈ splits)
    (hof : splitOf? splits s.target = some s) (hid : e.id = s.target) (hh : Holds splits e i)
    (hp : (m.type e.id).properties[i]? = some p) (hr : p.type.named? = some s.partner) :
    e = .derived s.target := by
  rw [hid] at hp
  have hclosing := (h.closing s hs i p hp).mpr (.inl hr)
  cases hh with
  | plain hnone =>
      rw [Emit.id] at hid
      rw [hid, hof] at hnone
      simp at hnone
  | base hsome hni =>
      rw [Emit.id] at hid
      rw [hid, hof] at hsome
      exact absurd (Option.some.inj hsome ▸ hclosing) hni
  | derived _ _ =>
      rw [Emit.id] at hid
      rw [hid]

/-- **What a property of an item names is lighter than the item**, itself apart. -/
theorem Settled.weight_itemFor_lt (h : Settled m excluded splits) {p : Property}
    (hkept : e.id ∉ excluded) (hh : Holds splits e i)
    (hp : (m.type e.id).properties[i]? = some p) (hr : p.type.named? = some r)
    (hne : r ≠ e.id) : weight m (itemFor splits e.id r) < weight m e := by
  have href : m.Refers e.id r := .of_property (List.mem_of_getElem? hp) hr
  by_cases hback : m.Reaches r e.id
  · -- a component of two: one of them is split
    have hcomp : r ∈ m.component e.id := ⟨ReflTransGen.single href, hback⟩
    have hheight := height_eq hcomp
    rcases h.broken e.id r href.lt hkept hcomp hne with
      ⟨s, hs, hst, hsp, hof⟩ | ⟨s, hs, hst, hsp, hof⟩
    · -- the derived type refers to its partner, which is plain
      have hnone := h.partner s hs
      have he := h.holds_partner hs (hst ▸ hof) hst.symm hh hp (hsp ▸ hr)
      rw [hsp] at hnone
      have hitem : itemFor splits e.id r = .plain r := by rw [itemFor, hnone]
      rw [hitem, weight, he, weight, hst]
      omega
    · -- the partner refers to the base
      have hnone := h.partner s hs
      rw [hsp] at hnone
      have he : e = .plain e.id := by
        cases hh with
        | plain _ => rfl
        | base hsome _ => rw [Emit.id, hsome] at hnone; simp at hnone
        | derived hsome _ => rw [Emit.id, hsome] at hnone; simp at hnone
      have hitem : itemFor splits e.id r = .base r := by
        rw [itemFor, hof]
        dsimp only
        rw [if_pos hsp]
      rw [hitem, he, weight, weight]
      have : (Emit.plain e.id).id = e.id := rfl
      omega
  · -- a reference that leaves the component
    have hlt := height_lt h.closed href hback
    have hl := (weight_bounds m e).1
    have hu := (weight_bounds m (itemFor splits e.id r)).2
    rw [itemFor_id] at hu
    omega

end ApiModels.Order
