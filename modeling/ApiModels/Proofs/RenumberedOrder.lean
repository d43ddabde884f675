import ApiModels.Proofs.EmissionOrder
import ApiModels.Proofs.RenumberedNames

/-!
# The order of renumbered types

The walk that looks for cycles goes by numbers, and so do the rounds that leave types out and the
choice between items that are ready. None of it shows. Cycles, and what reaches one that cannot be
broken, are a matter of references alone; which type of a cycle is split is a matter of names; and
items whose names differ come in the order of their names as soon as what they need is out. So
definitions in another order make no difference to what comes out.
-/

namespace ApiModels

/-- An item under other numbers. -/
def Emit.renumber (σ : TypeId → TypeId) : Emit → Emit
  | .plain id => .plain (σ id)
  | .base id => .base (σ id)
  | .derived id => .derived (σ id)

theorem Emit.renumber_injective (σ : Equiv.Perm TypeId) : Function.Injective (Emit.renumber σ) := by
  intro a b h
  cases a <;> cases b <;> simp_all [renumber]

theorem Emit.id_renumber (σ : TypeId → TypeId) (e : Emit) : (e.renumber σ).id = σ e.id := by
  cases e <;> rfl

theorem Emit.rank_renumber (σ : TypeId → TypeId) (e : Emit) : (e.renumber σ).rank = e.rank := by
  cases e <;> rfl

/-- A split under other numbers. -/
def Split.renumber (σ : TypeId → TypeId) (s : Split) : Split :=
  { s with target := σ s.target, partner := σ s.partner }

theorem Split.renumber_injective (σ : Equiv.Perm TypeId) :
    Function.Injective (Split.renumber σ) := by
  rintro ⟨target, partner, baseName, closing⟩ ⟨target', partner', baseName', closing'⟩ h
  simp_all [renumber]

namespace Order

open ReleaseModel

variable {σ : Equiv.Perm TypeId} {m m' : ReleaseModel} {names names' : Names}
  {preferences : Preferences} {excluded excluded' : List TypeId} {splits splits' : List Split}
  {version : String} {id u v t p : TypeId} {s : Split} {e : Emit} {keep : Nat → Bool}

/-! ## Releasing items whose names differ -/

section

variable {before before' : Emit → Emit → Bool} {text text' : Emit → String} {es es' : List Emit}
  {pending pending' : List Pending}

/-- Items come in the order of their texts, which differ. -/
structure Ranked (before : Emit → Emit → Bool) (text : Emit → String) (es : List Emit) : Prop where
  differ : ∀ a ∈ es, ∀ b ∈ es, text a = text b → a = b
  before : ∀ a ∈ es, ∀ b ∈ es, before a b = true ↔ text a < text b

theorem Ranked.subset (h : Ranked before text es) (hsub : ∀ e ∈ es', e ∈ es) :
    Ranked before text es' where
  differ a ha b hb := h.differ a (hsub a ha) b (hsub b hb)
  before a ha b hb := h.before a (hsub a ha) b (hsub b hb)

/-- No item comes before the first. -/
theorem Ranked.first?_le (h : Ranked before text es) (hfirst : first? before es = some e) :
    ∀ a ∈ es, text e ≤ text a := by
  cases es with
  | nil => simp [first?] at hfirst
  | cons x xs =>
      rw [first?, Option.some.injEq] at hfirst
      subst hfirst
      -- the best so far is the least of the items folded in and stays so
      induction xs generalizing x with
      | nil => simp
      | cons y ys ih =>
          rw [List.foldl_cons]
          have hxy := h.before y (by simp) x (by simp)
          have hbest : (if before y x then y else x) = x ∨ (if before y x then y else x) = y := by
            split <;> simp
          have hle := ih (if before y x then y else x) <| h.subset fun a ha => by
            rcases List.mem_cons.mp ha with rfl | ha
            · rcases hbest with hb | hb <;> rw [hb] <;> simp
            · simp [ha]
          have hleast : text (if before y x then y else x) ≤ text x
              ∧ text (if before y x then y else x) ≤ text y := by
            split
            · rename_i hlt
              exact ⟨String.not_lt.mp (String.lt_asymm (hxy.mp hlt)), String.le_refl _⟩
            · rename_i hge
              exact ⟨String.le_refl _, String.not_lt.mp fun hlt => hge (hxy.mpr hlt)⟩
          intro a ha
          have hfold := hle _ List.mem_cons_self
          rcases List.mem_cons.mp ha with rfl | ha
          · exact String.le_trans hfold hleast.1
          · rcases List.mem_cons.mp ha with rfl | ha
            · exact String.le_trans hfold hleast.2
            · exact hle a (List.mem_cons_of_mem _ ha)

/-- The first of the same items under other numbers is the same. -/
theorem Ranked.first?_renumber (h : Ranked before text es) (h' : Ranked before' text' es')
    (hperm : es'.Perm (es.map (Emit.renumber σ)))
    (htext : ∀ e ∈ es, text' (e.renumber σ) = text e) :
    first? before' es' = (first? before es).map (Emit.renumber σ) := by
  cases hfirst : first? before es with
  | none =>
      rw [first?_eq_none] at hfirst
      subst hfirst
      exact first?_eq_none.mpr (List.perm_nil.mp hperm)
  | some e =>
      have he := first?_mem hfirst
      have he' : e.renumber σ ∈ es' := hperm.mem_iff.mpr (List.mem_map_of_mem he)
      cases hfirst' : first? before' es' with
      | none =>
          rw [first?_eq_none.mp hfirst'] at he'
          exact absurd he' List.not_mem_nil
      | some f' =>
          obtain ⟨f, hf, rfl⟩ := List.mem_map.mp (hperm.mem_iff.mp (first?_mem hfirst'))
          have hle := h.first?_le hfirst f hf
          have hge := h'.first?_le hfirst' _ he'
          rw [htext f hf, htext e he] at hge
          rw [h.differ e he f hf (String.le_antisymm hle hge)]
          rfl

/-- What waits, under other numbers. -/
def Pending.renumber (σ : TypeId → TypeId) (p : Pending) : Pending :=
  ⟨p.item.renumber σ, p.waits.map (Emit.renumber σ)⟩

theorem map_item_renumber (pending : List Pending) :
    (pending.map (Pending.renumber σ)).map (·.item)
      = (pending.map (·.item)).map (Emit.renumber σ) := by
  rw [List.map_map, List.map_map]
  rfl

theorem handOut_renumber (next : Emit) (pending : List Pending) :
    handOut (next.renumber σ) (pending.map (Pending.renumber σ))
      = (handOut next pending).map (Pending.renumber σ) := by
  have hne : ∀ e : Emit, (e.renumber σ ≠ next.renumber σ) = (e ≠ next) := by
    intro e
    rw [ne_eq, (Emit.renumber_injective σ).eq_iff]
  unfold handOut
  rw [List.filter_map, List.map_map, List.map_map]
  have hfilter : (pending.filter ((fun p => decide (p.item ≠ next.renumber σ))
      ∘ Pending.renumber σ)) = pending.filter fun p => decide (p.item ≠ next) := by
    refine List.filter_congr fun p _ => ?_
    exact decide_eq_decide.mpr (Eq.to_iff (hne p.item))
  rw [hfilter]
  refine List.map_congr_left fun p _ => ?_
  unfold Pending.renumber
  dsimp only [Function.comp_apply]
  rw [List.filter_map]
  congr 2
  exact List.filter_congr fun e _ => decide_eq_decide.mpr (Eq.to_iff (hne e))

theorem mem_items_of_handOut (next : Emit) (h : e ∈ (handOut next pending).map (·.item)) :
    e ∈ pending.map (·.item) := by
  rw [items_handOut] at h
  exact (List.mem_filter.mp h).1

theorem mem_items_of_ready
    (h : e ∈ (pending.filter fun p => p.waits.isEmpty).map (·.item)) : e ∈ pending.map (·.item) :=
  (List.filter_sublist.map _).subset h

/-- The same items are ready under any numbers. -/
theorem ready_perm (hperm : pending'.Perm (pending.map (Pending.renumber σ))) :
    ((pending'.filter fun p => p.waits.isEmpty).map (·.item)).Perm
      (((pending.filter fun p => p.waits.isEmpty).map (·.item)).map (Emit.renumber σ)) := by
  have hfilter := hperm.filter fun p => p.waits.isEmpty
  rw [List.filter_map] at hfilter
  have hempty : ((fun p : Pending => p.waits.isEmpty) ∘ Pending.renumber σ)
      = fun p => p.waits.isEmpty := by
    funext p
    exact List.isEmpty_map
  rw [hempty] at hfilter
  rw [← map_item_renumber]
  exact hfilter.map _

/-- **Items whose names differ are released in the same order under any numbers**, by induction on the
steps: the same one is next, and the same ones are left. -/
theorem release_renumber (h : Ranked before text (pending.map (·.item)))
    (h' : Ranked before' text' (pending'.map (·.item)))
    (hperm : pending'.Perm (pending.map (Pending.renumber σ)))
    (htext : ∀ e ∈ pending.map (·.item), text' (e.renumber σ) = text e) (steps : Nat) :
    (release before' steps pending').1
      = (release before steps pending).1.map (Emit.renumber σ) := by
  induction steps generalizing pending pending' with
  | zero => rfl
  | succ steps ih =>
      have hready := h.subset fun _ he => mem_items_of_ready he
      have hready' := h'.subset fun _ he => mem_items_of_ready he
      have hfirst := hready.first?_renumber hready' (ready_perm hperm)
        fun e he => htext e (mem_items_of_ready he)
      rw [release_succ, release_succ, hfirst]
      cases first? before ((pending.filter fun p => p.waits.isEmpty).map (·.item)) with
      | none => rfl
      | some next =>
          have hleft := h.subset fun _ he => mem_items_of_handOut next he
          have hleft' := h'.subset fun _ he => mem_items_of_handOut (next.renumber σ) he
          have hothers : (handOut (next.renumber σ) pending').Perm
              ((handOut next pending).map (Pending.renumber σ)) := by
            rw [← handOut_renumber]
            exact (hperm.filter _).map _
          rw [Option.map_some]
          dsimp only
          rw [List.map_cons, ih hleft hleft' hothers fun e he => htext e (mem_items_of_handOut next he)]

end

/-! ## Splits -/

section

variable (h : Renumbered σ m m') (hname : ∀ id, names'.name (σ id) = names.name id)

include h hname

theorem baseName_renumber (t : TypeId) : baseName m' names' (σ t) = baseName m names t := by
  have hany : ∀ (version base : String),
      ((m'.typesOf version).any fun id => names'.name id == base)
        = (m.typesOf version).any fun id => names.name id == base := by
    intro version base
    rw [(h.typesOf version).any_eq, List.any_map]
    congr 1
    funext id
    rw [Function.comp_apply, hname]
  unfold baseName
  dsimp only
  rw [h.typeVersion, hname, hany]

theorem splitFor_renumber (t p : TypeId) :
    splitFor m' names' (σ t) (σ p) = (splitFor m names t p).renumber σ := by
  unfold splitFor Split.renumber
  rw [baseName_renumber h hname, h.type]
  unfold TypeDef.renumber
  dsimp only
  rw [List.zipIdx_map, List.filterMap_map]
  congr 1
  refine List.filterMap_congr fun q _ => ?_
  obtain ⟨q, i⟩ := q
  unfold Property.renumber
  dsimp only [Function.comp_apply, Prod.map_apply, id_eq]
  rw [TypeRef.named?_renumber]
  cases q.type.named? with
  | none => rfl
  | some r => simp [σ.injective.eq_iff]

end

/-- The first type of a cycle has the least name. -/
theorem name_lt_of_mem_cycles (hc : [t, p] ∈ cycles m names)
    (hdiffer : names.name t ≠ names.name p) : names.name t < names.name p := by
  obtain ⟨d, -, -, hd⟩ := mem_cycles.mp hc
  have : Std.TransCmp fun a b : TypeId => compare (names.name a) (names.name b) :=
    inferInstanceAs (Std.TransCmp (compareOn names.name))
  have hsorted := Names.pairwise_mergeSort
    (fun a b : TypeId => compare (names.name a) (names.name b)) d
  unfold sortByName at hd
  rw [hd] at hsorted
  have hle := (List.pairwise_cons.mp hsorted).1 p (List.mem_singleton_self p)
  have hne : compare (names.name t) (names.name p) ≠ .eq :=
    fun heq => hdiffer (Std.LawfulEqCmp.eq_of_compare heq)
  exact compareOfLessAndEq_eq_lt.mp ((Ordering.isLE_iff_eq_lt_or_eq_eq.mp hle).resolve_right hne)

theorem ofModel_splits (m : ReleaseModel) (names : Names) : (ofModel m names).1.splits
    = splitsFor m names (leftOutByCycles m names).1 ((cycles m names).filter (isSplittable m)) :=
  rfl

/-- **Which types are split**: of two types kept that reach each other, the one of the lesser
name. -/
theorem mem_splits_iff (hm : m.Closed) (preferences : Preferences) :
    s ∈ (ofModel m (Names.resolve m preferences)).1.splits ↔
      ∃ t p, s = splitFor m (Names.resolve m preferences) t p ∧ t < m.types.size
        ∧ t ∉ (ofModel m (Names.resolve m preferences)).1.excluded
        ∧ p ∈ m.component t ∧ p ≠ t
        ∧ (Names.resolve m preferences).name t < (Names.resolve m preferences).name p := by
  obtain ⟨hsorted, -⟩ := ofModel_sorted (Names.resolve m preferences) hm
  -- a split is that of the first type of its cycle
  have hforward : ∀ {s}, s ∈ (ofModel m (Names.resolve m preferences)).1.splits →
      ∃ t p, s = splitFor m (Names.resolve m preferences) t p ∧ t < m.types.size
        ∧ t ∉ (ofModel m (Names.resolve m preferences)).1.excluded
        ∧ p ∈ m.component t ∧ p ≠ t
        ∧ (Names.resolve m preferences).name t < (Names.resolve m preferences).name p := by
    intro s hs
    rw [ofModel_splits] at hs
    obtain ⟨t, p, hc, ht, -, rfl⟩ := mem_splitsFor hs
    obtain ⟨hc, hsplit⟩ := List.mem_filter.mp hc
    obtain ⟨-, hnd, hall⟩ := cycle_eq_component hm hc
    obtain ⟨hlt, hcomp⟩ := hall t (by simp)
    obtain ⟨hlt', -⟩ := hall p (by simp)
    have hp : p ∈ m.component t := (hcomp p).mp (by simp)
    have hne : p ≠ t := by
      rintro rfl
      simp at hnd
    have hversion : (m.type t).version = (m.type p).version := by
      by_contra hdiff
      refine (isSplittable_iff hm hc (List.mem_cons_self)).mp hsplit (.inr ⟨t, ?_, p, hp, hdiff⟩)
      exact (hcomp t).mp (by simp)
    refine ⟨t, p, rfl, hlt, fun hex => ht ?_, hp, hne, ?_⟩
    · exact (mem_leftOutByCycles hm).mpr ((hsorted.excluded t).mp hex)
    · refine name_lt_of_mem_cycles hc fun heq => hne ?_
      exact (Names.name_injective hlt hlt' hversion heq).symm
  refine ⟨hforward, ?_⟩
  rintro ⟨t, p, rfl, hlt, hex, hp, hne, hless⟩
  rcases hsorted.settled.broken t p hlt hex hp hne with ⟨s, hs, rfl, rfl, -⟩ | ⟨s, hs, rfl, rfl, -⟩
  · obtain ⟨t, p, rfl, -⟩ := hforward hs
    exact hs
  · -- the other way round the names would be in the wrong order
    obtain ⟨t, p, rfl, -, -, -, -, hless'⟩ := hforward hs
    exact absurd hless (String.lt_asymm hless')

theorem sublist_targets (cs : List (List TypeId)) :
    ((splitsFor m names excluded cs).map (·.target)).Sublist cs.flatten := by
  induction cs with
  | nil => exact List.Sublist.refl []
  | cons c cs ih =>
      have hskip : ((splitsFor m names excluded cs).map (·.target)).Sublist (c ++ cs.flatten) :=
        ih.trans (List.sublist_append_right c _)
      unfold splitsFor at ih hskip ⊢
      rw [List.filterMap_cons, List.flatten_cons]
      split
      · exact hskip
      · rename_i s hs
        split at hs
        · rename_i t p
          split at hs
          · simp at hs
          · obtain rfl := Option.some.inj hs
            exact (ih.cons p).cons_cons t
        · simp at hs

theorem nodup_splits (hm : m.Closed) (names : Names) : (ofModel m names).1.splits.Nodup := by
  refine List.Nodup.of_map (·.target) ?_
  rw [ofModel_splits]
  refine List.Nodup.sublist (sublist_targets _) ?_
  exact (cycles_nodup names hm).sublist (List.filter_sublist.flatten)

theorem splitOf?_eq_some_iff (hm : m.Closed) (names : Names) :
    splitOf? (ofModel m names).1.splits u = some s
      ↔ s ∈ (ofModel m names).1.splits ∧ s.target = u := by
  refine ⟨mem_of_splitOf?, ?_⟩
  rintro ⟨hs, rfl⟩
  rw [ofModel_splits] at hs ⊢
  exact splitOf?_of_mem (fun c hc => (List.mem_filter.mp hc).1) hm hs

/-! ## What is left out and split -/

section

variable (h : Renumbered σ m m') (hkeys : m.DistinctKeys) (hm : m.Closed)

include h hm

theorem mem_excluded_renumber (names names' : Names) :
    σ u ∈ (ofModel m' names').1.excluded ↔ u ∈ (ofModel m names).1.excluded := by
  rw [(ofModel_sorted names' (h.closed hm)).1.excluded, (ofModel_sorted names hm).1.excluded, h.lt]
  refine and_congr_right fun _ => ?_
  rw [σ.surjective.exists]
  simp only [h.reaches, h.tangled]

theorem excluded_perm (names names' : Names) : (ofModel m' names').1.excluded.Perm
    ((ofModel m names).1.excluded.map σ) := by
  have hnodup : ∀ {m : ReleaseModel} (names : Names), (ofModel m names).1.excluded.Nodup :=
    fun _ => nodup_typeIds.filter _
  refine (List.perm_ext_iff_of_nodup (hnodup _) ((hnodup _).map σ.injective)).mpr fun v => ?_
  obtain ⟨u, rfl⟩ := σ.surjective v
  rw [mem_excluded_renumber h hm names, List.mem_map_of_injective σ.injective]

include hkeys

theorem mem_splits_renumber (preferences : Preferences) :
    s.renumber σ ∈ (ofModel m' (Names.resolve m' preferences)).1.splits
      ↔ s ∈ (ofModel m (Names.resolve m preferences)).1.splits := by
  have hname := Names.name_renumber h hkeys preferences
  rw [mem_splits_iff (h.closed hm), mem_splits_iff hm, σ.surjective.exists]
  refine exists_congr fun t => ?_
  rw [σ.surjective.exists]
  refine exists_congr fun p => ?_
  rw [splitFor_renumber h hname, (Split.renumber_injective σ).eq_iff, h.lt,
    mem_excluded_renumber h hm (Names.resolve m preferences), h.mem_component, ne_eq,
    σ.injective.eq_iff, hname, hname]

/-- **The same types are split under any numbers.** -/
theorem splits_perm (preferences : Preferences) :
    (ofModel m' (Names.resolve m' preferences)).1.splits.Perm
      ((ofModel m (Names.resolve m preferences)).1.splits.map (Split.renumber σ)) := by
  refine (List.perm_ext_iff_of_nodup (nodup_splits (h.closed hm) _)
    ((nodup_splits hm _).map (Split.renumber_injective σ))).mpr fun s' => ?_
  constructor
  · intro hs'
    obtain ⟨s, rfl⟩ : ∃ s : Split, s.renumber σ = s' :=
      ⟨s'.renumber σ.symm, by simp [Split.renumber]⟩
    exact List.mem_map_of_mem ((mem_splits_renumber h hkeys hm preferences).mp hs')
  · intro hs'
    obtain ⟨s, hs, rfl⟩ := List.mem_map.mp hs'
    exact (mem_splits_renumber h hkeys hm preferences).mpr hs

theorem splitOf?_renumber (preferences : Preferences) (u : TypeId) :
    splitOf? (ofModel m' (Names.resolve m' preferences)).1.splits (σ u)
      = (splitOf? (ofModel m (Names.resolve m preferences)).1.splits u).map (Split.renumber σ) := by
  have hperm := splits_perm h hkeys hm preferences
  refine Option.ext fun s' => ?_
  rw [splitOf?_eq_some_iff (h.closed hm), hperm.mem_iff, List.mem_map, Option.map_eq_some_iff]
  constructor
  · rintro ⟨⟨s, hs, rfl⟩, htarget⟩
    exact ⟨s, (splitOf?_eq_some_iff hm _).mpr ⟨hs, σ.injective htarget⟩, rfl⟩
  · rintro ⟨s, hs, rfl⟩
    obtain ⟨hmem, htarget⟩ := (splitOf?_eq_some_iff hm _).mp hs
    exact ⟨⟨s, hmem, rfl⟩, congrArg σ htarget⟩

end

/-! ## Items -/

section

variable (h : Renumbered σ m m') (hex : ∀ u, σ u ∈ excluded' ↔ u ∈ excluded)
  (hsplit : ∀ u, splitOf? splits' (σ u) = (splitOf? splits u).map (Split.renumber σ))

include hsplit

theorem itemFor_renumber (u v : TypeId) :
    itemFor splits' (σ u) (σ v) = (itemFor splits u v).renumber σ := by
  unfold itemFor
  rw [hsplit]
  cases splitOf? splits v with
  | none => rfl
  | some s =>
      unfold Split.renumber
      dsimp only [Option.map_some]
      by_cases hs : s.partner = u
      · simp [hs, Emit.renumber]
      · simp [hs, σ.injective.eq_iff, Emit.renumber]

theorem itemName_renumber (hname : ∀ id, names'.name (σ id) = names.name id) (e : Emit) :
    itemName names' splits' (e.renumber σ) = itemName names splits e := by
  cases e with
  | plain id => exact hname id
  | derived id => exact hname id
  | base id =>
      unfold Emit.renumber itemName
      dsimp only
      rw [hsplit, hname, Option.map_map]
      rfl

include h hex

theorem needs_renumber (id : TypeId) (keep : Nat → Bool) :
    needs m' excluded' splits' (σ id) keep
      = (needs m excluded splits id keep).map (Emit.renumber σ) := by
  unfold needs
  rw [h.type, List.map_filterMap]
  unfold TypeDef.renumber
  dsimp only
  rw [List.zipIdx_map, List.filterMap_map]
  refine List.filterMap_congr fun q _ => ?_
  obtain ⟨q, i⟩ := q
  unfold Property.renumber
  dsimp only [Function.comp_apply, Prod.map_apply, id_eq]
  rw [TypeRef.named?_renumber]
  cases q.type.named? with
  | none => rfl
  | some r =>
      have hcontains : excluded'.contains (σ r) = excluded.contains r := by
        rw [Bool.eq_iff_iff, List.contains_iff_mem, List.contains_iff_mem, hex]
      dsimp only [Option.map_some]
      rw [h.typeVersion, hcontains, itemFor_renumber hsplit]
      by_cases hr : r = id
      · simp [hr]
      · simp [hr, apply_ite (Option.map (Emit.renumber σ))]

theorem itemsOf_renumber (id : TypeId) : itemsOf m' excluded' splits' (σ id)
    = (itemsOf m excluded splits id).map (Pending.renumber σ) := by
  have hneeds := needs_renumber h hex hsplit id
  unfold itemsOf
  rw [hsplit]
  cases splitOf? splits id with
  | none =>
      dsimp only [Option.map_none]
      rw [hneeds]
      rfl
  | some s =>
      dsimp only [Option.map_some]
      rw [hneeds, hneeds]
      rfl

omit hsplit in
theorem kept_perm (version : String) :
    (kept m' excluded' version).Perm ((kept m excluded version).map σ) := by
  have hfilter := (h.typesOf version).filter fun id => !excluded'.contains id
  rw [List.filter_map] at hfilter
  have hcontains : ((fun id => !excluded'.contains id) ∘ σ) = fun id => !excluded.contains id := by
    funext id
    rw [Function.comp_apply, Bool.eq_iff_iff]
    simp [hex]
  rw [hcontains] at hfilter
  exact hfilter

theorem pendingOf_perm (version : String) : (pendingOf m' excluded' splits' version).Perm
    ((pendingOf m excluded splits version).map (Pending.renumber σ)) := by
  have hitems : (itemsOf m' excluded' splits') ∘ σ
      = fun id => (itemsOf m excluded splits id).map (Pending.renumber σ) :=
    funext fun id => itemsOf_renumber h hex hsplit id
  unfold pendingOf
  refine ((kept_perm h hex version).flatMap_right _).trans ?_
  rw [List.flatMap_map, List.map_flatMap]
  exact List.Perm.of_eq (List.flatMap_congr fun id _ => congrFun hitems id)

end

/-- Items whose names differ come in the order of their names. -/
theorem ranked_precedes {es : List Emit} (hnodup : (es.map (itemName names splits)).Nodup) :
    Ranked (precedes names splits) (itemName names splits) es where
  differ a ha b hb heq := List.inj_on_of_nodup_map hnodup ha hb heq
  before a ha b hb := by
    unfold precedes
    by_cases heq : itemName names splits a = itemName names splits b
    · obtain rfl := List.inj_on_of_nodup_map hnodup ha hb heq
      simp
    · have hne : compare (itemName names splits a) (itemName names splits b) ≠ .eq :=
        fun h => heq (Std.LawfulEqCmp.eq_of_compare h)
      have hlt : compare (itemName names splits a) (itemName names splits b) = .lt
          ↔ itemName names splits a < itemName names splits b := compareOfLessAndEq_eq_lt
      rw [← hlt]
      cases hcompare : compare (itemName names splits a) (itemName names splits b) with
      | eq => exact absurd hcompare hne
      | lt => simp [Ordering.then]
      | gt => simp [Ordering.then]

end Order

end ApiModels
