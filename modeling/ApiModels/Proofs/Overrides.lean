import ApiModels.Registry.Selector
import Mathlib.Data.List.Basic
import Mathlib.Data.List.Induction
import Mathlib.Data.List.Infix
import Mathlib.Data.List.Nodup

/-!
# Which override is in force

An override comes with a guard, and the end of a guard ends an override: not its own, but the
innermost of its selector. So how many overrides are left is right whatever the order in which guards
end, and which they are is right as long as every guard that ends is the innermost. A guard that ends
before one made later takes the later one's override with it and leaves its own behind.
-/

namespace ApiModels

/-- A guard of a thread. -/
structure OverrideGuard where
  selector : SelectorId
  release : String
  /-- How many guards of its selector were alive when it was made, itself included. -/
  depth : Nat
deriving DecidableEq, Repr

/-- What a thread does with overrides. Guards are numbered from 0 as they are made. -/
inductive OverrideStep where
  | override (id : SelectorId) (release : String)
  | drop (guard : Nat)
deriving DecidableEq, Repr

/-- Selectors, and the guards of a thread. -/
structure Overriding where
  selection : Selection := {}
  /-- Every guard that was made, by its number. -/
  guards : List OverrideGuard := []
  /-- Numbers of the guards that are alive, in order. -/
  alive : List Nat := []

namespace Overriding

/-- Numbers of the guards of a selector that are alive, in order. -/
def aliveOf (o : Overriding) (id : SelectorId) : List Nat :=
  o.alive.filter fun n => o.guards[n]?.any fun g => g.selector = id

/-- The release that a guard was made with. -/
def release? (o : Overriding) (n : Nat) : Option String := o.guards[n]?.map (·.release)

/-- The release of the guard made last among those of a selector that are alive. -/
def latestAlive? (o : Overriding) (id : SelectorId) : Option String :=
  (o.aliveOf id).getLast?.bind o.release?

/-- The release of the guard made last among those of a selector that were made at a depth. -/
def latestAt? (o : Overriding) (id : SelectorId) (depth : Nat) : Option String :=
  (o.guards.filter fun g => g.selector = id ∧ g.depth = depth).getLast?.map (·.release)

/-- A step of a thread. A guard that is gone cannot be dropped again. -/
def step (t : ThreadId) (o : Overriding) : OverrideStep → Overriding
  | .override id release =>
    { selection := o.selection.overrideThread t id release,
      guards := o.guards ++ [⟨id, release, (o.aliveOf id).length + 1⟩],
      alive := o.alive ++ [o.guards.length] }
  | .drop n =>
    match o.guards[n]? with
    | some g =>
      if n ∈ o.alive then
        { o with selection := o.selection.endOverride t g.selector, alive := o.alive.erase n }
      else o
    | none => o

/-- A thread after some steps. -/
def run (t : ThreadId) (steps : List OverrideStep) : Overriding := steps.foldl (step t) {}

/-- Every guard of a selector that is dropped is the one made last among those that are alive. -/
def Nested (t : ThreadId) (id : SelectorId) (steps : List OverrideStep) : Prop :=
  ∀ before n, before ++ [.drop n] <+: steps → n ∈ (run t before).aliveOf id →
    ((run t before).aliveOf id).getLast? = some n

/-- No two guards of a selector were made with one release. -/
def Distinct (o : Overriding) (id : SelectorId) : Prop :=
  o.guards.Pairwise fun g g' => g.selector = id → g'.selector = id → g.release ≠ g'.release

variable {t : ThreadId} {o : Overriding} {id id' : SelectorId} {release : String} {n : Nat}
  {steps : List OverrideStep}

theorem run_concat (t : ThreadId) (steps : List OverrideStep) (s : OverrideStep) :
    run t (steps ++ [s]) = (run t steps).step t s := List.foldl_concat ..

theorem mem_aliveOf : n ∈ o.aliveOf id ↔ n ∈ o.alive ∧ ∃ g, o.guards[n]? = some g
    ∧ g.selector = id := by
  simp [aliveOf, Option.any_eq_true]

/-! ## What a step changes -/

/-- Numbers of guards that are alive are numbers of guards, and each is there once. -/
structure Numbered (o : Overriding) : Prop where
  lt : ∀ n ∈ o.alive, n < o.guards.length
  nodup : o.alive.Nodup

theorem overrides_override (t : ThreadId) (o : Overriding) (id id' : SelectorId)
    (release : String) : (o.step t (.override id release)).selection.overrides t id'
      = if id' = id then release :: o.selection.overrides t id else o.selection.overrides t id' := by
  simp only [step, Selection.overrideThread, Selection.setOverrides, setAt, if_pos]

theorem aliveOf_override (h : Numbered o) (t : ThreadId) (id id' : SelectorId) (release : String) :
    (o.step t (.override id release)).aliveOf id'
      = o.aliveOf id' ++ if id' = id then [o.guards.length] else [] := by
  have hold : ∀ n ∈ o.alive, ((o.guards ++ [⟨id, release, (o.aliveOf id).length + 1⟩])[n]?.any
      fun g => g.selector = id') = o.guards[n]?.any fun g => g.selector = id' := by
    intro n hn
    rw [List.getElem?_append_left (h.lt n hn)]
  unfold aliveOf step
  dsimp only
  rw [List.filter_append, List.filter_congr hold]
  congr 1
  by_cases hid : id' = id <;> simp [hid, eq_comm]

theorem release?_override (hn : n < o.guards.length) :
    (o.step t (.override id release)).release? n = o.release? n := by
  unfold release? step
  rw [List.getElem?_append_left hn]

/-- To drop a guard that is alive ends the innermost override of its selector. -/
theorem step_drop (h : n ∈ o.aliveOf id) : o.step t (.drop n)
    = { o with selection := o.selection.endOverride t id, alive := o.alive.erase n } := by
  obtain ⟨halive, g, hg, rfl⟩ := mem_aliveOf.mp h
  unfold step
  dsimp only
  rw [hg]
  exact if_pos halive

theorem step_drop_of_notMem (h : ∀ id, n ∉ o.aliveOf id) : o.step t (.drop n) = o := by
  unfold step
  dsimp only
  split
  · rename_i g hg
    exact if_neg fun halive => h g.selector (mem_aliveOf.mpr ⟨halive, g, hg, rfl⟩)
  · rfl

/-- A guard is of one selector. -/
theorem aliveOf_unique (h : n ∈ o.aliveOf id) (h' : n ∈ o.aliveOf id') : id = id' := by
  obtain ⟨-, g, hg, rfl⟩ := mem_aliveOf.mp h
  obtain ⟨-, g', hg', rfl⟩ := mem_aliveOf.mp h'
  rw [Option.some.inj (hg.symm.trans hg')]

theorem overrides_drop (h : n ∈ o.aliveOf id) (id' : SelectorId) :
    (o.step t (.drop n)).selection.overrides t id'
      = if id' = id then (o.selection.overrides t id).tail else o.selection.overrides t id' := by
  rw [step_drop h]
  simp only [Selection.endOverride, Selection.setOverrides, setAt, if_pos]

theorem aliveOf_drop (hn : Numbered o) (h : n ∈ o.aliveOf id) (id' : SelectorId) :
    (o.step t (.drop n)).aliveOf id' = (o.aliveOf id').erase n := by
  have hnodup : (o.aliveOf id').Nodup := hn.nodup.filter _
  rw [step_drop h, hnodup.erase_eq_filter]
  unfold aliveOf
  dsimp only
  rw [hn.nodup.erase_eq_filter, List.filter_filter, List.filter_filter]
  exact List.filter_congr fun _ _ => Bool.and_comm _ _

theorem guards_drop (t : ThreadId) (o : Overriding) (n : Nat) :
    (o.step t (.drop n)).guards = o.guards := by
  unfold step
  dsimp only
  split
  · split <;> rfl
  · rfl

theorem Numbered.step (h : Numbered o) (t : ThreadId) (s : OverrideStep) :
    Numbered (o.step t s) := by
  cases s with
  | override id release =>
    constructor
    · intro n hn
      rw [Overriding.step, List.length_append]
      rcases List.mem_append.mp hn with hn | hn
      · exact Nat.lt_succ_of_lt (h.lt n hn)
      · rw [List.mem_singleton.mp hn]
        exact Nat.lt_succ_self _
    · refine List.nodup_append.mpr ⟨h.nodup, List.nodup_singleton _, ?_⟩
      intro n hn m hm
      rw [List.mem_singleton.mp hm]
      exact Nat.ne_of_lt (h.lt n hn)
  | drop n =>
    by_cases hid : ∃ id, n ∈ o.aliveOf id
    · obtain ⟨id, hid⟩ := hid
      rw [step_drop hid]
      exact ⟨fun m hm => h.lt m (List.mem_of_mem_erase hm), h.nodup.erase n⟩
    · rw [step_drop_of_notMem (not_exists.mp hid)]
      exact h

theorem numbered_run (t : ThreadId) (steps : List OverrideStep) : Numbered (run t steps) := by
  induction steps using List.reverseRecOn with
  | nil => exact ⟨by simp [run], by simp [run]⟩
  | append_singleton steps s ih =>
    rw [run_concat]
    exact ih.step t s

/-! ## In any order -/

/-- As many overrides are in force as guards are alive, and each has the release of the guard made
last at its depth. -/
structure Stacked (t : ThreadId) (o : Overriding) : Prop where
  numbered : Numbered o
  length_eq : ∀ id, (o.selection.overrides t id).length = (o.aliveOf id).length
  latest : ∀ id depth, depth < (o.aliveOf id).length →
    (o.selection.overrides t id).reverse[depth]? = o.latestAt? id (depth + 1)

theorem latestAt?_override (t : ThreadId) (o : Overriding) (id id' : SelectorId) (release : String)
    (depth : Nat) : (o.step t (.override id release)).latestAt? id' depth
      = if id' = id ∧ depth = (o.aliveOf id).length + 1 then some release
        else o.latestAt? id' depth := by
  unfold latestAt? step
  dsimp only
  rw [List.filter_append]
  split
  · rename_i h
    obtain ⟨rfl, rfl⟩ := h
    simp
  · rename_i h
    have hnone : ¬ (id = id' ∧ (o.aliveOf id).length + 1 = depth) :=
      fun heq => h ⟨heq.1.symm, heq.2.symm⟩
    simp [hnone]

theorem latestAt?_drop (t : ThreadId) (o : Overriding) (n : Nat) (id : SelectorId) (depth : Nat) :
    (o.step t (.drop n)).latestAt? id depth = o.latestAt? id depth := by
  unfold latestAt?
  rw [guards_drop]

theorem Stacked.override (h : Stacked t o) (id : SelectorId) (release : String) :
    Stacked t (o.step t (.override id release)) where
  numbered := h.numbered.step t _
  length_eq id' := by
    rw [overrides_override, aliveOf_override h.numbered]
    by_cases hid : id' = id
    · subst hid
      simp [h.length_eq]
    · simp [hid, h.length_eq]
  latest id' depth hdepth := by
    rw [overrides_override, latestAt?_override]
    rw [aliveOf_override h.numbered, List.length_append] at hdepth
    by_cases hid : id' = id
    · subst hid
      have hlength := h.length_eq id'
      rw [if_pos rfl, List.length_singleton] at hdepth
      rw [if_pos rfl, List.reverse_cons]
      rcases Nat.lt_succ_iff_lt_or_eq.mp hdepth with hlt | heq
      · rw [List.getElem?_append_left (by rwa [List.length_reverse, hlength]),
          if_neg fun hnew => Nat.ne_of_lt hlt (Nat.succ.inj hnew.2)]
        exact h.latest id' depth hlt
      · rw [if_pos ⟨rfl, congrArg _ heq⟩, heq, ← hlength, ← List.length_reverse,
          List.getElem?_concat_length]
    · rw [if_neg hid, List.length_nil, Nat.add_zero] at hdepth
      rw [if_neg hid, if_neg fun hnew => hid hnew.1]
      exact h.latest id' depth hdepth

theorem Stacked.drop (h : Stacked t o) (hn : n ∈ o.aliveOf id) : Stacked t (o.step t (.drop n)) where
  numbered := h.numbered.step t _
  length_eq id' := by
    rw [overrides_drop hn, aliveOf_drop h.numbered hn]
    by_cases hid : id' = id
    · subst hid
      rw [if_pos rfl, List.length_tail, h.length_eq, List.length_erase_of_mem hn]
    · rw [if_neg hid, h.length_eq, List.erase_of_not_mem fun hmem => hid (aliveOf_unique hmem hn)]
  latest id' depth hdepth := by
    rw [overrides_drop hn, latestAt?_drop]
    rw [aliveOf_drop h.numbered hn] at hdepth
    by_cases hid : id' = id
    · subst hid
      rw [List.length_erase_of_mem hn] at hdepth
      rw [if_pos rfl, ← List.dropLast_reverse, List.getElem?_dropLast, List.length_reverse,
        h.length_eq, if_pos hdepth]
      exact h.latest id' depth (by omega)
    · rw [List.erase_of_not_mem fun hmem => hid (aliveOf_unique hmem hn)] at hdepth
      rw [if_neg hid]
      exact h.latest id' depth hdepth

theorem Stacked.step (h : Stacked t o) (s : OverrideStep) : Stacked t (o.step t s) := by
  cases s with
  | override id release => exact h.override id release
  | drop n =>
    by_cases hn : ∃ id, n ∈ o.aliveOf id
    · obtain ⟨id, hn⟩ := hn
      exact h.drop hn
    · rw [step_drop_of_notMem (not_exists.mp hn)]
      exact h

theorem stacked_run (t : ThreadId) (steps : List OverrideStep) : Stacked t (run t steps) := by
  induction steps using List.reverseRecOn with
  | nil => exact ⟨⟨by simp [run], by simp [run]⟩, by simp [run, aliveOf], by simp [run, aliveOf]⟩
  | append_singleton steps s ih =>
    rw [run_concat]
    exact ih.step s

/-- **The override in force is that of the guard made last at the depth of those alive.** -/
theorem Stacked.threadOverride_eq (h : Stacked t o) (id : SelectorId) :
    o.selection.threadOverride t id
      = if o.aliveOf id = [] then none else o.latestAt? id (o.aliveOf id).length := by
  have hlength := h.length_eq id
  unfold Selection.threadOverride
  split
  · rename_i hnone
    rw [hnone, List.length_nil, List.length_eq_zero_iff] at hlength
    rw [hlength]
    rfl
  · rename_i hsome
    have hpos : 0 < (o.aliveOf id).length := List.length_pos_iff.mpr hsome
    have hlatest := h.latest id ((o.aliveOf id).length - 1) (by omega)
    rw [Nat.sub_add_cancel hpos] at hlatest
    rw [← hlatest, ← List.getLast?_reverse, List.getLast?_eq_getElem?, List.length_reverse, hlength]

/-! ## From the inside out -/

/-- The overrides of a selector are those of its guards that are alive. -/
def Matches (t : ThreadId) (o : Overriding) (id : SelectorId) : Prop :=
  (o.selection.overrides t id).reverse.map some = (o.aliveOf id).map o.release?

/-- The innermost of some overrides is that of the last of their guards. -/
theorem head?_eq_bind {overrides : List String} {guards : List Nat} {f : Nat → Option String}
    (h : overrides.reverse.map some = guards.map f) :
    overrides.head? = guards.getLast?.bind f := by
  have hlast := congrArg List.getLast? h
  rw [List.getLast?_map, List.getLast?_map, List.getLast?_reverse] at hlast
  cases hguards : guards.getLast? with
  | none =>
    rw [hguards] at hlast
    simpa using hlast
  | some n =>
    rw [hguards] at hlast
    obtain ⟨release, hhead, hrelease⟩ := Option.map_eq_some_iff.mp hlast
    rw [hhead, Option.bind_some, ← hrelease]

theorem Matches.threadOverride_eq (h : Matches t o id) :
    o.selection.threadOverride t id = o.latestAlive? id := head?_eq_bind h

/-- Releases of guards stay as they are. -/
theorem release?_step (s : OverrideStep) (hn : n < o.guards.length) :
    (o.step t s).release? n = o.release? n := by
  cases s with
  | override => exact release?_override hn
  | drop m => rw [release?, guards_drop, release?]

theorem Matches.override (h : Matches t o id') (hn : Numbered o) (id : SelectorId)
    (release : String) : Matches t (o.step t (.override id release)) id' := by
  have hkept : (o.aliveOf id').map (o.step t (.override id release)).release?
      = (o.aliveOf id').map o.release? :=
    List.map_congr_left fun n hmem => release?_step _ (hn.lt n (List.mem_of_mem_filter hmem))
  unfold Matches
  rw [overrides_override, aliveOf_override hn, List.map_append, hkept, ← h]
  by_cases hid : id' = id
  · subst hid
    have hnew : (o.step t (.override id' release)).release? o.guards.length = some release := by
      simp [Overriding.step, release?]
    rw [if_pos rfl, if_pos rfl, List.reverse_cons, List.map_append, List.map_singleton,
      List.map_singleton, hnew]
  · rw [if_neg hid, if_neg hid, List.map_nil, List.append_nil]

/-- The end of the innermost guard of a selector ends its own override. -/
theorem Matches.drop (h : Matches t o id) (hn : Numbered o) {m : Nat}
    (hm : m ∈ o.aliveOf id → (o.aliveOf id).getLast? = some m) :
    Matches t (o.step t (.drop m)) id := by
  have hkept : (o.step t (.drop m)).release? = o.release? := by
    funext n
    rw [release?, guards_drop, release?]
  by_cases hmem : m ∈ o.aliveOf id
  · obtain ⟨others, hothers⟩ := List.getLast?_eq_some_iff.mp (hm hmem)
    have hnodup : (o.aliveOf id).Nodup := hn.nodup.filter _
    have herase : (o.aliveOf id).erase m = others := by
      rw [hothers, List.nodup_append] at hnodup
      have hnotMem : m ∉ others := fun hin => hnodup.2.2 m hin m (List.mem_singleton_self m) rfl
      rw [hothers, List.erase_append_right _ hnotMem, List.erase_cons_head, List.append_nil]
    have hdropLast := congrArg List.dropLast h
    rw [hothers, List.map_append, List.map_singleton, List.dropLast_concat, ← List.map_dropLast,
      List.dropLast_reverse] at hdropLast
    unfold Matches
    rw [overrides_drop hmem, if_pos rfl, aliveOf_drop hn hmem, herase, hkept, hdropLast]
  · unfold Matches
    rw [hkept]
    by_cases hid : ∃ id', m ∈ o.aliveOf id'
    · obtain ⟨id', hid'⟩ := hid
      rw [overrides_drop hid', if_neg fun heq : id = id' => hmem (heq ▸ hid'), aliveOf_drop hn hid',
        List.erase_of_not_mem hmem, h]
    · rw [step_drop_of_notMem (not_exists.mp hid), h]

theorem Nested.shorter {before : List OverrideStep} (h : Nested t id steps)
    (hbefore : before <+: steps) : Nested t id before :=
  fun earlier n hearlier => h earlier n (hearlier.trans hbefore)

theorem Nested.matches (h : Nested t id steps) : Matches t (run t steps) id := by
  induction steps using List.reverseRecOn with
  | nil => rfl
  | append_singleton steps s ih =>
    have hbefore := ih (h.shorter (List.prefix_append steps [s]))
    rw [run_concat]
    cases s with
    | override id' release => exact hbefore.override (numbered_run t steps) id' release
    | drop n => exact hbefore.drop (numbered_run t steps) (h steps n List.prefix_rfl)

/-- After some steps the override in force is that of the guard made last among those alive. -/
def Lasts (t : ThreadId) (id : SelectorId) (steps : List OverrideStep) : Prop :=
  (run t steps).selection.threadOverride t id = (run t steps).latestAlive? id

theorem Distinct.of_step {s : OverrideStep} (h : (o.step t s).Distinct id) : o.Distinct id := by
  unfold Distinct at h
  cases s with
  | override => exact (List.pairwise_append.mp h).1
  | drop n => rwa [guards_drop] at h

theorem Distinct.unique (h : o.Distinct id) {n n' : Nat} (hn : n ∈ o.aliveOf id)
    (hn' : n' ∈ o.aliveOf id) (heq : o.release? n = o.release? n') : n = n' := by
  obtain ⟨-, g, hg, hid⟩ := mem_aliveOf.mp hn
  obtain ⟨-, g', hg', hid'⟩ := mem_aliveOf.mp hn'
  unfold release? at heq
  rw [hg, hg', Option.map_some, Option.map_some] at heq
  obtain ⟨hlt, rfl⟩ := List.getElem?_eq_some_iff.mp hg
  obtain ⟨hlt', rfl⟩ := List.getElem?_eq_some_iff.mp hg'
  have hpairs := List.pairwise_iff_getElem.mp h
  by_contra hne
  rcases Nat.lt_or_gt_of_ne hne with hless | hmore
  · exact hpairs n n' hlt hlt' hless hid hid' (Option.some.inj heq)
  · exact hpairs n' n hlt' hlt hmore hid' hid (Option.some.inj heq).symm

/-- After a guard has ended, the override in force is that of the guard made last only if the one
that ended was. -/
theorem Matches.getLast?_of_lasts (h : Matches t o id) (hn : Numbered o) (hd : o.Distinct id)
    (hmem : n ∈ o.aliveOf id) (hlasts : (o.step t (.drop n)).selection.threadOverride t id
      = (o.step t (.drop n)).latestAlive? id) : (o.aliveOf id).getLast? = some n := by
  by_contra hinner
  have hnodup : (o.aliveOf id).Nodup := hn.nodup.filter _
  obtain ⟨others, m, halive⟩ :=
    (List.eq_nil_or_concat _).resolve_left (List.ne_nil_of_mem hmem)
  rw [List.concat_eq_append] at halive
  rw [halive, List.getLast?_concat] at hinner
  -- The guard that ended is one of the others, so the last one is alive still.
  have hothers : n ∈ others := by
    rw [halive, List.mem_append, List.mem_singleton] at hmem
    exact hmem.resolve_right fun heq => hinner (congrArg some heq.symm)
  have hlatest : (o.step t (.drop n)).latestAlive? id = o.release? m := by
    unfold latestAlive?
    rw [aliveOf_drop hn hmem, halive, List.erase_append_left _ hothers, List.getLast?_concat,
      Option.bind_some, release?, guards_drop, release?]
  -- But it is the last one's override that has ended.
  have htail : (o.selection.overrides t id).tail.reverse.map some = others.map o.release? := by
    have hdropLast := congrArg List.dropLast h
    rwa [halive, List.map_append, List.map_singleton, List.dropLast_concat, ← List.map_dropLast,
      List.dropLast_reverse] at hdropLast
  have hhead : (o.step t (.drop n)).selection.threadOverride t id
      = others.getLast?.bind o.release? := by
    unfold Selection.threadOverride
    rw [overrides_drop hmem, if_pos rfl]
    exact head?_eq_bind htail
  obtain ⟨k, hk⟩ := Option.ne_none_iff_exists'.mp
    (mt List.getLast?_eq_none_iff.mp (List.ne_nil_of_mem hothers))
  rw [hhead, hlatest, hk, Option.bind_some] at hlasts
  have hkmem : k ∈ others := List.mem_of_getLast? hk
  have hsame : k = m := hd.unique (halive ▸ List.mem_append_left [m] hkmem)
    (halive ▸ List.mem_append_right others (List.mem_singleton_self m)) hlasts
  rw [halive, List.nodup_append] at hnodup
  exact hnodup.2.2 k hkmem m (List.mem_singleton_self m) hsame

theorem nested_of_lasts (hd : (run t steps).Distinct id)
    (h : ∀ before, before <+: steps → Lasts t id before) : Nested t id steps := by
  induction steps using List.reverseRecOn with
  | nil =>
    intro before n hbefore
    simp at hbefore
  | append_singleton steps s ih =>
    rw [run_concat] at hd
    have hearlier : Nested t id steps :=
      ih hd.of_step fun before hbefore => h before (hbefore.trans (List.prefix_append steps [s]))
    intro before n hbefore hmem
    rcases List.prefix_concat_iff.mp hbefore with heq | hbefore
    · obtain ⟨rfl, hs⟩ := List.append_inj' heq rfl
      obtain rfl := List.singleton_inj.mp hs
      have hlasts := h (before ++ [.drop n]) List.prefix_rfl
      unfold Lasts at hlasts
      rw [run_concat] at hlasts
      exact hearlier.matches.getLast?_of_lasts (numbered_run t before) hd.of_step hmem hlasts
    · exact hearlier before n hbefore hmem

/-- **Which override is in force.** After any steps of a thread the override of a selector in force
is that of the guard made last at the depth of those alive, so there is none exactly if none is
alive. It is that of the guard made last among those alive all along if every guard that is dropped
is the last, and if the releases of the guards differ, only then. -/
theorem override_in_force (t : ThreadId) (steps : List OverrideStep) (id : SelectorId) :
    ((run t steps).selection.threadOverride t id
        = if (run t steps).aliveOf id = [] then none
          else (run t steps).latestAt? id ((run t steps).aliveOf id).length)
      ∧ ((run t steps).selection.threadOverride t id = none ↔ (run t steps).aliveOf id = [])
      ∧ (Nested t id steps → ∀ before, before <+: steps → Lasts t id before)
      ∧ ((run t steps).Distinct id → (∀ before, before <+: steps → Lasts t id before) →
        Nested t id steps) := by
  have hstacked := stacked_run t steps
  refine ⟨hstacked.threadOverride_eq id, ?_, ?_, nested_of_lasts⟩
  · unfold Selection.threadOverride
    rw [List.head?_eq_none_iff, ← List.length_eq_zero_iff, hstacked.length_eq,
      List.length_eq_zero_iff]
  · exact fun hnested before hbefore => (hnested.shorter hbefore).matches.threadOverride_eq

/-- Guards of another selector in between do not matter. Where a guard ends before a later one of its
own selector, the override in force is that of the guard that is gone. -/
theorem override_in_force_crossed :
    (∃ steps, (run 0 steps).Distinct 1 ∧ Nested 0 1 steps
      ∧ (run 0 steps).aliveOf 1 = [0] ∧ (run 0 steps).aliveOf 2 = [1]
      ∧ (run 0 steps).selection.threadOverride 0 1 = some "rel_a")
    ∧ ∃ steps, (run 0 steps).aliveOf 1 = [1] ∧ (run 0 steps).latestAlive? 1 = some "rel_b"
      ∧ (run 0 steps).selection.threadOverride 0 1 = some "rel_a" ∧ ¬ Nested 0 1 steps := by
  constructor
  · let steps : List OverrideStep :=
      [.override 1 "rel_a", .override 2 "rel_a", .override 1 "rel_b", .drop 2]
    have hlasts : ∀ before ∈ steps.inits, (run 0 before).selection.threadOverride 0 1
        = (run 0 before).latestAlive? 1 := by decide
    have hdistinct : (run 0 steps).Distinct 1 := by unfold Distinct; decide
    have hnested : Nested 0 1 steps := (override_in_force 0 steps 1).2.2.2 hdistinct
      fun before hbefore => hlasts before ((List.mem_inits before steps).mpr hbefore)
    exact ⟨steps, hdistinct, hnested, by decide, by decide,
      (override_in_force 0 steps 1).2.2.1 hnested steps List.prefix_rfl⟩
  · let steps : List OverrideStep := [.override 1 "rel_a", .override 1 "rel_b", .drop 0]
    refine ⟨steps, by decide, by decide, (override_in_force 0 steps 1).1, fun hnested => ?_⟩
    have hlasts := (override_in_force 0 steps 1).2.2.1 hnested steps List.prefix_rfl
    have hfails : ¬ (run 0 steps).selection.threadOverride 0 1 = (run 0 steps).latestAlive? 1 := by
      decide
    exact hfails hlasts

end Overriding

end ApiModels
