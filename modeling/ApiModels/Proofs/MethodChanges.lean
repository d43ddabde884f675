import ApiModels.MethodMap
import ApiModels.Proofs.Table
import Mathlib.Data.List.Nodup
import Mathlib.Logic.Function.Basic

/-!
# Differences of method maps

A map places a method, known by its release, its version and its name, on a class, or has no class
for it. The difference of two maps goes through the releases of both, through the versions that a
release has in either, and through the methods of a version in either. So it meets every place that
either map knows exactly once, in order, and has a change for it where the two maps disagree.

Changes say where a method was and where it goes. They are applied one after the other, and each of
them only to a method that is where the change says it was.
-/

namespace ApiModels.MethodMap

/-- What a method is known by in a map. -/
structure Place where
  release : String
  version : String
  method : String
deriving DecidableEq, Repr

/-- The order of releases, of versions in a release, and of methods in a version. -/
def Place.Before (p q : Place) : Prop :=
  p.release < q.release
    ∨ p.release = q.release
      ∧ (p.version < q.version ∨ p.version = q.version ∧ p.method < q.method)

/-- The class that a map places a method on, if it has the method. -/
def classAt? (map : MethodMap) (p : Place) : Option String :=
  (map.methods p.release p.version).get? p.method

namespace Change

/-- The class before a change. -/
def before? : Change → Option String
  | added _ => none
  | removed a | relocated a _ => some a

/-- The class after a change. -/
def after? : Change → Option String
  | removed _ => none
  | added b | relocated _ b => some b

/-- A change taken back. -/
def reverse : Change → Change
  | added b => removed b
  | removed a => added a
  | relocated a b => relocated b a

end Change

namespace MethodChange

/-- The place of the method that changes. -/
def place (c : MethodChange) : Place := ⟨c.release, c.version, c.method⟩

/-- The change of a method taken back. -/
def reverse (c : MethodChange) : MethodChange := { c with change := c.change.reverse }

/-- Puts a method where a change takes it. This fails if the method is not where it was before. -/
def apply (placed : Place → Option String) (c : MethodChange) : Option (Place → Option String) :=
  if placed c.place = c.change.before? then
    some (Function.update placed c.place c.change.after?)
  else none

end MethodChange

variable {old new : MethodMap} {release version : String} {p q : Place} {c : MethodChange}

/-! ## What happened to one method -/

/-- **There is a change exactly between different classes**, and it goes from the one to the
other. -/
theorem change?_eq_some {before after : Option String} {change : Change} :
    change? before after = some change
      ↔ before ≠ after ∧ change.before? = before ∧ change.after? = after := by
  constructor
  · intro h
    unfold change? at h
    split at h
    · cases h
      exact ⟨nofun, rfl, rfl⟩
    · cases h
      exact ⟨nofun, rfl, rfl⟩
    · rename_i a b
      by_cases hab : a = b
      · rw [if_pos hab] at h
        cases h
      · rw [if_neg hab] at h
        cases h
        exact ⟨fun heq => hab (Option.some.inj heq), rfl, rfl⟩
    · cases h
  · rintro ⟨hne, rfl, rfl⟩
    cases change with
    | added b => rfl
    | removed a => rfl
    | relocated a b =>
        have hab : a ≠ b := fun heq => hne (congrArg some heq)
        exact if_neg hab

theorem change?_eq_none {before after : Option String} (h : change? before after = none) :
    before = after := by
  unfold change? at h
  split at h
  · cases h
  · cases h
  · rename_i a b
    by_cases hab : a = b
    · rw [hab]
    · rw [if_neg hab] at h
      cases h
  · rfl

/-- What happened the other way round is the change taken back. -/
theorem change?_swap (before after : Option String) :
    change? after before = (change? before after).map Change.reverse := by
  cases before with
  | none => cases after <;> rfl
  | some a =>
      cases after with
      | none => rfl
      | some b =>
          by_cases hab : a = b
          · subst hab
            simp [change?]
          · simp [change?, hab, Ne.symm hab, Change.reverse]

/-! ## Which methods are met -/

/-- A method that a map places is listed under its release and version. -/
theorem mem_keys_of_classAt? (map : MethodMap) (h : map.classAt? p ≠ none) :
    p.release ∈ map.keys ∧ p.version ∈ ((map.get? p.release).getD {}).keys
      ∧ p.method ∈ (map.methods p.release p.version).keys := by
  have hmethod : p.method ∈ (map.methods p.release p.version).keys :=
    Table.isSome_get?.mp (Option.isSome_iff_ne_none.mpr h)
  unfold classAt? methods at h
  cases hrelease : map.get? p.release with
  | none =>
      rw [hrelease] at h
      exact absurd rfl h
  | some versions =>
      refine ⟨Table.isSome_get?.mp (by rw [hrelease]; rfl), ?_, hmethod⟩
      cases hversion : versions.get? p.version with
      | none =>
          rw [hrelease, Option.bind_some, hversion] at h
          exact absurd rfl h
      | some methods => exact Table.isSome_get?.mp (by rw [Option.getD_some, hversion]; rfl)

theorem mem_diffVersion : c ∈ diffVersion old new release version
    ↔ c.release = release ∧ c.version = version
      ∧ c.method ∈ (old.methods release version).keys ++ (new.methods release version).keys
      ∧ change? (old.classAt? c.place) (new.classAt? c.place) = some c.change := by
  unfold diffVersion
  dsimp only
  rw [List.mem_filterMap]
  constructor
  · rintro ⟨method, hmethod, h⟩
    obtain ⟨change, hchange, rfl⟩ := Option.map_eq_some_iff.mp h
    exact ⟨rfl, rfl, mem_sortedTexts.mp hmethod, hchange⟩
  · rintro ⟨rfl, rfl, hmethod, hchange⟩
    refine ⟨c.method, mem_sortedTexts.mpr hmethod, ?_⟩
    unfold classAt? MethodChange.place at hchange
    rw [hchange]
    rfl

/-- **The difference has the changes there are, and no others.** -/
theorem mem_diff : c ∈ diff old new
    ↔ change? (old.classAt? c.place) (new.classAt? c.place) = some c.change := by
  unfold diff
  simp only [List.mem_flatMap]
  constructor
  · rintro ⟨release, -, version, -, hc⟩
    exact (mem_diffVersion.mp hc).2.2.2
  · intro hchange
    obtain ⟨hne, -, -⟩ := change?_eq_some.mp hchange
    -- one of the maps has the method, and that one lists it
    have hkeys : c.release ∈ old.keys ++ new.keys
        ∧ c.version ∈ ((old.get? c.release).getD {}).keys ++ ((new.get? c.release).getD {}).keys
        ∧ c.method
          ∈ (old.methods c.release c.version).keys ++ (new.methods c.release c.version).keys := by
      by_cases hold : old.classAt? c.place = none
      · have hnew : new.classAt? c.place ≠ none := fun hnew => hne (hold.trans hnew.symm)
        obtain ⟨hrelease, hversion, hmethod⟩ := mem_keys_of_classAt? new hnew
        exact ⟨List.mem_append_right _ hrelease, List.mem_append_right _ hversion,
          List.mem_append_right _ hmethod⟩
      · obtain ⟨hrelease, hversion, hmethod⟩ := mem_keys_of_classAt? old hold
        exact ⟨List.mem_append_left _ hrelease, List.mem_append_left _ hversion,
          List.mem_append_left _ hmethod⟩
    exact ⟨c.release, mem_sortedTexts.mpr hkeys.1, c.version, mem_sortedTexts.mpr hkeys.2.1,
      mem_diffVersion.mpr ⟨rfl, rfl, hkeys.2.2, hchange⟩⟩

/-! ## Their order -/

/-- **Changes come in the order of their places.** -/
theorem pairwise_diff (old new : MethodMap) :
    (diff old new).Pairwise fun a b => a.place.Before b.place := by
  have hrelease : ∀ {release : String} {c : MethodChange},
      c ∈ (versionsOf old new release).flatMap (diffVersion old new release) →
      c.release = release := by
    intro release c hc
    obtain ⟨version, -, hc⟩ := List.mem_flatMap.mp hc
    exact (mem_diffVersion.mp hc).1
  refine List.pairwise_flatMap.mpr ⟨fun release _ => ?_, ?_⟩
  · refine List.pairwise_flatMap.mpr ⟨fun version _ => ?_, ?_⟩
    · refine List.pairwise_filterMap.mpr ((pairwise_sortedTexts _).imp ?_)
      intro method method' hlt c hc c' hc'
      obtain ⟨change, -, rfl⟩ := Option.map_eq_some_iff.mp hc
      obtain ⟨change', -, rfl⟩ := Option.map_eq_some_iff.mp hc'
      exact .inr ⟨rfl, .inr ⟨rfl, hlt⟩⟩
    · refine (pairwise_sortedTexts _).imp fun {version version'} hlt c hc c' hc' => ?_
      obtain ⟨hr, hv, -⟩ := mem_diffVersion.mp hc
      obtain ⟨hr', hv', -⟩ := mem_diffVersion.mp hc'
      refine .inr ⟨hr.trans hr'.symm, .inl ?_⟩
      change c.version < c'.version
      rwa [hv, hv']
  · refine (pairwise_sortedTexts _).imp fun {release release'} hlt c hc c' hc' => .inl ?_
    change c.release < c'.release
    rwa [hrelease hc, hrelease hc']

theorem Place.Before.ne (h : p.Before q) : p ≠ q := by
  rintro rfl
  rcases h with h | ⟨-, h | ⟨-, h⟩⟩
  · exact String.lt_irrefl _ h
  · exact String.lt_irrefl _ h
  · exact String.lt_irrefl _ h

theorem nodup_places (old new : MethodMap) : ((diff old new).map MethodChange.place).Nodup :=
  List.pairwise_map.mpr ((pairwise_diff old new).imp Place.Before.ne)

/-! ## Applying them -/

/-- Changes of different methods, each of which is where its change says, can be applied. Then every
method is where its change takes it, and all others are where they were. -/
theorem foldlM_apply {changes : List MethodChange} {placed : Place → Option String}
    (hnodup : (changes.map MethodChange.place).Nodup)
    (hbefore : ∀ c ∈ changes, placed c.place = c.change.before?) :
    ∃ placed', changes.foldlM MethodChange.apply placed = some placed'
      ∧ (∀ c ∈ changes, placed' c.place = c.change.after?)
      ∧ ∀ p, (∀ c ∈ changes, c.place ≠ p) → placed' p = placed p := by
  induction changes generalizing placed with
  | nil => exact ⟨placed, rfl, by simp, fun _ _ => rfl⟩
  | cons c changes ih =>
      obtain ⟨hnot, hnodup⟩ := List.nodup_cons.mp hnodup
      have hother : ∀ c' ∈ changes, c'.place ≠ c.place :=
        fun c' hc' heq => hnot (List.mem_map.mpr ⟨c', hc', heq⟩)
      have hnext : ∀ c' ∈ changes,
          Function.update placed c.place c.change.after? c'.place = c'.change.before? := by
        intro c' hc'
        rw [Function.update_of_ne (hother c' hc')]
        exact hbefore c' (List.mem_cons_of_mem _ hc')
      obtain ⟨placed', hrun, hafter, hrest⟩ := ih hnodup hnext
      refine ⟨placed', ?_, ?_, ?_⟩
      · rw [List.foldlM_cons, MethodChange.apply, if_pos (hbefore c List.mem_cons_self)]
        exact hrun
      · intro c' hc'
        rcases List.mem_cons.mp hc' with rfl | hc'
        · rw [hrest _ hother, Function.update_self]
        · exact hafter c' hc'
      · intro p hp
        rw [hrest p fun c' hc' => hp c' (List.mem_cons_of_mem _ hc'),
          Function.update_of_ne (hp c List.mem_cons_self).symm]

/-! ## The difference the other way round -/

theorem diffVersion_swap (old new : MethodMap) (release version : String) :
    diffVersion new old release version
      = (diffVersion old new release version).map MethodChange.reverse := by
  have hmethods : sortedTexts ((new.methods release version).keys
        ++ (old.methods release version).keys)
      = sortedTexts ((old.methods release version).keys ++ (new.methods release version).keys) :=
    sortedTexts_congr fun s => by rw [List.mem_append, List.mem_append, or_comm]
  unfold diffVersion
  dsimp only
  rw [hmethods, List.map_filterMap]
  refine List.filterMap_congr fun method _ => ?_
  rw [change?_swap, Option.map_map, Option.map_map]
  rfl

theorem diff_swap (old new : MethodMap) :
    diff new old = (diff old new).map MethodChange.reverse := by
  have hswap : ∀ s t : List String, sortedTexts (s ++ t) = sortedTexts (t ++ s) :=
    fun s t => sortedTexts_congr fun u => by rw [List.mem_append, List.mem_append, or_comm]
  unfold diff versionsOf
  rw [hswap new.keys, List.map_flatMap]
  refine List.flatMap_congr fun release _ => ?_
  rw [hswap ((new.get? release).getD {}).keys, List.map_flatMap]
  exact List.flatMap_congr fun version _ => diffVersion_swap old new release version

/--
**The difference of two method maps.**

It has exactly one change for each method whose class differs, or that only one of the maps has, and
none for any other method. A change goes from the class in the old map to the class in the new one.
Changes come in strictly increasing order of release, version and method. Applied to where the old
map places its methods, they give where the new one places them. The difference the other way round
is the same list with every change taken back.
-/
theorem diff_changes (old new : MethodMap) :
    (∀ p, ((diff old new).map MethodChange.place).count p
        = if old.classAt? p = new.classAt? p then 0 else 1)
      ∧ (∀ c ∈ diff old new, c.change.before? = old.classAt? c.place
          ∧ c.change.after? = new.classAt? c.place)
      ∧ (diff old new).Pairwise (fun a b => a.place.Before b.place)
      ∧ (diff old new).foldlM MethodChange.apply old.classAt? = some new.classAt?
      ∧ diff new old = (diff old new).map MethodChange.reverse := by
  have hclasses : ∀ c ∈ diff old new, old.classAt? c.place ≠ new.classAt? c.place
      ∧ c.change.before? = old.classAt? c.place ∧ c.change.after? = new.classAt? c.place :=
    fun c hc => change?_eq_some.mp (mem_diff.mp hc)
  have hmem : ∀ p, old.classAt? p ≠ new.classAt? p → ∃ c ∈ diff old new, c.place = p := by
    intro p hne
    cases hchange : change? (old.classAt? p) (new.classAt? p) with
    | some change =>
        exact ⟨⟨p.release, p.version, p.method, change⟩, mem_diff.mpr hchange, rfl⟩
    | none => exact absurd (change?_eq_none hchange) hne
  refine ⟨fun p => ?_, fun c hc => (hclasses c hc).2, pairwise_diff old new, ?_,
    diff_swap old new⟩
  · by_cases heq : old.classAt? p = new.classAt? p
    · rw [if_pos heq, List.count_eq_zero]
      intro hp
      obtain ⟨c, hc, rfl⟩ := List.mem_map.mp hp
      exact (hclasses c hc).1 heq
    · rw [if_neg heq]
      obtain ⟨c, hc, rfl⟩ := hmem p heq
      exact List.count_eq_one_of_mem (nodup_places old new) (List.mem_map.mpr ⟨c, hc, rfl⟩)
  · obtain ⟨placed, hrun, hafter, hrest⟩ :=
      foldlM_apply (nodup_places old new) fun c hc => ((hclasses c hc).2.1).symm
    rw [hrun]
    refine congrArg some (funext fun p => ?_)
    by_cases heq : old.classAt? p = new.classAt? p
    · rw [hrest p fun c hc hp => (hclasses c hc).1 (hp ▸ heq), heq]
    · obtain ⟨c, hc, rfl⟩ := hmem p heq
      rw [hafter c hc, (hclasses c hc).2.2]

end ApiModels.MethodMap
