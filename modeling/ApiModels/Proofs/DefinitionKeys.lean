import ApiModels.DefinitionKey
import ApiModels.Proofs.Patterns

/-!
# What a definition key says

The segments of a key are what stands between its dots. The last one is the name of the definition,
whatever it looks like. Of the others the last one that is a version counts; any later ones stand
between it and the name and say nothing. The group is the segment before the version, or before the
name where there is no version.

The segments are searched from the right. So the search meets the last version first, and the group
is whatever it has not looked at yet.
-/

namespace ApiModels

open Text (Matches versionPattern)

variable {key group version name : String} {segments earlier later before : List String}

/-- The segments that stand between the dots of a key. -/
structure HasSegments (key : String) (segments : List String) : Prop where
  joined : key = ".".intercalate segments
  dotless : ∀ s ∈ segments, '.' ∉ s.toList

/-- The group, version and name that a key says a definition has. -/
inductive KeySays (key : String) : KeyParts → Prop
  /-- The group stands before the last version, if anything does. -/
  | versioned {earlier later : List String} {version name : String} :
      HasSegments key (earlier ++ version :: later ++ [name]) → Matches versionPattern version →
      (∀ s ∈ later, ¬ Matches versionPattern s) → KeySays key ⟨earlier.getLast?, version, name⟩
  /-- Without a version it stands before the name. -/
  | versionless {before : List String} {name : String} :
      HasSegments key (before ++ [name]) → (∀ s ∈ before, ¬ Matches versionPattern s) →
      KeySays key ⟨before.getLast?, "unversioned", name⟩

/-! ## Segments -/

theorem exists_hasSegments (key : String) : ∃ before name, HasSegments key (before ++ [name]) := by
  have hne : Text.split '.' key ≠ [] := by
    unfold Text.split
    simpa using Text.pieces_ne_nil key.toList
  have hjoined : key = ".".intercalate (Text.split '.' key) := by
    have htoList : String.toList ∘ String.ofList = id := funext fun cs => String.toList_ofList
    rw [← String.toList_inj, String.toList_intercalate, Text.split, List.map_map, htoList,
      List.map_id]
    exact (Text.intercalate_pieces key.toList).symm
  have hdotless : ∀ s ∈ Text.split '.' key, '.' ∉ s.toList := by
    intro s hs
    obtain ⟨piece, hpiece, rfl⟩ := List.mem_map.mp hs
    rw [String.toList_ofList]
    exact Text.notMem_of_mem_pieces hpiece
  refine ⟨(Text.split '.' key).dropLast, (Text.split '.' key).getLast hne, ?_⟩
  rw [List.dropLast_append_getLast hne]
  exact ⟨hjoined, hdotless⟩

/-- A key is cut into its segments. -/
theorem HasSegments.split_eq (h : HasSegments key segments) (hne : segments ≠ []) :
    Text.split '.' key = segments := by
  rw [h.joined]
  exact Text.split_intercalate rfl h.dotless hne

/-- A key goes on with another segment behind a dot. -/
theorem HasSegments.concat (h : HasSegments key segments) (hne : segments ≠ [])
    (hname : '.' ∉ name.toList) : HasSegments (key ++ "." ++ name) (segments ++ [name]) where
  joined := by
    rw [String.intercalate_append_of_ne_nil hne (List.cons_ne_nil _ _), ← h.joined,
      String.intercalate_singleton]
  dotless := List.forall_mem_append.mpr ⟨h.dotless, List.forall_mem_singleton.mpr hname⟩

/-- A version has no dot in it. -/
theorem dot_notMem_version (h : Matches versionPattern version) : '.' ∉ version.toList :=
  fun hdot => absurd (Text.mem_namedIn h '.' hdot) (by decide)

/-! ## The search for a version -/

theorem lastVersion?_append (hversion : Matches versionPattern version)
    (hlater : ∀ s ∈ later, ¬ Matches versionPattern s) :
    lastVersion? (later ++ version :: earlier) = some (earlier.head?, version) := by
  induction later with
  | nil => exact if_pos (Text.isVersion_iff_matches.mpr hversion)
  | cons s later ih =>
    obtain ⟨hs, hlater⟩ := List.forall_mem_cons.mp hlater
    rw [List.cons_append, lastVersion?, if_neg (mt Text.isVersion_iff_matches.mp hs), ih hlater]

theorem lastVersion?_eq_none (h : ∀ s ∈ before, ¬ Matches versionPattern s) :
    lastVersion? before = none := by
  induction before with
  | nil => rfl
  | cons s before ih =>
    obtain ⟨hs, hbefore⟩ := List.forall_mem_cons.mp h
    rw [lastVersion?, if_neg (mt Text.isVersion_iff_matches.mp hs), ih hbefore]

/-- Either there is a last version among some segments, or there is none. -/
theorem exists_last_version (before : List String) :
    (∀ s ∈ before, ¬ Matches versionPattern s) ∨ ∃ earlier version later,
      before = earlier ++ version :: later ∧ Matches versionPattern version
        ∧ ∀ s ∈ later, ¬ Matches versionPattern s := by
  induction before with
  | nil => exact .inl (by simp)
  | cons s before ih =>
    rcases ih with hnone | ⟨earlier, version, later, rfl, hversion, hlater⟩
    · by_cases hs : Matches versionPattern s
      · exact .inr ⟨[], s, before, rfl, hs, hnone⟩
      · exact .inl (List.forall_mem_cons.mpr ⟨hs, hnone⟩)
    · exact .inr ⟨s :: earlier, version, later, rfl, hversion, hlater⟩

theorem splitDefinitionKey_versioned
    (h : HasSegments key (earlier ++ version :: later ++ [name]))
    (hversion : Matches versionPattern version)
    (hlater : ∀ s ∈ later, ¬ Matches versionPattern s) :
    splitDefinitionKey key = ⟨earlier.getLast?, version, name⟩ := by
  have hreverse : (Text.split '.' key).reverse
      = name :: (later.reverse ++ version :: earlier.reverse) := by
    rw [h.split_eq (by simp)]
    simp
  have hfound : lastVersion? (later.reverse ++ version :: earlier.reverse)
      = some (earlier.getLast?, version) := by
    rw [lastVersion?_append hversion fun s hs => hlater s (List.mem_reverse.mp hs),
      List.head?_reverse]
  unfold splitDefinitionKey
  rw [hreverse]
  dsimp only
  rw [hfound]

theorem splitDefinitionKey_versionless (h : HasSegments key (before ++ [name]))
    (hbefore : ∀ s ∈ before, ¬ Matches versionPattern s) :
    splitDefinitionKey key = ⟨before.getLast?, "unversioned", name⟩ := by
  have hreverse : (Text.split '.' key).reverse = name :: before.reverse := by
    rw [h.split_eq (by simp)]
    simp
  have hnone : lastVersion? before.reverse = none :=
    lastVersion?_eq_none fun s hs => hbefore s (List.mem_reverse.mp hs)
  unfold splitDefinitionKey
  rw [hreverse]
  dsimp only
  rw [hnone, List.head?_reverse]
  rfl

/-- **A key is taken apart as it says.** -/
theorem splitDefinitionKey_eq_iff {parts : KeyParts} :
    splitDefinitionKey key = parts ↔ KeySays key parts := by
  constructor
  · rintro rfl
    obtain ⟨before, name, hsegments⟩ := exists_hasSegments key
    rcases exists_last_version before with hnone | ⟨earlier, version, later, rfl, hversion, hlater⟩
    · rw [splitDefinitionKey_versionless hsegments hnone]
      exact .versionless hsegments hnone
    · rw [splitDefinitionKey_versioned hsegments hversion hlater]
      exact .versioned hsegments hversion hlater
  · rintro (⟨hsegments, hversion, hlater⟩ | ⟨hsegments, hbefore⟩)
    · exact splitDefinitionKey_versioned hsegments hversion hlater
    · exact splitDefinitionKey_versionless hsegments hbefore

/-- A version right before the name is the last one, whatever the name is and whatever versions come
before it. -/
theorem keySays_of_version_before_name (opening : String) (hgroup : '.' ∉ group.toList)
    (hname : '.' ∉ name.toList) (hversion : Matches versionPattern version) :
    KeySays (opening ++ "." ++ group ++ "." ++ version ++ "." ++ name)
      ⟨some group, version, name⟩ := by
  obtain ⟨before, last, hopening⟩ := exists_hasSegments opening
  have hsegments : HasSegments (opening ++ "." ++ group ++ "." ++ version ++ "." ++ name)
      (before ++ [last] ++ [group] ++ version :: [] ++ [name]) :=
    ((hopening.concat (by simp) hgroup).concat (by simp) (dot_notMem_version hversion)).concat
      (by simp) hname
  have hlast : (before ++ [last] ++ [group]).getLast? = some group := by simp
  rw [← hlast]
  exact .versioned hsegments hversion (by simp)

/--
**Definition keys and versions.**

A key is taken apart into the group, the version and the name that it says, and each key says one of
each: the name follows the last dot, the version is the last segment before it that is one, and the
group the segment before that. So a key that ends in a group, a version and a name is taken apart
into these, whatever precedes them. A version is a text that matches the pattern of versions.
-/
theorem parts_of_key :
    (∀ key parts, splitDefinitionKey key = parts ↔ KeySays key parts)
      ∧ (∀ opening group version name : String, '.' ∉ group.toList → '.' ∉ name.toList →
        Matches versionPattern version →
        splitDefinitionKey (opening ++ "." ++ group ++ "." ++ version ++ "." ++ name)
          = ⟨some group, version, name⟩)
      ∧ ∀ s, isVersion s = true ↔ Matches versionPattern s :=
  ⟨fun _ _ => splitDefinitionKey_eq_iff,
    fun opening _ _ _ hgroup hname hversion => splitDefinitionKey_eq_iff.mpr
      (keySays_of_version_before_name opening hgroup hname hversion),
    fun _ => Text.isVersion_iff_matches⟩

/-- A key with a version among what precedes its group, an empty segment, and a name that looks like
a version. -/
theorem parts_of_key_repeated :
    '.' ∉ "core-é".toList ∧ '.' ∉ "v2".toList ∧ Matches versionPattern "v10beta3"
      ∧ splitDefinitionKey "io..v1.core-é.v10beta3.v2" = ⟨some "core-é", "v10beta3", "v2"⟩ := by
  have hversion : Matches versionPattern "v10beta3" := by decide
  refine ⟨by decide, by decide, hversion, ?_⟩
  exact parts_of_key.2.1 "io..v1" "core-é" "v10beta3" "v2" (by decide) (by decide) hversion

end ApiModels
