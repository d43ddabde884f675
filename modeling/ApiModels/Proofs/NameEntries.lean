import ApiModels.Proofs.DistinctNames
import Mathlib.Data.List.Nodup

/-!
# Entries of names

A release has one entry for each version and simple name that some type has. It lists the types of
that name, each once: the primary, which keeps the simple name, and the others with the aliases they
go by. Which type is primary does not depend on the source: types of one name are put in the order of
their groups and keys, and the first of the first preferred group is taken, or the first of all.
-/

namespace ApiModels

namespace Names

open ReleaseModel

variable {m : ReleaseModel} {preferences : Preferences} {version name : String} {id p : TypeId}
  {e : NameEntry}

/-! ## The order of types of one name -/

theorem compareGroups_eq (a b : Option String) :
    compareGroups a b = compareLex (compareOn groupRank) compare a b := by
  unfold compareGroups compareLex compareOn
  cases a with
  | none => cases b with
    | none => rfl
    | some b => rfl
  | some a => cases b with
    | none => rfl
    | some b => rfl

instance : Std.TransCmp compareGroups := by
  have heq : compareGroups = compareLex (compareOn groupRank) compare := by
    funext a b
    exact compareGroups_eq a b
  rw [heq]
  infer_instance

instance (m : ReleaseModel) : Std.TransCmp (compareMembers m) :=
  inferInstanceAs (Std.TransCmp (compareLex
    (Ordering.byKey (fun id => (m.type id).group) compareGroups)
    (compareOn fun id => (m.type id).key)))

theorem bne_gt_iff {o : Ordering} : (o != .gt) = true ↔ o.isLE = true := by
  cases o <;> decide

/-- What is sorted by a comparison comes in its order. -/
theorem pairwise_mergeSort {α : Type} (cmp : α → α → Ordering) [Std.TransCmp cmp] (l : List α) :
    (l.mergeSort fun a b => cmp a b != .gt).Pairwise fun a b => (cmp a b).isLE = true := by
  have htrans : ∀ a b c, (cmp a b != .gt) = true → (cmp b c != .gt) = true →
      (cmp a c != .gt) = true := by
    intro a b c hab hbc
    exact bne_gt_iff.mpr (Std.TransCmp.isLE_trans (bne_gt_iff.mp hab) (bne_gt_iff.mp hbc))
  have htotal : ∀ a b, (cmp a b != .gt || cmp b a != .gt) = true := by
    intro a b
    have hswap : cmp b a = (cmp a b).swap := Std.OrientedCmp.eq_swap
    rw [hswap]
    cases cmp a b <;> rfl
  exact (List.pairwise_mergeSort htrans htotal l).imp fun h => bne_gt_iff.mp h

/-- **Types of one name come in order.** -/
theorem members_pairwise (m : ReleaseModel) (version name : String) :
    (members m version name).Pairwise fun i j => (compareMembers m i j).isLE = true :=
  pairwise_mergeSort (compareMembers m) _

theorem nodup_members : (members m version name).Nodup :=
  (List.mergeSort_perm _ _).nodup_iff.mpr (nodup_typesOf.filter _)

/-! ## The primary -/

/-- The first of some types: none of them comes before it. -/
def IsFirst (m : ReleaseModel) (ids : List TypeId) (p : TypeId) : Prop :=
  p ∈ ids ∧ ∀ id ∈ ids, (compareMembers m p id).isLE = true

/-- The primary of some types: the first of those of the first preferred group that one has, or the
first of all if none has a preferred group. -/
def IsPrimary (m : ReleaseModel) (preferred : List String) (ids : List TypeId) (p : TypeId) :
    Prop :=
  (∃ before g after, preferred = before ++ g :: after
      ∧ (∀ g' ∈ before, ∀ id ∈ ids, (m.type id).group ≠ some g')
      ∧ IsFirst m (ids.filter fun id => (m.type id).group = some g) p)
    ∨ (∀ g ∈ preferred, ∀ id ∈ ids, (m.type id).group ≠ some g) ∧ IsFirst m ids p

theorem isFirst_head {ids : List TypeId}
    (h : (p :: ids).Pairwise fun i j => (compareMembers m i j).isLE = true) :
    IsFirst m (p :: ids) p := by
  refine ⟨List.mem_cons_self, fun id hid => ?_⟩
  rcases List.mem_cons.mp hid with rfl | hid
  · have hself : compareMembers m id id = .eq := Std.ReflCmp.compare_self
    rw [hself]
    rfl
  · exact (List.pairwise_cons.mp h).1 id hid

/-- The first type of a group found among types in order is the first of the group. -/
theorem isFirst_of_find? {ids : List TypeId} {g : String}
    (h : ids.Pairwise fun i j => (compareMembers m i j).isLE = true)
    (hp : (ids.find? fun id => (m.type id).group == some g) = some p) :
    IsFirst m (ids.filter fun id => (m.type id).group = some g) p := by
  obtain ⟨hgroup, before, after, rfl, hbefore⟩ := List.find?_eq_some_iff_append.mp hp
  have hnone : before.filter (fun id => (m.type id).group = some g) = [] := by
    refine List.filter_eq_nil_iff.mpr fun id hid => ?_
    simpa using hbefore id hid
  rw [List.filter_append, hnone, List.nil_append,
    List.filter_cons_of_pos (by simpa using hgroup)]
  refine isFirst_head ?_
  have hrest := (List.pairwise_append.mp h).2.1
  exact hrest.sublist (List.filter_sublist.cons_cons p)

/-- **The primary that is chosen among types in order.** -/
theorem primaryOf_isPrimary (preferred : List String) {ids : List TypeId} (hne : ids ≠ [])
    (h : ids.Pairwise fun i j => (compareMembers m i j).isLE = true) :
    IsPrimary m preferred ids (primaryOf m preferred ids) := by
  have hfind : ∀ g, (ids.find? fun id => (m.type id).group == some g) = none →
      ∀ id ∈ ids, (m.type id).group ≠ some g := by
    intro g hg id hid
    simpa using List.find?_eq_none.mp hg id hid
  unfold primaryOf
  cases hfound : preferred.findSome? fun g => ids.find? fun id => (m.type id).group == some g with
  | some q =>
      obtain ⟨before, g, after, rfl, hq, hbefore⟩ := List.findSome?_eq_some_iff.mp hfound
      exact .inl ⟨before, g, after, rfl, fun g' hg' => hfind g' (hbefore g' hg'),
        isFirst_of_find? h hq⟩
  | none =>
      refine .inr ⟨fun g hg => hfind g (List.findSome?_eq_none_iff.mp hfound g hg), ?_⟩
      cases ids with
      | nil => exact absurd rfl hne
      | cons p ids => exact isFirst_head h

theorem IsPrimary.perm {preferred : List String} {ids ids' : List TypeId}
    (h : IsPrimary m preferred ids p) (hperm : ids.Perm ids') : IsPrimary m preferred ids' p := by
  have hmem := fun id => hperm.mem_iff (a := id)
  unfold IsPrimary IsFirst at *
  simpa only [List.mem_filter, hmem] using h

theorem IsPrimary.mem {preferred : List String} {ids : List TypeId}
    (h : IsPrimary m preferred ids p) : p ∈ ids := by
  rcases h with ⟨before, g, after, -, -, hfirst, -⟩ | ⟨-, hfirst, -⟩
  · exact (List.mem_filter.mp hfirst).1
  · exact hfirst

/-! ## Entries -/

/-- The entries of a version. -/
def versionEntries (m : ReleaseModel) (preferences : Preferences) (version : String) :
    List NameEntry :=
  entriesOf m preferences version (simpleNames m version) (simpleNames m version)

theorem mem_simpleNames_iff : name ∈ simpleNames m version ↔
    ∃ id < m.types.size, (m.type id).version = version ∧ (m.type id).name = name := by
  rw [simpleNames, mem_sortedTexts, List.mem_map]
  constructor
  · rintro ⟨id, hid, rfl⟩
    obtain ⟨hlt, hversion⟩ := mem_typesOf.mp hid
    exact ⟨id, hlt, hversion, rfl⟩
  · rintro ⟨id, hlt, hversion, rfl⟩
    exact ⟨id, mem_typesOf.mpr ⟨hlt, hversion⟩, rfl⟩

theorem map_name_entriesOf (taken names : List String) :
    (entriesOf m preferences version taken names).map (·.name) = names := by
  induction names generalizing taken with
  | nil => rfl
  | cons name names ih =>
      rw [entriesOf, List.map_cons, ih]
      rfl

theorem map_name_versionEntries (m : ReleaseModel) (preferences : Preferences) (version : String) :
    (versionEntries m preferences version).map (·.name) = simpleNames m version :=
  map_name_entriesOf _ _

theorem map_key_versionEntries :
    (versionEntries m preferences version).map (fun e => (e.version, e.name))
      = (simpleNames m version).map fun name => (version, name) := by
  rw [← map_name_versionEntries m preferences version, List.map_map]
  refine List.map_congr_left fun e he => ?_
  exact Prod.ext (entriesOf_ids _ _ he).1 rfl

theorem entries_resolve :
    (resolve m preferences).entries = m.versions.flatMap (versionEntries m preferences) := rfl

theorem map_key_entries :
    (resolve m preferences).entries.map (fun e => (e.version, e.name))
      = m.versions.flatMap fun v => (simpleNames m v).map fun name => (v, name) := by
  rw [entries_resolve, List.map_flatMap]
  exact List.flatMap_congr fun v _ => map_key_versionEntries

/-- No two entries are of one version and simple name. -/
theorem nodup_entries :
    ((resolve m preferences).entries.map fun e => (e.version, e.name)).Nodup := by
  rw [map_key_entries, List.nodup_flatMap]
  constructor
  · intro v _
    exact nodup_sortedTexts.map fun n n' h => (Prod.mk.inj h).2
  · refine nodup_versions.imp fun {v v'} hne k hk hk' => ?_
    obtain ⟨n, -, rfl⟩ := List.mem_map.mp hk
    obtain ⟨n', -, heq⟩ := List.mem_map.mp hk'
    exact hne (congrArg Prod.fst heq).symm

/-- The versions and simple names that have an entry are those that some type has. -/
theorem exists_entry_iff :
    (∃ e ∈ (resolve m preferences).entries, e.version = version ∧ e.name = name) ↔
      ∃ id < m.types.size, (m.type id).version = version ∧ (m.type id).name = name := by
  have hkey : (∃ e ∈ (resolve m preferences).entries, e.version = version ∧ e.name = name)
      ↔ (version, name)
        ∈ (resolve m preferences).entries.map fun e => (e.version, e.name) := by
    simp only [List.mem_map, Prod.mk.injEq]
  rw [hkey, map_key_entries, List.mem_flatMap, ← mem_simpleNames_iff]
  constructor
  · rintro ⟨v, -, hv⟩
    obtain ⟨n, hn, heq⟩ := List.mem_map.mp hv
    obtain ⟨rfl, rfl⟩ := Prod.mk.inj heq
    exact hn
  · intro hn
    obtain ⟨id, hlt, rfl, -⟩ := mem_simpleNames_iff.mp hn
    exact ⟨_, version_mem_versions hlt, List.mem_map.mpr ⟨name, hn, rfl⟩⟩

/-- What has a key among parts that have one key each is the part of that key. -/
theorem filter_flatMap_key {α β : Type} [DecidableEq β] {part : β → List α} (key : α → β)
    (hkey : ∀ k, ∀ a ∈ part k, key a = k) {keys : List β} (hkeys : keys.Nodup) (k : β) :
    (keys.flatMap part).filter (fun a => key a = k) = if k ∈ keys then part k else [] := by
  induction keys with
  | nil => rfl
  | cons k' keys ih =>
      obtain ⟨hnot, hkeys⟩ := List.nodup_cons.mp hkeys
      rw [List.flatMap_cons, List.filter_append, ih hkeys]
      by_cases hk : k = k'
      · subst hk
        rw [if_neg hnot, if_pos List.mem_cons_self, List.append_nil]
        exact List.filter_eq_self.mpr fun a ha => decide_eq_true (hkey k a ha)
      · have hnone : (part k').filter (fun a => key a = k) = [] :=
          List.filter_eq_nil_iff.mpr fun a ha => by
            rw [hkey k' a ha, decide_eq_true_iff]
            exact fun h => hk h.symm
        rw [hnone, List.nil_append]
        simp [hk]

/-- The entries of a version among all are those made for it. -/
theorem filter_entries : (resolve m preferences).entries.filter (fun e => e.version = version)
    = versionEntries m preferences version := by
  have hversion : ∀ v, ∀ e ∈ versionEntries m preferences v, e.version = v :=
    fun v e he => (entriesOf_ids _ _ he).1
  rw [entries_resolve, filter_flatMap_key NameEntry.version hversion nodup_versions]
  split
  · rfl
  · rename_i hv
    -- a version without types has no simple names
    have hnames : simpleNames m version = [] := by
      refine List.eq_nil_iff_forall_not_mem.mpr fun name hname => hv ?_
      obtain ⟨id, hlt, rfl, -⟩ := mem_simpleNames_iff.mp hname
      exact version_mem_versions hlt
    rw [versionEntries, hnames]
    rfl

theorem mem_entries : e ∈ (resolve m preferences).entries ↔
    e ∈ versionEntries m preferences e.version := by
  rw [← filter_entries, List.mem_filter]
  simp

/-! ## Types of an entry -/

theorem name_mem_simpleNames (he : e ∈ versionEntries m preferences version) :
    e.name ∈ simpleNames m version := by
  rw [← map_name_versionEntries m preferences version]
  exact List.mem_map.mpr ⟨e, he, rfl⟩

/-- **The primary of an entry.** -/
theorem isPrimary_primary (he : e ∈ (resolve m preferences).entries) :
    IsPrimary m ((preferences.get? e.name).getD []) (m.find e.version e.name) e.primary := by
  rw [mem_entries] at he
  obtain ⟨id, hlt, hversion, hname⟩ := mem_simpleNames_iff.mp (name_mem_simpleNames he)
  have hne : members m e.version e.name ≠ [] :=
    List.ne_nil_of_mem (mem_members.mpr ⟨hlt, hversion, hname⟩)
  rw [(entriesOf_ids _ _ he).2.1]
  exact (primaryOf_isPrimary _ hne (members_pairwise m _ _)).perm (List.mergeSort_perm _ _)

/-- **An entry lists the types of its version and name**, each once. -/
theorem types_perm (he : e ∈ (resolve m preferences).entries) :
    (e.primary :: e.aliases.map Prod.fst).Perm (m.find e.version e.name) := by
  have hmem := (isPrimary_primary he).mem
  rw [← (List.mergeSort_perm _ _).mem_iff] at hmem
  obtain ⟨-, hprimary, hids⟩ := entriesOf_ids _ _ (mem_entries.mp he)
  have herase : e.aliases.map Prod.fst = (members m e.version e.name).erase e.primary := by
    rw [hids, ← hprimary, nodup_members.erase_eq_filter]
    refine List.filter_congr fun id _ => ?_
    by_cases h : id = e.primary
    · simp [h]
    · simp [h]
  rw [herase]
  exact (List.perm_cons_erase hmem).symm.trans (List.mergeSort_perm _ _)

/-! ## Names of types -/

/-- No type has two aliases. -/
theorem nodup_aliasesOf : ((aliasesOf m preferences version).map Prod.fst).Nodup := by
  have hids : ∀ e ∈ versionEntries m preferences version,
      e.aliases.map Prod.fst = (members m version e.name).filter
        fun id => id ≠ primary m preferences version e.name :=
    fun e he => (entriesOf_ids _ _ he).2.2
  have hmap : (aliasesOf m preferences version).map Prod.fst
      = (versionEntries m preferences version).flatMap fun e => e.aliases.map Prod.fst :=
    List.map_flatMap
  rw [hmap, List.nodup_flatMap]
  constructor
  · intro e he
    rw [hids e he]
    exact nodup_members.filter _
  · -- types of different entries differ in their names
    have hnames : ((versionEntries m preferences version).map (·.name)).Nodup := by
      rw [map_name_versionEntries]
      exact nodup_sortedTexts
    have hname : ∀ e ∈ versionEntries m preferences version, ∀ id ∈ e.aliases.map Prod.fst,
        (m.type id).name = e.name := by
      intro e he id hid
      rw [hids e he] at hid
      exact (mem_members.mp (List.mem_filter.mp hid).1).2.2
    refine (List.pairwise_map.mp hnames).imp_of_mem fun {e e'} he he' hne id hid hid' => hne ?_
    exact (hname e he id hid).symm.trans (hname e' he' id hid')

/-- A type with an alias goes by it. -/
theorem name_of_mem_aliasesOf {text : String}
    (h : (id, text) ∈ aliasesOf m preferences version) :
    (resolve m preferences).name id = text := by
  obtain ⟨hlt, rfl, hne⟩ := ne_primary_of_mem_aliasesOf h
  rcases name_cases preferences hlt with ha | ⟨-, hp⟩
  · exact congrArg Prod.snd (List.inj_on_of_nodup_map nodup_aliasesOf ha h rfl)
  · exact absurd hp hne

/-- The primary of an entry goes by the simple name. -/
theorem name_primary (he : e ∈ (resolve m preferences).entries) :
    (resolve m preferences).name e.primary = e.name := by
  obtain ⟨hlt, hversion, hname⟩ := mem_find.mp (isPrimary_primary he).mem
  rcases name_cases preferences hlt with ha | ⟨hsimple, -⟩
  · obtain ⟨-, -, hne⟩ := ne_primary_of_mem_aliasesOf ha
    rw [hversion, hname] at hne
    exact absurd (entriesOf_ids _ _ (mem_entries.mp he)).2.1 hne
  · rw [hsimple, hname]

/--
**The names of a release.**

There is one entry for each version and simple name that some type has. It lists the types of that
name, each once. Its primary is the first of them in the order of groups and keys, within the first
preferred group that has one if any has. The primary goes by the simple name and each other type by
its alias, which is the simple name with the group, numbered by the least number that makes it new to
the version, and only if it must be. So no two types of a version have one name.
-/
theorem names_of_release (m : ReleaseModel) (preferences : Preferences) :
    let names := resolve m preferences
    (names.entries.map fun e => (e.version, e.name)).Nodup
      ∧ (∀ version name, (∃ e ∈ names.entries, e.version = version ∧ e.name = name) ↔
          ∃ id < m.types.size, (m.type id).version = version ∧ (m.type id).name = name)
      ∧ (∀ e ∈ names.entries,
          (e.primary :: e.aliases.map Prod.fst).Perm (m.find e.version e.name)
            ∧ IsPrimary m ((preferences.get? e.name).getD []) (m.find e.version e.name) e.primary
            ∧ names.name e.primary = e.name
            ∧ ∀ a ∈ e.aliases, names.name a.1 = a.2 ∧ a.2 ≠ e.name)
      ∧ (∀ version, Given m (simpleNames m version)
          ((names.entries.filter fun e => e.version = version).flatMap (·.aliases)))
      ∧ ∀ i < m.types.size, ∀ j < m.types.size, (m.type i).version = (m.type j).version →
          names.name i = names.name j → i = j := by
  intro names
  have hgiven : ∀ version, Given m (simpleNames m version) (aliasesOf m preferences version) :=
    fun version => entriesOf_given m preferences version _ _
  refine ⟨nodup_entries, fun version name => exists_entry_iff, fun e he => ?_, fun version => ?_,
    fun i hi j hj => name_injective hi hj⟩
  · refine ⟨types_perm he, isPrimary_primary he, name_primary he, fun a ha => ?_⟩
    have hversion := mem_entries.mp he
    have halias : a ∈ aliasesOf m preferences e.version := List.mem_flatMap.mpr ⟨e, hversion, ha⟩
    refine ⟨name_of_mem_aliasesOf halias, fun heq => ?_⟩
    -- an alias is no simple name of its version
    refine (hgiven e.version).texts.2 a.2 (List.mem_map.mpr ⟨a, halias, rfl⟩) ?_
    rw [heq]
    exact name_mem_simpleNames hversion
  · rw [filter_entries]
    exact hgiven version

end Names

end ApiModels
