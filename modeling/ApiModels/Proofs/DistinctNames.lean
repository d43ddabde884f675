import ApiModels.Names
import ApiModels.Proofs.FirstFree
import ApiModels.Proofs.References

/-!
# No two types of a version end up with one name

Aliases are given one after the other, and what is given is taken from then on, also for the simple
names that come later in the version. So the aliases of a version all differ from each other and
from its simple names. A type without an alias is the primary of its simple name, of which there is
one.
-/

namespace ApiModels

namespace Names

open ReleaseModel

variable {m : ReleaseModel} {preferences : Preferences} {version name : String} {id : TypeId}

theorem mem_members : id ∈ members m version name ↔
    id < m.types.size ∧ (m.type id).version = version ∧ (m.type id).name = name := by
  rw [members, List.mem_mergeSort, mem_find]

/-- The primary of a simple name in a version. -/
def primary (m : ReleaseModel) (preferences : Preferences) (version name : String) : TypeId :=
  primaryOf m ((preferences.get? name).getD []) (members m version name)

/-! ## Aliases -/

theorem assignAliases_ids (taken : List String) (ids : List TypeId) :
    (assignAliases m name taken ids).map Prod.fst = ids := by
  induction ids generalizing taken with
  | nil => rfl
  | cons id ids ih =>
      rw [assignAliases]
      rw [List.map_cons, ih]

/-- Aliases are given one after the other. Each is the first that is free of the simple name with the
group and its numbered forms, and taken from then on. -/
def Given (m : ReleaseModel) : (taken : List String) → List (TypeId × String) → Prop
  | _, [] => True
  | taken, (id, text) :: rest =>
    Text.IsFirstFree (· ∈ taken)
        (Text.numbered ((m.type id).name ++ "_" ++ aliasSuffix (m.type id).group)) text
      ∧ Given m (text :: taken) rest

theorem Given.congr {taken taken' : List String} {aliases : List (TypeId × String)}
    (h : Given m taken aliases) (heq : ∀ s, s ∈ taken ↔ s ∈ taken') : Given m taken' aliases := by
  induction aliases generalizing taken taken' with
  | nil => trivial
  | cons a rest ih =>
      refine ⟨h.1.congr heq, ih h.2 fun s => ?_⟩
      rw [List.mem_cons, List.mem_cons, heq]

theorem Given.append {taken : List String} {first second : List (TypeId × String)}
    (h : Given m taken first) (hsecond : Given m (first.map Prod.snd ++ taken) second) :
    Given m taken (first ++ second) := by
  induction first generalizing taken with
  | nil => exact hsecond
  | cons a rest ih =>
      refine ⟨h.1, ih h.2 (hsecond.congr fun s => ?_)⟩
      simp only [List.map_cons, List.mem_append, List.mem_cons]
      tauto

/-- **Aliases given differ, and none was taken.** -/
theorem Given.texts {taken : List String} {aliases : List (TypeId × String)}
    (h : Given m taken aliases) :
    (aliases.map Prod.snd).Nodup ∧ ∀ a ∈ aliases.map Prod.snd, a ∉ taken := by
  induction aliases generalizing taken with
  | nil => simp
  | cons a rest ih =>
      obtain ⟨⟨n, -, hfree, -⟩, hrest⟩ := h
      obtain ⟨hnd, hnew⟩ := ih hrest
      rw [List.map_cons]
      constructor
      · refine List.nodup_cons.mpr ⟨fun hm => ?_, hnd⟩
        exact hnew a.2 hm List.mem_cons_self
      · intro text ht
        rcases List.mem_cons.mp ht with rfl | ht
        · exact hfree
        · exact fun hin => hnew text ht (List.mem_cons_of_mem _ hin)

theorem assignAliases_given (taken : List String) (ids : List TypeId)
    (hids : ∀ id ∈ ids, (m.type id).name = name) :
    Given m taken (assignAliases m name taken ids) := by
  induction ids generalizing taken with
  | nil => trivial
  | cons id ids ih =>
      rw [assignAliases]
      refine ⟨?_, ih _ fun i hi => hids i (List.mem_cons_of_mem _ hi)⟩
      rw [hids id List.mem_cons_self]
      refine (Text.isFirstFree_firstFree (Text.numbered_injective _) taken
        (fun a ha => List.contains_iff_mem.mp ha) (Nat.le_refl _)).congr fun a => ?_
      exact List.contains_iff_mem

/-- An entry lists the types of its version and simple name, the primary apart. -/
theorem entriesOf_ids {e : NameEntry} (taken names : List String)
    (he : e ∈ entriesOf m preferences version taken names) :
    e.version = version ∧ e.primary = primary m preferences version e.name
      ∧ e.aliases.map Prod.fst
        = (members m version e.name).filter
          fun id => id ≠ primary m preferences version e.name := by
  induction names generalizing taken with
  | nil => simp [entriesOf] at he
  | cons name names ih =>
      rw [entriesOf] at he
      rcases List.mem_cons.mp he with rfl | he
      · exact ⟨rfl, rfl, assignAliases_ids _ _⟩
      · exact ih _ he

/-- Every simple name has its entry. -/
theorem exists_entry (m : ReleaseModel) (preferences : Preferences) (version : String)
    (taken : List String) {names : List String} (hn : name ∈ names) :
    ∃ e ∈ entriesOf m preferences version taken names, e.name = name := by
  induction names generalizing taken with
  | nil => simp at hn
  | cons first names ih =>
      rw [entriesOf]
      rcases List.mem_cons.mp hn with rfl | hn
      · exact ⟨_, List.mem_cons_self, rfl⟩
      · obtain ⟨e, he, hname⟩ :=
          ih ((entryOf m preferences version taken first).aliases.map Prod.snd ++ taken) hn
        exact ⟨e, List.mem_cons_of_mem _ he, hname⟩

/-- **How the aliases of a version are given**, simple name after simple name. -/
theorem entriesOf_given (m : ReleaseModel) (preferences : Preferences) (version : String)
    (taken names : List String) :
    Given m taken ((entriesOf m preferences version taken names).flatMap (·.aliases)) := by
  induction names generalizing taken with
  | nil => trivial
  | cons name names ih =>
      rw [entriesOf, List.flatMap_cons]
      refine (assignAliases_given taken _ fun id hid => ?_).append (ih _)
      exact (mem_members.mp (List.mem_filter.mp hid).1).2.2

/-! ## Names -/

/-- The aliases given in a version, in the order of simple names. -/
def aliasesOf (m : ReleaseModel) (preferences : Preferences) (version : String) :
    List (TypeId × String) :=
  (entriesOf m preferences version (simpleNames m version) (simpleNames m version)).flatMap
    (·.aliases)

theorem mem_simpleNames (h : id < m.types.size) :
    (m.type id).name ∈ simpleNames m (m.type id).version := by
  rw [simpleNames, mem_sortedTexts]
  exact List.mem_map.mpr ⟨id, mem_typesOf.mpr ⟨h, rfl⟩, rfl⟩

/-- Only types of the version that are not primary get one of its aliases. -/
theorem ne_primary_of_mem_aliasesOf {text : String}
    (h : (id, text) ∈ aliasesOf m preferences version) :
    id < m.types.size ∧ (m.type id).version = version
      ∧ id ≠ primary m preferences version (m.type id).name := by
  obtain ⟨e, he, ha⟩ := List.mem_flatMap.mp h
  have hid : id ∈ e.aliases.map Prod.fst := List.mem_map.mpr ⟨(id, text), ha, rfl⟩
  rw [(entriesOf_ids _ _ he).2.2] at hid
  obtain ⟨hmem, hne⟩ := List.mem_filter.mp hid
  obtain ⟨hlt, hversion, hname⟩ := mem_members.mp hmem
  exact ⟨hlt, hversion, by rw [hname]; exact of_decide_eq_true hne⟩

/-- A type without an alias is the primary of its simple name. -/
theorem mem_aliasesOf_or_primary (h : id < m.types.size) :
    (∃ text, (id, text) ∈ aliasesOf m preferences (m.type id).version)
      ∨ id = primary m preferences (m.type id).version (m.type id).name := by
  by_cases hp : id = primary m preferences (m.type id).version (m.type id).name
  · exact .inr hp
  · left
    obtain ⟨e, he, hname⟩ := exists_entry m preferences (m.type id).version
      (simpleNames m (m.type id).version) (mem_simpleNames h)
    obtain ⟨-, -, hids⟩ := entriesOf_ids _ _ he
    have hid : id ∈ e.aliases.map Prod.fst := by
      rw [hids, List.mem_filter, hname]
      exact ⟨mem_members.mpr ⟨h, rfl, rfl⟩, by simpa using hp⟩
    obtain ⟨⟨id', text⟩, ha, rfl⟩ := List.mem_map.mp hid
    exact ⟨text, List.mem_flatMap.mpr ⟨e, he, ha⟩⟩

/-- A type goes by the alias listed for it, else by its simple name. -/
theorem name_eq_lookup (preferences : Preferences) (h : id < m.types.size) :
    (resolve m preferences).name id
      = ((m.versions.flatMap (aliasesOf m preferences)).lookup id).getD (m.type id).name := by
  have hall : (m.versions.flatMap fun v =>
        entriesOf m preferences v (simpleNames m v) (simpleNames m v)).flatMap (·.aliases)
      = m.versions.flatMap (aliasesOf m preferences) := List.flatMap_assoc
  rw [name, resolve, hall]
  simp [typeIds, h]

/-- A type goes by an alias of its version or, as the primary, by its simple name. -/
theorem name_cases (preferences : Preferences) (h : id < m.types.size) :
    (id, (resolve m preferences).name id) ∈ aliasesOf m preferences (m.type id).version
      ∨ (resolve m preferences).name id = (m.type id).name
        ∧ id = primary m preferences (m.type id).version (m.type id).name := by
  rw [name_eq_lookup preferences h]
  cases hl : (m.versions.flatMap (aliasesOf m preferences)).lookup id with
  | some text =>
      left
      obtain ⟨l₁, l₂, heq, -⟩ := List.lookup_eq_some_iff.mp hl
      have hm : (id, text) ∈ m.versions.flatMap (aliasesOf m preferences) := by
        rw [heq]; simp
      obtain ⟨v, -, hv⟩ := List.mem_flatMap.mp hm
      -- the alias may only come from the type's own version
      obtain ⟨-, rfl, -⟩ := ne_primary_of_mem_aliasesOf hv
      exact hv
  | none =>
      right
      refine ⟨rfl, (mem_aliasesOf_or_primary h).resolve_left ?_⟩
      rintro ⟨text, hm⟩
      have hne := List.lookup_eq_none_iff.mp hl (id, text)
        (List.mem_flatMap.mpr ⟨_, version_mem_versions h, hm⟩)
      simp at hne

/-- **Types of a version with one name are one type.** -/
theorem name_injective {i j : TypeId} (hi : i < m.types.size) (hj : j < m.types.size)
    (hv : (m.type i).version = (m.type j).version)
    (h : (resolve m preferences).name i = (resolve m preferences).name j) : i = j := by
  have htexts := (entriesOf_given m preferences (m.type i).version
    (simpleNames m (m.type i).version) (simpleNames m (m.type i).version)).texts
  have halias : ∀ {k k' : TypeId} {text : String},
      (k, text) ∈ aliasesOf m preferences (m.type i).version →
      (k', text) ∈ aliasesOf m preferences (m.type i).version → k = k' :=
    fun hk hk' => congrArg Prod.fst (List.inj_on_of_nodup_map htexts.1 hk hk' rfl)
  have hsimple : ∀ {k : TypeId} {text : String},
      (k, text) ∈ aliasesOf m preferences (m.type i).version →
      text ∉ simpleNames m (m.type i).version :=
    fun hk => htexts.2 _ (List.mem_map.mpr ⟨_, hk, rfl⟩)
  rcases name_cases preferences hi with ha | ⟨hna, hpa⟩ <;>
    rcases name_cases preferences hj with hb | ⟨hnb, hpb⟩
  · rw [← hv, ← h] at hb
    exact halias ha hb
  · -- an alias is no simple name of its version
    rw [h, hnb] at ha
    exact absurd (hv ▸ mem_simpleNames hj) (hsimple ha)
  · rw [← hv, ← h, hna] at hb
    exact absurd (mem_simpleNames hi) (hsimple hb)
  · rw [hpa, hpb, ← hna, ← hnb, hv, h]

end Names

end ApiModels
