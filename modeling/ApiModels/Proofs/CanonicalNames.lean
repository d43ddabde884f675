import ApiModels.Build
import ApiModels.Proofs.AliasChains
import ApiModels.Proofs.NameEntries
import ApiModels.Registry.Lookup

/-!
# Readers find the simple names

A build writes down, for each version, which simple name each of its aliases stands for. Whoever has
the table of the release can go back from the name of a type to the simple name, by following
aliases until a name is none. One step is enough: what an alias stands for is a simple name, and no
alias is a simple name of its version. Aliases that are configured besides come first in the same
table, so they must keep away from both.
-/

namespace ApiModels

variable {m : ReleaseModel} {preferences : Preferences} {version name : String} {id : TypeId}

/-! ## Chains of aliases -/

namespace Registry

variable {aliases : Table String} {next : String}

theorem chainEnd?_of_none (h : aliases.get? name = none) : chainEnd? aliases name = some name :=
  follow_of_none h

/-- A chain of one step. -/
theorem chainEnd?_of_some (h : aliases.get? name = some next) (hnext : aliases.get? next = none) :
    chainEnd? aliases name = some next := by
  unfold chainEnd?
  rw [follow_of_some h, if_neg List.not_mem_nil]
  exact follow_of_none hnext

/-- A name whose chain ends has a canonical name in a version that the release has. -/
theorem canonicalName_eq_ok {r : Registry} {label : String} {entry : ReleaseEntry}
    (hentry : r.releases.get? label = some entry) (hversion : version ∈ entry.versions)
    (hchain : chainEnd? ((entry.deprecations.get? version).getD {}) name = some next) :
    r.canonicalName label version name = .ok next := by
  rw [canonicalName_eq hentry hversion, hchain]

end Registry

/-! ## Aliases of a version -/

namespace Names

theorem deprecations_eq (m : ReleaseModel) (preferences : Preferences) (version : String) :
    (resolve m preferences).deprecations version
      = .ofList ((versionEntries m preferences version).flatMap fun e =>
          e.aliases.map fun a => (a.2, e.name)) := by
  have hfilter : ((resolve m preferences).entries.filter fun e => e.version == version)
      = versionEntries m preferences version := by
    rw [← filter_entries]
    exact List.filter_congr fun e _ => beq_eq_decide _ _
  unfold deprecations
  rw [hfilter]

/-- The keys of the table of a version are its aliases. -/
theorem map_fst_deprecations (m : ReleaseModel) (preferences : Preferences) (version : String) :
    ((versionEntries m preferences version).flatMap fun e =>
        e.aliases.map fun a => (a.2, e.name)).map Prod.fst
      = (aliasesOf m preferences version).map Prod.snd := by
  unfold aliasesOf versionEntries
  rw [List.map_flatMap, List.map_flatMap]
  refine List.flatMap_congr fun e _ => ?_
  rw [List.map_map]
  rfl

theorem nodup_aliases (m : ReleaseModel) (preferences : Preferences) (version : String) :
    ((aliasesOf m preferences version).map Prod.snd).Nodup :=
  (entriesOf_given m preferences version _ _).texts.1

/-- **The alias of a type stands for its simple name.** -/
theorem get?_deprecations_of_mem {text : String}
    (h : (id, text) ∈ aliasesOf m preferences version) :
    ((resolve m preferences).deprecations version).get? text = some (m.type id).name := by
  have hnodup := map_fst_deprecations m preferences version ▸ nodup_aliases m preferences version
  obtain ⟨e, he, ha⟩ := List.mem_flatMap.mp h
  have hname : (m.type id).name = e.name := by
    have hid : id ∈ e.aliases.map Prod.fst := List.mem_map_of_mem ha
    rw [(entriesOf_ids _ _ he).2.2] at hid
    exact (mem_members.mp (List.mem_filter.mp hid).1).2.2
  rw [deprecations_eq, Table.get?_ofList hnodup, hname]
  exact Table.lookup_of_mem hnodup
    (List.mem_flatMap.mpr ⟨e, he, List.mem_map.mpr ⟨(id, text), ha, rfl⟩⟩)

/-- **No simple name is an alias of its version.** -/
theorem get?_deprecations_simpleName (h : name ∈ simpleNames m version) :
    ((resolve m preferences).deprecations version).get? name = none := by
  rw [← Option.not_isSome_iff_eq_none, Table.isSome_get?, deprecations_eq, Table.mem_keys_ofList,
    map_fst_deprecations]
  exact fun hmem => (entriesOf_given m preferences version _ _).texts.2 name hmem h

/-- A simple name is the name of a type that has it. -/
theorem exists_primary (preferences : Preferences) (h : name ∈ simpleNames m version) :
    ∃ p ∈ m.typesOf version, (m.type p).name = name ∧ (resolve m preferences).name p = name := by
  obtain ⟨e, he, rfl, rfl⟩ : ∃ e ∈ (resolve m preferences).entries,
      e.version = version ∧ e.name = name :=
    exists_entry_iff.mpr (mem_simpleNames_iff.mp h)
  obtain ⟨hlt, hversion, hname⟩ := ReleaseModel.mem_find.mp (isPrimary_primary he).mem
  exact ⟨e.primary, ReleaseModel.mem_typesOf.mpr ⟨hlt, hversion⟩, hname, name_primary he⟩

end Names

/-! ## The table of a release -/

namespace Build

open Names ReleaseModel

variable {b : Build}

/-- The aliases of a version: those derived for it, and those configured for every version. -/
def aliases (b : Build) (version : String) : Table String :=
  (b.names.deprecations version).update b.config.deprecations

/-- Readers have the aliases of each version. One without any is left out of the table of the
release, and taken to have none. -/
theorem getD_deprecations (b : Build) (h : version ∈ b.model.versions) :
    (b.registryEntry.deprecations.get? version).getD {} = b.aliases version := by
  let all := b.model.versions.map fun v => (v, b.aliases v)
  let tables := all.filter fun e => !e.2.isEmpty
  have hkeys : all.map Prod.fst = b.model.versions := by
    rw [List.map_map]
    exact List.map_id _
  have hnodup : (tables.map Prod.fst).Nodup := by
    refine (List.filter_sublist.map _).nodup ?_
    rw [hkeys]
    exact nodup_versions
  have hentry : b.registryEntry.deprecations.get? version = tables.lookup version :=
    Table.get?_ofList hnodup version
  rw [hentry]
  cases hempty : (b.aliases version).isEmpty with
  | false =>
    have hmem : (version, b.aliases version) ∈ tables :=
      List.mem_filter.mpr ⟨List.mem_map.mpr ⟨version, h, rfl⟩, by rw [hempty]; rfl⟩
    rw [Table.lookup_of_mem hnodup hmem]
    rfl
  | true =>
    have hnone : tables.lookup version = none := by
      refine List.lookup_eq_none_iff.mpr fun e he => ?_
      obtain ⟨hmem, hsome⟩ := List.mem_filter.mp he
      obtain ⟨v, -, rfl⟩ := List.mem_map.mp hmem
      have hne : version ≠ v := by
        rintro rfl
        rw [hempty] at hsome
        cases hsome
      simpa using hne
    have heq : b.aliases version = {} := by
      have hentries : (b.aliases version).entries = [] := List.isEmpty_iff.mp hempty
      cases htable : b.aliases version with
      | mk entries sorted =>
        rw [htable] at hentries
        cases hentries
        rfl
    rw [hnone]
    exact heq.symm

/--
**What a build writes about its names is what readers find.**

In a registry that has the table of a build, the name of every type of a version leads to the simple
name of the type, if the aliases that are configured keep away from the simple names and the aliases
of the version: an alias to the name it stands for, which is the name of a type of the version, and
a simple name to itself.
-/
theorem canonicalName_of_name (config : ReleaseConfig) (doc : Swagger.Document) (r : Registry)
    (version : String) (id : TypeId)
    (hr : r.releases.get? config.label = some (ofDocument config doc).registryEntry)
    (hid : id ∈ (ofDocument config doc).model.typesOf version)
    (hconfigured : ∀ name ∈ config.deprecations.keys,
      name ∉ simpleNames (ofDocument config doc).model version
        ∧ name ∉ ((ofDocument config doc).names.deprecations version).keys) :
    let b := ofDocument config doc
    r.canonicalName b.label version (b.names.name id) = .ok (b.model.type id).name
      ∧ r.canonicalName b.label version (b.model.type id).name = .ok (b.model.type id).name
      ∧ ∃ p ∈ b.model.typesOf version, b.names.name p = (b.model.type id).name := by
  intro b
  obtain ⟨hlt, rfl⟩ := mem_typesOf.mp hid
  have hversion : (b.model.type id).version ∈ b.model.versions := version_mem_versions hlt
  have hsimple : (b.model.type id).name ∈ simpleNames b.model (b.model.type id).version :=
    mem_simpleNames hlt
  obtain ⟨p, hp, -, hname⟩ := exists_primary config.preferences hsimple
  -- what is configured has no say in the names of the version
  have hget : ∀ name, name ∈ simpleNames b.model (b.model.type id).version
        ∨ name ∈ (b.names.deprecations (b.model.type id).version).keys →
      (b.aliases (b.model.type id).version).get? name
        = (b.names.deprecations (b.model.type id).version).get? name := by
    intro name hname
    have hnone : config.deprecations.get? name = none := by
      rw [← Option.not_isSome_iff_eq_none, Table.isSome_get?]
      intro hmem
      obtain ⟨hsimple, hderived⟩ := hconfigured name hmem
      exact hname.elim hsimple hderived
    rw [aliases, Table.get?_update, show b.config.deprecations.get? name = none from hnone]
    rfl
  have hself : (b.aliases (b.model.type id).version).get? (b.model.type id).name = none :=
    (hget _ (.inl hsimple)).trans (get?_deprecations_simpleName hsimple)
  have hend : ∀ name, Registry.chainEnd? (b.aliases (b.model.type id).version) name
        = some (b.model.type id).name →
      r.canonicalName b.label (b.model.type id).version name = .ok (b.model.type id).name := by
    intro name hchain
    rw [← getD_deprecations b hversion] at hchain
    exact Registry.canonicalName_eq_ok hr hversion hchain
  refine ⟨hend _ ?_, hend _ (Registry.chainEnd?_of_none hself), p, hp, hname⟩
  rcases name_cases config.preferences hlt with halias | ⟨hname, -⟩
  · have hstep := get?_deprecations_of_mem halias
    have hkey := Table.isSome_get?.mp (Option.isSome_iff_exists.mpr ⟨_, hstep⟩)
    exact Registry.chainEnd?_of_some ((hget _ (.inr hkey)).trans hstep) hself
  · rw [show b.names.name id = (b.model.type id).name from hname]
    exact Registry.chainEnd?_of_none hself

/-- A document with events of two groups. -/
def events : Swagger.Document where
  definitions :=
    [("io.k8s.api.core.v1.Event", .mk { type := some "object" } [] none none),
      ("io.k8s.api.events.v1.Event", .mk { type := some "object" } [] none none)]

/-- The events that do not keep the simple name are found by their alias, next to one that is
configured. -/
theorem canonicalName_of_name_event :
    let config : ReleaseConfig :=
      { label := "rel", semver := "1.0.0", defaultVersion := "v1", preferences := {},
        deprecations := .ofList [("OldEvent", "Event")] }
    let b := ofDocument config events
    let r : Registry :=
      { index := ⟨none, ["rel"]⟩, releases := .ofList [("rel", b.registryEntry)] }
    r.releases.get? "rel" = some b.registryEntry ∧ 1 ∈ b.model.typesOf "v1"
      ∧ (∀ name ∈ config.deprecations.keys, name ∉ simpleNames b.model "v1"
          ∧ name ∉ (b.names.deprecations "v1").keys)
      ∧ b.names.name 1 = "Event_events"
      ∧ r.canonicalName "rel" "v1" "Event_events" = .ok "Event" := by
  intro config b r
  have hsimple : simpleNames b.model "v1" = ["Event"] := by decide +kernel
  have hmembers : members b.model "v1" "Event" = [0, 1] := by
    have hfind : b.model.find "v1" "Event" = [0, 1] := by decide +kernel
    rw [members, hfind]
    exact List.mergeSort_of_pairwise (by decide +kernel)
  have haliases : aliasesOf b.model {} "v1" = [(1, "Event_events")] := by
    rw [aliasesOf, hsimple]
    unfold entriesOf entryOf
    rw [hmembers]
    decide +kernel
  have hnames : b.names = resolve b.model {} := rfl
  have hmem : (1, "Event_events") ∈ aliasesOf b.model {} "v1" := by
    rw [haliases]
    exact List.mem_singleton_self _
  have hname : b.names.name 1 = "Event_events" := by
    rw [hnames]
    exact name_of_mem_aliasesOf hmem
  have hr : r.releases.get? "rel" = some b.registryEntry := Table.get?_insert
  have hid : 1 ∈ b.model.typesOf "v1" := by decide +kernel
  have hconfigured : ∀ name ∈ config.deprecations.keys, name ∉ simpleNames b.model "v1"
      ∧ name ∉ (b.names.deprecations "v1").keys := by
    have hkeys : ∀ name, name ∈ (b.names.deprecations "v1").keys ↔ name ∈ ["Event_events"] := by
      intro name
      rw [hnames, deprecations_eq, Table.mem_keys_ofList, map_fst_deprecations, haliases,
        List.map_singleton]
    intro name hmem
    rw [hsimple, hkeys]
    obtain rfl : name = "OldEvent" := List.mem_singleton.mp hmem
    decide
  refine ⟨hr, hid, hconfigured, hname, ?_⟩
  have hcanonical := (canonicalName_of_name config events r "v1" 1 hr hid hconfigured).1
  have hsimpleName : (b.model.type 1).name = "Event" := by decide +kernel
  rw [hname, hsimpleName] at hcanonical
  exact hcanonical

end Build

end ApiModels
