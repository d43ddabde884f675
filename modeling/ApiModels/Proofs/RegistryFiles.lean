import ApiModels.Proofs.Directories
import ApiModels.Proofs.LabelOrder
import ApiModels.Proofs.StoredTables
import ApiModels.Workspace.RegistryFiles

/-!
# Registries as they are written and read

The table of a release is in the file named for it, and each such file but the index stands for one
release. So once the tables of some releases are written, the index lists those with a table in the
directory, each once, and loading the registry gives the tables as they were written last.
-/

namespace ApiModels

namespace Workspace

open Files FileTree

/-! ## Names of tables -/

variable {name release : String}

theorem toList_append_json (release : String) :
    (release ++ ".json").toList = release.toList ++ '.' :: "json".toList := by
  rw [String.toList_append]
  rfl

theorem append_json_inj {release' : String} (h : release ++ ".json" = release' ++ ".json") :
    release = release' := by
  have hlist := congrArg String.toList h
  rw [toList_append_json, toList_append_json] at hlist
  exact String.toList_inj.mp (List.append_cancel_right hlist)

/-- **A file of a registry is the table of the release it is named for**, unless that is the name of
the index or nothing stands before its ending. -/
theorem releaseOfName?_eq_some :
    releaseOfName? name = some release
      ↔ name = release ++ ".json" ∧ release ≠ "" ∧ release ≠ "index" := by
  constructor
  · intro h
    unfold releaseOfName? splitExtension at h
    split at h
    · cases h
    · rename_i hindex
      split at h
      · rename_i stem hextension
        cases h
        split at hextension
        · rename_i first last hcut
          -- A name that begins with its only dot has no ending.
          split at hextension
          · cases hextension
          · rename_i hne
            cases hextension
            have hname : name = release ++ ".json" := by
              rw [← String.toList_inj, toList_append_json]
              exact Text.splitLast?_eq_some hcut
            refine ⟨hname, by simpa using hne, fun heq => hindex ?_⟩
            rw [hname, heq]
            rfl
        · cases hextension
      · cases h
  · rintro ⟨rfl, hne, hindex⟩
    have hother : ¬ release ++ ".json" = indexName := fun heq => hindex (append_json_inj heq)
    have hcut : Text.splitLast? '.' (release ++ ".json") = some (release, "json") := by
      have hlast : Text.splitLast? '.' (String.ofList (release.toList ++ '.' :: "json".toList))
          = some (String.ofList release.toList, String.ofList "json".toList) :=
        Text.splitLast?_append (by decide)
      rwa [← toList_append_json, String.ofList_toList, String.ofList_toList,
        String.ofList_toList] at hlast
    unfold releaseOfName? splitExtension
    rw [if_neg hother, hcut]
    simp [hne]

/-- The table of a release is a file of its registry, unless the label leads elsewhere. -/
theorem isEntry_append_json (h : '/' ∉ release.toList) : IsEntry (release ++ ".json") := by
  have hj : 'j' ∈ (release ++ ".json").toList := by
    rw [toList_append_json]
    exact List.mem_append_right _ (by decide)
  refine ⟨⟨fun heq => ?_, fun hslash => ?_⟩, fun heq => ?_, fun heq => ?_⟩
  · rw [heq] at hj
    exact absurd hj (by decide)
  · rw [toList_append_json] at hslash
    rcases List.mem_append.mp hslash with hslash | hslash
    · exact h hslash
    · exact absurd hslash (by decide)
  · rw [heq] at hj
    exact absurd hj (by decide)
  · rw [heq] at hj
    exact absurd hj (by decide)

/-- The place of the table of a release. -/
def tablePlace (dir release : String) : Place := placeOf dir ++ [release ++ ".json"]

variable {dir : String} {t t' : FileTree} {q : Place} {x : Option String}

theorem placeOf_tablePath (h : '/' ∉ release.toList) :
    placeOf (tablePath dir release) = tablePlace dir release :=
  (isEntry_append_json h).placeOf_joinPath dir

theorem tablePlace_inj {release' : String}
    (h : tablePlace dir release = tablePlace dir release') : release = release' :=
  append_json_inj (List.singleton_inj.mp (List.append_cancel_left h))

theorem isBelowRoot_tablePlace (h : '/' ∉ release.toList) :
    IsBelowRoot (tablePlace dir release) := by
  rw [← placeOf_tablePath h]
  refine isBelowRoot_placeOf ?_
  rw [placeOf_tablePath h]
  exact List.append_ne_nil_of_right_ne_nil _ (List.cons_ne_nil _ _)

/-! ## Tables that are written -/

/-- A label that a table can be listed under. -/
structure IsLabel (release : String) : Prop where
  ne_empty : release ≠ ""
  ne_index : release ≠ "index"
  notMem : '/' ∉ release.toList

/-- The last of some tables for a release. -/
def lastFor? (entries : List ReleaseEntry) (release : String) : Option ReleaseEntry :=
  (entries.filter fun e => e.release = release).getLast?

theorem lastFor?_append (entries more : List ReleaseEntry) (release : String) :
    lastFor? (entries ++ more) release = (lastFor? more release).or (lastFor? entries release) := by
  unfold lastFor?
  rw [List.filter_append, List.getLast?_append]

theorem lastFor?_cons (e : ReleaseEntry) (entries : List ReleaseEntry) (release : String) :
    lastFor? (e :: entries) release
      = (lastFor? entries release).or (if e.release = release then some e else none) := by
  rw [← List.singleton_append, lastFor?_append]
  congr 1
  by_cases h : e.release = release <;> simp [lastFor?, h]

theorem release_of_lastFor? {entries : List ReleaseEntry} {e : ReleaseEntry}
    (h : lastFor? entries release = some e) : e.release = release := by
  have hmem := List.mem_of_getLast? h
  simpa using (List.mem_filter.mp hmem).2

/-- There is a last table of a release where there is any. -/
theorem isSome_lastFor? {entries : List ReleaseEntry} :
    (lastFor? entries release).isSome = true ↔ release ∈ entries.map ReleaseEntry.release := by
  unfold lastFor?
  rw [List.getLast?_isSome, ne_eq, List.filter_eq_nil_iff]
  simp

/-- A registry holds the tables of some releases, and no others, whatever else it holds. -/
def Stores (dir : String) (tables : String → Option ReleaseEntry) (t : FileTree) : Prop :=
  ∀ release, IsLabel release →
    Holds (tablePlace dir release) ((tables release).map fun e => e.toJson.fileText) t

theorem keeps_stores {α : Type} {run : Run (StateM FileTree) α}
    {tables : String → Option ReleaseEntry}
    (h : ∀ release, IsLabel release → ∀ x, Keeps (Holds (tablePlace dir release) x) run) :
    Keeps (Stores dir tables) run :=
  fun t ht release hlabel => h release hlabel _ t (ht release hlabel)

/-- A text that was written is what its place holds. -/
theorem holds_of_writeText {path text : String} (hq : placeOf path = q) (hheld : Holds q x t)
    (h : (writeText path text : Run (StateM FileTree) Unit).run t = (.ok (), t')) :
    Holds q (some text) t' := by
  have hkeep : Keeps (fun t => t.directoryAt q = false)
      (writeText path text : Run (StateM FileTree) Unit) := by
    refine .change path fun t t' ht hdirectory => ?_
    rw [← hdirectory, directoryAt, write_directories ht]
    rfl
  exact ⟨hq ▸ writeText_run_eq_ok h, hkeep.after h hheld.directory⟩

/-- **Tables that are written take the place of those that were there**, the last one of a release
that of the others. -/
theorem stores_of_writeTables {entries : List ReleaseEntry} {tables : String → Option ReleaseEntry}
    (hentries : ∀ e ∈ entries, '/' ∉ e.release.toList) (hstores : Stores dir tables t)
    (h : (entries.forM (fun e => writeText (tablePath dir e.release) e.toJson.fileText)
      : Run (StateM FileTree) Unit).run t = (.ok (), t')) :
    Stores dir (fun release => (lastFor? entries release).or (tables release)) t' := by
  induction entries generalizing t tables with
  | nil =>
    cases h
    exact hstores
  | cons e entries ih =>
    obtain ⟨_, t₁, hfirst, hmore⟩ := run_bind_eq_ok
      (f := fun _ => entries.forM fun e => writeText (tablePath dir e.release) e.toJson.fileText) h
    have he := hentries e List.mem_cons_self
    have hstores₁ : Stores dir
        (fun release => (if e.release = release then some e else none).or (tables release)) t₁ := by
      intro release hlabel
      have hheld := hstores release hlabel
      by_cases hrelease : e.release = release
      · subst hrelease
        simpa using holds_of_writeText (placeOf_tablePath he) hheld hfirst
      · have hne : tablePlace dir release ≠ placeOf (tablePath dir e.release) := by
          rw [placeOf_tablePath he]
          exact fun heq => hrelease (tablePlace_inj heq).symm
        have hkept := (keeps_writeText _ (isBelowRoot_tablePlace hlabel.notMem) hne).after hfirst
          hheld
        simpa [hrelease] using hkept
    have hlast := ih (fun e he => hentries e (List.mem_cons_of_mem _ he)) hstores₁ hmore
    intro release hlabel
    dsimp only
    rw [lastFor?_cons, Option.or_assoc]
    exact hlast release hlabel

/-! ## Indices -/

/-- An index lists the releases with a table, each once. -/
structure Lists (tables : String → Option ReleaseEntry) (index : RegistryIndex) : Prop where
  nodup : index.releases.Nodup
  mem_iff : ∀ release, release ∈ index.releases ↔ IsLabel release ∧ (tables release).isSome = true

/-- The tables of a registry and its index can be reached, and the index is there. -/
structure IsIndexed (dir : String) (index : RegistryIndex) (t : FileTree) : Prop where
  reachable : ∀ release, '/' ∉ release.toList →
    t.place (tablePath dir release) = .ok (tablePlace dir release)
  written : fileAt t (tablePlace dir "index") = some index.toJson.fileText

theorem Lists.exists_table {tables : String → Option ReleaseEntry} {index : RegistryIndex}
    (h : Lists tables index) (hmem : release ∈ index.releases) :
    IsLabel release ∧ ∃ e, tables release = some e := by
  obtain ⟨hlabel, hsome⟩ := (h.mem_iff release).mp hmem
  exact ⟨hlabel, Option.isSome_iff_exists.mp hsome⟩

theorem mem_filterMap_releaseOfName? {names : List String} :
    release ∈ names.filterMap releaseOfName?
      ↔ release ++ ".json" ∈ names ∧ release ≠ "" ∧ release ≠ "index" := by
  rw [List.mem_filterMap]
  constructor
  · rintro ⟨name, hname, hrelease⟩
    obtain ⟨rfl, hne⟩ := releaseOfName?_eq_some.mp hrelease
    exact ⟨hname, hne⟩
  · rintro ⟨hname, hne⟩
    exact ⟨_, hname, releaseOfName?_eq_some.mpr ⟨rfl, hne⟩⟩

/-- A directory that can be listed names the table of a release exactly if the registry holds one. -/
theorem Stores.mem_names_iff {tables : String → Option ReleaseEntry} {names : List String}
    (hstores : Stores dir tables t) (h : t.list dir = .ok names) (hlabel : IsLabel release) :
    release ++ ".json" ∈ names ↔ (tables release).isSome = true := by
  have hheld := hstores release hlabel
  have hfile : (fileAt t (tablePlace dir release)).isSome = (tables release).isSome := by
    rw [hheld.file, Option.isSome_map]
  have hslash : '/' ∉ (release ++ ".json").toList := (isEntry_append_json hlabel.notMem).notMem
  rw [mem_list h, and_iff_right hslash]
  constructor
  · rintro (hthere | hdirectory)
    · exact hfile.symm.trans hthere
    · exact absurd (hheld.directory.symm.trans hdirectory) Bool.false_ne_true
  · exact fun hsome => .inl (hfile.trans hsome)

/-- The releases that are found in a registry are those with a table. -/
theorem lists_of_list {tables : String → Option ReleaseEntry} {names : List String}
    {default : Option String} (hstores : Stores dir tables t) (h : t.list dir = .ok names) :
    Lists tables (indexOf default (Text.naturalSort (names.filterMap releaseOfName?))) := by
  have hperm := Text.naturalSort_perm (names.filterMap releaseOfName?)
  refine ⟨?_, fun release => ?_⟩
  · refine hperm.nodup_iff.mpr ((nodup_list h).filterMap ?_)
    intro name name' release hrelease hrelease'
    rw [(releaseOfName?_eq_some.mp hrelease).1, (releaseOfName?_eq_some.mp hrelease').1]
  · have hindex : release ∈ (indexOf default (Text.naturalSort
        (names.filterMap releaseOfName?))).releases ↔ release ∈ names.filterMap releaseOfName? :=
      hperm.mem_iff
    rw [hindex, mem_filterMap_releaseOfName?]
    constructor
    · rintro ⟨hname, hempty, hindex⟩
      -- Every name in a directory is that of an entry, so the label leads nowhere else.
      have hslash : '/' ∉ release.toList := by
        have hnotMem := ((mem_list h).mp hname).1
        rw [toList_append_json, List.mem_append, not_or] at hnotMem
        exact hnotMem.1
      have hlabel : IsLabel release := ⟨hempty, hindex, hslash⟩
      exact ⟨hlabel, (hstores.mem_names_iff h hlabel).mp hname⟩
    · rintro ⟨hlabel, hsome⟩
      exact ⟨(hstores.mem_names_iff h hlabel).mpr hsome, hlabel.ne_empty, hlabel.ne_index⟩

theorem releasesOnDisk_run_eq_ok {releases : List String}
    (h : (releasesOnDisk dir : Run (StateM FileTree) (List String)).run t = (.ok releases, t')) :
    t' = t ∧ ∃ names, t.list dir = .ok names
      ∧ releases = Text.naturalSort (names.filterMap releaseOfName?) := by
  obtain ⟨names, t₁, hlist, h⟩ := run_bind_eq_ok h
  cases h
  obtain ⟨listed, t₂, hlisted, hlist⟩ := run_bind_eq_ok hlist
  cases hlisted
  split at hlist
  · rename_i names' hnames
    cases hlist
    exact ⟨rfl, _, hnames, rfl⟩
  · cases hlist

/-- The index has the place that the table of a release named `index` would have. -/
theorem indexPath_eq (dir : String) : indexPath dir = tablePath dir "index" := by
  have hname : indexName = "index" ++ ".json" := by decide
  rw [indexPath, hname]
  rfl

theorem placeOf_indexPath (dir : String) : placeOf (indexPath dir) = tablePlace dir "index" := by
  rw [indexPath_eq, placeOf_tablePath (by decide)]

/-- The index is written beside the tables. -/
theorem keeps_stores_writeIndex (tables : String → Option ReleaseEntry) (text : String) :
    Keeps (Stores dir tables)
      (writeText (indexPath dir) text : Run (StateM FileTree) Unit) := by
  refine keeps_stores fun release hlabel x =>
    keeps_writeText text (isBelowRoot_tablePlace hlabel.notMem) fun heq => ?_
  rw [placeOf_indexPath] at heq
  exact hlabel.ne_index (tablePlace_inj heq)

/-- What is written into a directory that can be listed can be reached there. -/
theorem isIndexed_of_writeIndex {index : RegistryIndex} {names : List String}
    (hnames : t.list dir = .ok names)
    (h : (writeText (indexPath dir) index.toJson.fileText : Run (StateM FileTree) Unit).run t
      = (.ok (), t')) : IsIndexed dir index t' := by
  refine ⟨fun release hrelease => ?_, ?_⟩
  · have hentry := isEntry_append_json hrelease
    obtain ⟨hplace, hdirectory, -⟩ := list_eq_ok hnames
    exact (keeps_place_writeText _ (hentry.namesDirectory_joinPath dir)).after h
      (hentry.place_joinPath hplace hdirectory)
  · rw [← placeOf_indexPath]
    exact writeText_run_eq_ok h

/-- **Once a registry is written, its index lists the releases with a table in it.** -/
theorem stored_of_writeRegistry {entries : List ReleaseEntry} {default : Option String}
    {tables : String → Option ReleaseEntry} {index : RegistryIndex}
    (hentries : ∀ e ∈ entries, '/' ∉ e.release.toList)
    (hdir : ∀ release, IsLabel release → ¬ LeadsThrough dir (tablePlace dir release))
    (hstores : Stores dir tables t)
    (h : (writeRegistry dir entries default : Run (StateM FileTree) RegistryIndex).run t
      = (.ok index, t')) :
    Stores dir (fun release => (lastFor? entries release).or (tables release)) t'
      ∧ Lists (fun release => (lastFor? entries release).or (tables release)) index
      ∧ IsIndexed dir index t' := by
  obtain ⟨_, t₁, hmade, h⟩ := run_bind_eq_ok h
  obtain ⟨_, t₂, htables, h⟩ := run_bind_eq_ok h
  obtain ⟨releases, t₃, hlisted, h⟩ := run_bind_eq_ok h
  obtain ⟨_, t₄, hindex, h⟩ := run_bind_eq_ok h
  cases h
  obtain ⟨rfl, names, hnames, rfl⟩ := releasesOnDisk_run_eq_ok hlisted
  have hmaking : Keeps (Stores dir tables) (makeDirectories dir : Run (StateM FileTree) Unit) :=
    keeps_stores fun release hlabel _ =>
      keeps_makeDirectories (isBelowRoot_tablePlace hlabel.notMem) (hdir release hlabel)
  have hstores₂ := stores_of_writeTables hentries (hmaking.after hmade hstores) htables
  exact ⟨(keeps_stores_writeIndex _ _).after hindex hstores₂, lists_of_list hstores₂ hnames,
    isIndexed_of_writeIndex hnames hindex⟩

/-! ## Loading -/

theorem read_eq_ok {path text : String} {p : Place} (hplace : t.place path = .ok p)
    (hfile : fileAt t p = some text) : t.read path = .ok text := by
  have hget : t.files.get? (key p) = some text := hfile
  unfold FileTree.read
  rw [hplace, Json.ok_bind, hget]
  rfl

/-- A table is loaded from a file that can be reached and that its reader takes. -/
theorem run_loadTable {α : Type} {reader : Json.Reader α} {path text : String} {p : Place} {a : α}
    (hplace : t.place path = .ok p) (hfile : fileAt t p = some text)
    (hread : Json.Reader.ofText reader text = .ok a) :
    (loadTable reader path : ExceptT LoadError (StateM FileTree) α).run t = (.ok a, t) := by
  have hlift : (ExceptT.lift (Disk.read path) :
      ExceptT LoadError (StateM FileTree) (Outcome String)).run t = (.ok (.ok text), t) := by
    rw [← read_eq_ok hplace hfile]
    rfl
  unfold loadTable
  rw [run_bind, hlift]
  dsimp only
  rw [hread]
  rfl

theorem run_mapM {ε α β : Type} {f : α → ExceptT ε (StateM FileTree) β} {g : α → β} {l : List α}
    (h : ∀ a ∈ l, (f a).run t = (.ok (g a), t)) : (l.mapM f).run t = (.ok (l.map g), t) := by
  induction l with
  | nil => rfl
  | cons a l ih =>
    rw [List.mapM_cons, run_bind, h a List.mem_cons_self]
    dsimp only
    rw [run_bind, ih fun b hb => h b (List.mem_cons_of_mem a hb)]
    rfl

/-- A registry of the tables of some releases, each its own, has these and no others. -/
theorem get?_ofEntries {index : RegistryIndex} {labels : List String} {table : String → ReleaseEntry}
    (hnodup : labels.Nodup) (hown : ∀ label ∈ labels, (table label).release = label)
    {e : ReleaseEntry} :
    (Registry.ofEntries index (labels.map table)).releases.get? release = some e
      ↔ release ∈ labels ∧ table release = e := by
  have hpairs : (labels.map table).map (fun e => (e.release, e))
      = labels.map fun label => (label, table label) := by
    rw [List.map_map]
    exact List.map_congr_left fun label hlabel => by simp [hown label hlabel]
  have hkeys : ((labels.map fun label => (label, table label)).map Prod.fst).Nodup := by
    rw [List.map_map]
    exact (List.map_id' labels).symm ▸ hnodup
  rw [Registry.ofEntries, hpairs, Table.get?_ofList hkeys]
  by_cases hmem : release ∈ labels
  · rw [List.lookup_graph _ hmem, Option.some.injEq, and_iff_right hmem]
  · have hnone : (labels.map fun label => (label, table label)).lookup release = none := by
      rw [List.lookup_eq_none_iff]
      intro pair hpair
      obtain ⟨other, hother, rfl⟩ := List.mem_map.mp hpair
      have hne : release ≠ other := fun heq => hmem (heq ▸ hother)
      simpa using hne
    rw [hnone]
    simp [hmem]

/-- **A registry that is written can be loaded**, with the index that was written and the table of
every release that the index lists. -/
theorem run_loadRegistry {tables : String → Option ReleaseEntry} {index : RegistryIndex}
    (hown : ∀ release e, tables release = some e → e.release = release)
    (hstores : Stores dir tables t) (hlists : Lists tables index)
    (hindexed : IsIndexed dir index t) :
    ∃ registry : Registry,
      (loadRegistry dir : ExceptT LoadError (StateM FileTree) Registry).run t = (.ok registry, t)
        ∧ registry.index = index
        ∧ ∀ release e, registry.releases.get? release = some e
          ↔ release ∈ index.releases ∧ tables release = some e := by
  have hindexPath : t.place (indexPath dir) = .ok (tablePlace dir "index") := by
    rw [indexPath_eq]
    exact hindexed.reachable "index" (by decide)
  have hindex := run_loadTable hindexPath hindexed.written index.ofText_fileText
  -- What is listed has a table, so no default stands for one.
  let table := fun release => (tables release).getD default
  have htable : ∀ release ∈ index.releases, tables release = some (table release) := by
    intro release hmem
    obtain ⟨-, e, he⟩ := hlists.exists_table hmem
    simp [table, he]
  have hloaded : ∀ release ∈ index.releases,
      (loadTable ReleaseEntry.reader (tablePath dir release)
        : ExceptT LoadError (StateM FileTree) ReleaseEntry).run t = (.ok (table release), t) := by
    intro release hmem
    obtain ⟨hlabel, -⟩ := hlists.exists_table hmem
    have hfile := (hstores release hlabel).file
    rw [htable release hmem] at hfile
    exact run_loadTable (hindexed.reachable release hlabel.notMem) hfile
      (table release).ofText_fileText
  refine ⟨.ofEntries index (index.releases.map table), ?_, rfl, fun release e => ?_⟩
  · unfold loadRegistry
    rw [run_bind, hindex]
    dsimp only
    rw [run_bind, run_mapM hloaded]
    rfl
  · rw [get?_ofEntries hlists.nodup fun label hmem => hown _ _ (htable label hmem)]
    refine and_congr_right fun hmem => ?_
    rw [htable release hmem, Option.some.injEq]

end Workspace

end ApiModels
