import ApiModels.Proofs.RegistryFiles
import ApiModels.Proofs.WrittenReleases

/-!
# What a registry holds after many runs

A run writes the code of what it built, the tables of its releases, an index of all tables there are,
and a snapshot of the methods. Where none of the outputs lies in the way of the tables, they outlast
the runs that build other releases: whatever was built in which order, the registry can be loaded
after every run, and gives each release as it was built last. Two labels have no table of their own,
the empty one and that of the index.
-/

namespace ApiModels.Workspace

open Files FileTree
open Generated (IsFileName IsFilePlace isFilePlace_singleton)
open Source (fileStem IsPlain isPlain_fileStem)

variable {codegen dir release path : String} {p : Place} {x : Option String} {t t' : FileTree}

/-! ## Code apart from tables -/

/-- No code is written under the name of a table. -/
theorem ne_append_json {name : String} (h : IsFileName name) (release : String) :
    name ≠ release ++ ".json" := by
  obtain ⟨stem, hstem, rfl | rfl⟩ := h
  · intro heq
    refine hstem.notMem (c := '.') (by decide) ?_
    rw [heq, toList_append_json]
    exact List.mem_append_right _ (by decide)
  · intro heq
    have hlast := congrArg (fun s => s.toList.getLast?) heq
    simp [String.toList_append] at hlast

theorem ne_tablePlace (hp : IsFilePlace p) (before : Place) :
    before ++ p ≠ tablePlace dir release := by
  intro heq
  have hlast := congrArg List.getLast? heq
  rw [tablePlace, List.getLast?_concat, List.getLast?_append_of_ne_nil _ hp.ne_nil] at hlast
  exact ne_append_json (hp.names _ (List.mem_of_getLast? hlast)) release rfl

theorem partsOf_joinPath_key (hp : IsFilePlace p) (codegen : String) :
    partsOf (joinPath codegen (key p)) = partsOf codegen ++ p := by
  rw [partsOf_joinPath codegen (isAbsolute_key hp.isBelowRoot), partsOf_key hp.isBelowRoot]

/-- A path of code leads through no table unless that of the directory of all code does. -/
theorem not_leadsThrough_joinPath (hp : IsFilePlace p)
    (h : ¬ LeadsThrough codegen (tablePlace dir release)) :
    ¬ LeadsThrough (joinPath codegen (key p)) (tablePlace dir release) := by
  rintro ⟨names, hnames, hleads⟩
  rw [partsOf_joinPath_key hp] at hnames
  rcases List.prefix_or_prefix_of_prefix hnames (List.prefix_append _ _) with hshort | ⟨p', rfl⟩
  · exact h ⟨names, hshort, hleads⟩
  · -- Behind the directory of all code come names of code, and no table is named so.
    rw [List.prefix_append_right_inj] at hnames
    by_cases hnil : p' = []
    · exact h ⟨partsOf codegen ++ p', by rw [hnil, List.append_nil], hleads⟩
    · have hp' : IsFilePlace p' := ⟨hnil, fun name hname => hp.names name (hnames.subset hname)⟩
      have hplace := hp'.placeOf_joinPath codegen
      rw [placeOf, partsOf_joinPath_key hp', hleads] at hplace
      exact ne_tablePlace hp' _ hplace.symm

/-- No table is in the directory of a release unless the registry is. -/
theorem not_prefix_tablePlace {stem : String} (hstem : IsPlain stem)
    (h : ¬ placeOf codegen ++ [stem] <+: placeOf dir) :
    ¬ placeOf codegen ++ [stem] <+: tablePlace dir release := by
  have hfile : IsFilePlace [stem] :=
    isFilePlace_singleton ⟨stem, hstem, .inl rfl⟩
  rw [tablePlace, List.prefix_concat_iff, not_or]
  exact ⟨ne_tablePlace hfile _, h⟩

/-! ## Runs that keep tables -/

section

variable (hrelease : '/' ∉ release.toList)
include hrelease

theorem keeps_table_clearRelease {stem : String} (hstem : IsPlain stem)
    (h : ¬ placeOf codegen ++ [stem] <+: placeOf dir) :
    Keeps (Holds (tablePlace dir release) x)
      (clearRelease codegen stem : Run (StateM FileTree) Unit) := by
  have hq : IsBelowRoot (tablePlace dir release) := isBelowRoot_tablePlace hrelease
  have hdir : IsFilePlace [stem] := isFilePlace_singleton ⟨stem, hstem, .inl rfl⟩
  have hfile : IsFilePlace [stem ++ ".rs"] := isFilePlace_singleton ⟨stem, hstem, .inr rfl⟩
  have hdirAt : placeOf (joinPath codegen stem) = placeOf codegen ++ [stem] :=
    hdir.placeOf_joinPath codegen
  have hfileAt : placeOf (joinPath codegen (stem ++ ".rs")) = placeOf codegen ++ [stem ++ ".rs"] :=
    hfile.placeOf_joinPath codegen
  refine keeps_clearRelease (keeps_removeDirectory hq (hdir.placeOf_ne_nil codegen) ?_)
    (keeps_removeFile hq (hfile.placeOf_ne_nil codegen) ?_)
  · rw [hdirAt]
    exact not_prefix_tablePlace hstem h
  · rw [hfileAt]
    exact (ne_tablePlace hfile _).symm

theorem keeps_table_writeFile (hp : IsFilePlace p) (file : Generated.File)
    (h : ¬ LeadsThrough codegen (tablePlace dir release)) :
    Keeps (Holds (tablePlace dir release) x)
      (writeFile codegen (key p) file : Run (StateM FileTree) Unit) := by
  have hq : IsBelowRoot (tablePlace dir release) := isBelowRoot_tablePlace hrelease
  have hapart := not_leadsThrough_joinPath hp h
  refine keeps_writeFile (fun above habove => keeps_makeDirectories hq fun hleads => ?_)
    (keeps_writeText _ hq fun heq => ?_)
  · exact hapart (hleads.lengthen (prefix_of_parent? habove))
  · exact hapart (heq ▸ leadsThrough_placeOf _)

theorem keeps_table_writeRelease {b : Build}
    (hclear : ¬ placeOf codegen ++ [fileStem b.label] <+: placeOf dir)
    (h : ¬ LeadsThrough codegen (tablePlace dir release)) :
    Keeps (Holds (tablePlace dir release) x)
      (writeRelease codegen b : Run (StateM FileTree) Unit) :=
  keeps_writeRelease (keeps_table_clearRelease hrelease (isPlain_fileStem _) hclear)
    fun _ _ hp file => keeps_table_writeFile hrelease hp file h

end

/-! ## Runs that only read -/

section

variable {P : FileTree → Prop} {α : Type}

theorem keeps_lift {f : StateM FileTree α} (h : ∀ t, (f t).2 = t) :
    Keeps P (ExceptT.lift f : Run (StateM FileTree) α) := fun t ht => (h t).symm ▸ ht

theorem keeps_presentTargets (c : Config) :
    Keeps P (ExceptT.lift (presentTargets c) : Run (StateM FileTree) (List String)) := by
  have haux : ∀ (releases found : List String) (t : FileTree),
      ((List.filterAuxM (fun release =>
        (Disk.isFile (joinPath c.output.codegen (fileStem release ++ ".rs")) : StateM FileTree Bool))
        releases found) t).2 = t := by
    intro releases
    induction releases with
    | nil => exact fun _ _ => rfl
    | cons release releases ih => exact fun found t => ih _ t
  refine keeps_lift fun t => ?_
  exact haux (c.targets.map Target.release) [] t

theorem keeps_throw (e : Failure) : Keeps P (throw e : Run (StateM FileTree) α) := fun _ => id

theorem keeps_readText (path : String) :
    Keeps P (readText path : Run (StateM FileTree) String) := by
  refine .bind (.query (FileTree.read · path)) fun outcome => ?_
  cases outcome with
  | ok text => exact .pure text
  | error e => exact keeps_throw _

theorem keeps_readJson (reader : Json.Reader α) (path : String) :
    Keeps P (readJson reader path : Run (StateM FileTree) α) := by
  refine .bind (keeps_readText path) fun text => ?_
  split
  · exact .pure _
  · exact keeps_throw _

theorem keeps_ofExcept (r : Except Failure α) :
    Keeps P (MonadExcept.ofExcept r : Run (StateM FileTree) α) := by
  cases r with
  | ok a => exact .pure a
  | error e => exact keeps_throw e

theorem keeps_buildRelease (c : Config) (release : String) :
    Keeps P (buildRelease c release : Run (StateM FileTree) Build) :=
  .bind (keeps_ofExcept _) fun _ => .bind (keeps_ofExcept _) fun _ =>
    .bind (keeps_readJson _ _) fun _ => .pure _

/-- To build reads documents and changes nothing. -/
theorem keeps_buildAll (c : Config) (wanted : List String) :
    Keeps P (buildAll c wanted : Run (StateM FileTree) BuildResults) := by
  have hmapM : ∀ (releases : List String) (t : FileTree), (releases.mapM (fun release => (do
      return (release, ← (buildRelease (m := StateM FileTree) c release).run)
        : StateM FileTree (String × Except Failure Build))) t).2 = t := by
    intro releases
    induction releases with
    | nil => exact fun t => rfl
    | cons release releases ih =>
      intro t
      have hfirst : ((buildRelease c release : Run (StateM FileTree) Build).run t).2 = t :=
        keeps_buildRelease (P := (· = t)) c release t rfl
      rw [List.mapM_cons]
      exact (ih _).trans hfirst
  refine .bind (.forM fun release _ => ?_) fun _ => .bind (keeps_lift (hmapM _)) fun _ => .pure _
  exact .bind (keeps_ofExcept _) fun _ => .pure _

theorem keeps_loadMethodsIfAny (path : String) :
    Keeps P (loadMethodsIfAny path : Run (StateM FileTree) MethodMap) := by
  have hexists : ∀ t, ((pathExists path : StateM FileTree Bool) t).2 = t := by
    intro t
    have hfile : (pathExists path : StateM FileTree Bool) t
        = (if t.isFile path = true then (Pure.pure true : StateM FileTree Bool)
          else Disk.isDirectory path) t := rfl
    rw [hfile]
    split <;> rfl
  exact .bind (keeps_lift hexists) fun _ => .ite (keeps_readJson _ path) (.pure _)

/-- A snapshot is written at its path, and directories along it. -/
theorem keeps_recordMethods {builds : List Build}
    (hmake : ∀ dir, parent? path = some dir →
      Keeps P (makeDirectories dir : Run (StateM FileTree) Unit))
    (hwrite : ∀ text, Keeps P (writeText path text : Run (StateM FileTree) Unit)) :
    Keeps P (recordMethods path builds : Run (StateM FileTree) Unit) := by
  refine .bind (keeps_loadMethodsIfAny path) fun map => ?_
  unfold saveMethods
  dsimp only
  split
  · rename_i dir hdir
    exact .ite (hwrite _) (.bind (hmake dir hdir) fun _ => hwrite _)
  · exact hwrite _

end

/-! ## Outputs apart from the registry -/

/-- The outputs of a configuration lie apart from the tables of its registry: no label leads out of
the registry, the registry is not among the code of a release, which is removed before it is written
again, and nothing else is written in the place of a table. -/
structure KeepsApart (c : Config) : Prop where
  labels : ∀ t ∈ c.targets, '/' ∉ t.release.toList
  code : ∀ t ∈ c.targets,
    ¬ placeOf c.output.codegen ++ [fileStem t.release] <+: placeOf c.output.registry
  paths : ∀ path ∈ c.output.codegen :: c.output.registry :: c.output.snapshot.toList,
    ∀ release, ¬ LeadsThrough path (tablePlace c.output.registry release)

variable {c : Config} {builds : List Build} {tables : String → Option ReleaseEntry}

theorem keeps_stores_recordMethods (h : ∀ release, ¬ LeadsThrough path (tablePlace dir release)) :
    Keeps (Stores dir tables) (recordMethods path builds : Run (StateM FileTree) Unit) := by
  refine keeps_stores fun release hrelease _ => ?_
  have hq : IsBelowRoot (tablePlace dir release) := isBelowRoot_tablePlace hrelease.notMem
  refine keeps_recordMethods (fun above habove => keeps_makeDirectories hq fun hleads => ?_)
    fun text => keeps_writeText text hq fun heq => ?_
  · exact h release (hleads.lengthen (prefix_of_parent? habove))
  · exact h release (heq ▸ leadsThrough_placeOf path)

/-- A snapshot that is written elsewhere leaves a registry as it can be loaded. -/
theorem keeps_isIndexed_recordMethods {index : RegistryIndex}
    (h : ∀ release, ¬ LeadsThrough path (tablePlace dir release)) :
    Keeps (IsIndexed dir index) (recordMethods path builds : Run (StateM FileTree) Unit) := by
  have hroot : IsBelowRoot (tablePlace dir "index") := isBelowRoot_tablePlace (by decide)
  intro t ht
  refine ⟨fun release hrelease => ?_, ?_⟩
  · have hname := (isEntry_append_json hrelease).namesDirectory_joinPath dir
    exact keeps_recordMethods (fun _ _ => keeps_place_makeDirectories hname)
      (fun text => keeps_place_writeText text hname) t (ht.reachable release hrelease)
  · have hleaves : Keeps (fun t => fileAt t (tablePlace dir "index") = some index.toJson.fileText)
        (recordMethods path builds : Run (StateM FileTree) Unit) :=
      keeps_recordMethods (fun above _ => leaves_iff.mp (leaves_makeDirectories above) _)
        fun text => leaves_iff.mp (leaves_writeText text hroot fun heq =>
          h "index" (heq ▸ leadsThrough_placeOf path)) _
    exact hleaves t ht.written

/-- The code of a run is written elsewhere than the tables. -/
theorem keeps_stores_writeRelease (hapart : KeepsApart c) {b : Build}
    (hb : b.label ∈ c.targets.map Target.release) :
    Keeps (Stores c.output.registry tables)
      (writeRelease c.output.codegen b : Run (StateM FileTree) Unit) := by
  obtain ⟨target, htarget, hlabel⟩ := List.mem_map.mp hb
  have hcode := hapart.code target htarget
  rw [hlabel] at hcode
  exact keeps_stores fun release hrelease _ => keeps_table_writeRelease hrelease.notMem hcode
    (hapart.paths _ List.mem_cons_self release)

theorem keeps_stores_writeRoot (hapart : KeepsApart c) (file : Generated.File) :
    Keeps (Stores c.output.registry tables)
      (writeFile c.output.codegen "lib.rs" file : Run (StateM FileTree) Unit) := by
  have hroot : IsFilePlace ["lib.rs"] :=
    isFilePlace_singleton ⟨"lib", ⟨by simp, by simp [Source.isIdentChar], by simp⟩, .inr rfl⟩
  exact keeps_stores fun release hrelease _ => keeps_table_writeFile hrelease.notMem hroot file
    (hapart.paths _ List.mem_cons_self release)

/-- **A run that writes its outputs leaves a registry with the tables of what it built, and with those
of the releases it did not build.** -/
theorem stored_of_writeOutputs (hapart : KeepsApart c)
    (hbuilds : ∀ b ∈ builds, b.label ∈ c.targets.map Target.release)
    (hstores : Stores c.output.registry tables t)
    (h : (writeOutputs c builds : Run (StateM FileTree) Unit).run t = (.ok (), t')) :
    ∃ index, Stores c.output.registry
        (fun release => (lastFor? (builds.map Build.registryEntry) release).or (tables release)) t'
      ∧ Lists (fun release => (lastFor? (builds.map Build.registryEntry) release).or (tables release))
        index
      ∧ IsIndexed c.output.registry index t' := by
  have hcodegen := hapart.paths c.output.codegen List.mem_cons_self
  have hregistry := hapart.paths c.output.registry (List.mem_cons_of_mem _ List.mem_cons_self)
  have hentries : ∀ e ∈ builds.map Build.registryEntry, '/' ∉ e.release.toList := by
    intro e he
    obtain ⟨b, hb, rfl⟩ := List.mem_map.mp he
    obtain ⟨target, htarget, hlabel⟩ := List.mem_map.mp (hbuilds b hb)
    have hrelease : b.registryEntry.release = b.label := rfl
    rw [hrelease, ← hlabel]
    exact hapart.labels target htarget
  obtain ⟨_, t₁, hmade, h⟩ := run_bind_eq_ok h
  obtain ⟨_, t₂, hcode, h⟩ := run_bind_eq_ok h
  obtain ⟨present, t₃, hpresent, h⟩ := run_bind_eq_ok h
  obtain ⟨_, t₄, hroot, h⟩ := run_bind_eq_ok h
  obtain ⟨_, t₅, hwritten, h⟩ := run_bind_eq_ok h
  obtain ⟨index, t₆, hwritten, hdone⟩ := run_bind_eq_ok hwritten
  cases hdone
  -- The code leaves the tables, and so do the methods that are written after them.
  have hmaking : Keeps (Stores c.output.registry tables)
      (makeDirectories c.output.codegen : Run (StateM FileTree) Unit) :=
    keeps_stores fun release hrelease _ =>
      keeps_makeDirectories (isBelowRoot_tablePlace hrelease.notMem) (hcodegen release)
  have hstores₂ := (Keeps.forM fun b hb => keeps_stores_writeRelease hapart (hbuilds b hb)).after
    hcode (hmaking.after hmade hstores)
  have hstores₄ := (keeps_stores_writeRoot hapart _).after hroot
    ((keeps_presentTargets c).after hpresent hstores₂)
  obtain ⟨hstores₅, hlists, hindexed⟩ := stored_of_writeRegistry hentries
    (fun release _ => hregistry release) hstores₄ hwritten
  split at h
  · rename_i path hpath
    have hsnapshot := hapart.paths path (by simp [hpath])
    exact ⟨index, (keeps_stores_recordMethods hsnapshot).after h hstores₅, hlists,
      (keeps_isIndexed_recordMethods hsnapshot).after h hindexed⟩
  · cases h
    exact ⟨index, hstores₅, hlists, hindexed⟩

/-! ## Histories -/

/-- What was built and written so far, and the tree that is left of it. A run may build any targets,
from documents that lie elsewhere; between two runs anything may change but the tables. -/
inductive History (c : Config) : List Build → FileTree → Prop
  | start {t : FileTree} : Stores c.output.registry (fun _ => none) t → History c [] t
  | run {written : List Build} {t t' u u' : FileTree} {wanted : List String}
      {results : BuildResults} : History c written t →
      (buildAll c wanted : Run (StateM FileTree) BuildResults).run u = (.ok results, u') →
      (writeOutputs c results.builds : Run (StateM FileTree) Unit).run t = (.ok (), t') →
      History c (written ++ results.builds) t'
  | other {written : List Build} {t t' : FileTree} : History c written t →
      (∀ release, IsLabel release → ∀ x, Holds (tablePlace c.output.registry release) x t →
        Holds (tablePlace c.output.registry release) x t') → History c written t'

/-- The last table of every release that was built. -/
def lastTables (written : List Build) (release : String) : Option ReleaseEntry :=
  lastFor? (written.map Build.registryEntry) release

theorem lastTables_append (written more : List Build) (release : String) :
    lastTables (written ++ more) release
      = (lastTables more release).or (lastTables written release) := by
  unfold lastTables
  rw [List.map_append, lastFor?_append]

theorem isSome_lastTables {written : List Build} :
    (lastTables written release).isSome = true ↔ release ∈ written.map Build.label := by
  unfold lastTables
  rw [isSome_lastFor?, List.map_map]
  rfl

variable {written : List Build} {wanted : List String} {results : BuildResults} {u u' : FileTree}

theorem labels_of_buildAll (hc : Config.KeepsLabels c.releases)
    (h : (buildAll c wanted : Run (StateM FileTree) BuildResults).run u = (.ok results, u')) :
    ∀ b ∈ results.builds, b.label ∈ c.targets.map Target.release := fun _ hb =>
  (labels_buildAll hc h).subset (List.mem_map_of_mem hb)

/-- **Through a history the registry holds the last table of every release that was built**, by
induction on the runs. -/
theorem History.stores (hc : Config.KeepsLabels c.releases) (hapart : KeepsApart c)
    (h : History c written t) : Stores c.output.registry (lastTables written) t := by
  induction h with
  | start hnone => exact hnone
  | run _ hbuilt hwritten ih =>
    obtain ⟨_, hstores, -⟩ := stored_of_writeOutputs hapart (labels_of_buildAll hc hbuilt) ih hwritten
    intro release hrelease
    rw [lastTables_append]
    exact hstores release hrelease
  | other _ hkept ih => exact fun release hrelease => hkept release hrelease _ (ih release hrelease)

theorem History.labels (hc : Config.KeepsLabels c.releases) (h : History c written t) :
    ∀ b ∈ written, b.label ∈ c.targets.map Target.release := by
  induction h with
  | start _ => simp
  | run _ hbuilt _ ih =>
    intro b hb
    rcases List.mem_append.mp hb with hb | hb
    · exact ih b hb
    · exact labels_of_buildAll hc hbuilt b hb
  | other _ _ ih => exact ih

/-- **After every run the registry can be loaded.** It gives every release that was built so far, as
it was built last, and its index lists exactly these, each once; but a release has no table of its own
whose label is empty or that of the index. -/
theorem loadRegistry_of_history {text base : String} {c : Config}
    (hc : Config.ofText text = .ok c) (hapart : KeepsApart (c.rebase base))
    (h : History (c.rebase base) written t)
    (hbuilt : (buildAll (c.rebase base) wanted : Run (StateM FileTree) BuildResults).run u
      = (.ok results, u'))
    (hwritten : (writeOutputs (c.rebase base) results.builds : Run (StateM FileTree) Unit).run t
      = (.ok (), t')) :
    ∃ registry : Registry,
      (loadRegistry (c.rebase base).output.registry
        : ExceptT LoadError (StateM FileTree) Registry).run t' = (.ok registry, t')
      ∧ registry.index.releases.Nodup
      ∧ (∀ release, release ∈ registry.index.releases
        ↔ release ∈ (written ++ results.builds).map Build.label ∧ release ≠ "" ∧ release ≠ "index")
      ∧ ∀ release e, registry.releases.get? release = some e
        ↔ release ∈ registry.index.releases
          ∧ lastTables (written ++ results.builds) release = some e := by
  have hconfig : Config.KeepsLabels c.releases := Config.keepsLabels_of_ofText hc
  have hlabels : Config.KeepsLabels (c.rebase base).releases := hconfig
  obtain ⟨index, hstores, hlists, hindexed⟩ := stored_of_writeOutputs hapart
    (labels_of_buildAll hlabels hbuilt) (h.stores hlabels hapart) hwritten
  have hlast : (fun release => (lastFor? (results.builds.map Build.registryEntry) release).or
      (lastTables written release)) = lastTables (written ++ results.builds) :=
    funext fun release => (lastTables_append written results.builds release).symm
  rw [hlast] at hstores hlists
  obtain ⟨registry, hload, rfl, hget⟩ := run_loadRegistry (fun _ _ => release_of_lastFor?) hstores
    hlists hindexed
  refine ⟨registry, hload, hlists.nodup, fun release => ?_, hget⟩
  rw [hlists.mem_iff, isSome_lastTables]
  constructor
  · rintro ⟨hlabel, hbuild⟩
    exact ⟨hbuild, hlabel.ne_empty, hlabel.ne_index⟩
  · rintro ⟨hbuild, hempty, hindex⟩
    -- Whatever was built is named as a target, and so leads nowhere else.
    obtain ⟨b, hb, rfl⟩ := List.mem_map.mp hbuild
    have htarget : b.label ∈ (c.rebase base).targets.map Target.release :=
      (History.run h hbuilt hwritten).labels hlabels b hb
    obtain ⟨target, htarget, hlabel⟩ := List.mem_map.mp htarget
    exact ⟨⟨hempty, hindex, hlabel ▸ hapart.labels target htarget⟩, hbuild⟩

/-- Two releases, one with the label of the index. -/
def indexTargets : String :=
  "output\x7bcodegen src;registry reg\x7d
target index schema=s
target a schema=s
release index\x7bversion x;preferred-versions;deprecations\x7d
release a\x7bversion y;preferred-versions;deprecations\x7d"

/-- The configuration of two releases, one with the label of the index. -/
def indexConfig : Config where
  output := ⟨"src", "reg", none⟩
  configuredDefault := none
  targets := [⟨"index", "s"⟩, ⟨"a", "s"⟩]
  releases := .ofList
    [("index", ⟨"index", "x", "v1", Table.empty, Table.empty⟩),
      ("a", ⟨"a", "y", "v1", Table.empty, Table.empty⟩)]

deriving instance DecidableEq for ReleaseConfig
deriving instance DecidableEq for Config

theorem ofText_indexTargets : Config.ofText indexTargets = .ok indexConfig := by decide +kernel

/-- A document without definitions. -/
def emptySchema : FileTree where
  files := .ofList [("s", "\x7b\x7d")]

/-- All targets are built and written, and then one of them again. -/
def twoRuns : Run (StateM FileTree) Unit := do
  let all ← buildAll indexConfig []
  writeOutputs indexConfig all.builds
  let one ← buildAll indexConfig ["a"]
  writeOutputs indexConfig one.builds

theorem length_tablePlace_reg (release : String) : (tablePlace "reg" release).length = 2 := by
  have hplace : (placeOf "reg").length = 1 := by decide +kernel
  rw [tablePlace, List.length_append, hplace]
  rfl

theorem keepsApart_indexConfig : KeepsApart (indexConfig.rebase "") := by
  refine ⟨by decide, by decide +kernel, fun path hpath release hleads => ?_⟩
  -- The tables are deeper than the outputs.
  have hparts : ∀ path ∈ ["src", "reg"], (partsOf path).length = 1 := by decide +kernel
  have hlength := hleads.length_le
  rw [hparts path hpath] at hlength
  exact absurd ((length_tablePlace_reg release).symm.trans_le hlength) (by decide)

theorem stores_emptySchema : Stores "reg" (fun _ => none) emptySchema := by
  refine fun release hlabel => ⟨?_, rfl⟩
  have hone : IsBelowRoot ["s"] := ⟨by decide, by simpa using ⟨by decide, by decide⟩⟩
  have hkey : key (tablePlace "reg" release) ≠ "s" := by
    intro heq
    have hs : key ["s"] = "s" := by decide
    have hplace := key_inj (isBelowRoot_tablePlace hlabel.notMem) hone (heq.trans hs.symm)
    have hlength := congrArg List.length hplace
    rw [length_tablePlace_reg] at hlength
    exact absurd hlength (by decide)
  have hget : fileAt emptySchema (tablePlace "reg" release)
      = if key (tablePlace "reg" release) = "s" then some "\x7b\x7d" else none := Table.get?_insert
  rw [hget, if_neg hkey]
  rfl

theorem loadRegistry_of_history_index : ∃ (t' : FileTree) (registry : Registry),
    twoRuns.run emptySchema = (.ok (), t')
      ∧ (loadRegistry "reg" : ExceptT LoadError (StateM FileTree) Registry).run t'
        = (.ok registry, t')
      ∧ ∀ release, release ∈ registry.index.releases ↔ release = "a" := by
  have hrun : (twoRuns.run emptySchema).1.toOption.isSome = true := by decide +kernel
  have hlabels : ((buildAll (indexConfig.rebase "") [] : Run (StateM FileTree) BuildResults).run
      emptySchema).1.toOption.map (fun results => results.builds.map Build.label)
        = some ["index", "a"] := by decide +kernel
  have hrebase : indexConfig = indexConfig.rebase "" := by decide +kernel
  rcases htwo : twoRuns.run emptySchema with ⟨_ | _, t'⟩
  · rw [htwo] at hrun
    cases hrun
  · obtain ⟨all, t₁, hall, hthen⟩ := run_bind_eq_ok htwo
    obtain ⟨_, t₂, hfirst, hthen⟩ := run_bind_eq_ok hthen
    obtain ⟨one, t₃, hone, hlast⟩ := run_bind_eq_ok hthen
    rw [hrebase] at hall hfirst hone hlast
    rw [hall] at hlabels
    -- Building changes nothing, so each run starts where the one before it ended.
    obtain rfl : t₁ = emptySchema := (keeps_buildAll (P := (· = emptySchema)) _ _).after hall rfl
    obtain rfl : t₃ = t₂ := (keeps_buildAll (P := (· = t₂)) _ _).after hone rfl
    have hhistory : History (indexConfig.rebase "") ([] ++ all.builds) t₃ :=
      .run (.start stores_emptySchema) hall hfirst
    obtain ⟨registry, hload, -, hmem, -⟩ := loadRegistry_of_history ofText_indexTargets
      keepsApart_indexConfig hhistory hone hlast
    refine ⟨t', registry, rfl, hload, fun release => ?_⟩
    have hbuilt : all.builds.map Build.label = ["index", "a"] := by
      simpa [Except.toOption] using hlabels
    rw [hmem]
    constructor
    · rintro ⟨hbuild, -, hindex⟩
      obtain ⟨b, hb, rfl⟩ := List.mem_map.mp hbuild
      have htargets : indexConfig.targets.map Target.release = ["index", "a"] := rfl
      have hlabel := (History.run hhistory hone hlast).labels
        (Config.keepsLabels_of_ofText ofText_indexTargets) b hb
      rw [htargets] at hlabel
      simpa [hindex] using hlabel
    · rintro rfl
      simp [hbuilt]

end ApiModels.Workspace
