import ApiModels.Proofs.OutputPaths
import ApiModels.Workspace.Inputs
import ApiModels.Workspace.Outputs

/-!
# Releases as they are written

A target is built from the block of its release, which the configuration keeps by its label, so what
is built is named as the target says. To clear or write a release leaves every file of one with
another stem, wherever the code goes and however the run ends. So where no two releases have one
stem, all that is written is there in the end.
-/

namespace ApiModels

namespace Config

variable {α : Type}

/-! ## Labels -/

/-- A table of releases by their labels. -/
def KeepsLabels (releases : Table ReleaseConfig) : Prop :=
  ∀ label r, releases.get? label = some r → r.label = label

theorem KeepsLabels.insert {releases : Table ReleaseConfig} (h : KeepsLabels releases)
    (r : ReleaseConfig) : KeepsLabels (releases.insert r.label r) := by
  intro label r' hr'
  rw [Table.get?_insert] at hr'
  split at hr'
  · cases hr'
    exact Eq.symm ‹_›
  · exact h label r' hr'

theorem Draft.keepsLabels_add {d d' : Draft} {n : Kdl.Node} (hd : KeepsLabels d.releases)
    (h : d.add n = .ok d') : KeepsLabels d'.releases := by
  unfold Draft.add at h
  split at h
  · split at h
    · cases h
    · obtain ⟨_, -, h⟩ := bind_eq_ok h
      cases h
      exact hd
  · obtain ⟨_, -, h⟩ := bind_eq_ok h
    cases h
    exact hd
  · obtain ⟨_, -, h⟩ := bind_eq_ok h
    cases h
    exact hd
  · obtain ⟨r, -, h⟩ := bind_eq_ok h
    split at h
    · cases h
    · cases h
      exact hd.insert r
  · cases h

theorem Draft.keepsLabels_foldlM {nodes : List Kdl.Node} {d d' : Draft}
    (hd : KeepsLabels d.releases) (h : nodes.foldlM Draft.add d = .ok d') :
    KeepsLabels d'.releases := by
  induction nodes generalizing d with
  | nil =>
    cases h
    exact hd
  | cons n nodes ih =>
    rw [List.foldlM_cons] at h
    obtain ⟨d₁, hadd, h⟩ := bind_eq_ok h
    exact ih (keepsLabels_add hd hadd) h

theorem keepsLabels_of_ofText {text : String} {c : Config} (h : ofText text = .ok c) :
    KeepsLabels c.releases := by
  unfold ofText at h
  obtain ⟨nodes, -, h⟩ := bind_eq_ok h
  obtain ⟨d, hd, h⟩ := bind_eq_ok h
  obtain ⟨output, -, h⟩ := bind_eq_ok h
  cases h
  exact Draft.keepsLabels_foldlM (by intro label r hr; cases hr) hd

/-- A build of a target: from the block of its release, and whatever document was read for it. -/
def IsBuildOf (c : Config) (t : Target) (b : Build) : Prop :=
  t ∈ c.targets ∧ ∃ r doc, c.releaseConfig t.release = .ok r ∧ b = Build.ofDocument r doc

theorem IsBuildOf.label_eq {c : Config} {t : Target} {b : Build} (h : c.IsBuildOf t b)
    (hc : KeepsLabels c.releases) : b.label = t.release := by
  obtain ⟨-, r, doc, hr, rfl⟩ := h
  unfold releaseConfig at hr
  split at hr
  · rename_i hget
    cases hr
    exact hc t.release r hget
  · cases hr

end Config

namespace Workspace

open Config (IsBuildOf KeepsLabels)
open Files FileTree
open Generated (files fileText IsOf IsFilePlace exists_place_of_mem_keys isFilePlace_singleton)
open Source (fileStem IsPlain isPlain_fileStem)

variable {p : Place}

/-! ## Reading -/

theorem keepsLabels_of_loadConfig {path : String} {c : Config} {t t' : FileTree}
    (h : (loadConfig path : Run (StateM FileTree) Config).run t = (.ok c, t')) :
    KeepsLabels c.releases := by
  unfold loadConfig at h
  obtain ⟨text, t₁, -, h⟩ := run_bind_eq_ok h
  split at h
  · rename_i c' hc'
    cases h
    exact Config.keepsLabels_of_ofText (c := c') hc'
  · cases h

theorem run_ofExcept_eq_ok {α : Type} {r : Except Failure α} {a : α} {t t' : FileTree}
    (h : (MonadExcept.ofExcept r : Run (StateM FileTree) α).run t = (.ok a, t')) : r = .ok a := by
  cases r with
  | error e => cases h
  | ok a' =>
    cases h
    rfl

theorem isBuildOf_of_buildRelease {c : Config} {release : String} {b : Build} {t t' : FileTree}
    (h : (buildRelease c release : Run (StateM FileTree) Build).run t = (.ok b, t')) :
    ∃ u : Target, u.release = release ∧ c.IsBuildOf u b := by
  obtain ⟨u, t₁, hu, h⟩ := run_bind_eq_ok h
  obtain ⟨r, t₂, hr, h⟩ := run_bind_eq_ok h
  obtain ⟨doc, t₃, -, h⟩ := run_bind_eq_ok h
  have htarget := run_ofExcept_eq_ok hu
  unfold Config.target at htarget
  split at htarget
  · rename_i hfind
    cases htarget
    have hrelease : u.release = release := by simpa using List.find?_some hfind
    cases h
    refine ⟨u, hrelease, List.mem_of_find?_eq_some hfind, r, doc, ?_, rfl⟩
    rw [hrelease]
    exact run_ofExcept_eq_ok hr
  · cases htarget

/-- What holds of the result of each step, wherever it starts, holds of all results. -/
theorem forall₂_mapM {σ α β : Type} {f : α → StateM σ β} {R : α → β → Prop}
    (h : ∀ a t, R a (f a t).1) (l : List α) (t : σ) : List.Forall₂ R l (l.mapM f t).1 := by
  induction l generalizing t with
  | nil => exact .nil
  | cons a l ih =>
    rw [List.mapM_cons]
    exact .cons (h a t) (ih _)

theorem labels_ofList {releases : List String} {rs : List (String × Except Failure Build)}
    (h : List.Forall₂ (fun release r => ∀ b, r.2 = .ok b → b.label = release) releases rs) :
    ((BuildResults.ofList rs).builds.map Build.label).Sublist releases := by
  unfold BuildResults.ofList
  dsimp only
  induction h with
  | nil => exact .slnil
  | @cons release r releases rs hr hmore ih =>
    obtain ⟨_, _ | b⟩ := r
    · exact ih.cons release
    · obtain rfl : b.label = release := hr b rfl
      exact ih.cons_cons b.label

/-- What is built of the targets is named as they are, in their order. -/
theorem labels_buildAll {c : Config} (hc : KeepsLabels c.releases) {wanted : List String}
    {results : BuildResults} {t t' : FileTree}
    (h : (buildAll c wanted : Run (StateM FileTree) BuildResults).run t = (.ok results, t')) :
    (results.builds.map Build.label).Sublist (c.targets.map Target.release) := by
  obtain ⟨_, t₁, -, h⟩ := run_bind_eq_ok h
  obtain ⟨rs, t₂, hrs, h⟩ := run_bind_eq_ok h
  cases h
  have hall : List.Forall₂ (fun release r => ∀ b, r.2 = .ok b → b.label = release)
      (c.selected wanted) rs := by
    have hresults := forall₂_mapM (R := fun release r => ∀ b, r.2 = .ok b → b.label = release)
      (f := fun release => (do
        return (release, ← (buildRelease (m := StateM FileTree) c release).run) : StateM FileTree _))
      (fun release t b hb => ?_) (c.selected wanted) t₁
    · cases hrs
      exact hresults
    · have hrun : (buildRelease c release : Run (StateM FileTree) Build).run t
          = (.ok b, ((buildRelease c release : Run (StateM FileTree) Build).run t).2) :=
        Prod.ext hb rfl
      obtain ⟨u, hu, hbuild⟩ := isBuildOf_of_buildRelease hrun
      rw [hbuild.label_eq hc, hu]
  exact (labels_ofList hall).trans List.filter_sublist

/-! ## Writing -/

theorem keeps_clearRelease {P : FileTree → Prop} {codegen stem : String}
    (hdir : Keeps P (onFile (joinPath codegen stem) (Disk.removeDirectory (joinPath codegen stem))
      : Run (StateM FileTree) Unit))
    (hfile : Keeps P (onFile (joinPath codegen (stem ++ ".rs"))
      (Disk.removeFile (joinPath codegen (stem ++ ".rs"))) : Run (StateM FileTree) Unit)) :
    Keeps P (clearRelease codegen stem) := by
  unfold clearRelease
  dsimp only
  have hrest := Keeps.bind (.query (FileTree.isFile · (joinPath codegen (stem ++ ".rs"))))
    fun isFile => Keeps.ite (c := isFile = true) hfile (.pure ())
  exact .bind (.query _) fun _ => .ite (.bind hdir fun _ => hrest) hrest

theorem keeps_writeFile {P : FileTree → Prop} {codegen path : String} {file : Generated.File}
    (hmake : ∀ dir, parent? (joinPath codegen path) = some dir →
      Keeps P (makeDirectories dir : Run (StateM FileTree) Unit))
    (hwrite : Keeps P (writeText (joinPath codegen path) (fileText file)
      : Run (StateM FileTree) Unit)) : Keeps P (writeFile codegen path file) := by
  unfold writeFile
  dsimp only
  split
  · rename_i dir hdir
    exact .bind (hmake dir hdir) fun _ => hwrite
  · exact hwrite

theorem mem_keys_of_mem_orderedFiles {b : Build} {f : String × Generated.File}
    (h : f ∈ orderedFiles b) : f.1 ∈ (files b).keys :=
  List.mem_map_of_mem (List.mem_mergeSort.mp h)

/-- To write a release is to clear it and then write files at places of its own. -/
theorem keeps_writeRelease {P : FileTree → Prop} {codegen : String} {b : Build}
    (hclear : Keeps P (clearRelease codegen (fileStem b.label)))
    (hwrite : ∀ p, IsOf (fileStem b.label) p → IsFilePlace p →
      ∀ file, Keeps P (writeFile codegen (key p) file)) : Keeps P (writeRelease codegen b) := by
  refine .bind hclear fun _ => .forM fun f hf => ?_
  obtain ⟨p, hkey, hof, hp⟩ := exists_place_of_mem_keys (mem_keys_of_mem_orderedFiles hf)
  rw [← hkey]
  exact hwrite p hof hp f.2

theorem leaves_clearRelease (codegen : String) {stem : String} (hstem : IsPlain stem)
    (hp : IsFilePlace p) (h : ¬ IsOf stem p) :
    Leaves (placeOf codegen ++ p) (clearRelease codegen stem) := by
  have hdir : IsFilePlace [stem] := isFilePlace_singleton ⟨stem, hstem, .inl rfl⟩
  have hfile : IsFilePlace [stem ++ ".rs"] := isFilePlace_singleton ⟨stem, hstem, .inr rfl⟩
  have hdirAt : placeOf (joinPath codegen stem) = placeOf codegen ++ [stem] :=
    hdir.placeOf_joinPath codegen
  have hfileAt : placeOf (joinPath codegen (stem ++ ".rs")) = placeOf codegen ++ [stem ++ ".rs"] :=
    hfile.placeOf_joinPath codegen
  have hremove : Leaves (placeOf codegen ++ p)
      (onFile (joinPath codegen stem) (Disk.removeDirectory (joinPath codegen stem))
        : Run (StateM FileTree) Unit) := by
    refine leaves_removeDirectory (hp.isBelowRoot_append codegen) (hdir.placeOf_ne_nil codegen) ?_
    rw [hdirAt, List.prefix_append_right_inj]
    exact fun hunder => h (.inr hunder)
  have hremoveFile : Leaves (placeOf codegen ++ p)
      (onFile (joinPath codegen (stem ++ ".rs")) (Disk.removeFile (joinPath codegen (stem ++ ".rs")))
        : Run (StateM FileTree) Unit) := by
    refine leaves_removeFile (hp.isBelowRoot_append codegen) (hfile.placeOf_ne_nil codegen) ?_
    rw [hfileAt]
    exact fun heq => h (.inl (List.append_cancel_left heq))
  exact leaves_iff.mpr fun x =>
    keeps_clearRelease (leaves_iff.mp hremove x) (leaves_iff.mp hremoveFile x)

theorem leaves_writeFile (codegen : String) (file : Generated.File) {q : Place}
    (hp : IsFilePlace p) (hq : IsFilePlace q) (h : p ≠ q) :
    Leaves (placeOf codegen ++ p) (writeFile codegen (key q) file) := by
  have hwrite : Leaves (placeOf codegen ++ p)
      (writeText (joinPath codegen (key q)) (fileText file) : Run (StateM FileTree) Unit) := by
    refine leaves_writeText _ (hp.isBelowRoot_append codegen) ?_
    rw [hq.placeOf_joinPath]
    exact fun heq => h (List.append_cancel_left heq)
  exact leaves_iff.mpr fun x => keeps_writeFile
    (fun dir _ => leaves_iff.mp (leaves_makeDirectories dir) x) (leaves_iff.mp hwrite x)

/-- A release is written without a change to the files of others. -/
theorem leaves_writeRelease (codegen : String) {b : Build} (hp : IsFilePlace p)
    (h : ¬ IsOf (fileStem b.label) p) : Leaves (placeOf codegen ++ p) (writeRelease codegen b) := by
  have hclear := leaves_clearRelease codegen (isPlain_fileStem _) hp h
  refine leaves_iff.mpr fun x => keeps_writeRelease (leaves_iff.mp hclear x) fun q hof hq file => ?_
  exact leaves_iff.mp (leaves_writeFile codegen file hp hq fun heq => h (heq ▸ hof)) x

/-- The place of a file of one release, seen from a release with another stem. -/
theorem exists_place_apart {b b' : Build} {path : String} (hpath : path ∈ (files b').keys)
    (hne : fileStem b.label ≠ fileStem b'.label) (codegen : String) :
    ∃ p, placeOf (joinPath codegen path) = placeOf codegen ++ p ∧ IsFilePlace p
      ∧ ¬ IsOf (fileStem b.label) p := by
  obtain ⟨p, rfl, hof, hp⟩ := exists_place_of_mem_keys hpath
  exact ⟨p, hp.placeOf_joinPath codegen, hp, fun hof' =>
    hne (hof'.unique (isPlain_fileStem _) (isPlain_fileStem _) hof)⟩

/-! ## What is written -/

/-- A file of code is there. -/
def IsWritten (codegen : String) (f : String × Generated.File) (t : FileTree) : Prop :=
  fileAt t (placeOf (joinPath codegen f.1)) = some (fileText f.2)

theorem isWritten_of_writeFile {codegen : String} {f : String × Generated.File} {t t' : FileTree}
    (h : (writeFile codegen f.1 f.2 : Run (StateM FileTree) Unit).run t = (.ok (), t')) :
    IsWritten codegen f t' := by
  unfold writeFile at h
  dsimp only at h
  split at h
  · obtain ⟨_, t₁, -, h⟩ := run_bind_eq_ok h
    exact writeText_run_eq_ok h
  · exact writeText_run_eq_ok h

/-- A release that was written is there, file by file. -/
theorem isWritten_of_writeRelease {codegen : String} {b : Build} {t t' : FileTree}
    (h : (writeRelease codegen b : Run (StateM FileTree) Unit).run t = (.ok (), t')) :
    ∀ f ∈ (files b).entries, IsWritten codegen f t' := by
  obtain ⟨_, t₁, -, h⟩ := run_bind_eq_ok h
  -- The order of writing is not that of the table, but no path is written twice in either.
  have hdistinct : (orderedFiles b).Pairwise fun f g => f.1 ≠ g.1 :=
    ((List.mergeSort_perm _ _).pairwise_iff fun hne => hne.symm).mpr
      ((files b).sorted.imp fun hlt => String.ne_of_lt hlt)
  have hkeep : (orderedFiles b).Pairwise fun f g => ∀ t, IsWritten codegen f t →
      IsWritten codegen f ((writeFile codegen g.1 g.2 : Run (StateM FileTree) Unit).run t).2 := by
    refine hdistinct.imp_of_mem fun {f g} hf hg hne t hwritten => ?_
    obtain ⟨p, hp, -, hplace⟩ := exists_place_of_mem_keys (mem_keys_of_mem_orderedFiles hf)
    obtain ⟨q, hq, -, hplace'⟩ := exists_place_of_mem_keys (mem_keys_of_mem_orderedFiles hg)
    have hkept := leaves_writeFile codegen g.2 hplace hplace'
      (fun heq => hne (by rw [← hp, ← hq, heq])) t
    rw [← hplace.placeOf_joinPath, hp, hq] at hkept
    exact hkept.trans hwritten
  intro f hf
  exact forM_run_eq_ok (fun f _ t t' => isWritten_of_writeFile) hkeep h f
    (List.mem_mergeSort.mpr hf)

/-- **Where no two releases have one stem, every file of every one of them is there in the end.** -/
theorem isWritten_of_distinct {codegen : String} {builds : List Build} {t t' : FileTree}
    (hdistinct : builds.Pairwise fun b b' => fileStem b.label ≠ fileStem b'.label)
    (h : (builds.forM (writeRelease codegen) : Run (StateM FileTree) Unit).run t = (.ok (), t')) :
    ∀ b ∈ builds, ∀ f ∈ (files b).entries, IsWritten codegen f t' := by
  refine forM_run_eq_ok (fun b _ t t' => isWritten_of_writeRelease) ?_ h
  refine hdistinct.imp fun {b b'} hne t hwritten f hf => ?_
  obtain ⟨p, hplace, hp, hapart⟩ :=
    exists_place_apart (List.mem_map_of_mem hf) hne.symm codegen
  have hkept := leaves_writeRelease codegen hp hapart t
  rw [← hplace] at hkept
  exact hkept.trans (hwritten f hf)

/-- **Where no two targets have one stem, all that is built of them is there once it is written.** -/
theorem isWritten_of_targets {c : Config} (hc : KeepsLabels c.releases)
    (hdistinct : (c.targets.map fun t => fileStem t.release).Nodup) {wanted : List String}
    {results : BuildResults} {t t' : FileTree}
    (hbuilt : (buildAll c wanted : Run (StateM FileTree) BuildResults).run t = (.ok results, t'))
    {codegen : String} {u u' : FileTree}
    (h : (results.builds.forM (writeRelease codegen) : Run (StateM FileTree) Unit).run u
      = (.ok (), u')) :
    ∀ b ∈ results.builds, ∀ f ∈ (files b).entries, IsWritten codegen f u' := by
  have hstems : (c.targets.map Target.release).Pairwise fun r r' => fileStem r ≠ fileStem r' :=
    List.pairwise_map.mpr (List.pairwise_map.mp hdistinct)
  have hlabels : (results.builds.map Build.label).Pairwise fun r r' => fileStem r ≠ fileStem r' :=
    hstems.sublist (labels_buildAll hc hbuilt)
  have hbuilds : results.builds.Pairwise fun b b' => fileStem b.label ≠ fileStem b'.label :=
    (List.pairwise_map (f := Build.label)).mp hlabels
  exact isWritten_of_distinct hbuilds h

/-- **What the files of targets share, their names share.** A build has a file and three for each of
its versions if no two of them have one stem. Its files are those of no other target, and not that of
the crate root, if the stem of its release is neither that target's nor the crate root's. Then to
clear or write it changes no file of the other. Once it is written, all its files are there. -/
theorem outputs_of_targets {path : String} {c : Config} {tree tree' : FileTree}
    (hc : (loadConfig path : Run (StateM FileTree) Config).run tree = (.ok c, tree'))
    {t t' : Target} {b b' : Build} (hb : c.IsBuildOf t b) (hb' : c.IsBuildOf t' b') :
    ((files b).entries.length = 1 + 3 * b.model.versions.length
        ↔ ∀ v ∈ b.model.versions, ∀ w ∈ b.model.versions, fileStem v = fileStem w → v = w)
      ∧ ("lib.rs" ∈ (files b).keys ↔ fileStem t.release = "lib")
      ∧ ((files b).keys.Disjoint (files b').keys ↔ fileStem t.release ≠ fileStem t'.release)
      ∧ (fileStem t.release ≠ fileStem t'.release → ∀ codegen, ∀ path ∈ (files b').keys,
        Leaves (placeOf (joinPath codegen path)) (clearRelease codegen (fileStem t.release))
          ∧ Leaves (placeOf (joinPath codegen path)) (writeRelease codegen b))
      ∧ ∀ codegen s s', (writeRelease codegen b : Run (StateM FileTree) Unit).run s = (.ok (), s') →
        ∀ f ∈ (files b).entries, IsWritten codegen f s' := by
  have hlabels := keepsLabels_of_loadConfig hc
  have hlabel := hb.label_eq hlabels
  have hlabel' := hb'.label_eq hlabels
  rw [← hlabel, ← hlabel']
  have hlength : (files b).entries.length = (files b).keys.length := (List.length_map _).symm
  rw [hlength]
  refine ⟨Generated.length_keys_files_eq_iff, Generated.lib_mem_keys_files_iff,
    Generated.disjoint_keys_files_iff, fun hne codegen path hpath => ?_,
    fun codegen s s' hwritten => isWritten_of_writeRelease hwritten⟩
  obtain ⟨p, hplace, hp, hapart⟩ := exists_place_apart hpath hne codegen
  rw [hplace]
  exact ⟨leaves_clearRelease codegen (isPlain_fileStem _) hp hapart,
    leaves_writeRelease codegen hp hapart⟩

/-- Two targets whose releases have one stem, that of the crate root. -/
def twoTargets : FileTree where
  files := .ofList [("keel.kdl", "output\x7bcodegen out;registry tables\x7d
target lib schema=a
target Lib schema=b
release lib\x7bversion a;preferred-versions;deprecations\x7d
release Lib\x7bversion b;preferred-versions;deprecations\x7d")]

theorem loadConfig_twoTargets :
    ((loadConfig "keel.kdl" : Run (StateM FileTree) Config).run twoTargets).1.toOption.map
      (fun c => (c.targets, (c.releases.get? "lib").isSome, (c.releases.get? "Lib").isSome))
      = some ([⟨"lib", "a"⟩, ⟨"Lib", "b"⟩], true, true) := by decide +kernel

/-- A definition and an operation, of two versions with one stem. -/
def widgetVersions : Swagger.Document where
  definitions :=
    [("io.example.v1.Widget", .mk { kinds := [⟨"example.io", "v1", "Widget"⟩] } [] none none)]
  paths :=
    [("/apis/example.io/V1/widgets",
      { operations := [(.get, { kind := some ⟨"example.io", "V1", "Widget"⟩ })] })]

theorem outputs_of_targets_alike : ∃ c tree b b',
    (loadConfig "keel.kdl" : Run (StateM FileTree) Config).run twoTargets = (.ok c, tree)
      ∧ c.IsBuildOf ⟨"lib", "a"⟩ b ∧ c.IsBuildOf ⟨"Lib", "b"⟩ b'
      ∧ b.model.versions = ["V1", "v1"] ∧ (files b).entries.length ≠ 7
      ∧ "lib.rs" ∈ (files b).keys ∧ ¬ (files b).keys.Disjoint (files b').keys := by
  -- The stems are those of the names in lower case.
  have hstem (s lower : String) (h : s.toLower = lower) :
      fileStem s = (Source.Ident.ofName lower).text := by rw [fileStem, Source.Ident.ofModule, h]
  have hlib : fileStem "lib" = "lib" := (hstem "lib" "lib" (by decide +kernel)).trans (by decide)
  have hLib : fileStem "Lib" = "lib" := (hstem "Lib" "lib" (by decide +kernel)).trans (by decide)
  have hversion : fileStem "V1" = fileStem "v1" :=
    (hstem "V1" "v1" (by decide +kernel)).trans (hstem "v1" "v1" (by decide +kernel)).symm
  have hread := loadConfig_twoTargets
  rcases hrun : (loadConfig "keel.kdl" : Run (StateM FileTree) Config).run twoTargets
    with ⟨_ | c, tree⟩
  · rw [hrun] at hread
    cases hread
  · rw [hrun] at hread
    obtain ⟨htargets, hfirst, hsecond⟩ : c.targets = [⟨"lib", "a"⟩, ⟨"Lib", "b"⟩]
        ∧ (c.releases.get? "lib").isSome = true ∧ (c.releases.get? "Lib").isSome = true := by
      simpa [Except.toOption] using hread
    obtain ⟨r, hr⟩ := Option.isSome_iff_exists.mp hfirst
    obtain ⟨r', hr'⟩ := Option.isSome_iff_exists.mp hsecond
    have hb : c.IsBuildOf ⟨"lib", "a"⟩ (Build.ofDocument r widgetVersions) :=
      ⟨by rw [htargets]; decide, r, widgetVersions, by rw [Config.releaseConfig, hr], rfl⟩
    have hb' : c.IsBuildOf ⟨"Lib", "b"⟩ (Build.ofDocument r' widgetVersions) :=
      ⟨by rw [htargets]; decide, r', widgetVersions, by rw [Config.releaseConfig, hr'], rfl⟩
    have hversions : (Build.ofDocument r widgetVersions).model.versions = ["V1", "v1"] := by
      have hmodel :
          (Build.ofDocument r widgetVersions).model = (Ingest.ingest r.label widgetVersions).1 := rfl
      rw [hmodel, keepsLabels_of_loadConfig hrun _ r hr]
      decide +kernel
    obtain ⟨hcount, hroot, hdisjoint, -⟩ := outputs_of_targets hrun hb hb'
    rw [hversions] at hcount
    refine ⟨c, tree, _, _, rfl, hb, hb', hversions, fun hseven => ?_, hroot.mpr hlib, fun hapart =>
      hdisjoint.mp hapart (hlib.trans hLib.symm)⟩
    have hsame := hcount.mp hseven "V1" (by decide) "v1" (by decide) hversion
    exact absurd hsame (by decide)

end Workspace

end ApiModels
