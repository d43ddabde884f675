import ApiModels.Generated.Module
import ApiModels.Proofs.FileTrees
import ApiModels.Proofs.Identifiers
import ApiModels.Proofs.References
import Mathlib.Data.List.Dedup

/-!
# Where releases are written

The files of a release are named for its label, and those of a version for the version, both in
lower case and with an underscore for whatever an identifier cannot hold. What two names have in
common after that, they share: two versions are one set of files, two releases one directory, and a
release named for the crate root is written over by it. Names that stay apart have files that stay
apart.
-/

namespace ApiModels

namespace Source

theorem isPlain_fileStem (s : String) : IsPlain (fileStem s) := isPlain_text_ofName s.toLower

/-- A character that no identifier can hold is not in a plain text. -/
theorem IsPlain.notMem {s : String} (h : IsPlain s) {c : Char} (hc : isIdentChar c = false) :
    c ∉ s.toList := by
  intro hmem
  rw [h.chars c hmem] at hc
  cases hc

end Source

namespace Generated

open Files FileTree
open Source (fileStem IsPlain isPlain_fileStem)

/-! ## Names of files -/

/-- A name that code is written under: that of a module, or of the file of one. -/
def IsFileName (name : String) : Prop := ∃ stem, IsPlain stem ∧ (name = stem ∨ name = stem ++ ".rs")

theorem isName_of_isPlain {stem : String} (h : IsPlain stem) : IsName stem :=
  ⟨fun hnil => h.ne_nil (by rw [hnil]; rfl), h.notMem (by decide)⟩

/-- A stem has no dot, so it is not the name of a file. -/
theorem ne_append_rs {stem : String} (h : IsPlain stem) (s : String) : stem ≠ s ++ ".rs" := by
  intro heq
  have hdot : '.' ∈ stem.toList := by
    rw [heq, String.toList_append]
    exact List.mem_append_right _ (by decide)
  exact h.notMem (by decide) hdot

theorem append_rs_inj {s s' : String} (h : s ++ ".rs" = s' ++ ".rs") : s = s' := by
  have hlist := congrArg String.toList h
  rw [String.toList_append, String.toList_append] at hlist
  exact String.toList_inj.mp (List.append_cancel_right hlist)

theorem isName_append_rs {stem : String} (h : IsPlain stem) : IsName (stem ++ ".rs") := by
  have hlist : (stem ++ ".rs").toList = stem.toList ++ ['.', 'r', 's'] := by
    simp [String.toList_append]
  refine ⟨fun hnil => ?_, ?_⟩
  · rw [hnil] at hlist
    exact absurd hlist (by simp)
  · rw [hlist, List.mem_append]
    rintro (hslash | hslash)
    · exact (isName_of_isPlain h).notMem hslash
    · exact absurd hslash (by decide)

/-- The names of code can stand in a path, and none of them leads elsewhere than into a directory. -/
theorem IsFileName.isName {name : String} (h : IsFileName name) :
    IsName name ∧ name ≠ "." ∧ name ≠ ".." := by
  obtain ⟨stem, hstem, rfl | rfl⟩ := h
  · refine ⟨isName_of_isPlain hstem, ?_, ?_⟩ <;>
      · rintro rfl
        exact hstem.notMem (c := '.') (by decide) (by decide)
  · -- Neither of the two special names has any other character than a dot.
    have hr : 'r' ∈ (stem ++ ".rs").toList := by
      rw [String.toList_append]
      exact List.mem_append_right _ (by decide)
    refine ⟨isName_append_rs hstem, fun hdot => ?_, fun hdots => ?_⟩
    · rw [hdot] at hr
      exact absurd hr (by decide)
    · rw [hdots] at hr
      exact absurd hr (by decide)

/-- A place that code is written at. -/
structure IsFilePlace (p : Place) : Prop where
  ne_nil : p ≠ []
  names : ∀ name ∈ p, IsFileName name

namespace IsFilePlace

variable {p : Place} (h : IsFilePlace p)
include h

theorem isBelowRoot : IsBelowRoot p := ⟨h.ne_nil, fun name hname => (h.names name hname).isName.1⟩

theorem placeOf_joinPath (dir : String) : placeOf (joinPath dir (key p)) = placeOf dir ++ p :=
  placeOf_joinPath_key dir h.isBelowRoot fun name hname => (h.names name hname).isName.2

theorem placeOf_ne_nil (dir : String) : placeOf (joinPath dir (key p)) ≠ [] := by
  rw [h.placeOf_joinPath dir]
  exact List.append_ne_nil_of_right_ne_nil _ h.ne_nil

theorem isBelowRoot_append (dir : String) : IsBelowRoot (placeOf dir ++ p) := by
  rw [← h.placeOf_joinPath dir]
  exact isBelowRoot_placeOf (h.placeOf_ne_nil dir)

end IsFilePlace

theorem isFilePlace_singleton {name : String} (h : IsFileName name) : IsFilePlace [name] :=
  ⟨List.cons_ne_nil _ _, List.forall_mem_singleton.mpr h⟩

/-! ## Places of files -/

/-- The places of the files of a version, below that of the code. -/
def versionPlaces (release version : String) : List Place :=
  [[release, version ++ ".rs"], [release, version, "documents.rs"],
    [release, version, "watchables.rs"]]

/-- The places of the files of a release with some versions, below that of the code. -/
def releasePlaces (release : String) (versions : List String) : List Place :=
  [release ++ ".rs"] :: versions.flatMap (versionPlaces release)

/-- The stems of the versions of a build. -/
def versionStems (b : Build) : List String := b.model.versions.map fileStem

variable {release release' version version' : String} {versions versions' : List String} {p : Place}

/-- A place that belongs to a release: that of its own file, or one in its directory. -/
def IsOf (release : String) (p : Place) : Prop := p = [release ++ ".rs"] ∨ [release] <+: p

/-- A place belongs to one release. -/
theorem IsOf.unique (hr : IsPlain release) (hr' : IsPlain release') (h : IsOf release p)
    (h' : IsOf release' p) : release = release' := by
  rcases h with rfl | ⟨more, rfl⟩
  · rcases h' with h' | ⟨more, h'⟩
    · exact append_rs_inj (List.singleton_inj.mp h')
    · exact absurd (List.cons.inj h').1 (ne_append_rs hr' release)
  · rcases h' with h' | ⟨more', h'⟩
    · exact absurd (List.cons.inj h').1 (ne_append_rs hr release')
    · exact (List.cons.inj h').1.symm

theorem isOf_of_mem (h : p ∈ releasePlaces release versions) : IsOf release p := by
  rcases List.mem_cons.mp h with rfl | h
  · exact .inl rfl
  · obtain ⟨version, -, h⟩ := List.mem_flatMap.mp h
    simp only [versionPlaces, List.mem_cons, List.not_mem_nil, or_false] at h
    rcases h with rfl | rfl | rfl
    · exact .inr ⟨[version ++ ".rs"], rfl⟩
    · exact .inr ⟨[version, "documents.rs"], rfl⟩
    · exact .inr ⟨[version, "watchables.rs"], rfl⟩

theorem isFilePlace_of_mem (hr : IsPlain release) (hv : ∀ v ∈ versions, IsPlain v)
    (h : p ∈ releasePlaces release versions) : IsFilePlace p := by
  have hdocuments : IsFileName "documents.rs" :=
    ⟨"documents", ⟨by simp, by simp [Source.isIdentChar], by simp⟩, .inr rfl⟩
  have hwatchables : IsFileName "watchables.rs" :=
    ⟨"watchables", ⟨by simp, by simp [Source.isIdentChar], by simp⟩, .inr rfl⟩
  rcases List.mem_cons.mp h with rfl | h
  · exact isFilePlace_singleton ⟨release, hr, .inr rfl⟩
  · obtain ⟨version, hversion, h⟩ := List.mem_flatMap.mp h
    have hplain := hv version hversion
    have hdir : IsFileName release := ⟨release, hr, .inl rfl⟩
    simp only [versionPlaces, List.mem_cons, List.not_mem_nil, or_false] at h
    rcases h with rfl | rfl | rfl
    · exact ⟨List.cons_ne_nil _ _, by simpa using ⟨hdir, version, hplain, .inr rfl⟩⟩
    · exact ⟨List.cons_ne_nil _ _, by simpa using ⟨hdir, ⟨version, hplain, .inl rfl⟩, hdocuments⟩⟩
    · exact ⟨List.cons_ne_nil _ _, by simpa using ⟨hdir, ⟨version, hplain, .inl rfl⟩, hwatchables⟩⟩

theorem nodup_versionPlaces (hv : IsPlain version) : (versionPlaces release version).Nodup := by
  have hne := ne_append_rs hv version
  simp [versionPlaces, hne.symm]

/-- Versions that differ have no place in common. -/
theorem disjoint_versionPlaces (h : version ≠ version') :
    (versionPlaces release version).Disjoint (versionPlaces release version') := by
  intro p hp hp'
  simp only [versionPlaces, List.mem_cons, List.not_mem_nil, or_false] at hp hp'
  rcases hp with rfl | rfl | rfl
  · exact h (append_rs_inj (by simpa using hp'))
  · simp [h] at hp'
  · simp [h] at hp'

theorem nodup_releasePlaces (hv : ∀ v ∈ versions, IsPlain v) (h : versions.Nodup) :
    (releasePlaces release versions).Nodup := by
  refine List.nodup_cons.mpr ⟨fun hmem => ?_, List.nodup_flatMap.mpr ⟨?_, ?_⟩⟩
  · obtain ⟨version, -, hmem⟩ := List.mem_flatMap.mp hmem
    simp [versionPlaces] at hmem
  · exact fun v hmem => nodup_versionPlaces (hv v hmem)
  · exact h.imp fun hne => disjoint_versionPlaces hne

theorem length_releasePlaces :
    (releasePlaces release versions).length = 1 + 3 * versions.length := by
  have hthree : (versions.map fun v => (versionPlaces release v).length) = versions.map fun _ => 3 :=
    rfl
  rw [releasePlaces, List.length_cons, List.length_flatMap, hthree, List.map_const', List.sum_replicate]
  simp
  omega

theorem keys_files (b : Build) :
    ((fileStem b.label ++ ".rs", releaseModule b)
        :: b.model.versions.flatMap (versionFiles b)).map Prod.fst
      = (releasePlaces (fileStem b.label) (versionStems b)).map key := by
  have hone (n : String) : key [n] = n := rfl
  have htwo (n m : String) : key [n, m] = n ++ "/" ++ m := rfl
  have hthree (n m k : String) : key [n, m, k] = n ++ "/" ++ m ++ "/" ++ k := rfl
  have hversion (v : String) : (versionFiles b v).map Prod.fst
      = (versionPlaces (fileStem b.label) (fileStem v)).map key := by
    simp [versionFiles, versionPlaces, htwo, hthree, String.append_assoc]
  unfold releasePlaces versionStems
  rw [List.map_cons, List.map_cons, hone, List.map_flatMap, List.map_flatMap, List.flatMap_map]
  exact congrArg _ (congrArg (b.model.versions.flatMap ·) (funext hversion))

/-- The keys of the files of a build are those of their places. -/
theorem mem_keys_files {b : Build} {path : String} : path ∈ (files b).keys
    ↔ ∃ p ∈ releasePlaces (fileStem b.label) (versionStems b), key p = path := by
  unfold files
  rw [Table.mem_keys_ofList, keys_files, List.mem_map]

theorem isPlain_of_mem_versionStems {b : Build} {stem : String} (h : stem ∈ versionStems b) :
    IsPlain stem := by
  obtain ⟨version, -, rfl⟩ := List.mem_map.mp h
  exact isPlain_fileStem version

/-- A build has a file of its own and three for every stem of its versions. -/
theorem length_keys_files (b : Build) :
    (files b).keys.length = 1 + 3 * (versionStems b).dedup.length := by
  have hplain : ∀ v ∈ (versionStems b).dedup, IsPlain v := fun v hv =>
    isPlain_of_mem_versionStems (List.mem_dedup.mp hv)
  have hplaces : ∀ {p}, p ∈ releasePlaces (fileStem b.label) (versionStems b)
      ↔ p ∈ releasePlaces (fileStem b.label) (versionStems b).dedup := by
    intro p
    simp [releasePlaces]
  have hkeys : ((releasePlaces (fileStem b.label) (versionStems b).dedup).map key).Nodup := by
    refine (List.nodup_map_iff_inj_on (nodup_releasePlaces hplain (List.nodup_dedup _))).mpr ?_
    intro p hp q hq heq
    exact key_inj (isFilePlace_of_mem (isPlain_fileStem _) hplain hp).isBelowRoot
      (isFilePlace_of_mem (isPlain_fileStem _) hplain hq).isBelowRoot heq
  have hperm : (files b).keys.Perm
      ((releasePlaces (fileStem b.label) (versionStems b).dedup).map key) := by
    refine (List.perm_ext_iff_of_nodup (Table.nodup_keys _) hkeys).mpr fun path => ?_
    rw [mem_keys_files, List.mem_map]
    exact exists_congr fun p => and_congr_left' hplaces
  rw [hperm.length_eq, List.length_map, length_releasePlaces]

/-- **No file of a build stands for two exactly where no two of its versions have one stem.** -/
theorem length_keys_files_eq_iff {b : Build} :
    (files b).keys.length = 1 + 3 * b.model.versions.length
      ↔ ∀ v ∈ b.model.versions, ∀ w ∈ b.model.versions, fileStem v = fileStem w → v = w := by
  have hlength : (versionStems b).length = b.model.versions.length := List.length_map _
  rw [← List.nodup_map_iff_inj_on ReleaseModel.nodup_versions, length_keys_files, ← hlength]
  constructor
  · intro h
    have hdedup : (versionStems b).dedup.length = (versionStems b).length := by omega
    exact List.dedup_eq_self.mp ((List.dedup_sublist _).eq_of_length hdedup)
  · intro h
    have hdedup : (versionStems b).dedup = versionStems b := List.dedup_eq_self.mpr h
    rw [hdedup]

/-- The places of the files of a build belong to its release. -/
theorem exists_place_of_mem_keys {b : Build} {path : String} (h : path ∈ (files b).keys) :
    ∃ p, key p = path ∧ IsOf (fileStem b.label) p ∧ IsFilePlace p := by
  obtain ⟨p, hp, hkey⟩ := mem_keys_files.mp h
  exact ⟨p, hkey, isOf_of_mem hp, isFilePlace_of_mem (isPlain_fileStem _)
    (fun v hv => isPlain_of_mem_versionStems hv) hp⟩

theorem stem_mem_keys_files (b : Build) : fileStem b.label ++ ".rs" ∈ (files b).keys :=
  mem_keys_files.mpr ⟨_, List.mem_cons_self, rfl⟩

/-- **The file of the crate root is one of a build exactly where the build is named for it.** -/
theorem lib_mem_keys_files_iff {b : Build} :
    "lib.rs" ∈ (files b).keys ↔ fileStem b.label = "lib" := by
  constructor
  · intro h
    have hlib : IsPlain "lib" := ⟨by simp, by simp [Source.isIdentChar], by simp⟩
    obtain ⟨p, hkey, hof, hplace⟩ := exists_place_of_mem_keys h
    obtain rfl : p = ["lib.rs"] :=
      key_inj hplace.isBelowRoot (isFilePlace_singleton ⟨"lib", hlib, .inr rfl⟩).isBelowRoot hkey
    exact hof.unique (isPlain_fileStem _) hlib (.inl rfl)
  · intro h
    have hmem := stem_mem_keys_files b
    rwa [h] at hmem

/-- **Two builds have no file in common exactly where they are not named alike.** -/
theorem disjoint_keys_files_iff {b b' : Build} :
    (files b).keys.Disjoint (files b').keys ↔ fileStem b.label ≠ fileStem b'.label := by
  constructor
  · intro h heq
    exact h (stem_mem_keys_files b) (heq ▸ stem_mem_keys_files b')
  · intro hne path hpath hpath'
    obtain ⟨p, hkey, hof, hplace⟩ := exists_place_of_mem_keys hpath
    obtain ⟨p', hkey', hof', hplace'⟩ := exists_place_of_mem_keys hpath'
    obtain rfl : p = p' := key_inj hplace.isBelowRoot hplace'.isBelowRoot (hkey.trans hkey'.symm)
    exact hne (hof.unique (isPlain_fileStem _) (isPlain_fileStem _) hof')

end Generated

end ApiModels
