import ApiModels.Proofs.Plans
import ApiModels.Proofs.RegistryFiles
import ApiModels.Workspace.Snapshot

/-!
# Method maps saved and loaded

A method map is read back from its file as it was saved, as are the other tables that are kept. So a
map can be carried through its file: what is loaded is what was saved last, a build replaces the
section of its release and no other, and it takes no more than the builds that were saved since to
tell each section.
-/

namespace ApiModels

open Json Json.Reader

namespace MethodMap

/-! ## Text -/

theorem plain_toJson (map : MethodMap) : Plain map.toJson :=
  plain_ofTable (plain_ofTable (plain_ofTable Plain.string)) map

theorem reads_toJson (map : MethodMap) : Reads 3 reader map.toJson map :=
  reads_table fun _ _ => reads_table fun _ _ => reads_table fun e _ => reads_text e.2

/-- **A method map is read back from its file.** -/
theorem ofText_fileText (map : MethodMap) :
    Json.Reader.ofText reader map.toJson.fileText = .ok map :=
  map.reads_toJson.ofText_fileText map.plain_toJson (by decide)

/-! ## Sections -/

/-- The last of some builds of a release. -/
def lastBuild? (builds : List Build) (release : String) : Option Build :=
  (builds.filter fun b => b.label = release).getLast?

/-- A map has, for every release, the section of its last build among some, and otherwise the
section it had before. -/
def HasSections (base : MethodMap) (builds : List Build) (map : MethodMap) : Prop :=
  ∀ release, map.get? release
    = ((lastBuild? builds release).map Build.methodMap).or (base.get? release)

/-- **A build replaces the section of its release and no other.** By induction on the builds, the
last of them first. -/
theorem hasSections_foldl (base : MethodMap) (builds : List Build) :
    HasSections base builds (builds.foldl insertBuild base) := by
  intro release
  induction builds using List.reverseRecOn with
  | nil => rfl
  | append_singleton builds b ih =>
    rw [List.foldl_append, List.foldl_cons, List.foldl_nil, insertBuild, Table.get?_insert, ih,
      lastBuild?, lastBuild?, List.filter_append]
    by_cases hlabel : b.label = release
    · rw [if_pos hlabel.symm, List.filter_cons_of_pos (by simpa using hlabel), List.filter_nil,
        List.getLast?_append]
      rfl
    · rw [if_neg (Ne.symm hlabel), List.filter_cons_of_neg (by simpa using hlabel), List.filter_nil,
        List.append_nil]

end MethodMap

/-! ## Directories that are there -/

namespace Files

/-- What says nothing at the end of a path is taken off, slashes first of all. -/
theorem head?_trimmed (cs : List Char) : (trimmed cs).head? ≠ some '/' := by
  induction cs using trimmed.induct with
  | case1 cs ih => rwa [trimmed]
  | case2 cs ih => rwa [trimmed]
  | case3 cs hslash hdot =>
    rw [trimmed.eq_3 cs hslash hdot]
    intro hhead
    obtain ⟨rest, rfl⟩ := List.head?_eq_some_iff.mp hhead
    exact hslash rest rfl

/-- The directory of a file is written without a slash at its end, unless it is the root. -/
theorem namesDirectory_of_parent? {path dir : String} (h : parent? path = some dir)
    (hdir : isAbsolute dir = false) : FileTree.namesDirectory dir = false := by
  unfold parent? at h
  split at h
  · cases h
  · dsimp only at h
    split at h
    · cases h
      rfl
    · split at h
      · cases h
        cases hdir
      · cases h
        refine decide_eq_false fun hlast => ?_
        rw [String.toList_ofList, List.getLast?_reverse] at hlast
        exact head?_trimmed _ hlast

namespace FileTree

variable {t t' : FileTree} {dir path text : String}

/-- A place is not named from outside of the tree. -/
theorem isAbsolute_of_place {p : Place} (h : t.place dir = .ok p) : isAbsolute dir = false := by
  cases habsolute : isAbsolute dir with
  | false => rfl
  | true =>
    unfold FileTree.place at h
    rw [habsolute, Bool.or_true] at h
    cases h

theorem place_of_isDirectory (h : t.isDirectory dir = true) :
    ∃ p, t.place dir = .ok p ∧ t.hasDirectory p = true := by
  unfold isDirectory at h
  cases hplace : t.place dir with
  | error e =>
    rw [hplace] at h
    cases h
  | ok p =>
    rw [hplace] at h
    exact ⟨p, rfl, h⟩

/-- The directory of a file is there once it is made. -/
theorem isDirectory_of_ensureDirectory (hdir : parent? path = some dir)
    (h : t.ensureDirectory dir = .ok t') : t'.isDirectory dir = true := by
  unfold ensureDirectory at h
  split at h
  · rename_i made hmade
    cases h
    have hkeeps := (makeDirectory_growsAlong hmade).keeps
    unfold makeDirectory at hmade
    obtain ⟨p, hp, hmade⟩ := bind_eq_ok hmade
    split at hmade
    · cases hmade
    · cases hmade
      unfold isDirectory
      rw [place_keeps hkeeps (namesDirectory_of_parent? hdir (isAbsolute_of_place hp)) hp]
      dsimp only [hasDirectory]
      rw [contains_insert]
      simp
  · split at h
    · rename_i hthere
      cases h
      exact hthere
    · cases h

theorem isDirectory_of_makeDirectories (hdir : parent? path = some dir) (hne : dir ≠ "")
    (h : t.makeDirectories dir = .ok t') : t'.isDirectory dir = true := by
  have hempty : ¬ dir.isEmpty = true := fun hempty => hne (String.isEmpty_iff.mp hempty)
  have hensure : ∃ u : FileTree, u.ensureDirectory dir = .ok t' := by
    unfold makeDirectories at h
    cases hlength : dir.length with
    | zero =>
      rw [hlength, makeDirectories.go, if_neg hempty] at h
      exact ⟨t, h⟩
    | succ n =>
      rw [hlength, makeDirectories.go, if_neg hempty] at h
      split at h
      · obtain ⟨above, -, h⟩ := bind_eq_ok h
        exact ⟨above, h⟩
      · exact ⟨t, h⟩
  obtain ⟨u, hu⟩ := hensure
  exact isDirectory_of_ensureDirectory hdir hu

/-- To make a directory that is there does nothing. -/
theorem makeDirectories_of_isDirectory (h : t.isDirectory dir = true) :
    t.makeDirectories dir = .ok t := by
  have hensure : t.ensureDirectory dir = .ok t := by
    obtain ⟨p, hplace, hthere⟩ := place_of_isDirectory h
    have hmake : t.makeDirectory dir = .error .alreadyExists := by
      unfold makeDirectory
      rw [hplace, ok_bind, hthere]
      rfl
    unfold ensureDirectory
    rw [hmake]
    exact if_pos h
  unfold makeDirectories
  cases dir.length with
  | zero =>
    rw [makeDirectories.go, hensure, ite_self]
  | succ n =>
    rw [makeDirectories.go, hensure]
    exact ite_self _

/-! ## Files that can be written -/

/-- A file can be written at a path: its directory is there, and nothing but a file is at its place. -/
structure IsReady (path : String) (t : FileTree) : Prop where
  directory : ∀ dir, parent? path = some dir → dir = "" ∨ t.isDirectory dir = true
  name : namesDirectory path = false
  place : ∃ p, t.place path = .ok p ∧ t.hasDirectory p = false

theorem isReady_of_write {t' : FileTree}
    (hdirectory : ∀ dir, parent? path = some dir → dir = "" ∨ t.isDirectory dir = true)
    (h : t.write path text = .ok t') : IsReady path t := by
  unfold write at h
  obtain ⟨p, hp, h⟩ := bind_eq_ok h
  split at h
  · cases h
  · rename_i hfree
    rw [Bool.or_eq_true, not_or, Bool.not_eq_true, Bool.not_eq_true] at hfree
    exact ⟨hdirectory, hfree.2, p, hp, hfree.1⟩

/-- **Where a file can be written, it is written, is read as it was written, and can be written
again.** -/
theorem IsReady.write (h : IsReady path t) (text : String) :
    ∃ t', t.write path text = .ok t' ∧ IsReady path t' ∧ t'.isFile path = true
      ∧ t'.read path = .ok text := by
  obtain ⟨p, hp, hfree⟩ := h.place
  let t' : FileTree := { t with files := t.files.insert (key p) text }
  have hwrite : t.write path text = .ok t' := by
    unfold FileTree.write
    rw [hp, ok_bind, hfree, h.name]
    rfl
  -- Writing adds no directory and removes none, so every place is where it was.
  have hsame : ∀ q, t.hasDirectory q = true → t'.hasDirectory q = true := fun _ => id
  have hplace : t'.place path = .ok p := place_keeps hsame h.name hp
  refine ⟨t', hwrite, ⟨fun dir hdir => ?_, h.name, p, hplace, hfree⟩, ?_, ?_⟩
  · refine (h.directory dir hdir).imp_right fun hthere => ?_
    obtain ⟨q, hq, hdirectory⟩ := place_of_isDirectory hthere
    unfold isDirectory
    rw [place_keeps hsame (namesDirectory_of_parent? hdir (isAbsolute_of_place hq)) hq]
    exact hdirectory
  · unfold isFile
    rw [hplace]
    dsimp only [hasFile]
    rw [contains_insert]
    simp
  · exact Workspace.read_eq_ok hplace (Table.get?_insert.trans (if_pos rfl))

end FileTree

end Files

/-! ## Saving and loading -/

namespace Workspace

open Files FileTree

variable {path : String} {t t' : FileTree} {map base : MethodMap}

/-- Makes the directory of a file, if its path has one. -/
def prepare (path : String) : Run (StateM FileTree) Unit :=
  match parent? path with
  | some dir => unless dir.isEmpty do makeDirectories dir
  | none => pure ()

/-- To save a map is to make the directory of its file and then to write its text. -/
theorem saveMethods_eq (path : String) (map : MethodMap) :
    (saveMethods path map : Run (StateM FileTree) Unit)
      = prepare path >>= fun _ => writeText path map.toJson.fileText := by
  unfold saveMethods prepare
  cases parent? path with
  | none => rfl
  | some dir =>
    dsimp only
    by_cases hempty : dir.isEmpty = true
    · rw [if_pos hempty, if_pos hempty]
      rfl
    · rw [if_neg hempty, if_neg hempty]

theorem run_makeDirectories (dir : String) (t : FileTree) :
    (makeDirectories dir : Run (StateM FileTree) Unit).run t
      = match t.makeDirectories dir with
        | .ok t' => (.ok (), t')
        | .error e => (.error (.file dir e), t) :=
  run_commit dir (fun t => t.makeDirectories dir) t

theorem run_writeText (path text : String) (t : FileTree) :
    (writeText path text : Run (StateM FileTree) Unit).run t
      = match t.write path text with
        | .ok t' => (.ok (), t')
        | .error e => (.error (.file path e), t) :=
  run_commit path (fun t => t.write path text) t

/-- Where the directory of a file is made, it is there. -/
theorem isDirectory_of_prepare {dir : String} (hdir : parent? path = some dir)
    (h : (prepare path).run t = (.ok (), t')) : dir = "" ∨ t'.isDirectory dir = true := by
  unfold prepare at h
  rw [hdir] at h
  dsimp only at h
  by_cases hempty : dir = ""
  · exact .inl hempty
  · rw [if_neg (by simpa using hempty), run_makeDirectories] at h
    split at h
    · rename_i u hu
      cases h
      exact .inr (isDirectory_of_makeDirectories hdir hempty hu)
    · cases h

/-- Where it is there, nothing is made. -/
theorem prepare_of_isReady (h : IsReady path t) : (prepare path).run t = (.ok (), t) := by
  unfold prepare
  cases hdir : parent? path with
  | none => rfl
  | some dir =>
    dsimp only
    split
    · rfl
    · rename_i hne
      have hthere := (h.directory dir hdir).resolve_left (by simpa using hne)
      rw [run_makeDirectories, makeDirectories_of_isDirectory hthere]

/-- A map can be saved at a path: once the directory is made, a file can be written. -/
def IsSavable (path : String) (t : FileTree) : Prop :=
  ∃ u, (prepare path).run t = (.ok (), u) ∧ IsReady path u

/-- Where one map was saved, any can be. -/
theorem isSavable_of_save
    (h : (saveMethods path map : Run (StateM FileTree) Unit).run t = (.ok (), t')) :
    IsSavable path t := by
  rw [saveMethods_eq] at h
  obtain ⟨_, u, hu, h⟩ := run_bind_eq_ok h
  rw [run_writeText] at h
  split at h
  · rename_i hwrite
    exact ⟨u, hu, isReady_of_write (fun dir hdir => isDirectory_of_prepare hdir hu) hwrite⟩
  · cases h

/-- From the file at a path a map is loaded. -/
def Loads (path : String) (t : FileTree) (map : MethodMap) : Prop :=
  (loadMethodsIfAny path : Run (StateM FileTree) MethodMap).run t = (.ok map, t)

theorem run_pathExists (path : String) (t : FileTree) :
    (ExceptT.lift (pathExists path) : Run (StateM FileTree) Bool).run t
      = (.ok (t.isFile path || t.isDirectory path), t) := by
  have hthere : (pathExists path : StateM FileTree Bool) t
      = (if t.isFile path = true then (pure true : StateM FileTree Bool)
        else Disk.isDirectory path) t := rfl
  have hpath : (pathExists path : StateM FileTree Bool) t
      = (t.isFile path || t.isDirectory path, t) := by
    rw [hthere]
    cases t.isFile path <;> rfl
  exact congrArg (fun r : Bool × FileTree => (Except.ok r.1, r.2)) hpath

/-- Where there is no file, an empty map is loaded. -/
theorem loads_of_absent (hfile : t.isFile path = false) (hdir : t.isDirectory path = false) :
    Loads path t {} := by
  unfold Loads loadMethodsIfAny
  rw [run_bind, run_pathExists, hfile, hdir]
  rfl

/-- A file that holds the text of a map is loaded as the map. -/
theorem loads_of_read (hfile : t.isFile path = true) (h : t.read path = .ok map.toJson.fileText) :
    Loads path t map := by
  have hread : (readText path : Run (StateM FileTree) String).run t
      = (.ok map.toJson.fileText, t) := by
    unfold readText onFile
    rw [run_bind]
    have hlift : (ExceptT.lift (Disk.read path) : Run (StateM FileTree) (Outcome String)).run t
        = (.ok (t.read path), t) := rfl
    rw [hlift, h]
    rfl
  unfold Loads loadMethodsIfAny loadMethods readJson
  rw [run_bind, run_pathExists, hfile, Bool.true_or]
  dsimp only
  rw [if_pos rfl, run_bind, hread]
  dsimp only
  rw [map.ofText_fileText]
  rfl

/-- **What is saved is loaded**, and can be saved over. -/
theorem IsSavable.save (h : IsSavable path t) (map : MethodMap) :
    ∃ t', (saveMethods path map : Run (StateM FileTree) Unit).run t = (.ok (), t')
      ∧ IsSavable path t' ∧ Loads path t' map := by
  obtain ⟨u, hu, hready⟩ := h
  obtain ⟨t', hwrite, hagain, hfile, hread⟩ := hready.write map.toJson.fileText
  refine ⟨t', ?_, ⟨t', prepare_of_isReady hagain, hagain⟩, loads_of_read hfile hread⟩
  rw [saveMethods_eq, run_bind, hu]
  dsimp only
  rw [run_writeText, hwrite]

/-! ## One step after the other -/

/-- What is done with a method map and the file that keeps it. -/
inductive MapStep where
  | load
  | insert (b : Build)
  | save

/-- The map after a step. -/
def MapStep.run (path : String) (map : MethodMap) : MapStep → Run (StateM FileTree) MethodMap
  | .load => loadMethodsIfAny path
  | .insert b => pure (map.insertBuild b)
  | .save => do
    saveMethods path map
    return map

/-- The map after some steps. -/
def runSteps (path : String) (map : MethodMap) (steps : List MapStep) :
    Run (StateM FileTree) MethodMap :=
  steps.foldlM (MapStep.run path) map

/-- The builds that were inserted before the map was saved last, and those inserted since. -/
structure Progress where
  saved : List Build := []
  pending : List Build := []

/-- Saving keeps what is pending, and loading drops it. -/
def Progress.step (p : Progress) : MapStep → Progress
  | .load => { p with pending := [] }
  | .insert b => { p with pending := p.pending ++ [b] }
  | .save => ⟨p.saved ++ p.pending, []⟩

/-- The map and its file have got as far as some progress from where they started. -/
structure IsAt (path : String) (base : MethodMap) (p : Progress) (map : MethodMap) (t : FileTree) :
    Prop where
  held : map = (p.saved ++ p.pending).foldl MethodMap.insertBuild base
  kept : Loads path t (p.saved.foldl MethodMap.insertBuild base)

variable {p : Progress} {map' : MethodMap}

/-- The map that a load gives is where everything starts. -/
theorem isAt_of_loads (h : Loads path t base) : IsAt path base {} base t := ⟨rfl, h⟩

/-- **A step that succeeds goes on from there.** -/
theorem IsAt.step (h : IsAt path base p map t) (s : MapStep)
    (hrun : (s.run path map).run t = (.ok map', t')) : IsAt path base (p.step s) map' t' := by
  cases s with
  | load =>
    obtain ⟨hmap, rfl⟩ := Prod.mk.inj (h.kept.symm.trans hrun)
    cases hmap
    refine ⟨?_, h.kept⟩
    rw [Progress.step, List.append_nil]
  | insert b =>
    cases hrun
    refine ⟨?_, h.kept⟩
    rw [Progress.step, ← List.append_assoc, List.foldl_append, ← h.held]
    rfl
  | save =>
    obtain ⟨_, t₁, hsave, hrun⟩ := run_bind_eq_ok hrun
    cases hrun
    -- That this save succeeded is what makes the path one where saving succeeds.
    obtain ⟨t₂, hsave', -, hload⟩ := (isSavable_of_save hsave).save map
    obtain rfl : t' = t₂ := (Prod.mk.inj (hsave.symm.trans hsave')).2
    refine ⟨?_, ?_⟩
    · rw [Progress.step, List.append_nil]
      exact h.held
    · rw [h.held] at hload
      exact hload

/-- **Where a map can be saved, every step succeeds**, and a map can be saved again. -/
theorem IsAt.exists_step (h : IsAt path base p map t) (hsavable : IsSavable path t) (s : MapStep) :
    ∃ map' t', (s.run path map).run t = (.ok map', t') ∧ IsSavable path t' := by
  cases s with
  | load => exact ⟨_, t, h.kept, hsavable⟩
  | insert b => exact ⟨map.insertBuild b, t, rfl, hsavable⟩
  | save =>
    obtain ⟨t', hsave, hagain, -⟩ := hsavable.save map
    refine ⟨map, t', ?_, hagain⟩
    rw [MapStep.run, run_bind, hsave]
    rfl

theorem runSteps_cons (path : String) (map : MethodMap) (s : MapStep) (steps : List MapStep) :
    runSteps path map (s :: steps) = s.run path map >>= fun map' => runSteps path map' steps :=
  List.foldlM_cons

/-- What a step keeps is kept by any number of them, by induction on the steps. -/
theorem IsAt.run (h : IsAt path base p map t) (steps : List MapStep)
    (hrun : (runSteps path map steps).run t = (.ok map', t')) :
    IsAt path base (steps.foldl Progress.step p) map' t' := by
  induction steps generalizing p map t with
  | nil =>
    cases hrun
    exact h
  | cons s steps ih =>
    rw [runSteps_cons] at hrun
    obtain ⟨map₁, t₁, hfirst, hrest⟩ := run_bind_eq_ok hrun
    exact ih (h.step s hfirst) hrest

theorem IsAt.exists_run (h : IsAt path base p map t) (hsavable : IsSavable path t)
    (steps : List MapStep) : ∃ map' t', (runSteps path map steps).run t = (.ok map', t') := by
  induction steps generalizing p map t with
  | nil => exact ⟨map, t, rfl⟩
  | cons s steps ih =>
    obtain ⟨map₁, t₁, hfirst, hsavable₁⟩ := h.exists_step hsavable s
    obtain ⟨map', t', hrest⟩ := ih (h.step s hfirst) hsavable₁
    refine ⟨map', t', ?_⟩
    rw [runSteps_cons, run_bind, hfirst]
    exact hrest

/-! ## Rounds of builds -/

/-- The steps that record some builds. -/
def recording (builds : List Build) : List MapStep := .load :: (builds.map .insert ++ [.save])

theorem runSteps_insert (path : String) (map : MethodMap) (builds : List Build)
    (steps : List MapStep) :
    runSteps path map (builds.map .insert ++ steps)
      = runSteps path (builds.foldl MethodMap.insertBuild map) steps := by
  induction builds generalizing map with
  | nil => rfl
  | cons b builds ih =>
    rw [List.map_cons, List.cons_append, runSteps_cons, MapStep.run, pure_bind, ih]
    rfl

/-- Recording builds is to load the map, to insert them, and to save it. -/
theorem recordMethods_eq (path : String) (builds : List Build) (map : MethodMap) :
    (recordMethods path builds : Run (StateM FileTree) Unit)
      = runSteps path map (recording builds) >>= fun _ => pure () := by
  unfold recordMethods recording
  rw [runSteps_cons, bind_assoc]
  refine bind_congr fun loaded => ?_
  rw [runSteps_insert, runSteps_cons]
  simp [MapStep.run, runSteps]

/-- Whatever is recorded is saved. -/
theorem foldl_step_recording (p : Progress) (builds : List Build) :
    (recording builds).foldl Progress.step p = ⟨p.saved ++ builds, []⟩ := by
  have hinserts : ∀ q : Progress, (builds.map MapStep.insert).foldl Progress.step q
      = { q with pending := q.pending ++ builds } := by
    induction builds with
    | nil => simp
    | cons b builds ih =>
      intro q
      rw [List.map_cons, List.foldl_cons, ih]
      simp [Progress.step]
  rw [recording, List.foldl_cons, List.foldl_append, hinserts]
  rfl

/-- After some rounds the file keeps what all of them recorded, by induction on the rounds. -/
theorem loads_of_rounds (hload : Loads path t base) (rounds : List (List Build))
    (hrun : (forM rounds (recordMethods path) : Run (StateM FileTree) Unit).run t = (.ok (), t')) :
    Loads path t' (rounds.flatten.foldl MethodMap.insertBuild base) := by
  induction rounds generalizing base t with
  | nil =>
    cases hrun
    exact hload
  | cons builds rounds ih =>
    rw [List.forM_cons] at hrun
    obtain ⟨_, t₁, hfirst, hrest⟩ := run_bind_eq_ok hrun
    rw [recordMethods_eq path builds base] at hfirst
    obtain ⟨_, t₂, hsteps, hdone⟩ := run_bind_eq_ok hfirst
    cases hdone
    have hat := (isAt_of_loads hload).run (recording builds) hsteps
    rw [foldl_step_recording] at hat
    rw [List.flatten_cons, List.foldl_append]
    exact ih hat.kept hrest

/-! ## What the sections are -/

/--
**What is saved is read back as it was.**

Method maps, and the tables and the index of a registry, are read back from their files as they were,
whatever is in them. So when a map is loaded, and builds are then inserted and the map saved and
loaded again in any order, the section of a release is that of the last build of it, and a release
without a build keeps its section. In the map this is said of the builds that were saved or are still
held, as a load drops what was not saved; in the file it is said of those that were saved. Every such
run succeeds where a map can be saved at all. The rounds in which each run of the program loads the
map, inserts its builds and saves it leave the file with the builds of all rounds.
-/
theorem sections_after_steps (path : String) :
    (∀ map : MethodMap, Json.Reader.ofText MethodMap.reader map.toJson.fileText = .ok map)
    ∧ (∀ e : ReleaseEntry, Json.Reader.ofText ReleaseEntry.reader e.toJson.fileText = .ok e)
    ∧ (∀ i : RegistryIndex, Json.Reader.ofText RegistryIndex.reader i.toJson.fileText = .ok i)
    ∧ ∀ (t : FileTree) (base : MethodMap), Loads path t base →
      (∀ (steps : List MapStep) (start map : MethodMap) (t' : FileTree),
        (runSteps path start (.load :: steps)).run t = (.ok map, t') →
        let p := steps.foldl Progress.step {}
        base.HasSections (p.saved ++ p.pending) map
          ∧ ∃ kept, Loads path t' kept ∧ base.HasSections p.saved kept)
      ∧ (∀ (steps : List MapStep) (start : MethodMap), IsSavable path t →
        ∃ map t', (runSteps path start (.load :: steps)).run t = (.ok map, t'))
      ∧ ∀ (rounds : List (List Build)) (t' : FileTree),
        (forM rounds (recordMethods path) : Run (StateM FileTree) Unit).run t = (.ok (), t') →
        ∃ kept, Loads path t' kept ∧ base.HasSections rounds.flatten kept := by
  refine ⟨MethodMap.ofText_fileText, ReleaseEntry.ofText_fileText, RegistryIndex.ofText_fileText,
    fun t base hload => ⟨fun steps start map t' hrun => ?_, fun steps start hsavable => ?_,
      fun rounds t' hrun => ?_⟩⟩
  · rw [runSteps_cons] at hrun
    obtain ⟨loaded, t₁, hfirst, hrest⟩ := run_bind_eq_ok hrun
    obtain ⟨hmap, rfl⟩ := Prod.mk.inj (hload.symm.trans hfirst)
    cases hmap
    have hat := (isAt_of_loads hload).run steps hrest
    refine ⟨?_, _, hat.kept, base.hasSections_foldl _⟩
    rw [hat.held]
    exact base.hasSections_foldl _
  · obtain ⟨map, t', hrun⟩ := (isAt_of_loads hload).exists_run hsavable steps
    refine ⟨map, t', ?_⟩
    rw [runSteps_cons, run_bind, MapStep.run, hload]
    exact hrun
  · exact ⟨_, loads_of_rounds hload rounds hrun, base.hasSections_foldl _⟩

/-- A release with pods that are created and deleted. -/
def podBuild (label : String) : Build :=
  let config : ReleaseConfig :=
    { label := label, semver := "1.0.0", defaultVersion := "v1", preferences := {},
      deprecations := {} }
  .ofDocument config Build.pods

/-- In an empty directory, a release that was saved is kept and one that was not is only held. Two
rounds that record both of them keep both. -/
theorem sections_after_steps_pods :
    let path := "out/methods.json"
    let old := podBuild "old"
    let new := podBuild "new"
    (∃ (map kept : MethodMap) (t' : FileTree),
      (runSteps path {} [.load, .insert old, .save, .insert new]).run {} = (.ok map, t')
        ∧ map.get? "new" = some new.methodMap
        ∧ Loads path t' kept ∧ kept.get? "old" = some old.methodMap ∧ kept.get? "new" = none)
    ∧ ∃ (kept : MethodMap) (t' : FileTree),
      (forM [[old, new], [old]] (recordMethods path) : Run (StateM FileTree) Unit).run {}
        = (.ok (), t')
      ∧ Loads path t' kept
      ∧ kept.get? "old" = some old.methodMap ∧ kept.get? "new" = some new.methodMap := by
  intro path old new
  have hload : Loads path {} {} := loads_of_absent (by decide +kernel) (by decide +kernel)
  obtain ⟨-, -, -, hsections⟩ := sections_after_steps path
  obtain ⟨hsteps, hsucceeds, hrounds⟩ := hsections {} {} hload
  constructor
  · have hsave : ((saveMethods path {} : Run (StateM FileTree) Unit).run {}).1.toOption.isSome
        = true := by decide +kernel
    rcases hsaved : (saveMethods path {} : Run (StateM FileTree) Unit).run {} with ⟨_ | _, t₁⟩
    · rw [hsaved] at hsave
      cases hsave
    · obtain ⟨map, t', hrun⟩ :=
        hsucceeds [.insert old, .save, .insert new] {} (isSavable_of_save hsaved)
      obtain ⟨hheld, kept, hkept, hsaved⟩ := hsteps _ _ _ _ hrun
      exact ⟨map, kept, t', hrun, hheld "new", hkept, hsaved "old", hsaved "new"⟩
  · have hdone : ((forM [[old, new], [old]] (recordMethods path) :
        Run (StateM FileTree) Unit).run {}).1.toOption.isSome = true := by decide +kernel
    rcases hrun : (forM [[old, new], [old]] (recordMethods path) :
        Run (StateM FileTree) Unit).run {} with ⟨_ | _, t'⟩
    · rw [hrun] at hdone
      cases hdone
    · obtain ⟨kept, hkept, hsaved⟩ := hrounds _ _ hrun
      exact ⟨kept, t', rfl, hkept, hsaved "old", hsaved "new"⟩

end Workspace

end ApiModels
