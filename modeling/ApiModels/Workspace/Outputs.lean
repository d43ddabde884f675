import ApiModels.Generated.Module
import ApiModels.Generated.Text
import ApiModels.Workspace.Inputs
import ApiModels.Workspace.RegistryFiles
import ApiModels.Workspace.Snapshot

/-!
# Outputs

The files of a run: the code of every release that was built, the crate root, the registry, and the
snapshot of the methods if one is configured. What an earlier run wrote for a release goes before
it is written again; releases that were not built stay as they are.
-/

namespace ApiModels.Workspace

open Files
open Source (fileStem)

variable {m : Type → Type} [Monad m] [Disk m]

/-- Removes the code of a release. -/
def clearRelease (codegen stem : String) : Run m Unit := do
  let dir := joinPath codegen stem
  if ← ExceptT.lift (Disk.isDirectory dir) then onFile dir (Disk.removeDirectory dir)
  let file := joinPath codegen (stem ++ ".rs")
  if ← ExceptT.lift (Disk.isFile file) then onFile file (Disk.removeFile file)

/-- Writes a file of code below a directory. -/
def writeFile (codegen path : String) (file : Generated.File) : Run m Unit := do
  let full := joinPath codegen path
  match parent? full with
  | some dir => makeDirectories dir
  | none => pure ()
  writeText full (Generated.fileText file)

/-- The files of a release, those in a directory before those beside it. -/
def orderedFiles (b : Build) : List (String × Generated.File) :=
  (Generated.files b).entries.mergeSort fun f g => pathLE f.1 g.1

/-- Writes the code of a release in place of what was there. -/
def writeRelease (codegen : String) (b : Build) : Run m Unit := do
  clearRelease codegen (fileStem b.label)
  (orderedFiles b).forM fun f => writeFile codegen f.1 f.2

/-- Targets whose code is there. -/
def presentTargets (c : Config) : m (List String) :=
  (c.targets.map Target.release).filterM fun release =>
    Disk.isFile (joinPath c.output.codegen (fileStem release ++ ".rs"))

/-- The default among the releases whose code is there: the default of the configuration if it is
one of them, else the newest. -/
def presentDefault (c : Config) (present : List String) : Option String :=
  (c.defaultRelease.filter present.contains).or (Text.naturalMax? present)

/-- Writes everything that comes of some builds. -/
def writeOutputs (c : Config) (builds : List Build) : Run m Unit := do
  makeDirectories c.output.codegen
  builds.forM (writeRelease c.output.codegen)
  let present ← ExceptT.lift (presentTargets c)
  let default := presentDefault c present
  writeFile c.output.codegen "lib.rs" (Generated.rootModule present default)
  discard (writeRegistry c.output.registry (builds.map Build.registryEntry) default)
  match c.output.snapshot with
  | some path => recordMethods path builds
  | none => pure ()

end ApiModels.Workspace
