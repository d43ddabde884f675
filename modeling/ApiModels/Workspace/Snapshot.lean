import ApiModels.Files.Path
import ApiModels.MethodMap
import ApiModels.Registry.Entry
import ApiModels.Workspace.Failure

/-!
# Snapshots

The method map of earlier runs, kept in a file from one run to the next.
-/

namespace ApiModels.Workspace

variable {m : Type → Type} [Monad m] [Files.Disk m]

/-- The method map in a file. -/
def loadMethods (path : String) : Run m MethodMap := readJson MethodMap.reader path

/-- The method map in a file, or an empty one if there is no such file. -/
def loadMethodsIfAny (path : String) : Run m MethodMap := do
  if ← ExceptT.lift (Files.pathExists path) then loadMethods path else return {}

/-- Keeps a method map in a file, in a directory that is made if need be. -/
def saveMethods (path : String) (map : MethodMap) : Run m Unit := do
  match Files.parent? path with
  | some dir => unless dir.isEmpty do makeDirectories dir
  | none => pure ()
  writeText path map.toJson.fileText

/-- Replaces the sections of some builds in the method map that a file keeps. -/
def recordMethods (path : String) (builds : List Build) : Run m Unit := do
  saveMethods path (builds.foldl MethodMap.insertBuild (← loadMethodsIfAny path))

end ApiModels.Workspace
