import ApiModels.Files.Path
import ApiModels.Registry.Lookup
import ApiModels.Text.NaturalOrder
import ApiModels.Workspace.Failure

/-!
# Registries on disk

A directory with a table for each release and an index of them. Writing the tables of some releases
keeps those of others, since the index lists whatever tables are there.
-/

namespace ApiModels

/-- Why a registry could not be loaded. -/
inductive LoadFault where
  | file (e : Files.FileError)
  | content (fault : Json.Fault)
deriving DecidableEq, Repr

/-- The file of a registry that could not be loaded, and why. -/
structure LoadError where
  path : String
  fault : LoadFault
deriving DecidableEq, Repr

/-- The error in words. -/
def LoadError.text (e : LoadError) : String :=
  "failed to load registry from " ++ e.path ++ ": " ++
    match e.fault with
    | .file e => e.text
    | .content _ => "not a registry table"

namespace Workspace

open Files

variable {m : Type → Type} [Monad m] [Disk m]

/-- Name of the index of a registry. -/
def indexName : String := "index.json"

/-- The file that holds the index of a registry. -/
def indexPath (dir : String) : String := joinPath dir indexName

/-- The file that holds the table of a release. -/
def tablePath (dir release : String) : String := joinPath dir (release ++ ".json")

/-- The release whose table has a file name, if one has. -/
def releaseOfName? (name : String) : Option String :=
  if name = indexName then none
  else
    match splitExtension name with
    | (stem, some "json") => some stem
    | _ => none

/-- Releases with a table in a directory, oldest first. -/
def releasesOnDisk (dir : String) : Run m (List String) := do
  let names ← onFile dir (Disk.list dir)
  return Text.naturalSort (names.filterMap releaseOfName?)

/-- The index of some releases, oldest first. The default one is the one asked for if it is among
them, else the newest. -/
def indexOf (default : Option String) (releases : List String) : RegistryIndex :=
  { defaultRelease := (default.filter releases.contains).or releases.getLast?, releases }

/-- Writes the tables of some releases, and the index of all that are there then. -/
def writeRegistry (dir : String) (entries : List ReleaseEntry) (default : Option String) :
    Run m RegistryIndex := do
  makeDirectories dir
  entries.forM fun e => writeText (tablePath dir e.release) e.toJson.fileText
  let index := indexOf default (← releasesOnDisk dir)
  writeText (indexPath dir) index.toJson.fileText
  return index

/-- What a file of a registry holds. -/
def loadTable (reader : Json.Reader α) (path : String) : ExceptT LoadError m α := do
  match ← ExceptT.lift (Disk.read path) with
  | .error e => throw ⟨path, .file e⟩
  | .ok text =>
    match Json.Reader.ofText reader text with
    | .ok a => return a
    | .error fault => throw ⟨path, .content fault⟩

/-- The registry in a directory: its index, and the table of every release it lists. -/
def loadRegistry (dir : String) : ExceptT LoadError m Registry := do
  let index ← loadTable RegistryIndex.reader (indexPath dir)
  let entries ← index.releases.mapM fun release =>
    loadTable ReleaseEntry.reader (tablePath dir release)
  return .ofEntries index entries

end Workspace

end ApiModels
