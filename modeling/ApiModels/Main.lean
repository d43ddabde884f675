import ApiModels.Command.Build
import ApiModels.Command.Diff

/-!
# The program

The commands on the files of the machine: `build` and `diff`, each followed by its own arguments.
-/

namespace ApiModels.Files

/-- The reason behind an error of the machine. -/
def FileError.ofMachine : IO.Error → FileError
  | .noFileOrDirectory .. => notFound
  | .alreadyExists .. => alreadyExists
  | .inappropriateType _ 20 _ => notDirectory
  | .inappropriateType _ 21 _ => isDirectory
  | e => other (toString e)

/-- What came of an action on the machine's files. -/
def outcomeOf (action : IO α) : IO (Outcome α) := do
  match ← action.toBaseIO with
  | .ok a => return .ok a
  | .error e => return .error (.ofMachine e)

/-- Whether a path names something of a kind. -/
def isOfKind (kind : IO.FS.FileType) (path : String) : IO Bool := do
  match ← (do return (← (← IO.FS.realPath path).metadata).type : IO IO.FS.FileType).toBaseIO with
  | .ok found => return found == kind
  | .error _ => return false

instance : Disk IO where
  read path := outcomeOf (IO.FS.readFile path)
  write path text := outcomeOf (IO.FS.writeFile path text)
  makeDirectories path :=
    if path.isEmpty then pure (.ok ()) else outcomeOf (IO.FS.createDirAll path)
  removeDirectory path := outcomeOf (IO.FS.removeDirAll path)
  removeFile path := outcomeOf (IO.FS.removeFile path)
  isDirectory := isOfKind .dir
  isFile := isOfKind .file
  list path := outcomeOf do return (← (← IO.FS.realPath path).readDir).toList.map (·.fileName)

end ApiModels.Files

/-- Runs a command. -/
def main (args : List String) : IO UInt32 := do
  let report ← match args with
    | "build" :: rest => ApiModels.Command.build rest
    | "diff" :: rest => ApiModels.Command.diff rest
    | _ => pure { code := 2, complaints := "expected a command: build or diff\n" }
  (← IO.getStdout).putStr report.output
  (← IO.getStderr).putStr report.complaints
  return UInt32.ofNat report.code
