/-!
# Disks

What the program does with files, in any monad that can do it: a real disk, or a tree of files in
memory. Every operation may fail for one of a few reasons.
-/

namespace ApiModels.Files

/-- Why an operation on a file failed. -/
inductive FileError where
  | notFound
  | alreadyExists
  | notDirectory
  | isDirectory
  | other (reason : String)
deriving DecidableEq, Repr

/-- The error in words. -/
def FileError.text : FileError → String
  | notFound => "No such file or directory (os error 2)"
  | alreadyExists => "File exists (os error 17)"
  | notDirectory => "Not a directory (os error 20)"
  | isDirectory => "Is a directory (os error 21)"
  | other reason => reason

/-- A result of an operation on files. -/
abbrev Outcome := Except FileError

/-- Operations on files by their paths. -/
class Disk (m : Type → Type) where
  /-- The text of a file. -/
  read : String → m (Outcome String)
  /-- Writes a text to a file, new or not, in a directory that exists. -/
  write : String → String → m (Outcome Unit)
  /-- Makes a directory and those above it, unless they exist. -/
  makeDirectories : String → m (Outcome Unit)
  /-- Removes a directory and all below it. -/
  removeDirectory : String → m (Outcome Unit)
  removeFile : String → m (Outcome Unit)
  isDirectory : String → m Bool
  isFile : String → m Bool
  /-- Names in a directory. -/
  list : String → m (Outcome (List String))

/-- Whether a path names anything. -/
def pathExists [Monad m] [Disk m] (path : String) : m Bool := do
  if ← Disk.isFile path then pure true else Disk.isDirectory path

end ApiModels.Files
