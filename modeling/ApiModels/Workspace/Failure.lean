import ApiModels.Config
import ApiModels.Files.Disk
import ApiModels.Json.Reader

/-!
# Failures

Why a run on files stops. Each failure is a cause; the words for it are made in one place.
-/

namespace ApiModels

/-- Why a run failed. -/
inductive Failure where
  | config (e : ConfigError)
  /-- A target without a release block. -/
  | missingReleaseConfig (release : String)
  /-- A release that is no target. -/
  | unknownRelease (release : String)
  /-- A file whose text is not the JSON it should be. -/
  | malformed (path text : String) (fault : Json.Fault)
  | file (path : String) (e : Files.FileError)
deriving DecidableEq, Repr

/-- The failure in words. -/
def Failure.text : Failure → String
  | config e => "Invalid configuration: " ++ e.text
  | missingReleaseConfig release => "No configuration for release " ++ release
  | unknownRelease release => "Unknown release " ++ release
  | malformed path _ _ => "Failed to parse schema JSON in " ++ path
  | file path e => path ++ ": " ++ e.text

namespace Workspace

variable {m : Type → Type} [Monad m]

/-- What is done with files, up to the first failure. -/
abbrev Run (m : Type → Type) := ExceptT Failure m

/-- Does something with a file; if it fails, the failure names the file. -/
def onFile (path : String) (action : m (Files.Outcome α)) : Run m α := do
  match ← ExceptT.lift action with
  | .ok a => return a
  | .error e => throw (.file path e)

variable [Files.Disk m]

/-- The text of a file. -/
def readText (path : String) : Run m String := onFile path (Files.Disk.read path)

/-- Writes a text to a file. -/
def writeText (path text : String) : Run m Unit := onFile path (Files.Disk.write path text)

/-- Makes a directory and those above it, unless they exist. -/
def makeDirectories (path : String) : Run m Unit := onFile path (Files.Disk.makeDirectories path)

/-- What a JSON file holds. -/
def readJson (reader : Json.Reader α) (path : String) : Run m α := do
  let text ← readText path
  match Json.Reader.ofText reader text with
  | .ok a => return a
  | .error fault => throw (.malformed path text fault)

end Workspace

end ApiModels
