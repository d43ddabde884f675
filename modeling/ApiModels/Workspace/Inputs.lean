import ApiModels.Swagger.Reading
import ApiModels.Workspace.Failure

/-!
# Building from files

A configuration is read from its file and leads to the schema documents. Building all targets keeps
going when one of them fails: each ends up either built or with its failure.
-/

namespace ApiModels

namespace Config

/-- The target of a release. -/
def target (c : Config) (release : String) : Except Failure Target :=
  match c.target? release with
  | some t => .ok t
  | none => .error (.unknownRelease release)

/-- What is configured for a release. -/
def releaseConfig (c : Config) (release : String) : Except Failure ReleaseConfig :=
  match c.releases.get? release with
  | some r => .ok r
  | none => .error (.missingReleaseConfig release)

/-- Releases to build, in the order of the targets: those wanted, or all when none is named. -/
def selected (c : Config) (wanted : List String) : List String :=
  (c.targets.map Target.release).filter fun r => wanted.isEmpty || wanted.contains r

end Config

/-- What became of the targets of a run. -/
structure BuildResults where
  builds : List Build
  /-- Releases that were not built, and why. -/
  failures : List (String × Failure)

/-- Builds and failures apart, each in the order of the results. -/
def BuildResults.ofList (results : List (String × Except Failure Build)) : BuildResults :=
  { builds := results.filterMap fun r => r.2.toOption,
    failures := results.filterMap fun r =>
      match r.2 with
      | .ok _ => none
      | .error e => some (r.1, e) }

namespace Workspace

variable {m : Type → Type} [Monad m] [Files.Disk m]

/-- The configuration in a file. Relative paths in it are relative to the directory of the file. -/
def loadConfig (path : String) : Run m Config := do
  match Config.ofText (← readText path) with
  | .ok c => return c.rebase ((Files.parent? path).getD "")
  | .error e => throw (.config e)

/-- The schema document in a file. -/
def loadDocument (path : String) : Run m Swagger.Document := readJson Swagger.readDocument path

/-- Builds a release. That it is configured is found out before its document is read. -/
def buildRelease (c : Config) (release : String) : Run m Build := do
  let target ← MonadExcept.ofExcept (c.target release)
  let config ← MonadExcept.ofExcept (c.releaseConfig release)
  return Build.ofDocument config (← loadDocument target.schema)

/-- Builds the wanted releases, or all targets when none is named. A wanted release that is no
target stops the run before it starts. -/
def buildAll (c : Config) (wanted : List String) : Run m BuildResults := do
  wanted.forM fun release => discard (MonadExcept.ofExcept (c.target release))
  let results ← ExceptT.lift <| (c.selected wanted).mapM fun release => do
    return (release, ← (buildRelease (m := m) c release).run)
  return .ofList results

end Workspace

end ApiModels
