import ApiModels.Command.Report
import ApiModels.Text.Quoted
import ApiModels.Workspace.Outputs

/-!
# The build command

Builds the targets of a configuration and writes what comes of them. A release that fails does not
keep the others from being written, but the command does not end well then.
-/

namespace ApiModels.Command

open Workspace (Run)

/-- What the build command can be given. -/
def buildUsage : Usage :=
  { choices :=
      [ ⟨"config", 'c', .path, false⟩, ⟨"release", 'r', .text, true⟩,
        ⟨"verbose", 'v', .nothing, false⟩ ] }

/-- What the build command is to do. -/
structure BuildOrder where
  /-- The file of the configuration. -/
  config : String
  /-- Releases to build; all if there is none. -/
  releases : List String
  /-- Whether to tell what was found in the schema documents. -/
  verbose : Bool
deriving DecidableEq, Repr

/-- The file of the configuration when none is given. -/
def usualConfig : String := "keel.kdl"

/-- What the build command is told by its arguments. -/
def BuildOrder.ofGiven (g : Given) : BuildOrder :=
  { config := ((g.valuesOf "config").head?).getD usualConfig,
    releases := g.valuesOf "release",
    verbose := g.has "verbose" }

variable {m : Type → Type} [Monad m] [Files.Disk m]

/-- Builds and writes; gives the configuration and what became of its targets. -/
def buildAndWrite (order : BuildOrder) : Run m (Config × BuildResults) := do
  let config ← Workspace.loadConfig order.config
  let results ← Workspace.buildAll config order.releases
  Workspace.writeOutputs config results.builds
  return (config, results)

/-- The report of a build: a summary of each release that was built, and where the code is. -/
def buildReport (order : BuildOrder) (config : Config) (results : BuildResults) : Report :=
  let found := results.builds.flatMap fun b => b.diagnostics.map (·.text)
  let aborted := results.failures.map fun f => f.1 ++ ": " ++ f.2.text
  { code := if results.failures.isEmpty then 0 else 1,
    output := unlines
      (results.builds.map (fun b => b.summary.text)
        ++ ["Generated code to " ++ Text.quoted config.output.codegen]),
    complaints := unlines ((if order.verbose then found else []) ++ aborted) }

/-- Runs the build command. -/
def build (args : List String) : m Report := do
  match buildUsage.read args with
  | .error stop => return .ofStop buildUsage stop
  | .ok given =>
    let order := BuildOrder.ofGiven given
    match ← (buildAndWrite (m := m) order).run with
    | .error e => return .ofFailure e
    | .ok (config, results) => return buildReport order config results

end ApiModels.Command
