import ApiModels.Command.Report
import ApiModels.Workspace.Snapshot

/-!
# The diff command

Lists the changes from one snapshot of methods to another, and counts them. It can be told not to
end well when a method is gone.
-/

namespace ApiModels.Command

open Workspace (Run)
open MethodMap (MethodChange)

/-- What the diff command can be given. -/
def diffUsage : Usage :=
  { choices := [⟨"fail-on-removed", none, .nothing, false⟩], operands := ["OLD", "NEW"] }

variable {m : Type → Type} [Monad m] [Files.Disk m]

/-- The changes from the snapshot in one file to that in another. -/
def changesBetween (old new : String) : Run m (List MethodChange) := do
  let before ← Workspace.loadMethods old
  let after ← Workspace.loadMethods new
  return MethodMap.diff before after

/-- How many changes of each kind there are. -/
def tally (changes : List MethodChange) : String :=
  toString (changes.countP (·.isAddition)) ++ " added, "
    ++ toString (changes.countP (·.isRemoval)) ++ " removed, "
    ++ toString (changes.countP (·.isRelocation)) ++ " relocated"

/-- The report on some changes. -/
def diffReport (failOnRemoved : Bool) (changes : List MethodChange) : Report :=
  if changes.isEmpty then { output := "No method changes\n" }
  else
    let removed := changes.countP (·.isRemoval)
    let output := unlines (changes.map (·.text) ++ [tally changes])
    if failOnRemoved && removed > 0 then
      { code := 1, output, complaints := toString removed ++ " method(s) removed\n" }
    else { output }

/-- Runs the diff command. -/
def diff (args : List String) : m Report := do
  match diffUsage.read args with
  | .error stop => return .ofStop diffUsage stop
  | .ok given =>
    match ← (changesBetween (m := m) (given.operand 0) (given.operand 1)).run with
    | .error e => return .ofFailure e
    | .ok changes => return diffReport (given.has "fail-on-removed") changes

end ApiModels.Command
