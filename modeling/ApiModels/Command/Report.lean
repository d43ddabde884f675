import ApiModels.Command.Arguments
import ApiModels.Workspace.Failure

/-!
# Reports

What a command leaves behind besides files: a code, what it printed, and its complaints. The code is
0 if all went well, 2 if the arguments were wrong, and else 1.
-/

namespace ApiModels.Command

/-- What a command answers. -/
structure Report where
  code : Nat := 0
  output : String := ""
  complaints : String := ""
deriving DecidableEq, Repr

/-- A text of some lines, each with a newline at its end. -/
def unlines (lines : List String) : String := Text.join "" (lines.map (· ++ "\n"))

/-- The name and version of the program. -/
def programVersion : String := "keel-builder 0.3.0"

/-- How an option is written in a summary of a command. -/
def Choice.summary (c : Choice) : String :=
  let value := if c.expects = .nothing then "" else " <" ++ c.name ++ ">"
  let letter := (c.letter.map fun l => ", -" ++ String.singleton l).getD ""
  "  --" ++ c.name ++ letter ++ value

/-- A summary of what a command can be given. -/
def Usage.summary (u : Usage) : String :=
  unlines
    ((if u.operands.isEmpty then [] else "Operands:" :: u.operands.map ("  " ++ ·))
      ++ "Options:" :: u.allChoices.map (·.summary))

namespace Report

/-- The report of a command that did not go on with its arguments. -/
def ofStop (u : Usage) : Stop → Report
  | .help => { output := u.summary }
  | .version => { output := programVersion ++ "\n" }
  | .misuse e => { code := 2, complaints := e.text ++ "\n" }

/-- The report of a run that failed. -/
def ofFailure (e : Failure) : Report := { code := 1, complaints := e.text ++ "\n" }

end Report

end ApiModels.Command
