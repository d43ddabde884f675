import ApiModels.Generated.Form
import ApiModels.Source.Format

/-!
# The text of a generated file

Below a header that warns against edits stands the formatted code. A blank line sets off what
follows a closing brace at the margin, and what follows the last of a run of module declarations.
-/

namespace ApiModels.Generated

/-- What every generated file begins with. -/
def header : String :=
  "// @generated by keel-builder. DO NOT EDIT.\n//\n"
    ++ "// This file was automatically generated from cluster API schemas.\n"
    ++ "// Any manual changes will be overwritten on the next regeneration.\n\n"

/-- Whether a line declares a public module that has a file of its own. -/
def declaresModule (line : String) : Bool :=
  (Text.dropStart? "pub mod " line).isSome && (Text.dropEnd? ";" line).isSome

/-- Whether a blank line belongs between two lines that are not blank. -/
def setsOff (line next : String) : Bool :=
  line == "\x7d" || (declaresModule line && (Text.dropStart? "pub mod " next).isNone)

/-- Lines with blank ones where something is set off. -/
def spaced : List String → List String
  | [] => []
  | [line] => [line]
  | line :: next :: lines =>
    let rest := spaced (next :: lines)
    if !next.isEmpty && setsOff line next then line :: "" :: rest else line :: rest

/-- The text of a file of code. -/
def sourceText (f : Source.File) : String :=
  header ++ Text.join "\n" (spaced (Text.lines f.render)) ++ "\n"

/-- The text of a generated file. -/
def fileText (f : File) : String := sourceText f.form

end ApiModels.Generated
