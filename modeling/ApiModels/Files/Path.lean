import ApiModels.Text.Pieces

/-!
# Paths

A path is a text of names with slashes between them. Joining and cutting keep it as it was written:
nothing is normalised, so that what is reported is what was configured.
-/

namespace ApiModels.Files

/-- Whether a path starts at the root. -/
def isAbsolute (path : String) : Bool := path.toList.head? == some '/'

/-- A path below a directory. An absolute one stays as it is. -/
def joinPath (dir path : String) : String :=
  if isAbsolute path || dir.isEmpty then path
  else if dir.toList.getLast? = some '/' then dir ++ path
  else dir ++ "/" ++ path

/-- The names of a path. One that says nothing (`.` or none at all) is left out. -/
def names (path : String) : List String :=
  (Text.split '/' path).filter fun n => !n.isEmpty && n != "."

/-- Whether a path comes no later than another, name by name: what a directory holds comes before
a file whose name the directory's begins. -/
def pathLE (a b : String) : Bool := !decide (names b < names a)

/-- The end of a path without the slashes and dots that say nothing, read backwards. -/
def trimmed : List Char → List Char
  | '/' :: cs => trimmed cs
  | '.' :: '/' :: cs => trimmed ('/' :: cs)
  | cs => cs

/-- The path of the directory that holds what a path names, or none for a path without a name. -/
def parent? (path : String) : Option String :=
  match trimmed path.toList.reverse with
  | [] => none
  | named =>
    let dir := named.dropWhile (· ≠ '/')
    some (if dir.isEmpty then ""
      else
        match trimmed dir with
        | [] => "/"
        | cs => String.ofList cs.reverse)

/-- A file name cut at its last dot, unless that is its first character. -/
def splitExtension (name : String) : String × Option String :=
  match Text.splitLast? '.' name with
  | some (stem, extension) => if stem.isEmpty then (name, none) else (stem, some extension)
  | none => (name, none)

end ApiModels.Files
