import ApiModels.Files.Disk
import ApiModels.Files.Path
import ApiModels.Table

/-!
# File trees

A disk in memory: the texts of files and the directories, by the names that lead to them. The root
is the directory in which the program runs, and nothing outside it can be named.
-/

namespace ApiModels.Files

/-- Files and directories by their places. The root is not listed. -/
structure FileTree where
  files : Table String := {}
  directories : Table Unit := {}

namespace FileTree

/-- The names that lead to something. -/
abbrev Place := List String

/-- The key of a place. -/
def key (p : Place) : String := Text.join "/" p

/-- Whether a place is a directory. -/
def hasDirectory (t : FileTree) (p : Place) : Bool := p.isEmpty || t.directories.contains (key p)

/-- Whether a place is a file. -/
def hasFile (t : FileTree) (p : Place) : Bool := t.files.contains (key p)

/-- Follows names from a place. Every one but the last has to lead to a directory. -/
def follow (t : FileTree) (p : Place) : List String → Outcome Place
  | [] => .ok p
  | name :: more =>
    if t.hasDirectory p then
      t.follow (if name = "." then p else if name = ".." then p.dropLast else p ++ [name]) more
    else if t.hasFile p then .error .notDirectory
    else .error .notFound

/-- Whether a path ends in a slash, and so can only name a directory. -/
def namesDirectory (path : String) : Bool := path.toList.getLast? = some '/'

/-- The place that a path names. It need not exist; the directory it is in has to. -/
def place (t : FileTree) (path : String) : Outcome Place := do
  if path.isEmpty || isAbsolute path then throw .notFound
  let p ← t.follow [] ((Text.split '/' path).filter fun name => !name.isEmpty)
  if namesDirectory path && t.hasFile p then throw .notDirectory
  return p

/-- Whether a path names a directory. -/
def isDirectory (t : FileTree) (path : String) : Bool :=
  match t.place path with
  | .ok p => t.hasDirectory p
  | .error _ => false

/-- Whether a path names a file. -/
def isFile (t : FileTree) (path : String) : Bool :=
  match t.place path with
  | .ok p => t.hasFile p
  | .error _ => false

/-- The text of a file. -/
def read (t : FileTree) (path : String) : Outcome String := do
  let p ← t.place path
  match t.files.get? (key p) with
  | some text => return text
  | none => throw (if t.hasDirectory p then .isDirectory else .notFound)

/-- The tree with a text written to a file. -/
def write (t : FileTree) (path text : String) : Outcome FileTree := do
  let p ← t.place path
  if t.hasDirectory p || namesDirectory path then throw .isDirectory
  return { t with files := t.files.insert (key p) text }

/-- The tree with a directory made in one that exists. -/
def makeDirectory (t : FileTree) (path : String) : Outcome FileTree := do
  let p ← t.place path
  if t.hasDirectory p || t.hasFile p then throw .alreadyExists
  return { t with directories := t.directories.insert (key p) () }

/-- Makes a directory in one that exists; one that is there already will do. -/
def ensureDirectory (t : FileTree) (path : String) : Outcome FileTree :=
  match t.makeDirectory path with
  | .ok t => .ok t
  | .error e => if t.isDirectory path then .ok t else .error e

/-- The tree with a directory made, and those above it where they are missing. A path has fewer
directories above it than characters. -/
def makeDirectories (t : FileTree) (path : String) : Outcome FileTree :=
  go path.length t path
where
  /-- Makes at most so many missing directories above a path. -/
  go : Nat → FileTree → String → Outcome FileTree
    | 0, t, path => if path.isEmpty then .ok t else t.ensureDirectory path
    | n + 1, t, path =>
      if path.isEmpty then .ok t
      else
        match t.ensureDirectory path, parent? path with
        | .error .notFound, some dir => do (← go n t dir).ensureDirectory path
        | result, _ => result

/-- Whether a key is that of a place or of something below it. -/
def isUnder (p : Place) (k : String) : Bool :=
  k == key p || (Text.dropStart? (key p ++ "/") k).isSome

/-- A table without some entries. -/
def without (t : Table α) (drop : String → Bool) : Table α :=
  ⟨t.entries.filter fun e => !drop e.1, t.sorted.filter _⟩

/-- The tree without a directory and all below it. -/
def removeDirectory (t : FileTree) (path : String) : Outcome FileTree := do
  let p ← t.place path
  if t.hasFile p then throw .notDirectory
  if !t.hasDirectory p then throw .notFound
  return { files := without t.files (isUnder p), directories := without t.directories (isUnder p) }

/-- The tree without a file. -/
def removeFile (t : FileTree) (path : String) : Outcome FileTree := do
  let p ← t.place path
  if t.hasDirectory p then throw .isDirectory
  if !t.hasFile p then throw .notFound
  return { t with files := without t.files (· == key p) }

/-- The name of what a key stands for, if that is directly in a directory. -/
def nameIn? (p : Place) (k : String) : Option String :=
  let rest := if p.isEmpty then some k else Text.dropStart? (key p ++ "/") k
  rest.filter fun name => !name.toList.contains '/'

/-- Names in a directory. -/
def list (t : FileTree) (path : String) : Outcome (List String) := do
  let p ← t.place path
  if t.hasFile p then throw .notDirectory
  if !t.hasDirectory p then throw .notFound
  return sortedTexts ((t.files.keys ++ t.directories.keys).filterMap (nameIn? p))

/-- Keys of the files below a directory, with what leads from it to each. -/
def filesUnder (t : FileTree) (path : String) : List (String × String) :=
  match t.place path with
  | .ok p =>
    t.files.entries.filterMap fun e =>
      if p.isEmpty then some e else (Text.dropStart? (key p ++ "/") e.1).map fun rest => (rest, e.2)
  | .error _ => []

/-- Keeps the result of a change, or the tree as it was. -/
def commit (t : FileTree) : Outcome FileTree → Outcome Unit × FileTree
  | .ok t => (.ok (), t)
  | .error e => (.error e, t)

instance : Disk (StateM FileTree) where
  read path t := (t.read path, t)
  write path text t := t.commit (t.write path text)
  makeDirectories path t := t.commit (t.makeDirectories path)
  removeDirectory path t := t.commit (t.removeDirectory path)
  removeFile path t := t.commit (t.removeFile path)
  isDirectory path t := (t.isDirectory path, t)
  isFile path t := (t.isFile path, t)
  list path t := (t.list path, t)

end FileTree

end ApiModels.Files
