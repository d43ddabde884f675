import ApiModels.Build
import ApiModels.Json.Table

/-!
# Method maps

A method map records, for each release and version, the class of every method. The difference of two
maps lists the methods that came, went or moved, in the order of release, version and method.
-/

namespace ApiModels

/-- Class by method, by version, by release. -/
abbrev MethodMap := Table (Table (Table String))

namespace MethodMap

/-- The map with the section of a build's release replaced. -/
def insertBuild (map : MethodMap) (b : Build) : MethodMap := map.insert b.label b.methodMap

/-- The map of some builds. -/
def ofBuilds (builds : List Build) : MethodMap := builds.foldl insertBuild {}

/-- The methods of a version of a release. -/
def methods (map : MethodMap) (release version : String) : Table String :=
  ((map.get? release).bind (·.get? version)).getD {}

/-- What happened to a method. -/
inductive Change where
  | added (after : String)
  | removed (before : String)
  | relocated (before after : String)
deriving DecidableEq, Repr

/-- A method whose class differs between two maps. -/
structure MethodChange where
  release : String
  version : String
  method : String
  change : Change
deriving DecidableEq, Repr

namespace MethodChange

/-- Whether the method is gone. -/
def isRemoval (c : MethodChange) : Bool :=
  match c.change with
  | .removed _ => true
  | _ => false

/-- Whether the method is new. -/
def isAddition (c : MethodChange) : Bool :=
  match c.change with
  | .added _ => true
  | _ => false

/-- Whether the method has moved. -/
def isRelocation (c : MethodChange) : Bool :=
  match c.change with
  | .relocated _ _ => true
  | _ => false

/-- Name of the kind of change. -/
def kind (c : MethodChange) : String :=
  match c.change with
  | .added _ => "added"
  | .removed _ => "removed"
  | .relocated _ _ => "relocated"

/-- A change on one line. -/
def text (c : MethodChange) : String :=
  let place := c.release ++ "/" ++ c.version
  match c.change with
  | .added after => "+ " ++ place ++ " " ++ after ++ "::" ++ c.method
  | .removed before => "- " ++ place ++ " " ++ before ++ "::" ++ c.method
  | .relocated before after =>
    "~ " ++ place ++ " " ++ c.method ++ " moved " ++ before ++ " -> " ++ after

end MethodChange

/-- What happened to a method with the given classes before and after. -/
def change? (before after : Option String) : Option Change :=
  match before, after with
  | none, some b => some (.added b)
  | some a, none => some (.removed a)
  | some a, some b => if a = b then none else some (.relocated a b)
  | none, none => none

/-- Changes within a version of a release. -/
def diffVersion (old new : MethodMap) (release version : String) : List MethodChange :=
  let before := old.methods release version
  let after := new.methods release version
  (sortedTexts (before.keys ++ after.keys)).filterMap fun method =>
    (change? (before.get? method) (after.get? method)).map fun change =>
      { release, version, method, change }

/-- Versions that a release has in either map. -/
def versionsOf (old new : MethodMap) (release : String) : List String :=
  sortedTexts (((old.get? release).getD {}).keys ++ ((new.get? release).getD {}).keys)

/-- Changes from one map to another. -/
def diff (old new : MethodMap) : List MethodChange :=
  (sortedTexts (old.keys ++ new.keys)).flatMap fun release =>
    (versionsOf old new release).flatMap (diffVersion old new release)

/-! ## Text -/

/-- A method map in JSON. -/
def toJson (map : MethodMap) : Json := Json.ofTable (Json.ofTable (Json.ofTable .string)) map

/-- Reads a method map. -/
def reader : Json.Reader MethodMap :=
  Json.Reader.table (Json.Reader.table (Json.Reader.table Json.Reader.text))

end MethodMap

end ApiModels
