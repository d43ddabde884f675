import ApiModels.Json.Print
import ApiModels.Json.Table

/-!
# Registry tables

What readers of a release need to know to resolve its names: one table for each release, and an
index that lists the releases and the default one. Both are kept as JSON.
-/

namespace ApiModels

/-- The table of a release. -/
structure ReleaseEntry where
  release : String
  /-- Semantic version of the output. -/
  semver : String
  /-- The version offered at the root of the release. -/
  defaultVersion : String
  versions : List String
  /-- For each version with aliases, the names they stand for. -/
  deprecations : Table (Table String)
deriving DecidableEq, Repr, Inhabited

namespace ReleaseEntry

/-- Whether the release has a version. -/
def hasVersion (e : ReleaseEntry) (version : String) : Bool := e.versions.contains version

/-- The table in JSON. -/
def toJson (e : ReleaseEntry) : Json :=
  .object
    [ ("release", .string e.release), ("semver", .string e.semver),
      ("default_version", .string e.defaultVersion),
      ("versions", .array (e.versions.map .string)),
      ("deprecations", .ofTable (.ofTable .string) e.deprecations) ]

open Json.Reader in
/-- Reads a table. -/
def reader : Json.Reader ReleaseEntry :=
  record
    [ RecordField.required "release" text fun v e => { e with release := v },
      RecordField.required "semver" text fun v e => { e with semver := v },
      RecordField.required "default_version" text fun v e => { e with defaultVersion := v },
      RecordField.required "versions" (list text) fun v e => { e with versions := v },
      RecordField.defaulted "deprecations" (table (table text)) fun v e =>
        { e with deprecations := v } ]
    default

end ReleaseEntry

/-- The index of a registry. -/
structure RegistryIndex where
  /-- The release used when none is chosen. -/
  defaultRelease : Option String
  releases : List String
deriving DecidableEq, Repr, Inhabited

namespace RegistryIndex

/-- The index in JSON. -/
def toJson (i : RegistryIndex) : Json :=
  .object
    [ ("default_release", .ofText? i.defaultRelease),
      ("releases", .array (i.releases.map .string)) ]

open Json.Reader in
/-- Reads an index. -/
def reader : Json.Reader RegistryIndex :=
  record
    [ RecordField.optional "default_release" text fun v i => { i with defaultRelease := v },
      RecordField.required "releases" (list text) fun v i => { i with releases := v } ]
    default

end RegistryIndex

/-- A value as the text of a file: indented, and with a newline at its end. -/
def Json.fileText (v : Json) : String := v.pretty ++ "\n"

end ApiModels
