import ApiModels.Registry.Entry

/-!
# Resolving names

A registry holds the tables of some releases. A name that is an alias is followed, through other
aliases, to the name that is none.
-/

namespace ApiModels

/-- Why a look-up failed. -/
inductive RegistryError where
  | unknownRelease (release : String)
  | unknownVersion (release version : String)
  | noDefaultRelease
  | aliasCycle (name : String)
deriving DecidableEq, Repr

/-- The error in words. -/
def RegistryError.text : RegistryError → String
  | unknownRelease release => "unknown release " ++ release
  | unknownVersion release version => "release " ++ release ++ " has no version " ++ version
  | noDefaultRelease => "no release selected and no default release recorded"
  | aliasCycle name => "deprecation chain for " ++ name ++ " is cyclic"

/-- A name with the release and version it was found in. -/
structure Resolved where
  release : String
  version : String
  name : String
deriving DecidableEq, Repr

/-- Tables of releases and their index. -/
structure Registry where
  index : RegistryIndex
  releases : Table ReleaseEntry
deriving DecidableEq, Repr

namespace Registry

/-- The registry of some tables. Of several for one release the last counts. -/
def ofEntries (index : RegistryIndex) (entries : List ReleaseEntry) : Registry :=
  { index, releases := .ofList (entries.map fun e => (e.release, e)) }

/-- The table of a release. -/
def release (r : Registry) (label : String) : Except RegistryError ReleaseEntry :=
  match r.releases.get? label with
  | some e => .ok e
  | none => .error (.unknownRelease label)

/-- A version, if the release has it, or else its default one. -/
def resolveVersion (r : Registry) (label : String) (version : Option String) :
    Except RegistryError String := do
  let e ← r.release label
  match version with
  | none => return e.defaultVersion
  | some v => if e.hasVersion v then return v else throw (.unknownVersion label v)

/-- An alias that was not met on the way leaves fewer that have not been. -/
theorem length_filter_met_lt {aliases : Table String} {met : List String} {name next : String}
    (hnext : aliases.get? name = some next) (hnew : name ∉ met) :
    (aliases.keys.filter fun key => key ∉ name :: met).length
      < (aliases.keys.filter fun key => key ∉ met).length := by
  have hkey : name ∈ aliases.keys := by
    obtain ⟨before, after, hentries, -⟩ := List.lookup_eq_some_iff.mp hnext
    unfold Table.keys
    rw [hentries]
    simp
  have hfilter : (aliases.keys.filter fun key => key ∉ name :: met)
      = (aliases.keys.filter fun key => key ∉ met).filter fun key => key ≠ name := by
    rw [List.filter_filter]
    exact List.filter_congr fun key _ => by simp
  rw [hfilter]
  exact List.length_filter_lt_length_iff_exists.mpr ⟨name, by simp [hkey, hnew], by simp⟩

/-- The end of a chain of aliases, unless the chain comes back to an alias that was met on the
way. -/
def follow (aliases : Table String) (met : List String) (name : String) : Option String :=
  match _hnext : aliases.get? name with
  | none => some name
  | some next => if _hnew : name ∈ met then none else follow aliases (name :: met) next
termination_by (aliases.keys.filter fun key => key ∉ met).length
decreasing_by exact length_filter_met_lt _hnext _hnew

/-- The end of a chain of aliases, if it has one. -/
def chainEnd? (aliases : Table String) (name : String) : Option String :=
  follow aliases [] name

/-- The name that a name stands for in a version of a release. -/
def canonicalName (r : Registry) (label version name : String) :
    Except RegistryError String := do
  let e ← r.release label
  if !e.hasVersion version then throw (.unknownVersion label version)
  match chainEnd? ((e.deprecations.get? version).getD {}) name with
  | some canonical => return canonical
  | none => throw (.aliasCycle name)

/-- Whether a name is an alias in a version of a release. -/
def isDeprecated (r : Registry) (label version name : String) : Bool :=
  match (r.releases.get? label).bind fun e => e.deprecations.get? version with
  | some aliases => aliases.contains name
  | none => false

/-- Resolves a name in the release that was selected, or else in the default one. -/
def resolve (r : Registry) (selected version : Option String) (name : String) :
    Except RegistryError Resolved :=
  match selected.or r.index.defaultRelease with
  | none => .error .noDefaultRelease
  | some release => do
    let version ← r.resolveVersion release version
    return { release, version, name := ← r.canonicalName release version name }

end Registry

end ApiModels
