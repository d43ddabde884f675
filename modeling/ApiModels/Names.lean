import ApiModels.Model
import ApiModels.Text.FirstFree

/-!
# Names of types

Types of one version may share a simple name. One of them, the primary, keeps it; each other gets an
alias made of the name and its group. Which is primary is decided by a preference, else by a fixed
order of groups. No two types of a version end up with one name.
-/

namespace ApiModels

/-- Stands for the group in the alias of a type without one. -/
def ungrouped : String := "ungrouped"

/-- Groups that come first among types of one name. -/
def groupRank : Option String → Nat
  | some "core" => 0
  | some "meta" => 1
  | some _ => 2
  | none => 3

/-- The order of groups: core, meta, the others alphabetically, no group last. -/
def compareGroups (a b : Option String) : Ordering :=
  (compare (groupRank a) (groupRank b)).then <|
    match a, b with
    | none, none => .eq
    | none, some _ => .lt
    | some _, none => .gt
    | some a, some b => compare a b

/-- What a group adds to an alias. -/
def aliasSuffix (group : Option String) : String :=
  match group with
  | some g => g.map fun c => if c = '.' ∨ c = '-' then '_' else c
  | none => ungrouped

/-- The types of a version that share a simple name, with the aliases of those not primary. -/
structure NameEntry where
  version : String
  name : String
  primary : TypeId
  aliases : List (TypeId × String)
deriving DecidableEq, Repr

/-- Groups preferred for the primary of a simple name, the first that has a type wins. -/
abbrev Preferences := Table (List String)

/-- The names of a release: an entry for each version and simple name, in their order, and the name
of every type. -/
structure Names where
  entries : List NameEntry
  resolved : Array String
deriving Repr

namespace Names

/-- The order of types of one name: by group, then by key. -/
def compareMembers (m : ReleaseModel) (a b : TypeId) : Ordering :=
  (compareGroups (m.type a).group (m.type b).group).then (compare (m.type a).key (m.type b).key)

/-- Types of a version with a simple name, the one that is primary by default first. -/
def members (m : ReleaseModel) (version name : String) : List TypeId :=
  (m.find version name).mergeSort fun a b => compareMembers m a b != .gt

/-- The primary among types of one name: the first of the first preferred group that has one, else
the first. -/
def primaryOf (m : ReleaseModel) (preferred : List String) (ids : List TypeId) : TypeId :=
  (preferred.findSome? fun g => ids.find? fun id => (m.type id).group == some g).getD (ids.headD 0)

/-- Gives each type an alias that is not taken yet. -/
def assignAliases (m : ReleaseModel) (name : String) :
    (taken : List String) → List TypeId → List (TypeId × String)
  | _, [] => []
  | taken, id :: ids =>
    let base := name ++ "_" ++ aliasSuffix (m.type id).group
    let given := Text.firstFree taken.contains (Text.numbered base) taken.length
    (id, given) :: assignAliases m name (given :: taken) ids

/-- The entry of a simple name, when some names of its version are taken. -/
def entryOf (m : ReleaseModel) (preferences : Preferences) (version : String)
    (taken : List String) (name : String) : NameEntry :=
  let ids := members m version name
  let primary := primaryOf m ((preferences.get? name).getD []) ids
  { version, name, primary,
    aliases := assignAliases m name taken (ids.filter fun id => id ≠ primary) }

/-- Entries for simple names in order; aliases given earlier are taken for later ones. -/
def entriesOf (m : ReleaseModel) (preferences : Preferences) (version : String) :
    (taken : List String) → List String → List NameEntry
  | _, [] => []
  | taken, name :: names =>
    let entry := entryOf m preferences version taken name
    entry :: entriesOf m preferences version (entry.aliases.map Prod.snd ++ taken) names

/-- Simple names of a version in order. -/
def simpleNames (m : ReleaseModel) (version : String) : List String :=
  sortedTexts ((m.typesOf version).map fun id => (m.type id).name)

/-- The names of a release. -/
def resolve (m : ReleaseModel) (preferences : Preferences) : Names :=
  let entries := m.versions.flatMap fun version =>
    entriesOf m preferences version (simpleNames m version) (simpleNames m version)
  let aliases := entries.flatMap (·.aliases)
  { entries,
    resolved := (m.typeIds.map fun id => (aliases.lookup id).getD (m.type id).name).toArray }

/-- The name of a type. -/
def name (n : Names) (id : TypeId) : String := n.resolved.getD id ""

/-- The entry of a version and simple name. -/
def entry? (n : Names) (version name : String) : Option NameEntry :=
  n.entries.find? fun e => e.version == version && e.name == name

/-- Entries with more than one type. -/
def collisions (n : Names) : List NameEntry := n.entries.filter fun e => !e.aliases.isEmpty

/-- Simple names by the aliases that stand for them in a version. -/
def deprecations (n : Names) (version : String) : Table String :=
  .ofList ((n.entries.filter fun e => e.version == version).flatMap fun e =>
    e.aliases.map fun a => (a.2, e.name))

/-- Number of aliases. -/
def aliasCount (n : Names) : Nat := (n.entries.flatMap NameEntry.aliases).length

end Names

end ApiModels
