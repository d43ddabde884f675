import ApiModels.Build
import ApiModels.Files.Path
import ApiModels.Kdl.Reading
import ApiModels.Text.NaturalOrder

/-!
# Configuration

Where outputs go, which releases are built from which schema documents, and what is configured for
each release. The file is a KDL document; a part that it does not know is an error.
-/

namespace ApiModels

/-- Where outputs go. -/
structure OutputConfig where
  codegen : String
  registry : String
  /-- The file that keeps which method is on which class, if any. -/
  snapshot : Option String
deriving DecidableEq, Repr

/-- A release to build and the schema document it is built from. -/
structure Target where
  release : String
  schema : String
deriving DecidableEq, Repr

/-- A configuration. -/
structure Config where
  output : OutputConfig
  /-- The default release, if one is configured. -/
  configuredDefault : Option String
  /-- Releases to build, in the order of the file. -/
  targets : List Target
  releases : Table ReleaseConfig

/-- What is wrong with a configuration. -/
inductive ConfigError where
  | unreadable
  | repeatedOutput
  | missingOutput
  | outputWithoutChildren
  | missingCodegen
  | missingRegistry
  | unknownNode (name : String)
  | unknownOutputField (name : String)
  | unknownReleaseField (field label : String)
  | expectsText (what : String)
  | expectsGroups (name : String)
  | missingSchema (release : String)
  | releaseWithoutChildren (label : String)
  | repeatedRelease (label : String)
  | missingField (label field : String)
deriving DecidableEq, Repr

/-- What is wrong, in words. -/
def ConfigError.text : ConfigError → String
  | unreadable => "Failed to parse KDL: Failed to parse KDL document"
  | repeatedOutput => "Multiple output blocks found"
  | missingOutput => "Missing output block"
  | outputWithoutChildren => "output block has no children"
  | missingCodegen => "Missing codegen directory"
  | missingRegistry => "Missing registry directory"
  | unknownNode name => "Unknown config node: " ++ name
  | unknownOutputField name => "Unknown output field: " ++ name
  | unknownReleaseField field label => "Unknown release field " ++ field ++ " in release " ++ label
  | expectsText what => what ++ " expects a string value"
  | expectsGroups name => "preferred-versions " ++ name ++ " expects group names"
  | missingSchema release => "target " ++ release ++ " missing schema attribute"
  | releaseWithoutChildren label => "release " ++ label ++ " has no children"
  | repeatedRelease label => "Duplicate release block " ++ label
  | missingField label field => "release " ++ label ++ " is missing " ++ field

namespace Config

open Kdl (Node Value)

/-- A result, or what is wrong. -/
abbrev Checked := Except ConfigError

/-- A value that has to be there. -/
def required (e : ConfigError) : Option α → Checked α
  | some a => .ok a
  | none => .error e

/-- The first argument of a node, which has to be a text. -/
def argument (n : Node) (what : String) : Checked String :=
  required (.expectsText what) (n.argument?.bind Value.text?)

/-- What an output block has said so far. -/
structure OutputDraft where
  codegen : Option String := none
  registry : Option String := none
  snapshot : Option String := none

/-- Takes a node of an output block into account. -/
def OutputDraft.add (d : OutputDraft) (n : Node) : Checked OutputDraft :=
  match n.name with
  | "codegen" => do return { d with codegen := some (← argument n "codegen") }
  | "registry" => do return { d with registry := some (← argument n "registry") }
  | "snapshot" => do return { d with snapshot := some (← argument n "snapshot") }
  | other => .error (.unknownOutputField other)

/-- An output block. -/
def readOutput (n : Node) : Checked OutputConfig := do
  let children ← required .outputWithoutChildren n.children
  let d ← children.foldlM OutputDraft.add {}
  return {
    codegen := ← required .missingCodegen d.codegen
    registry := ← required .missingRegistry d.registry
    snapshot := d.snapshot }

/-- A target. -/
def readTarget (n : Node) : Checked Target := do
  let release ← argument n "target"
  let schema ← required (.missingSchema release) ((n.property? "schema").bind Value.text?)
  return ⟨release, schema⟩

/-- Groups in the order they are preferred in, for each name. -/
def readPreferences (n : Node) : Checked (Table (List String)) :=
  (n.children.getD []).foldlM (fun t (entry : Node) => do
    let groups ← entry.entries.mapM fun e => required (.expectsGroups entry.name) e.value.text?
    return t.insert entry.name groups) {}

/-- Canonical names by their aliases. -/
def readDeprecations (n : Node) : Checked (Table String) :=
  (n.children.getD []).foldlM (fun t (entry : Node) => do
    return t.insert entry.name (← argument entry "deprecation")) {}

/-- What a release block has said so far. -/
structure ReleaseDraft where
  semver : Option String := none
  defaultVersion : Option String := none
  preferences : Option (Table (List String)) := none
  deprecations : Option (Table String) := none

/-- Takes a node of the block of a release into account. -/
def ReleaseDraft.add (label : String) (d : ReleaseDraft) (n : Node) : Checked ReleaseDraft :=
  match n.name with
  | "version" => do return { d with semver := some (← argument n "version") }
  | "default-version" => do
    return { d with defaultVersion := some (← argument n "default-version") }
  | "preferred-versions" => do return { d with preferences := some (← readPreferences n) }
  | "deprecations" => do return { d with deprecations := some (← readDeprecations n) }
  | other => .error (.unknownReleaseField other label)

/-- The version a release offers at its root when nothing else is configured. -/
def usualVersion : String := "v1"

/-- The block of a release. -/
def readRelease (n : Node) : Checked ReleaseConfig := do
  let label ← argument n "release"
  let children ← required (.releaseWithoutChildren label) n.children
  let d ← children.foldlM (ReleaseDraft.add label) {}
  return {
    label
    semver := ← required (.missingField label "version") d.semver
    defaultVersion := d.defaultVersion.getD usualVersion
    preferences := ← required (.missingField label "preferred-versions") d.preferences
    deprecations := ← required (.missingField label "deprecations") d.deprecations }

/-- What a document has said so far. -/
structure Draft where
  output : Option OutputConfig := none
  configuredDefault : Option String := none
  targets : List Target := []
  releases : Table ReleaseConfig := {}

/-- Takes a node of the document into account. -/
def Draft.add (d : Draft) (n : Node) : Checked Draft :=
  match n.name with
  | "output" =>
    if d.output.isSome then .error .repeatedOutput
    else do return { d with output := some (← readOutput n) }
  | "default-release" => do
    return { d with configuredDefault := some (← argument n "default-release") }
  | "target" => do return { d with targets := d.targets ++ [← readTarget n] }
  | "release" => do
    let r ← readRelease n
    if d.releases.contains r.label then .error (.repeatedRelease r.label)
    else return { d with releases := d.releases.insert r.label r }
  | other => .error (.unknownNode other)

/-- The configuration that a text holds. -/
def ofText (text : String) : Checked Config := do
  let nodes ← required .unreadable (Kdl.ofText? text)
  let d ← nodes.foldlM Draft.add {}
  return {
    output := ← required .missingOutput d.output
    configuredDefault := d.configuredDefault
    targets := d.targets
    releases := d.releases }

/-- The configuration with every relative path below a directory. -/
def rebase (c : Config) (dir : String) : Config :=
  let fix := Files.joinPath dir
  { c with
    output :=
      { codegen := fix c.output.codegen, registry := fix c.output.registry,
        snapshot := c.output.snapshot.map fix }
    targets := c.targets.map fun t => { t with schema := fix t.schema } }

/-- The first target of a release. -/
def target? (c : Config) (release : String) : Option Target :=
  c.targets.find? fun t => t.release = release

/-- The default release: the configured one, else the newest target. -/
def defaultRelease (c : Config) : Option String :=
  c.configuredDefault.or (Text.naturalMax? (c.targets.map Target.release))

end Config

end ApiModels
