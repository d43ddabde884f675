import ApiModels.Generated.Method
import ApiModels.Generated.Struct

/-!
# Modules

A release `R` is a module with one module for each version `V`:

* `R.rs` declares the versions and offers the default one,
* `R/V.rs` holds the types of the version, each after those it refers to,
* `R/V/documents.rs` lists its documents,
* `R/V/watchables.rs` lists the classes that can be watched.

The crate root `lib.rs` declares the releases.
-/

namespace ApiModels.Generated

open Source (Ident fileStem)

/-- The code of an item of a version. -/
def itemsOf (b : Build) (version : String) (e : Emit) : List Item :=
  let id := e.id
  let t := b.model.type id
  match t.kind with
  | .scalar p => [.synonym (docLines t.description) .everywhere (typeIdent b id) (primitiveType p)]
  | .object =>
    let rest := documentItems b id ++ methodItems b version id ++ crudItems b id
    match e, b.order.split? id with
    | .base _, some s => [baseStruct b version id s]
    | .derived _, some s => derivedItems b version id s ++ rest
    | _, _ =>
      structItem (typeIdent b id) (docLines t.description) (fieldsOf b version id fun _ => true)
        :: rest

/-- A public module in a file of its own. -/
def moduleDeclaration (name : Ident) : Item := .module [] .everywhere name none

/-- A constant list of texts. -/
def textList (docs : List Attribute) (name : String) (texts : List String) : Item :=
  .constant docs .everywhere ⟨name, false⟩ (refTo (.slice (refTo (.plain ["str"]))))
    (.reference false (.array (texts.map .text)))

/-- A constant text of a module. -/
def textItem (name value : String) : Item :=
  .constant [] .everywhere ⟨name, false⟩ (refTo (.plain ["str"])) (.text value)

/-- A public import of names from a module some levels up, unless there are none. -/
def importFrom (levels : Nat) (names : List String) : List Item :=
  if names.isEmpty then []
  else
    [.use [] .everywhere (.under (List.replicate levels ⟨"super", false⟩)
      (.group (names.map fun n => .name (.ofName n))))]

/-- The module of a version. -/
def versionModule (b : Build) (version : String) : File :=
  { attributes :=
      [.innerDoc (" \x60" ++ version ++ "\x60 types of release \x60" ++ b.label ++ "\x60")],
    items :=
      [moduleDeclaration ⟨"documents", false⟩, moduleDeclaration ⟨"watchables", false⟩]
        ++ (b.items version).flatMap (itemsOf b version) }

/-- The list of the documents of a version. -/
def documentsModule (b : Build) (version : String) : File :=
  let names := (b.documents version).map b.names.name
  { attributes := [.innerDoc " Every document type of this version"],
    items := importFrom 1 names
      ++ [textList [.doc " Names of the document types above, in emission order"] "DOCUMENTS"
        names] }

/-- The lists of the classes of a version that can be watched. -/
def watchablesModule (b : Build) (version : String) : File :=
  let namespaced := b.watchables version true
  let cluster := b.watchables version false
  { attributes := [.innerDoc " Types with a streaming (watch) operation, by scope"],
    items :=
      [ .module [.doc " Watchable within a namespace"] .everywhere ⟨"namespaced", false⟩
          (some (importFrom 2 namespaced)),
        .module [.doc " Watchable across the cluster"] .everywhere ⟨"cluster", false⟩
          (some (importFrom 2 cluster)),
        textList [] "NAMESPACED" namespaced,
        textList [] "CLUSTER" cluster ] }

/-- The module of a release. -/
def releaseModule (b : Build) : File :=
  let offered :=
    if b.model.hasVersion b.defaultVersion then
      [Item.use [] .everywhere (.step (.ofModule b.defaultVersion) .all)]
    else []
  { attributes :=
      [.innerDoc (" Models for release \x60" ++ b.label ++ "\x60 (" ++ b.config.semver ++ ")")],
    items :=
      b.model.versions.map (fun v => moduleDeclaration (.ofModule v)) ++ offered
        ++ [ textItem "RELEASE" b.label, textItem "SEMVER" b.config.semver,
             textItem "DEFAULT_VERSION" b.defaultVersion ] }

/-- The crate root for some releases. -/
def rootModule (releases : List String) (default : Option String) : File :=
  let allow (p : List String) : Attribute :=
    ⟨true, Path.of ["allow"], .list [⟨Path.of p, none⟩]⟩
  { attributes := [allow ["non_camel_case_types"], allow ["clippy", "all"]],
    items :=
      releases.map (fun r => moduleDeclaration (.ofModule r))
        ++ (match default with
          | some label =>
            [ .use [] .everywhere (.rename (.ofModule label) ⟨"default_release", false⟩),
              textItem "DEFAULT_RELEASE" label ]
          | none => [])
        ++ [textList [] "RELEASES" releases] }

/-- The files of a version: its own module and those inside it. -/
def versionFiles (b : Build) (version : String) : List (String × File) :=
  let dir := fileStem b.label ++ "/" ++ fileStem version
  [ (dir ++ ".rs", versionModule b version),
    (dir ++ "/documents.rs", documentsModule b version),
    (dir ++ "/watchables.rs", watchablesModule b version) ]

/-- Every file of a release by its path. -/
def files (b : Build) : Table File :=
  .ofList ((fileStem b.label ++ ".rs", releaseModule b)
    :: b.model.versions.flatMap (versionFiles b))

end ApiModels.Generated
