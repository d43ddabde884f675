import ApiModels.Generated.Types
import ApiModels.Text.FirstFree

/-!
# Structs and their markers

An object becomes a struct with a field for every property. A split type becomes two: its base, and
the type itself, which embeds the base and holds the properties that close the cycle. A document
also states its api version and kind, gives its name and namespace where its metadata has them, and
can be made anew with its markers set.
-/

namespace ApiModels.Generated

open Source (Ident fieldName camelCase)

/-- The field of a split type that holds its base. -/
def baseField : Ident := ⟨"base", false⟩

/-! ## Fields -/

/-- Gives each property an identifier that no earlier field has. -/
def assignFields : (taken : List String) → List Property → List Ident
  | _, [] => []
  | taken, p :: ps =>
    let name := fieldName p.name
    let candidate (i : Nat) : Ident := .ofName (Text.numbered name i)
    let ident := Text.firstFree (fun i : Ident => taken.contains i.text) candidate taken.length
    ident :: assignFields (ident.text :: taken) ps

/-- Identifiers of the properties of a type, in order. -/
def fieldIdents (b : Build) (id : TypeId) : List Ident :=
  assignFields (if (b.order.split? id).isSome then [baseField.text] else [])
    (b.model.type id).properties

/-- The property of an index, reached from an expression for its owner. -/
def fieldAccess (b : Build) (root : Expr) (id : TypeId) (index : Nat) : Expr :=
  let ident := (fieldIdents b id).getD index default
  match b.order.split? id with
  | some s =>
    if s.closing.contains index then .field root ident else .field (.field root baseField) ident
  | none => .field root ident

/-- A `serde` attribute. -/
def serde (items : List MetaItem) : Attribute := .list "serde" items

/-- An entry of an attribute that gives a text. -/
def metaText (name value : String) : MetaItem := ⟨Path.of [name], some value⟩

/-- Leaves a field out when it is empty, and takes it as empty when it is left out. -/
def skipWhen (test : String) : List Attribute :=
  [serde [⟨Path.of ["default"], none⟩, metaText "skip_serializing_if" test]]

/-- The attributes of a field by its container. -/
def skipAttributes : Container → List Attribute
  | .plain => []
  | .optional => skipWhen "Option::is_none"
  | .list => skipWhen "Vec::is_empty"
  | .map => skipWhen "std::collections::BTreeMap::is_empty"

/-- Whether a property holds one value of the type it belongs to. -/
def isSelfReference (owner : TypeId) (p : Property) : Bool :=
  p.type.named? = some owner && p.container.isSingle

/-- The container of a field. A required value of the owner's own type has no finite form, so it is
optional. -/
def fieldContainer (owner : TypeId) (p : Property) : Container :=
  if isSelfReference owner p then .optional else p.container

/-- The type of a field. A value of the owner's own type is boxed. -/
def fieldType (b : Build) (version : String) (owner : TypeId) (p : Property) : Ty :=
  let inner := refType b version (some owner) p.type
  contained (if isSelfReference owner p then applied ["Box"] [inner] else inner)
    (fieldContainer owner p)

/-- The field of a property. It is renamed where its identifier does not give the name on the
wire. -/
def fieldOf (b : Build) (version : String) (owner : TypeId) (p : Property) (ident : Ident) :
    Field :=
  { attributes :=
      docLines p.description
        ++ (if camelCase ident.text = p.name then [] else [serde [metaText "rename" p.name]])
        ++ skipAttributes (fieldContainer owner p),
    visibility := .everywhere, name := ident, type := fieldType b version owner p }

/-- Fields of the properties of a type whose index is kept. -/
def fieldsOf (b : Build) (version : String) (id : TypeId) (keep : Nat → Bool) : List Field :=
  (((b.model.type id).properties.zip (fieldIdents b id)).zipIdx.filter fun e => keep e.2).map
    fun e => fieldOf b version id e.1.1 e.1.2

/-- What every struct derives. -/
def derived : List MetaItem :=
  [ ⟨Path.of ["serde", "Serialize"], none⟩, ⟨Path.of ["serde", "Deserialize"], none⟩,
    ⟨Path.of ["Debug"], none⟩, ⟨Path.of ["Clone"], none⟩, ⟨Path.of ["PartialEq"], none⟩,
    ⟨Path.of ["Default"], none⟩ ]

/-- A struct with its documentation. -/
def structItem (name : Ident) (docs : List Attribute) (fields : List Field) : Item :=
  .struct (docs ++ [.list "derive" derived, serde [metaText "rename_all" "camelCase"]])
    .everywhere name fields

/-! ## Split types -/

/-- The base of a split type. -/
def baseStruct (b : Build) (version : String) (id : TypeId) (s : Split) : Item :=
  structItem (.ofName s.baseName)
    [.doc (" Properties of [\x60" ++ (typeIdent b id).written
      ++ "\x60] that do not close its reference cycle")]
    (fieldsOf b version id fun i => !s.closing.contains i)

/-- A function of an implementation that borrows from its receiver. -/
def borrowing (name : String) (mutable : Bool) (result : Ty) (value : Expr) : Member :=
  .function
    { name := ⟨name, false⟩, params := [.receiver mutable], result := some result,
      body := { result := some value } }

/-- The derived struct of a split type, with access to the fields of its base. -/
def derivedItems (b : Build) (version : String) (id : TypeId) (s : Split) : List Item :=
  let name := typeIdent b id
  let base : Ty := .named [.ofName s.baseName] []
  let embedded : Field :=
    { attributes := [serde [⟨Path.of ["flatten"], none⟩]], visibility := .everywhere,
      name := baseField, type := base }
  let access (mutable : Bool) : Expr := .reference mutable (.field (.plain ["self"]) baseField)
  [ structItem name (docLines (b.model.type id).description)
      (embedded :: fieldsOf b version id fun i => s.closing.contains i),
    .implementation (some (Path.of ["std", "ops", "Deref"])) (.named [name] [])
      [ .synonym ⟨"Target", false⟩ base,
        borrowing "deref" false (refTo base) (access false) ],
    .implementation (some (Path.of ["std", "ops", "DerefMut"])) (.named [name] [])
      [borrowing "deref_mut" true (.reference none true base) (access true)] ]

/-! ## Documents -/

/-- The value of an optional text field of a type, reached from an expression for it. -/
def textAccessor? (b : Build) (root : Expr) (id : TypeId) (field : String) : Option Expr :=
  match (b.model.type id).property? field with
  | some (index, p) =>
    let access := fieldAccess b root id index
    if p.type = .primitive .string then
      match p.container with
      | .optional => some (.method access ⟨"as_deref", false⟩ [])
      | .plain => some (.call (.plain ["Some"]) [.method access ⟨"as_str", false⟩ []])
      | .list | .map => none
    else none
  | none => none

/-- The metadata of a document and its type, if that is a single object. -/
def metadata? (b : Build) (id : TypeId) : Option (Expr × TypeId) :=
  match (b.model.type id).property? "metadata" with
  | some (index, p) =>
    let access := fieldAccess b (.plain ["self"]) id index
    match p.type, p.container with
    | .named holder, .optional => some (.orReturn (.method access ⟨"as_ref", false⟩ []), holder)
    | .named holder, .plain => some (access, holder)
    | _, _ => none
  | none => none

/-- Functions that give the name and the namespace of a document. -/
def accessors (b : Build) (id : TypeId) : List Member :=
  match metadata? b id with
  | some (root, holder) =>
    ["name", "namespace"].filterMap fun field =>
      (textAccessor? b root holder field).map fun value =>
        borrowing field false (applied ["Option"] [refTo (.plain ["str"])]) value
  | none => []

/-- Sets a marker of a new document, if it has a text property for it. -/
def setMarker (b : Build) (id : TypeId) (field value : String) : List Stmt :=
  match (b.model.type id).property? field with
  | some (index, p) =>
    let target := fieldAccess b (.plain ["this"]) id index
    let text : Expr := .method (.text value) ⟨"into", false⟩ []
    if p.type = .primitive .string then
      match p.container with
      | .optional => [.assign target (.call (.plain ["Some"]) [text])]
      | .plain => [.assign target text]
      | .list | .map => []
    else []
  | none => []

/-- A constant text. -/
def textConstant (name value : String) : Member :=
  .constant ⟨name, false⟩ (.reference (some ⟨"static", false⟩) false (.plain ["str"])) (.text value)

/-- What makes a type a document: its markers and accessors, and a function that makes a new one. -/
def documentItems (b : Build) (id : TypeId) : List Item :=
  match (b.model.type id).document with
  | none => []
  | some info =>
    let self : Ty := .named [typeIdent b id] []
    let make : Function :=
      { attributes :=
          [.doc
            (" An empty \x60" ++ info.kind ++ "\x60 with \x60apiVersion\x60 and \x60kind\x60 set")],
        visibility := .everywhere, name := ⟨"new", false⟩, params := [],
        result := some (.plain ["Self"]),
        body :=
          { statements :=
              .bind true ⟨"this", false⟩ (.call (.plain ["Self", "default"]) [])
                :: setMarker b id "apiVersion" info.apiVersion ++ setMarker b id "kind" info.kind,
            result := some (.plain ["this"]) } }
    [ .implementation (some (Path.of ["keel_model", "Document"])) self
        ([textConstant "API_VERSION" info.apiVersion, textConstant "KIND" info.kind]
          ++ accessors b id),
      .implementation none self [.function make] ]

end ApiModels.Generated
