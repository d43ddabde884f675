import ApiModels.Crud
import ApiModels.IntOrString
import ApiModels.Json.Table

/-!
# Sample document types

Four document types of one shape that differ in their operations: a namespaced one with all of them,
one outside namespaces that is replaced as a whole, one that can only be created and deleted, and
one that is created outside the namespace it is read in.
-/

namespace ApiModels.Samples

/-- What a widget says about itself. -/
structure Metadata where
  name : Option String := none
  ns : Option String := none
  resourceVersion : Option String := none
  labels : Table String := {}
deriving DecidableEq, Repr, Inhabited

/-- A document of the samples. -/
structure Widget where
  apiVersion : Option String := none
  kind : Option String := none
  metadata : Option Metadata := none
  size : Option Int := none
  port : Option IntOrString := none
  tags : List String := []
  extra : Option Json := none
deriving Inhabited

/-- A field that is left out when there is no value. -/
def whenSome (name : String) (f : α → Json) : Option α → List (String × Json)
  | some a => [(name, f a)]
  | none => []

/-- A field that is left out when it is empty. -/
def unlessEmpty (name : String) (isEmpty : Bool) (v : Json) : List (String × Json) :=
  if isEmpty then [] else [(name, v)]

namespace Metadata

/-- Metadata in JSON. -/
def toJson (m : Metadata) : Json :=
  .object (whenSome "name" .string m.name ++ whenSome "namespace" .string m.ns
    ++ whenSome "resourceVersion" .string m.resourceVersion
    ++ unlessEmpty "labels" m.labels.isEmpty (.ofTable .string m.labels))

open Json.Reader in
/-- Reads metadata. -/
def reader : Json.Reader Metadata :=
  record
    [ RecordField.defaulted "name" (nullable text) fun v m => { m with name := v },
      RecordField.defaulted "namespace" (nullable text) fun v m => { m with ns := v },
      RecordField.defaulted "resourceVersion" (nullable text) fun v m =>
        { m with resourceVersion := v },
      RecordField.defaulted "labels" (table text) fun v m => { m with labels := v } ]
    {}

end Metadata

namespace Widget

/-- A widget in JSON. -/
def toJson (w : Widget) : Json :=
  .object (whenSome "apiVersion" .string w.apiVersion ++ whenSome "kind" .string w.kind
    ++ whenSome "metadata" Metadata.toJson w.metadata
    ++ whenSome "size" (fun i => .number (.int i)) w.size
    ++ whenSome "port" IntOrString.toJson w.port
    ++ unlessEmpty "tags" w.tags.isEmpty (.array (w.tags.map .string))
    ++ whenSome "extra" id w.extra)

open Json.Reader in
/-- Reads a widget. -/
def reader : Json.Reader Widget :=
  record
    [ RecordField.defaulted "apiVersion" (nullable text) fun v w => { w with apiVersion := v },
      RecordField.defaulted "kind" (nullable text) fun v w => { w with kind := v },
      RecordField.defaulted "metadata" (nullable Metadata.reader) fun v w =>
        { w with metadata := v },
      RecordField.defaulted "size" (nullable int64) fun v w => { w with size := v },
      RecordField.defaulted "port" (nullable IntOrString.reader) fun v w => { w with port := v },
      RecordField.defaulted "tags" (list text) fun v w => { w with tags := v },
      RecordField.defaulted "extra" (nullable json) fun v w => { w with extra := v } ]
    {}

/-- A document type whose documents are widgets. -/
def documentType (kind : String) (ops : CrudOps) : DocumentType Widget :=
  { kind, name := fun w => w.metadata.bind Metadata.name,
    ns := fun w => w.metadata.bind Metadata.ns, encode := fun w => .ok w.toJson,
    reader, ops }

end Widget

/-- Operations of a type of namespaced documents that are patched. -/
def widgets : DocumentType Widget :=
  let items := "/apis/example.io/v1/namespaces/\x7bnamespace\x7d/widgets"
  let item := items ++ "/\x7bname\x7d"
  Widget.documentType "Widget"
    { create := ⟨.post, items, true⟩, read := some ⟨.get, item, true⟩,
      update := some (⟨.patch, item, true⟩, .mergePatch), delete := ⟨.delete, item, true⟩ }

/-- Operations of a type of documents outside namespaces that are replaced. -/
def gadgets : DocumentType Widget :=
  let items := "/api/v1/gadgets"
  let item := items ++ "/\x7bname\x7d"
  Widget.documentType "Gadget"
    { create := ⟨.post, items, false⟩, read := some ⟨.get, item, false⟩,
      update := some (⟨.put, item, false⟩, .replace), delete := ⟨.delete, item, false⟩ }

/-- Operations of a type of documents that can be neither read nor updated. -/
def gizmos : DocumentType Widget :=
  let items := "/api/v1/gizmos"
  Widget.documentType "Gizmo"
    { create := ⟨.post, items, false⟩, read := none, update := none,
      delete := ⟨.delete, items ++ "/\x7bname\x7d", false⟩ }

/-- Operations of a type of documents that are created outside their namespace. -/
def plans : DocumentType Widget :=
  let item := "/api/v1beta1/namespaces/\x7bnamespace\x7d/plans/\x7bname\x7d"
  Widget.documentType "Plan"
    { create := ⟨.post, "/api/v1beta1/plans", false⟩, read := some ⟨.get, item, true⟩,
      update := none, delete := ⟨.delete, item, true⟩ }

end ApiModels.Samples
