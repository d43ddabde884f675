import ApiModels.Proofs.AccessPaths

/-!
# Fields and their names on the wire

What writes a struct as JSON, or reads it, names each field by its attributes alone: by the name the
field is renamed to, or else by its identifier in the style that the struct asks for. Generation has
to foresee that name, since a field is renamed only where it would come out wrong. Read back from
the generated attributes, the name of every field is that of its property.

The fields of a type may stand in two structs. Together they are those of the properties, none
missing and none twice, and no two have one identifier, which is what lets a derived struct stand in
for its base.
-/

namespace ApiModels

open ApiModels.Order

/-- The items of a type, in the module of its version. -/
def Build.itemsOfType (b : Build) (id : TypeId) : List Emit :=
  (b.items (b.model.type id).version).filter fun e => e.id = id

namespace Generated

open ReleaseModel
open Source (Ident camelCase joinCapitals)

variable {b : Build} {version : String} {e : Emit} {id : TypeId} {p : Property} {ident : Ident}
  {keep : Nat → Bool}

/-! ## Names that attributes give -/

/-- A word with a capital. -/
def capitalized : List Char → List Char
  | [] => []
  | c :: cs => c.toUpper :: cs

/-- A name in lower camel case: the words between its underscores with capitals, but for the letter
that it begins with. -/
def lowerCamel (name : String) : String :=
  match (Text.pieces '_' name.toList).flatMap capitalized with
  | [] => ""
  | c :: cs => String.ofList (c.toLower :: cs)

/-- The entries of the `serde` attributes among some. -/
def serdeEntries (attributes : List Attribute) : List MetaItem :=
  attributes.flatMap fun a =>
    match a.form with
    | .list entries => if a.path = Path.of ["serde"] then entries else []
    | .value _ => []

/-- The entry of a `serde` option. -/
def serdeOption? (option : String) (attributes : List Attribute) : Option MetaItem :=
  (serdeEntries attributes).find? fun m => m.path = Path.of [option]

/-- Whether the fields of a field stand in its place. -/
def isFlattened (f : Field) : Bool := (serdeOption? "flatten" f.attributes).isSome

/-- The name of a field on the wire, in a struct with some attributes. An identifier counts without
the sign that it is raw. -/
def wireName (onStruct : List Attribute) (f : Field) : String :=
  match (serdeOption? "rename" f.attributes).bind (·.value) with
  | some name => name
  | none =>
    if (serdeOption? "rename_all" onStruct).bind (·.value) = some "camelCase" then
      lowerCamel f.name.text
    else f.name.text

/-- The fields of the structs among some items with their names on the wire, without those in whose
place others stand. -/
def wireFields (items : List Item) : List (Field × String) :=
  items.flatMap fun
    | .struct attributes _ _ fields =>
      (fields.filter fun f => !isFlattened f).map fun f => (f, wireName attributes f)
    | _ => []

/-! ## Camel case -/

theorem joinCapitals_eq (up : Bool) (cs : List Char) :
    joinCapitals up cs = match Text.pieces '_' cs with
      | [] => []
      | w :: ws => (if up then capitalized w else w) ++ ws.flatMap capitalized := by
  induction cs generalizing up with
  | nil => cases up <;> rfl
  | cons c cs ih =>
    unfold joinCapitals Text.pieces
    by_cases hc : c = '_'
    · rw [if_pos hc, if_pos hc, ih true]
      cases Text.pieces '_' cs with
      | nil => cases up <;> rfl
      | cons w ws => cases up <;> rfl
    · rw [if_neg hc, if_neg hc, ih false]
      cases Text.pieces '_' cs with
      | nil => cases up <;> rfl
      | cons w ws => cases up <;> rfl

/-- **Generation foresees the camel case of an identifier.** -/
theorem camelCase_eq (name : String) : camelCase name = lowerCamel name := by
  have hwords : joinCapitals true name.toList
      = (Text.pieces '_' name.toList).flatMap capitalized := by
    rw [joinCapitals_eq]
    cases Text.pieces '_' name.toList with
    | nil => rfl
    | cons w ws => rfl
  unfold camelCase lowerCamel
  cases hletters : (Text.pieces '_' name.toList).flatMap capitalized with
  | nil => simp only [hwords, hletters]
  | cons c cs => simp only [hwords, hletters]

/-! ## Attributes of generated fields -/

theorem serdeEntries_append (as bs : List Attribute) :
    serdeEntries (as ++ bs) = serdeEntries as ++ serdeEntries bs := List.flatMap_append

theorem serdeEntries_docLines (description : Option String) :
    serdeEntries (docLines description) = [] := by
  unfold docLines
  split
  · split
    · rfl
    · unfold serdeEntries
      rw [List.flatMap_map]
      exact List.flatMap_eq_nil_iff.mpr fun _ _ => rfl
  · rfl

/-- The text a property is renamed to, if its identifier does not give its name. -/
theorem serdeEntries_fieldOf : serdeEntries (fieldOf b version id p ident).attributes
    = (if camelCase ident.text = p.name then [] else [metaText "rename" p.name])
      ++ serdeEntries (skipAttributes (fieldContainer id p)) := by
  unfold fieldOf
  dsimp only
  rw [serdeEntries_append, serdeEntries_append, serdeEntries_docLines, List.nil_append]
  split
  · rfl
  · rfl

/-- What leaves a field out has nothing to do with its name. -/
theorem serdeOption?_skipAttributes (option : String) (c : Container)
    (hne : option ≠ "default") (hne' : option ≠ "skip_serializing_if") :
    serdeOption? option (skipAttributes c) = none := by
  have hpath {name : String} (h : option ≠ name) : Path.of [name] ≠ Path.of [option] := by
    simpa [Path.of] using Ne.symm h
  unfold serdeOption?
  refine List.find?_eq_none.mpr fun m hm => ?_
  have hentries : m.path = Path.of ["default"] ∨ m.path = Path.of ["skip_serializing_if"] := by
    cases c with
    | plain => cases hm
    | optional | list | map =>
      rcases List.mem_cons.mp hm with rfl | hm
      · exact .inl rfl
      · cases List.mem_singleton.mp hm
        exact .inr rfl
  rcases hentries with h | h
  · simpa [h] using hpath hne
  · simpa [h] using hpath hne'

theorem isFlattened_fieldOf : isFlattened (fieldOf b version id p ident) = false := by
  have hskip := serdeOption?_skipAttributes "flatten" (fieldContainer id p) (by decide)
    (by decide)
  unfold isFlattened serdeOption? at *
  rw [serdeEntries_fieldOf, List.find?_append, hskip]
  split
  · rfl
  · rfl

/-- **The name of a field on the wire is that of its property**, in a struct that asks for camel
case. -/
theorem wireName_fieldOf {onStruct : List Attribute}
    (hstyle : serdeOption? "rename_all" onStruct = some (metaText "rename_all" "camelCase")) :
    wireName onStruct (fieldOf b version id p ident) = p.name := by
  have hrename : serdeOption? "rename" (fieldOf b version id p ident).attributes
      = if camelCase ident.text = p.name then none else some (metaText "rename" p.name) := by
    have hskip := serdeOption?_skipAttributes "rename" (fieldContainer id p) (by decide)
      (by decide)
    unfold serdeOption? at *
    rw [serdeEntries_fieldOf, List.find?_append, hskip]
    split
    · rfl
    · rfl
  unfold wireName
  rw [hrename, hstyle]
  by_cases hname : camelCase ident.text = p.name
  · rw [if_pos hname, ← hname, camelCase_eq]
    rfl
  · rw [if_neg hname]
    rfl

/-! ## Fields of items -/

/-- The fields of the properties of a type whose index is kept, with the names of the
properties. -/
def namedFields (b : Build) (version : String) (id : TypeId) (keep : Nat → Bool) :
    List (Field × String) :=
  (((b.model.type id).properties.zip (fieldIdents b id)).zipIdx.filter fun x => keep x.2).map
    fun x => (fieldOf b version id x.1.1 x.1.2, x.1.1.name)

theorem namedFields_all : namedFields b version id (fun _ => true)
    = ((b.model.type id).properties.zip (fieldIdents b id)).map
      fun x => (fieldOf b version id x.1 x.2, x.1.name) := by
  unfold namedFields
  rw [List.filter_true]
  conv_rhs => rw [← List.zipIdx_map_fst 0 ((b.model.type id).properties.zip (fieldIdents b id)),
    List.map_map]
  rfl

/-- What is kept and what is not are all. -/
theorem namedFields_perm (b : Build) (version : String) (id : TypeId) (keep : Nat → Bool) :
    (namedFields b version id (fun i => !keep i) ++ namedFields b version id keep).Perm
      (namedFields b version id fun _ => true) := by
  unfold namedFields
  rw [← List.map_append, List.filter_true]
  refine .map _ ?_
  exact List.perm_append_comm.trans
    (List.filter_append_perm (fun x : (Property × Ident) × Nat => keep x.2) _)

theorem wireFields_append (items more : List Item) :
    wireFields (items ++ more) = wireFields items ++ wireFields more := List.flatMap_append

theorem wireFields_of_structs {items : List Item} (h : structs items = []) :
    wireFields items = [] := by
  refine List.flatMap_eq_nil_iff.mpr fun item hitem => ?_
  have hnone := List.filterMap_eq_nil_iff.mp h item hitem
  cases item with
  | struct _ _ _ _ => cases hnone
  | module _ _ _ _ | use _ _ _ | constant _ _ _ _ _ | synonym _ _ _ _ | implementation _ _ _ => rfl

theorem filter_fieldsOf : (fieldsOf b version id keep).filter (fun f => !isFlattened f)
    = fieldsOf b version id keep := by
  refine List.filter_eq_self.mpr fun f hf => ?_
  obtain ⟨_, _, _, _, _, _, rfl⟩ := mem_fieldsOf.mp hf
  rw [isFlattened_fieldOf]
  rfl

/-- The fields of a struct have the names of their properties. -/
theorem wireFields_structItem {name : Ident} {docs : List Attribute} {fields : List Field}
    (hdocs : serdeEntries docs = [])
    (hfields : (fields.filter fun f => !isFlattened f) = fieldsOf b version id keep) :
    wireFields [structItem name docs fields] = namedFields b version id keep := by
  have hstyle : serdeOption? "rename_all"
      (docs ++ [.list "derive" derived, serde [metaText "rename_all" "camelCase"]])
      = some (metaText "rename_all" "camelCase") := by
    unfold serdeOption?
    rw [serdeEntries_append, hdocs, List.nil_append]
    rfl
  unfold wireFields structItem
  rw [List.flatMap_singleton]
  dsimp only
  rw [hfields]
  unfold fieldsOf namedFields
  rw [List.map_map]
  exact List.map_congr_left fun x _ => congrArg (Prod.mk _) (wireName_fieldOf hstyle)

/-- What comes after the struct of an item has no fields. -/
theorem wireFields_rest : wireFields
    (documentItems b id ++ methodItems b version id ++ crudItems b id) = [] := by
  refine wireFields_of_structs ?_
  rw [structs_append, structs_append, structs_documentItems, structs_methodItems,
    structs_crudItems]
  rfl

section

variable (hkind : (b.model.type id).kind = .object)

include hkind

theorem wireFields_plain : wireFields (itemsOf b version (.plain id))
    = namedFields b version id fun _ => true := by
  unfold itemsOf
  dsimp only
  rw [show (b.model.type (Emit.plain id).id).kind = .object from hkind]
  dsimp only
  rw [← List.singleton_append, wireFields_append, wireFields_rest, List.append_nil]
  exact wireFields_structItem (serdeEntries_docLines _) filter_fieldsOf

variable {s : Split} (hs : b.order.split? id = some s)

include hs

theorem wireFields_base : wireFields (itemsOf b version (.base id))
    = namedFields b version id fun i => !s.closing.contains i := by
  unfold itemsOf
  dsimp only
  rw [show (b.model.type (Emit.base id).id).kind = .object from hkind,
    show b.order.split? (Emit.base id).id = some s from hs]
  exact wireFields_structItem rfl filter_fieldsOf

theorem wireFields_derived : wireFields (itemsOf b version (.derived id))
    = namedFields b version id fun i => s.closing.contains i := by
  unfold itemsOf
  dsimp only
  rw [show (b.model.type (Emit.derived id).id).kind = .object from hkind,
    show b.order.split? (Emit.derived id).id = some s from hs]
  dsimp only
  -- the implementations that give access to the base have no fields
  have himplementations : wireFields (derivedItems b version id s)
      = wireFields [structItem (typeIdent b id) (docLines (b.model.type id).description)
        (embedded s :: fieldsOf b version id fun i => s.closing.contains i)] := rfl
  have hfields : ((embedded s :: fieldsOf b version id fun i => s.closing.contains i).filter
      fun f => !isFlattened f) = fieldsOf b version id fun i => s.closing.contains i := by
    rw [List.filter_cons_of_neg (by rw [show isFlattened (embedded s) = true from rfl]; simp),
      filter_fieldsOf]
  rw [wireFields_append, wireFields_rest, List.append_nil]
  exact himplementations.trans (wireFields_structItem (serdeEntries_docLines _) hfields)

end

/-! ## Items of a type -/

theorem mem_itemsOfType (hb : Sorted b.model b.order) (hid : b.Emitted id) :
    e ∈ b.itemsOfType id ↔ e.id = id ∧ IsItem b.order.splits e := by
  unfold Build.itemsOfType
  rw [List.mem_filter, Build.mem_items hb, decide_eq_true_iff]
  constructor
  · rintro ⟨⟨-, hitem⟩, rfl⟩
    exact ⟨rfl, hitem⟩
  · rintro ⟨rfl, hitem⟩
    obtain ⟨hlt, hex⟩ := (Build.emitted_iff hb).mp hid
    exact ⟨⟨mem_kept.mpr ⟨hlt, rfl, hex⟩, hitem⟩, rfl⟩

/-- A type is emitted as one plain item, or as its base and the derived item if it is split. -/
theorem itemsOfType_perm (hb : Sorted b.model b.order) (hid : b.Emitted id) :
    (b.itemsOfType id).Perm
      (if (b.order.split? id).isSome then [.base id, .derived id] else [.plain id]) := by
  have hnodup : (b.itemsOfType id).Nodup := (Build.nodup_items hb).filter _
  cases hs : b.order.split? id with
  | none =>
    refine (List.perm_ext_iff_of_nodup hnodup (List.nodup_singleton _)).mpr fun e => ?_
    rw [mem_itemsOfType hb hid, List.mem_singleton]
    constructor
    · rintro ⟨rfl, hitem⟩
      cases e with
      | plain id => rfl
      | base id | derived id =>
        rw [IsItem, show splitOf? b.order.splits id = none from hs] at hitem
        cases hitem
    · rintro rfl
      exact ⟨rfl, hs⟩
  | some s =>
    have hsplit : (splitOf? b.order.splits id).isSome = true := by
      rw [show splitOf? b.order.splits id = some s from hs]
      rfl
    refine (List.perm_ext_iff_of_nodup hnodup (by simp)).mpr fun e => ?_
    rw [mem_itemsOfType hb hid, if_pos (show (some s).isSome = true from rfl), List.mem_cons,
      List.mem_singleton]
    constructor
    · rintro ⟨rfl, hitem⟩
      cases e with
      | plain id =>
        rw [IsItem, show splitOf? b.order.splits id = some s from hs] at hitem
        cases hitem
      | base id => exact .inl rfl
      | derived id => exact .inr rfl
    · rintro (rfl | rfl)
      · exact ⟨rfl, hsplit⟩
      · exact ⟨rfl, hsplit⟩

/-! ## Fields of a type -/

/-- The fields of all items of a type are those of its properties. -/
theorem wireFields_perm (version : String) (hb : Sorted b.model b.order) (hid : b.Emitted id)
    (hkind : (b.model.type id).kind = .object) :
    (wireFields ((b.itemsOfType id).flatMap (itemsOf b version))).Perm
      (((b.model.type id).properties.zip (fieldIdents b id)).map
        fun x => (fieldOf b version id x.1 x.2, x.1.name)) := by
  unfold wireFields
  rw [List.flatMap_assoc, ← namedFields_all]
  refine ((itemsOfType_perm hb hid).flatMap_right _).trans ?_
  cases hs : b.order.split? id with
  | none =>
    rw [if_neg (by simp), List.flatMap_singleton]
    exact .of_eq (wireFields_plain hkind)
  | some s =>
    rw [if_pos (show (some s).isSome = true from rfl), List.flatMap_cons, List.flatMap_singleton]
    refine (List.Perm.of_eq ?_).trans (namedFields_perm b version id fun i => s.closing.contains i)
    exact congrArg₂ _ (wireFields_base hkind hs) (wireFields_derived hkind hs)

/-- **Identifiers of fields are distinct as they are written.** -/
theorem nodup_text_assignFields (taken : List String) (ps : List Property) :
    ((assignFields taken ps).map (·.text)).Nodup := by
  induction ps generalizing taken with
  | nil => exact List.nodup_nil
  | cons p ps ih =>
    rw [assignFields, List.map_cons, List.nodup_cons]
    refine ⟨fun hmem => ?_, ih _⟩
    -- a later field avoids the texts of those before it
    obtain ⟨ident, hident, htext⟩ := List.mem_map.mp hmem
    exact text_notMem_of_mem_assignFields hident (htext ▸ List.mem_cons_self)

theorem map_text_fieldIdents (version : String) :
    (((b.model.type id).properties.zip (fieldIdents b id)).map
      fun x => (fieldOf b version id x.1 x.2, x.1.name)).map (fun f => f.1.name.text)
      = (fieldIdents b id).map (·.text) := by
  rw [List.map_map]
  have hsnd : ((b.model.type id).properties.zip (fieldIdents b id)).map Prod.snd
      = fieldIdents b id := List.map_snd_zip length_fieldIdents.le
  conv_rhs => rw [← hsnd, List.map_map]
  rfl

/--
**The fields of a type are its properties, under their own names.**

In the generated code of an object that is emitted, in one struct or in two, the fields with their
names on the wire are those made for the properties, one for each, with the names of the properties.
Each is in the code of exactly one item of the type. No two have one identifier, and in a split type
none has that of the field for the base.
-/
theorem wire_names_of_properties (config : ReleaseConfig) (doc : Swagger.Document) (id : TypeId)
    (hid : (Build.ofDocument config doc).Emitted id)
    (hkind : ((Build.ofDocument config doc).model.type id).kind = .object) :
    let b := Build.ofDocument config doc
    let version := (b.model.type id).version
    let properties := (b.model.type id).properties
    let fields := wireFields ((b.itemsOfType id).flatMap (itemsOf b version))
    fields.Perm ((properties.zip (fieldIdents b id)).map
        fun x => (fieldOf b version id x.1 x.2, x.1.name))
      ∧ (fieldIdents b id).length = properties.length
      ∧ (∀ (i : Nat) p ident, properties[i]? = some p → (fieldIdents b id)[i]? = some ident →
          ∃! e, e ∈ b.itemsOfType id
            ∧ (fieldOf b version id p ident, p.name) ∈ wireFields (itemsOf b version e))
      ∧ (fields.map fun f => f.1.name.text).Nodup
      ∧ ((b.order.split? id).isSome → ∀ f ∈ fields, f.1.name.text ≠ baseField.text) := by
  intro b version properties fields
  have hb : Sorted b.model b.order := Build.ofDocument_sorted config doc
  have hperm := wireFields_perm version hb hid hkind
  have hnames : (fields.map fun f => f.1.name.text).Perm ((fieldIdents b id).map (·.text)) := by
    rw [← map_text_fieldIdents version]
    exact hperm.map _
  have hnodup : (fields.map fun f => f.1.name.text).Nodup :=
    hnames.nodup_iff.mpr (nodup_text_assignFields _ _)
  refine ⟨hperm, length_fieldIdents, fun i p ident hp hi => ?_, hnodup, fun hsplit f hf => ?_⟩
  · have hassoc : fields = (b.itemsOfType id).flatMap fun e => wireFields (itemsOf b version e) :=
      List.flatMap_assoc
    have hmem : (fieldOf b version id p ident, p.name) ∈ fields := by
      refine hperm.mem_iff.mpr (List.mem_map.mpr ⟨(p, ident), ?_, rfl⟩)
      exact List.mem_of_getElem? (List.getElem?_zip_eq_some.mpr ⟨hp, hi⟩)
    have hdisjoint := (List.nodup_flatMap.mp (hassoc ▸ List.Nodup.of_map _ hnodup)).2
    rw [hassoc, List.mem_flatMap] at hmem
    obtain ⟨e, he, hfield⟩ := hmem
    refine ⟨e, ⟨he, hfield⟩, fun e' ⟨he', hfield'⟩ => ?_⟩
    -- what two items share would be in the code of the type twice
    have hsymm : Std.Symm
        (Function.onFun List.Disjoint fun e => wireFields (itemsOf b version e)) :=
      ⟨fun _ _ h => h.symm⟩
    by_contra hne
    exact hdisjoint.forall he' he hne hfield' hfield
  · have hbase : baseField.text ∉ (fieldIdents b id).map (·.text) := by
      unfold fieldIdents
      rw [if_pos hsplit]
      intro hmem
      obtain ⟨ident, hident, htext⟩ := List.mem_map.mp hmem
      exact text_notMem_of_mem_assignFields hident (htext ▸ List.mem_cons_self)
    intro htext
    exact hbase (htext ▸ hnames.mem_iff.mp (List.mem_map_of_mem hf))

/-- A document with one type, whose properties have names that are keywords, that are no
identifiers, or that make one identifier of several. -/
def quirks : Swagger.Document where
  definitions := [("io.k8s.api.core.v1.Quirks",
    .mk { type := some "object" }
      (["type", "$ref", "-pre", "hostIPC", "host-ipc", "hostIpc", "naïve", ""].map fun name =>
        (name, .mk { type := some "string" } [] none none)) none none)]

/-- Each property has a field of its own, and none loses its name. -/
theorem wire_names_of_properties_quirks :
    let config : ReleaseConfig :=
      { label := "rel", semver := "1.0.0", defaultVersion := "v1", preferences := {},
        deprecations := {} }
    let b := Build.ofDocument config quirks
    b.Emitted 0 ∧ (b.model.type 0).kind = .object
      ∧ ((wireFields ((b.itemsOfType 0).flatMap (itemsOf b (b.model.type 0).version))).map
          fun f => (f.1.name.written, f.2)).Perm
        [("r#type", "type"), ("ref_path", "$ref"), ("pre", "-pre"), ("host_ipc", "hostIPC"),
          ("host_ipc_2", "host-ipc"), ("host_ipc_3", "hostIpc"), ("na_ve", "naïve"),
          ("field", "")] := by
  intro config b
  have hemitted : b.Emitted 0 := .inl (by decide +kernel)
  have hkind : (b.model.type 0).kind = .object := by decide +kernel
  refine ⟨hemitted, hkind, ?_⟩
  have hperm := (wire_names_of_properties config quirks 0 hemitted hkind).1.map
    fun f => (f.1.name.written, f.2)
  have hnames : (((b.model.type 0).properties.zip (fieldIdents b 0)).map
      fun x => (x.2.written, x.1.name))
      = [("r#type", "type"), ("ref_path", "$ref"), ("pre", "-pre"), ("host_ipc", "hostIPC"),
        ("host_ipc_2", "host-ipc"), ("host_ipc_3", "hostIpc"), ("na_ve", "naïve"),
        ("field", "")] := by
    decide +kernel
  rw [List.map_map] at hperm
  exact hnames ▸ hperm

end Generated

end ApiModels
