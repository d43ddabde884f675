import ApiModels.Proofs.IngestedModel
import ApiModels.Proofs.NumbersInRange
import ApiModels.Proofs.ReadValues
import ApiModels.Proofs.VersionLists

/-!
# Well-formed models

Definitions are numbered as they stand in a document, their properties are resolved against these
numbers, and so are the operations of the paths. What comes out is well-formed: the types are the
definitions in their order and the operations those of the paths in theirs, each version has exactly
its own, and whatever stands for a schema is the type that the reference of the schema names.
-/

namespace ApiModels

namespace Swagger

/-- The reference that gives a schema its type: its own, else that of its items if it is an array, or
that of its values if it is a map. -/
def Schema.reference? : Schema → Option String
  | .mk facts _ items values =>
    facts.reference.or <|
      if facts.intOrString = some true then none
      else if facts.type = some "array" then items.bind fun inner => inner.facts.reference
      else if facts.type = none ∨ facts.type = some "object" then
        values.bind fun inner => inner.facts.reference
      else none

/-- An operation as a document lists it, with the parameters that its path shares. -/
structure Listed where
  path : String
  parameters : List ParameterUse
  verb : Verb
  operation : Operation

/-- The operations of a document: paths in order, and the verbs of a path in the fixed order. -/
def Document.operations (doc : Document) : List Listed :=
  doc.paths.flatMap fun p =>
    Verb.all.filterMap fun verb =>
      (p.2.operations.lookup verb).map fun operation => ⟨p.1, p.2.parameters, verb, operation⟩

end Swagger

namespace Ingest

open Swagger ReleaseModel

variable {keys : Keys} {key label : String} {doc : Document} {id : TypeId} {m : ReleaseModel}
  {s : Schema}

/-! ## References -/

/-- What a schema is resolved to inside of an array or a map: only a reference of its own gives it a
type there, for containers do not nest. -/
theorem named?_within (s : Schema) (shape : Shape) :
    ((resolve keys s).within shape).type.named?
      = (s.facts.reference.map definitionKey).bind keys := by
  have hwithin : ∀ (r : Resolved) (inner : Shape), inner ≠ .plain →
      ((r.within inner).within shape).type.named? = none := by
    intro r inner hinner
    unfold Resolved.within
    cases r.shape <;> cases inner <;> first | exact absurd rfl hinner | rfl
  obtain ⟨facts, _, items, values⟩ := s
  unfold resolve
  rw [Schema.facts]
  cases facts.reference with
  | some reference =>
      dsimp only [Option.map_some, Option.bind_some]
      cases keys (definitionKey reference) with
      | some id => rfl
      | none => rfl
  | none =>
      dsimp only [Option.map_none, Option.bind_none]
      by_cases hintOrString : facts.intOrString = some true
      · rw [if_pos hintOrString]
        rfl
      rw [if_neg hintOrString]
      by_cases harray : facts.type = some "array"
      · rw [if_pos harray]
        cases items with
        | some inner => exact hwithin _ .list (by decide)
        | none => rfl
      rw [if_neg harray]
      cases facts.type.filter (· ≠ "object") with
      | some type => rfl
      | none =>
          cases values with
          | some inner => exact hwithin _ .map (by decide)
          | none => rfl

/-- **A schema is resolved to what its reference names.** -/
theorem named?_resolve (s : Schema) :
    (resolve keys s).type.named? = (s.reference?.map definitionKey).bind keys := by
  obtain ⟨facts, _, items, values⟩ := s
  rw [Schema.reference?]
  unfold resolve
  cases facts.reference with
  | some reference =>
      dsimp only [Option.some_or, Option.map_some, Option.bind_some]
      cases keys (definitionKey reference) with
      | some id => rfl
      | none => rfl
  | none =>
      rw [Option.none_or]
      dsimp only
      by_cases hintOrString : facts.intOrString = some true
      · rw [if_pos hintOrString, if_pos hintOrString]
        rfl
      rw [if_neg hintOrString, if_neg hintOrString]
      by_cases harray : facts.type = some "array"
      · rw [if_pos harray, if_pos harray]
        cases items with
        | some inner => exact named?_within inner .list
        | none => rfl
      rw [if_neg harray, if_neg harray]
      by_cases hobject : facts.type = none ∨ facts.type = some "object"
      · have hfilter : facts.type.filter (· ≠ "object") = none := by
          rcases hobject with h | h <;> rw [h] <;> rfl
        rw [if_pos hobject, hfilter]
        cases values with
        | some inner => exact named?_within inner .map
        | none => rfl
      · obtain ⟨hsome, hother⟩ := not_or.mp hobject
        obtain ⟨type, htype⟩ := Option.ne_none_iff_exists'.mp hsome
        have hfilter : facts.type.filter (· ≠ "object") = some type := by
          rw [htype] at hother ⊢
          simpa using hother
        rw [if_neg hobject, hfilter]
        rfl

/-- A definition that is found has the key that was looked for. -/
theorem key_of_definitionId? {definitions : List (String × Schema)}
    (h : definitionId? definitions key = some id) : ∃ s, definitions[id]? = some (key, s) := by
  obtain ⟨⟨d, i⟩, hfind, rfl⟩ := Option.map_eq_some_iff.mp h
  have hmem : (d, i) ∈ definitions.zipIdx := by
    rw [← List.mem_reverse]
    exact List.mem_of_find?_eq_some hfind
  have hkey : d.1 = key := by simpa using List.find?_some hfind
  rw [List.mem_zipIdx_iff_getElem?] at hmem
  exact ⟨d.2, hmem.trans (congrArg some (Prod.ext hkey rfl))⟩

theorem exists_definitionId? {definitions : List (String × Schema)}
    (h : key ∈ definitions.map Prod.fst) : ∃ id, definitionId? definitions key = some id := by
  obtain ⟨d, hd, rfl⟩ := List.mem_map.mp h
  obtain ⟨i, hi⟩ := List.mem_iff_getElem?.mp hd
  have hmem : (d, i) ∈ definitions.zipIdx.reverse := by
    rw [List.mem_reverse, List.mem_zipIdx_iff_getElem?]
    exact hi
  have hfound : (definitions.zipIdx.reverse.find? fun e => e.1.1 == d.1).isSome = true := by
    rw [List.find?_isSome]
    exact ⟨(d, i), hmem, beq_self_eq_true d.1⟩
  obtain ⟨e, he⟩ := Option.isSome_iff_exists.mp hfound
  exact ⟨e.2, congrArg (Option.map Prod.snd) he⟩

/-- What stands for a schema in a model: a type of the model only if its key is the one that the
reference of the schema names, and always if there is a definition of that key. -/
structure StandsFor (doc : Document) (m : ReleaseModel) (s : Schema) (type : TypeRef) : Prop where
  inRange : ∀ id, type.named? = some id → id < m.types.size
  key : ∀ id, type.named? = some id → s.reference?.map definitionKey = some (m.type id).key
  defined : ∀ key ∈ doc.definitions.map Prod.fst, s.reference?.map definitionKey = some key →
    ∃ id, type.named? = some id

theorem standsFor_resolve (s : Schema) :
    StandsFor doc (ingest label doc).1 s (resolve (definitionId? doc.definitions) s).type where
  inRange := by
    intro id hid
    rw [size_types]
    exact resolve_lt hid
  key := by
    intro id hid
    have hlt := resolve_lt hid
    rw [named?_resolve] at hid
    obtain ⟨key, hkey, hfound⟩ := Option.bind_eq_some_iff.mp hid
    obtain ⟨schema, hdefinition⟩ := key_of_definitionId? hfound
    rw [List.getElem?_eq_getElem hlt, Option.some.injEq] at hdefinition
    rw [hkey, type_eq hlt, hdefinition]
    rfl
  defined := by
    intro key hdefined hkey
    obtain ⟨id, hid⟩ := exists_definitionId? hdefined
    rw [named?_resolve, hkey]
    exact ⟨id, hid⟩

/-! ## Definitions and operations -/

/-- A type is what a definition makes of it. -/
structure OfDefinition (doc : Document) (m : ReleaseModel) (d : String × Schema) (t : TypeDef) :
    Prop where
  key : t.key = d.1
  version : t.version = (splitDefinitionKey d.1).version
  properties : t.kind = .object →
    List.Forall₂ (fun p q => q.name = p.1 ∧ StandsFor doc m p.2 q.type) d.2.properties t.properties
  /-- Only objects have properties. -/
  object_of_properties : t.properties ≠ [] → t.kind = .object
  /-- Only objects are documents. -/
  object_of_document : t.isDocument = true → t.kind = .object

theorem ofDefinition_typeOf {d : String × Schema} (hd : d ∈ doc.definitions) :
    OfDefinition doc (ingest label doc).1 d
      (typeOf (definitionId? doc.definitions) d.1 d.2) := by
  obtain ⟨id, hlt, rfl⟩ := List.mem_iff_getElem.mp hd
  have htype : (ingest label doc).1.type id
      = typeOf (definitionId? doc.definitions) doc.definitions[id].1 doc.definitions[id].2 :=
    type_eq hlt
  exact {
    key := rfl
    version := rfl
    properties := by
      intro hkind
      have hobject : kindOf doc.definitions[id].2 = .object := hkind
      unfold typeOf
      dsimp only
      rw [if_pos hobject]
      refine List.forall₂_map_right_iff.mpr (List.forall₂_same.mpr fun p _ => ?_)
      exact ⟨rfl, standsFor_resolve p.2⟩
    object_of_properties := by
      intro hproperties
      obtain ⟨p, hp⟩ := List.exists_mem_of_ne_nil _ hproperties
      rw [← htype] at hp ⊢
      exact kind_of_mem_properties hp
    object_of_document := by
      intro hdocument
      rw [← htype] at hdocument ⊢
      exact kind_of_isDocument hdocument }

/-- A parameter is used: it is written out, or it is the shared one that a reference names. -/
def IsUsed (doc : Document) (uses : List ParameterUse) (p : Parameter) : Prop :=
  ∃ use ∈ uses, use = .inline p ∨ ∃ reference, use = .ref reference
    ∧ sharedParameter? doc.parameters (parameterKey reference) = some p

theorem isUsed_of_override {uses : List ParameterUse} {params : List Parameter} {p : Parameter}
    (hparams : ∀ q ∈ params, IsUsed doc uses q) (hp : IsUsed doc uses p) :
    ∀ q ∈ override params p, IsUsed doc uses q := by
  intro q hq
  rcases List.mem_append.mp hq with hq | hq
  · exact hparams q (List.mem_filter.mp hq).1
  · rw [List.mem_singleton.mp hq]
    exact hp

/-- Only parameters that are used are gathered, by induction on the uses. -/
theorem isUsed_of_gatherParameters (uses : List ParameterUse) :
    ∀ p ∈ (gatherParameters (sharedParameter? doc.parameters) uses).1, IsUsed doc uses p := by
  unfold gatherParameters
  induction uses using List.reverseRecOn with
  | nil => simp
  | append_singleton uses use ih =>
      have hbefore : ∀ {p}, IsUsed doc uses p → IsUsed doc (uses ++ [use]) p := by
        rintro p ⟨u, hu, hp⟩
        exact ⟨u, List.mem_append_left _ hu, hp⟩
      have hlast : use ∈ uses ++ [use] := List.mem_append_right _ (List.mem_singleton_self use)
      rw [List.foldl_append, List.foldl_cons, List.foldl_nil]
      cases use with
      | inline p =>
          exact isUsed_of_override (fun q hq => hbefore (ih q hq)) ⟨.inline p, hlast, .inl rfl⟩
      | ref reference =>
          dsimp only
          cases hshared : sharedParameter? doc.parameters (parameterKey reference) with
          | none => exact fun q hq => hbefore (ih q hq)
          | some p =>
              have hp : IsUsed doc (uses ++ [.ref reference]) p :=
                ⟨.ref reference, hlast, .inr ⟨reference, rfl, hshared⟩⟩
              exact isUsed_of_override (fun q hq => hbefore (ih q hq)) hp

theorem mem_of_responseSchema? {op : Swagger.Operation} (h : responseSchema? op = some s) :
    ∃ code ∈ responseCodes, (code, some s) ∈ op.responses := by
  obtain ⟨code, hcode, hfound⟩ := List.exists_of_findSome?_eq_some h
  obtain ⟨⟨c, schema⟩, hfind, rfl⟩ := Option.bind_eq_some_iff.mp hfound
  have hc : c = code := by
    have hmatch := List.find?_some hfind
    rw [Bool.and_eq_true] at hmatch
    exact eq_of_beq hmatch.1
  exact ⟨code, hcode, hc ▸ List.mem_of_find?_eq_some hfind⟩

/-- The parameters of a listed operation, later ones in place of earlier ones they override. -/
def gathered (doc : Document) (l : Listed) : List Parameter :=
  (gatherParameters (sharedParameter? doc.parameters) (l.parameters ++ l.operation.parameters)).1

/-- An operation is what a document lists. -/
structure OfListed (doc : Document) (m : ReleaseModel) (l : Listed) (o : ApiModels.Operation) :
    Prop where
  path : o.path = l.path
  verb : o.verb = l.verb
  operationId : o.operationId = operationIdOf l.path l.verb l.operation
  version : o.version = (groupVersionOf l.path l.operation).2
  params : List.Forall₂ (fun p q => q.name = p.name ∧ StandsFor doc m (parameterSchema p) q.type)
    (gathered doc l) o.params
  used : ∀ p ∈ gathered doc l, IsUsed doc (l.parameters ++ l.operation.parameters) p
  response : Option.Rel (fun s r => StandsFor doc m s r.1) (responseSchema? l.operation) o.response
  answered : ∀ s, responseSchema? l.operation = some s →
    ∃ code ∈ responseCodes, (code, some s) ∈ l.operation.responses

/-- The operation that a document lists, in the model of the document. -/
def operationOfListed (doc : Document) (l : Listed) : ApiModels.Operation :=
  (operationOf (definitionId? doc.definitions) (sharedParameter? doc.parameters) l.path l.parameters
    l.verb l.operation).1

theorem ofListed_operationOfListed (l : Listed) :
    OfListed doc (ingest label doc).1 l (operationOfListed doc l) where
  path := rfl
  verb := rfl
  operationId := rfl
  version := rfl
  params := by
    refine List.forall₂_map_right_iff.mpr (List.forall₂_same.mpr fun p _ => ?_)
    exact ⟨rfl, standsFor_resolve (parameterSchema p)⟩
  used := isUsed_of_gatherParameters _
  answered := fun s hs => mem_of_responseSchema? hs
  response := by
    unfold operationOfListed operationOf
    dsimp only
    cases responseSchema? l.operation with
    | none => exact .none
    | some s => exact .some (standsFor_resolve s)

/-! ## The order of operations -/

/-- Looking up one name after the other goes through a list in its own order, if its names come in
the order of those looked up. -/
theorem filterMap_lookup {β γ : Type} {f : Verb → β → γ} {verbs : List Verb} (hnodup : verbs.Nodup)
    {entries : List (Verb × β)} (h : (entries.map Prod.fst).Sublist verbs) :
    (verbs.filterMap fun v => (entries.lookup v).map (f v)) = entries.map fun e => f e.1 e.2 := by
  induction verbs generalizing entries with
  | nil =>
      rw [List.map_eq_nil_iff.mp (List.sublist_nil.mp h)]
      rfl
  | cons verb verbs ih =>
      obtain ⟨hnew, hnodup⟩ := List.nodup_cons.mp hnodup
      rcases List.sublist_cons_iff.mp h with hlater | ⟨names, hnames, hnext⟩
      · -- nothing is listed under the first verb
        have hnone : entries.lookup verb = none := by
          refine List.lookup_eq_none_iff.mpr fun e he => ?_
          have hmem : e.1 ∈ verbs := hlater.subset (List.mem_map.mpr ⟨e, he, rfl⟩)
          have hne : verb ≠ e.1 := fun heq => hnew (heq ▸ hmem)
          simpa using hne
        rw [List.filterMap_cons_none (by rw [hnone]; rfl), ih hnodup hlater]
      · obtain ⟨⟨first, b⟩, rest, rfl, hfirst, rfl⟩ := List.map_eq_cons_iff.mp hnames
        obtain rfl : verb = first := hfirst.symm
        have hrest : ∀ v ∈ verbs, (((verb, b) :: rest).lookup v).map (f v)
            = (rest.lookup v).map (f v) := by
          intro v hv
          have hne : (v == verb) = false := beq_false_of_ne fun heq => hnew (heq ▸ hv)
          rw [List.lookup_cons, hne]
        rw [List.filterMap_cons_some (by rw [List.lookup_cons_self]; rfl),
          List.filterMap_congr hrest, ih hnodup hnext]
        rfl

theorem operations_eq (h : doc.InVerbOrder) : doc.operations
    = doc.paths.flatMap fun p => p.2.operations.map fun o => ⟨p.1, p.2.parameters, o.1, o.2⟩ :=
  List.flatMap_congr fun p hp => filterMap_lookup (by decide) (h p hp)

theorem toList_operations (h : doc.InVerbOrder) :
    (ingest label doc).1.operations.toList = doc.operations.map (operationOfListed doc) := by
  rw [operations_eq h, List.map_flatMap]
  simp only [List.map_map]
  exact operations_ingest label doc

/-! ## The lists of versions -/

/-- A version is picked out of the versions by what only it has. -/
theorem filter_versions {P : String → Prop} [DecidablePred P] {version : String}
    (hP : ∀ v, P v ↔ v = version) (hmem : version ∈ m.versions) :
    m.versions.filter (fun v => P v) = [version] := by
  have hfilter : m.versions.filter (fun v => P v) = m.versions.filter fun v => v = version :=
    List.filter_congr fun v _ => by rw [decide_eq_decide, hP]
  rw [hfilter, List.filter_eq, List.count_eq_one_of_mem nodup_versions hmem, List.replicate_one]

/-- A model that a document goes into without anything lost, added or out of place. -/
structure WellFormed (doc : Document) (m : ReleaseModel) : Prop where
  /-- Types are numbered as definitions stand in the document. -/
  types : List.Forall₂ (OfDefinition doc m) doc.definitions m.types.toList
  /-- Operations are numbered as paths, and verbs in them, come. -/
  operations : List.Forall₂ (OfListed doc m) doc.operations m.operations.toList
  /-- What is listed for versions as numbers are given out. -/
  lists : m.versionLists.entries
    = (sortedTexts (m.types.toList.map (·.version) ++ m.operations.toList.map (·.version))).map
        fun version => (version,
          ⟨m.typeIds.filter fun id => (m.type id).version == version,
            m.operationIds.filter fun id => (m.operation id).version == version⟩)
  versions : m.versions.Pairwise (· < ·)
  increasing : ∀ version,
    (m.typesOf version).Pairwise (· < ·) ∧ (m.operationsOf version).Pairwise (· < ·)
  /-- Each type is in one version's list, its own. -/
  version_type : ∀ id < m.types.size,
    m.versions.filter (fun version => id ∈ m.typesOf version) = [(m.type id).version]
  /-- Each operation is in one version's list, its own. -/
  version_operation : ∀ op < m.operations.size,
    m.versions.filter (fun version => op ∈ m.operationsOf version) = [(m.operation op).version]

/--
**A document goes into a well-formed model.**

In a document whose paths list their operations in the order of verbs, as all that are read do, type
number `i` is made of definition `i` and operation number `j` of the `j`-th that is listed. A version
has a list exactly if a type or an operation is of it; every number is in the list of its own version
and in no other, and lists are in increasing order. What a property, a parameter or a response refers
to is a type of the model, and its key is the one that the reference of the schema names. Only
objects have properties, and only objects are documents. And no stage of a build, whatever is
configured, has a number in hand that is not one of the model.
-/
theorem ingest_wellFormed (config : ReleaseConfig) (doc : Document) (h : doc.InVerbOrder) :
    WellFormed doc (ingest config.label doc).1 ∧ (Build.ofDocument config doc).InRange := by
  refine ⟨?_, Build.ofDocument_inRange config doc⟩
  exact {
    types := by
      rw [types_ingest]
      refine List.forall₂_map_right_iff.mpr (List.forall₂_same.mpr fun d hd => ?_)
      exact ofDefinition_typeOf hd
    operations := by
      rw [toList_operations h]
      refine List.forall₂_map_right_iff.mpr (List.forall₂_same.mpr fun l _ => ?_)
      exact ofListed_operationOfListed l
    lists := entries_versionLists _
    versions := pairwise_versions
    increasing := fun version => ⟨pairwise_typesOf, pairwise_operationsOf⟩
    version_type := by
      intro id hid
      refine filter_versions (fun version => ?_) (version_mem_versions hid)
      rw [mem_typesOf, and_iff_right hid]
      exact eq_comm
    version_operation := by
      intro op hop
      refine filter_versions (fun version => ?_) (mem_versions.mpr (.inr ⟨op, hop, rfl⟩))
      rw [mem_operationsOf, and_iff_right hop]
      exact eq_comm }

/-- Gadgets of one version, which hold parts of another. -/
def gadgets : Document where
  definitions :=
    [ ("io.example.v2.Gadget", .mk { type := some "object" }
        [("parts", .mk { type := some "array" } []
          (some (.mk { reference := some "#/definitions/io.example.v1.Part" } [] none none)) none)]
        none none),
      ("io.example.v1.Part", .mk { type := some "object" }
        [("size", .mk { type := some "integer" } [] none none)] none none) ]
  paths := [("/api/v1/parts", { operations := [(.get, {}), (.post, {})] })]

/-- The gadget comes first and the part it holds is known by its key; the later version has one type
and no operation. -/
theorem ingest_wellFormed_gadgets :
    let config : ReleaseConfig :=
      { label := "rel", semver := "1.0.0", defaultVersion := "v1", preferences := {},
        deprecations := {} }
    let m := (ingest config.label gadgets).1
    gadgets.InVerbOrder
      ∧ m.versionLists.entries = [("v1", ⟨[1], [0, 1]⟩), ("v2", ⟨[0], []⟩)]
      ∧ m.versions.filter (fun version => 0 ∈ m.typesOf version) = ["v2"]
      ∧ (m.type 0).references = [1]
      ∧ (m.type 1).key = "io.example.v1.Part" := by
  intro config m
  have hverbs : gadgets.InVerbOrder := by
    intro p hp
    obtain rfl := List.mem_singleton.mp hp
    decide
  obtain ⟨hm, -⟩ := ingest_wellFormed config gadgets hverbs
  have hsize : 0 < m.types.size := by decide +kernel
  refine ⟨hverbs, ?_, hm.version_type 0 hsize, by decide +kernel, by decide +kernel⟩
  rw [hm.lists]
  decide +kernel

end Ingest

end ApiModels
