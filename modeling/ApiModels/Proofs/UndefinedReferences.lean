import ApiModels.Proofs.DeclaredParameters

/-!
# References to nothing

Resolving a schema follows it into the items of arrays and the values of maps until it comes to a
reference or to a type of its own. If the reference names no definition, the name is reported and
what was being resolved is free-form JSON in the container that it would have had. One walk, then,
meets at most one such name; an operation is made of several schemas, and is unbindable if the walk
from any of them meets one.
-/

namespace ApiModels

namespace Swagger

/-- What resolving one schema comes to: the schema itself or one inside of it. A schema with a
reference of its own leads no further. -/
inductive Schema.Leads : Schema → Schema → Prop
  | here (s : Schema) : Leads s s
  | item {facts : Facts} {properties : List (String × Schema)} {inner s : Schema}
      {values : Option Schema} (own : facts.reference = none)
      (either : facts.intOrString ≠ some true) (array : facts.type = some "array")
      (next : Leads inner s) : Leads (.mk facts properties (some inner) values) s
  | value {facts : Facts} {properties : List (String × Schema)} {items : Option Schema}
      {inner s : Schema} (own : facts.reference = none)
      (either : facts.intOrString ≠ some true)
      (object : facts.type = none ∨ facts.type = some "object")
      (next : Leads inner s) : Leads (.mk facts properties items (some inner)) s

/-- The schema leads to a reference to the definition of this key. -/
def Schema.Reaches (s : Schema) (key : String) : Prop :=
  ∃ t reference, s.Leads t ∧ t.facts.reference = some reference ∧ definitionKey reference = key

end Swagger

namespace Ingest

open Swagger

variable {doc : Document} {key label reference : String} {s : Schema} {l : Listed} {facts : Facts}
  {properties : List (String × Schema)} {items values : Option Schema}

/-! ## Schemas -/

/-- The shape of a schema, which does not depend on what is defined. -/
def shapeOf : Schema → Shape
  | .mk facts _ _ values =>
    if facts.reference.isSome ∨ facts.intOrString = some true then .plain
    else if facts.type = some "array" then .list
    else if facts.type = none ∨ facts.type = some "object" then
      if values.isSome then .map else .plain
    else .plain

/-- The key that a schema reaches, if there is no definition of it. -/
def undefined? (doc : Document) : Schema → Option String
  | .mk facts _ items values =>
    match facts.reference with
    | some reference =>
      if definitionKey reference ∈ doc.definitions.map Prod.fst then none
      else some (definitionKey reference)
    | none =>
      if facts.intOrString = some true then none
      else if facts.type = some "array" then
        match items with
        | some inner => undefined? doc inner
        | none => none
      else if facts.type = none ∨ facts.type = some "object" then
        match values with
        | some inner => undefined? doc inner
        | none => none
      else none

theorem undefined?_of_reference (own : facts.reference = some reference) :
    undefined? doc (.mk facts properties items values)
      = if definitionKey reference ∈ doc.definitions.map Prod.fst then none
        else some (definitionKey reference) := by
  rw [undefined?.eq_def]
  dsimp only
  rw [own]

theorem undefined?_of_intOrString (own : facts.reference = none)
    (either : facts.intOrString = some true) :
    undefined? doc (.mk facts properties items values) = none := by
  rw [undefined?.eq_def]
  dsimp only
  rw [own]
  exact if_pos either

theorem undefined?_of_array (own : facts.reference = none) (either : facts.intOrString ≠ some true)
    (array : facts.type = some "array") :
    undefined? doc (.mk facts properties items values) = items.bind (undefined? doc) := by
  rw [undefined?.eq_def]
  dsimp only
  rw [own]
  dsimp only
  rw [if_neg either, if_pos array]
  cases items <;> rfl

theorem undefined?_of_object (own : facts.reference = none) (either : facts.intOrString ≠ some true)
    (object : facts.type = none ∨ facts.type = some "object") :
    undefined? doc (.mk facts properties items values) = values.bind (undefined? doc) := by
  have harray : facts.type ≠ some "array" := by rcases object with h | h <;> simp [h]
  rw [undefined?.eq_def]
  dsimp only
  rw [own]
  dsimp only
  rw [if_neg either, if_neg harray, if_pos object]
  cases values <;> rfl

theorem undefined?_of_scalar (own : facts.reference = none) (array : facts.type ≠ some "array")
    (object : ¬ (facts.type = none ∨ facts.type = some "object")) :
    undefined? doc (.mk facts properties items values) = none := by
  rw [undefined?.eq_def]
  dsimp only
  rw [own]
  dsimp only
  rw [if_neg array, if_neg object, ite_self]

/-- A name that is found undefined is reached, by induction on the way that the search takes. -/
theorem reaches_of_undefined? (h : undefined? doc s = some key) :
    s.Reaches key ∧ key ∉ doc.definitions.map Prod.fst := by
  fun_induction undefined? doc s with
  | case1 facts properties items values reference hown hdefined => cases h
  | case2 facts properties items values reference hown hdefined =>
      obtain rfl := Option.some.inj h
      exact ⟨⟨_, reference, .here _, hown, rfl⟩, hdefined⟩
  | case3 => cases h
  | case4 facts properties values hown heither harray inner ih =>
      obtain ⟨⟨t, reference, hleads, ht⟩, hundefined⟩ := ih h
      exact ⟨⟨t, reference, .item hown heither harray hleads, ht⟩, hundefined⟩
  | case5 => cases h
  | case6 facts properties items hown heither harray hobject inner ih =>
      obtain ⟨⟨t, reference, hleads, ht⟩, hundefined⟩ := ih h
      exact ⟨⟨t, reference, .value hown heither hobject hleads, ht⟩, hundefined⟩
  | case7 => cases h
  | case8 => cases h

/-- **A name is found undefined exactly if the schema reaches it and nothing defines it.** Back from
the reference by induction on the steps that lead to it. -/
theorem undefined?_eq_some_iff :
    undefined? doc s = some key ↔ s.Reaches key ∧ key ∉ doc.definitions.map Prod.fst := by
  refine ⟨reaches_of_undefined?, ?_⟩
  rintro ⟨⟨t, reference, hleads, hreference, rfl⟩, hundefined⟩
  induction hleads with
  | here s =>
      obtain ⟨facts, _, items, values⟩ := s
      have hown : facts.reference = some reference := hreference
      rw [undefined?_of_reference hown]
      exact if_neg hundefined
  | item own either array next ih =>
      rw [undefined?_of_array own either array]
      exact ih hreference
  | value own either object next ih =>
      rw [undefined?_of_object own either object]
      exact ih hreference

theorem shape_within (r : Resolved) (shape : Shape) : (r.within shape).shape = shape := by
  unfold Resolved.within
  cases r.shape <;> rfl

theorem missing_within (r : Resolved) (shape : Shape) : (r.within shape).missing = r.missing := by
  unfold Resolved.within
  cases r.shape <;> rfl

theorem json_within {r : Resolved} (h : r.type = .primitive .json) (shape : Shape) :
    (r.within shape).type = .primitive .json := by
  unfold Resolved.within
  cases r.shape <;> first | exact h | rfl

theorem filter_object {type : Option String} :
    type.filter (· ≠ "object") = none ↔ type = none ∨ type = some "object" := by
  cases type with
  | none => simp
  | some t => by_cases h : t = "object" <;> simp [h]

/-- What resolving a schema comes to, apart from the type: its shape is that of the schema, what is
missing is what is undefined, and then the type is free-form JSON. -/
structure Resolves (doc : Document) (s : Schema) (r : Resolved) : Prop where
  shape : r.shape = shapeOf s
  missing : r.missing = (undefined? doc s).toList
  json : r.missing ≠ [] → r.type = .primitive .json

theorem resolves_resolve (doc : Document) (s : Schema) :
    Resolves doc s (resolve (definitionId? doc.definitions) s) := by
  fun_induction resolve (definitionId? doc.definitions) s with
  | case1 facts properties items values reference hown id hid =>
      obtain ⟨d, hd⟩ := key_of_definitionId? hid
      have hdefined : definitionKey reference ∈ doc.definitions.map Prod.fst :=
        List.mem_map.mpr ⟨_, List.mem_of_getElem? hd, rfl⟩
      refine ⟨by simp [shapeOf, hown], ?_, fun h => absurd rfl h⟩
      rw [undefined?_of_reference hown, if_pos hdefined, Option.toList_none]
  | case2 facts properties items values reference hown hid =>
      have hundefined : definitionKey reference ∉ doc.definitions.map Prod.fst := by
        intro hdefined
        obtain ⟨id, hsome⟩ := exists_definitionId? hdefined
        exact absurd (hid.symm.trans hsome) (by simp)
      refine ⟨by simp [shapeOf, hown], ?_, fun _ => rfl⟩
      rw [undefined?_of_reference hown, if_neg hundefined, Option.toList_some]
  | case3 facts properties items values hown heither =>
      refine ⟨by simp [shapeOf, heither], ?_, fun h => absurd rfl h⟩
      rw [undefined?_of_intOrString hown heither, Option.toList_none]
  | case4 facts properties values hown heither harray inner ih =>
      refine ⟨by simp [shape_within, shapeOf, hown, heither, harray], ?_, ?_⟩
      · rw [missing_within, ih.missing, undefined?_of_array hown heither harray, Option.bind_some]
      · rw [missing_within]
        exact fun h => json_within (ih.json h) _
  | case5 facts properties values hown heither harray =>
      refine ⟨by simp [Resolved.json, shapeOf, hown, heither, harray], ?_, fun h => absurd rfl h⟩
      rw [undefined?_of_array hown heither harray]
      rfl
  | case6 facts properties items values hown heither harray type htype =>
      have hobject := filter_object.not.mp (htype ▸ Option.some_ne_none type)
      refine ⟨by simp [shapeOf, hown, heither, harray, hobject], ?_, fun h => absurd rfl h⟩
      rw [undefined?_of_scalar hown harray hobject, Option.toList_none]
  | case7 facts properties items hown heither harray htype inner ih =>
      have hobject := filter_object.mp htype
      refine ⟨by simp [shape_within, shapeOf, hown, heither, harray, hobject], ?_, ?_⟩
      · rw [missing_within, ih.missing, undefined?_of_object hown heither hobject, Option.bind_some]
      · rw [missing_within]
        exact fun h => json_within (ih.json h) _
  | case8 facts properties items hown heither harray htype =>
      have hobject := filter_object.mp htype
      refine ⟨by simp [Resolved.json, shapeOf, hown, heither, harray, hobject], ?_,
        fun h => absurd rfl h⟩
      rw [undefined?_of_object hown heither hobject]
      rfl

/-! ## What an operation is made of -/

/-- The operation answers with a schema: it is that of the first response of a code, among those that
have one, and no code that is preferred to it has any. -/
def Answers (op : Swagger.Operation) (s : Schema) : Prop :=
  ∃ before code after, responseCodes = before ++ code :: after
    ∧ (∃ earlier later, op.responses = earlier ++ (code, some s) :: later
      ∧ ∀ r, (code, some r) ∉ earlier)
    ∧ ∀ c ∈ before, ∀ r, (c, some r) ∉ op.responses

/-- A schema that resolving an operation starts from: that of a body, the type fields of any other
parameter, or what the operation answers with. -/
inductive Source (doc : Document) (l : Listed) : Schema → Prop
  | body {p : Parameter} {s : Schema} (has : p ∈ gathered doc l) (body : p.location = "body")
      (schema : p.schema = some s) : Source doc l s
  | fields {p : Parameter} (has : p ∈ gathered doc l)
      (other : p.location ≠ "body" ∨ p.schema = none) : Source doc l p.asSchema
  | response {s : Schema} (answers : Answers l.operation s) : Source doc l s

/-- The schemas that resolving an operation starts from, parameters first. -/
def sources (doc : Document) (l : Listed) : List Schema :=
  (gathered doc l).map parameterSchema ++ (responseSchema? l.operation).toList

theorem parameterSchema_eq (p : Parameter) :
    parameterSchema p = if p.location = "body" then p.schema.getD p.asSchema else p.asSchema := by
  have hlocation : locationOf p = .body ↔ p.location = "body" := by
    unfold locationOf
    split <;> simp_all
  unfold parameterSchema
  by_cases hbody : p.location = "body"
  · rw [if_pos hbody, hlocation.mpr hbody]
    cases p.schema <;> rfl
  · rw [if_neg hbody]
    split
    · exact absurd (hlocation.mp ‹_›) hbody
    · rfl

/-- The schema of the first response of a code that has one. -/
theorem schema_of_code_eq_some_iff {op : Swagger.Operation} {code : String} :
    (op.responses.find? fun r => r.1 == code && r.2.isSome).bind Prod.snd = some s
      ↔ ∃ earlier later, op.responses = earlier ++ (code, some s) :: later
        ∧ ∀ r, (code, some r) ∉ earlier := by
  rw [Option.bind_eq_some_iff]
  simp only [List.find?_eq_some_iff_append]
  constructor
  · rintro ⟨⟨c, schema⟩, ⟨hc, earlier, later, hresponses, hearlier⟩, rfl⟩
    obtain rfl : c = code := by simpa using hc
    exact ⟨earlier, later, hresponses, fun r hr => by simpa using hearlier _ hr⟩
  · rintro ⟨earlier, later, hresponses, hearlier⟩
    refine ⟨(code, some s), ⟨by simp, earlier, later, hresponses, fun r hr => ?_⟩, rfl⟩
    obtain ⟨c, schema⟩ := r
    cases schema with
    | none => simp
    | some schema =>
      have hne : c ≠ code := fun heq => hearlier schema (heq ▸ hr)
      simpa using hne

theorem schema_of_code_eq_none_iff {op : Swagger.Operation} {code : String} :
    (op.responses.find? fun r => r.1 == code && r.2.isSome).bind Prod.snd = none
      ↔ ∀ r, (code, some r) ∉ op.responses := by
  constructor
  · intro hnone r hr
    cases hfind : op.responses.find? fun r => r.1 == code && r.2.isSome with
    | none => simpa using List.find?_eq_none.mp hfind _ hr
    | some found =>
      have hsome := List.find?_some hfind
      rw [hfind, Option.bind_some] at hnone
      simp [hnone] at hsome
  · intro hnone
    refine Option.eq_none_iff_forall_not_mem.mpr fun s hs => ?_
    obtain ⟨earlier, later, hresponses, -⟩ := schema_of_code_eq_some_iff.mp hs
    exact hnone s (hresponses ▸ List.mem_append_right _ List.mem_cons_self)

theorem responseSchema?_eq_some_iff {op : Swagger.Operation} :
    responseSchema? op = some s ↔ Answers op s := by
  unfold responseSchema? Answers
  rw [List.findSome?_eq_some_iff]
  simp only [schema_of_code_eq_some_iff, schema_of_code_eq_none_iff]

theorem mem_sources : s ∈ sources doc l ↔ Source doc l s := by
  rw [sources, List.mem_append, List.mem_map, Option.mem_toList, responseSchema?_eq_some_iff]
  constructor
  · rintro (⟨p, hp, rfl⟩ | hanswers)
    · rw [parameterSchema_eq]
      split
      case isTrue hbody =>
        cases hschema : p.schema with
        | none => exact .fields hp (.inr hschema)
        | some s => exact .body hp hbody hschema
      case isFalse hbody => exact .fields hp (.inl hbody)
    · exact .response hanswers
  · rintro (⟨hp, hbody, hschema⟩ | ⟨hp, hother⟩ | hanswers)
    · exact .inl ⟨_, hp, by rw [parameterSchema_eq, if_pos hbody, hschema]; rfl⟩
    · refine .inl ⟨_, hp, ?_⟩
      rw [parameterSchema_eq]
      rcases hother with h | h
      · exact if_neg h
      · rw [h, Option.getD_none, ite_self]
    · exact .inr hanswers

/-- The undefined names that an operation reaches, one for each time it does. -/
def reachedNames (doc : Document) (l : Listed) : List String :=
  (sources doc l).filterMap (undefined? doc)

theorem missing_flatMap (doc : Document) (ss : List Schema) :
    (ss.flatMap fun s => (resolve (definitionId? doc.definitions) s).missing)
      = ss.filterMap (undefined? doc) := by
  rw [List.filterMap_eq_flatMap_toList]
  exact List.flatMap_congr fun s _ => (resolves_resolve doc s).missing

/-- Names are collected from the parameters first and then from what the operation answers with. -/
theorem reachedNames_eq (doc : Document) (l : Listed) :
    ((gathered doc l).flatMap fun p =>
        (resolve (definitionId? doc.definitions) (parameterSchema p)).missing)
      ++ (((responseSchema? l.operation).map (resolve (definitionId? doc.definitions))).map
          (·.missing)).getD [] = reachedNames doc l := by
  rw [reachedNames, sources, List.filterMap_append, ← missing_flatMap, ← missing_flatMap,
    List.flatMap_map]
  cases responseSchema? l.operation with
  | none => rfl
  | some s => simp

theorem missing_found (doc : Document) (l : Listed) :
    (found doc l).1.missing = sortedTexts (reachedNames doc l) := by
  rw [← reachedNames_eq]
  rfl

theorem anomalies_found (doc : Document) (l : Listed) :
    (found doc l).2 = (l.uses.filterMap (unresolved? doc)).map (unresolvedAnomaly l)
      ++ (reachedNames doc l).map
        (missingAnomaly (found doc l).1.version (found doc l).1.operationId) := by
  have hunresolved := congrArg Prod.snd (gatherParameters_eq doc l.uses)
  rw [← reachedNames_eq]
  exact congrArg (·.map (unresolvedAnomaly l) ++ _) hunresolved

/-- What an operation is found to be, by what it reaches. -/
structure Reports (doc : Document) (l : Listed) (o : ApiModels.Operation) (anomalies : Diagnostics) :
    Prop where
  /-- It cannot be bound exactly if one of its schemas reaches a name that is not defined. -/
  unbindable : o.isBindable = false
    ↔ ∃ s, Source doc l s ∧ ∃ key, s.Reaches key ∧ key ∉ doc.definitions.map Prod.fst
  /-- These names are missing, in order and each of them once. -/
  missing : o.missing.Pairwise (· < ·) ∧ ∀ key, key ∈ o.missing
    ↔ (∃ s, Source doc l s ∧ s.Reaches key) ∧ key ∉ doc.definitions.map Prod.fst
  /-- There is one anomaly for each schema that reaches such a name, after those of references to
  parameters. -/
  reported : anomalies = (l.uses.filterMap (unresolved? doc)).map (unresolvedAnomaly l)
    ++ ((sources doc l).filterMap (undefined? doc)).map (missingAnomaly o.version o.operationId)

theorem reports_found (doc : Document) (l : Listed) :
    Reports doc l (found doc l).1 (found doc l).2 := by
  have hmem : ∀ key, key ∈ (found doc l).1.missing
      ↔ (∃ s, Source doc l s ∧ s.Reaches key) ∧ key ∉ doc.definitions.map Prod.fst := by
    intro key
    rw [missing_found, mem_sortedTexts, reachedNames, List.mem_filterMap]
    simp only [undefined?_eq_some_iff, mem_sources]
    constructor
    · rintro ⟨s, hs, hreaches, hkey⟩
      exact ⟨⟨s, hs, hreaches⟩, hkey⟩
    · rintro ⟨⟨s, hs, hreaches⟩, hkey⟩
      exact ⟨s, hs, hreaches, hkey⟩
  refine {
    unbindable := ?_
    missing := ⟨by rw [missing_found]; exact pairwise_sortedTexts _, hmem⟩
    reported := anomalies_found doc l }
  rw [Operation.isBindable, ← Bool.not_eq_true, List.isEmpty_iff, List.eq_nil_iff_forall_not_mem]
  simp only [hmem, not_forall, not_not]
  constructor
  · rintro ⟨key, ⟨s, hs, hreaches⟩, hkey⟩
    exact ⟨s, hs, key, hreaches, hkey⟩
  · rintro ⟨s, hs, key, hreaches, hkey⟩
    exact ⟨key, ⟨s, hs, hreaches⟩, hkey⟩

/-! ## Definitions -/

/-- What the properties of a definition are found to be, by what they reach. -/
structure Degrades (doc : Document) (d : String × Schema) (t : TypeDef) (anomalies : Diagnostics) :
    Prop where
  /-- There is one anomaly for each property of an object that reaches a name that is not defined. -/
  reported : t.kind = .object → anomalies
    = (d.2.properties.filterMap fun p => undefined? doc p.2).map (missingAnomaly t.version d.1)
  /-- Such a property is free-form JSON, and like any other has the container of its schema. -/
  json : t.kind = .object → List.Forall₂ (fun p q => q.name = p.1
      ∧ q.container = (shapeOf p.2).container (d.2.facts.required.contains p.1)
      ∧ ∀ key, p.2.Reaches key → key ∉ doc.definitions.map Prod.fst → q.type = .primitive .json)
    d.2.properties t.properties
  /-- Nothing is said of what is not an object. -/
  silent : t.kind ≠ .object → anomalies = []

theorem degrades_typeOf (doc : Document) (d : String × Schema) :
    Degrades doc d (typeOf (definitionId? doc.definitions) d.1 d.2)
      (definitionAnomalies (definitionId? doc.definitions) d.1 d.2) where
  reported := by
    intro hobject
    have hkind : kindOf d.2 = .object := hobject
    have hmissing := missing_flatMap doc (d.2.properties.map Prod.snd)
    rw [List.flatMap_map, List.filterMap_map] at hmissing
    unfold definitionAnomalies
    rw [if_pos hkind, hmissing]
    rfl
  json := by
    intro hobject
    have hkind : kindOf d.2 = .object := hobject
    unfold typeOf
    dsimp only
    rw [if_pos hkind]
    refine List.forall₂_map_right_iff.mpr (List.forall₂_same.mpr fun p _ => ?_)
    have hresolves := resolves_resolve doc p.2
    refine ⟨rfl, by rw [property, hresolves.shape], fun key hreaches hkey => hresolves.json ?_⟩
    rw [hresolves.missing, undefined?_eq_some_iff.mpr ⟨hreaches, hkey⟩]
    exact List.cons_ne_nil _ _
  silent := fun hobject => if_neg hobject

/-- An anomaly of a name is of the kind that the known names have, or of that of the others. -/
theorem missingAnomaly_eq (version subject name : String) :
    (missingAnomaly version subject name).version = version
      ∧ (missingAnomaly version subject name).subject = subject
      ∧ (missingAnomaly version subject name).kind
        = if name ∈ knownMissing then .knownMissingType else .undefinedReference := by
  unfold missingAnomaly
  by_cases hknown : name ∈ knownMissing
  · rw [if_pos (List.contains_iff_mem.mpr hknown), if_pos hknown]
    exact ⟨rfl, rfl, rfl⟩
  · rw [if_neg fun h => hknown (List.contains_iff_mem.mp h), if_neg hknown]
    exact ⟨rfl, rfl, rfl⟩

/--
**A reference to nothing spoils what makes it and no more.**

An operation is unbindable exactly if resolving one of its schemas reaches a name that the document
does not define; what is missing are these names in order, and each time one is reached is an
anomaly, of the kind of names known to be missing or else of undefined references. A property of an
object that reaches such a name is reported in the same way, and is free-form JSON in the container
of its schema. Nothing else is reported but references to no parameter. What an operation is does not
depend on the others: whatever the paths are, it comes of what is listed for it alone.
-/
theorem undefined_references (label : String) (doc : Document) :
    (∀ version subject name, (missingAnomaly version subject name).version = version
        ∧ (missingAnomaly version subject name).subject = subject
        ∧ (missingAnomaly version subject name).kind
          = if name ∈ knownMissing then .knownMissingType else .undefinedReference)
      ∧ (∀ s key, undefined? doc s = some key
        ↔ s.Reaches key ∧ key ∉ doc.definitions.map Prod.fst)
      ∧ ∃ (types : List (TypeDef × Diagnostics))
          (outcome : Listed → ApiModels.Operation × Diagnostics),
        List.Forall₂ (fun d t => Degrades doc d t.1 t.2) doc.definitions types
          ∧ (∀ l, Reports doc l (outcome l).1 (outcome l).2)
          ∧ ∀ paths,
            (ingest label { doc with paths }).1.types.toList = types.map Prod.fst
              ∧ (ingest label { doc with paths }).1.operations.toList
                = (Document.listed { doc with paths }).map (fun l => (outcome l).1)
              ∧ (ingest label { doc with paths }).2
                = types.flatMap Prod.snd
                  ++ (Document.listed { doc with paths }).flatMap fun l => (outcome l).2 := by
  refine ⟨missingAnomaly_eq, fun s key => undefined?_eq_some_iff,
    doc.definitions.map fun d => (typeOf (definitionId? doc.definitions) d.1 d.2,
      definitionAnomalies (definitionId? doc.definitions) d.1 d.2),
    found doc, ?_, reports_found doc, fun paths => ?_⟩
  · exact List.forall₂_map_right_iff.mpr (List.forall₂_same.mpr fun d _ => degrades_typeOf doc d)
  · obtain ⟨hoperations, hanomalies⟩ := ingest_eq label { doc with paths }
    rw [types_ingest, hoperations, hanomalies, List.map_map, List.flatMap_map, List.flatMap_map,
      List.map_map]
    exact ⟨rfl, rfl, rfl⟩

end Ingest

end ApiModels
