import ApiModels.Proofs.Containment
import ApiModels.Proofs.Identifiers

/-!
# Paths into documents

A document gives its name and its namespace by a path of fields: to its metadata, and from there to
a text. Two decisions must agree for such a path to exist. Which type a field has depends on who
refers to it, for the partner of a split type is given the base. Which way leads to a property
depends on the type alone: through the base, if the type is split.

They agree in every document but two. Where the metadata are split with the document as their
partner, the field holds the base itself, and the path asks that for a base again. And where the
metadata are a required value of the document's own type, the field is optional and the path does
not ask whether there is a value.
-/

namespace ApiModels.Generated

open ApiModels.Order ReleaseModel
open Source (Ident)

variable {b : Build} {version v : String} {e : Emit} {id : TypeId} {i : Nat} {p : Property}
  {t : Ty} {root : Expr}

/-! ## What expressions mean -/

/-- The type of an optional value. -/
def optionOf (t : Ty) : Ty := applied ["Option"] [t]

/-- A type as it is written in the module of a version. -/
structure Located where
  home : String
  type : Ty

/-- A type, in the module of a version, means a struct: one that the module declares, or one that
the module of a version beside it does. -/
inductive Means (b : Build) (version : String) : Ty → String → List Field → Prop where
  | own {name : Ident} {fields : List Field} :
      (name, fields) ∈ structs (versionModule b version).items →
      Means b version (.named [name] []) version fields
  | beside {home : String} {name : Ident} {fields : List Field} :
      (name, fields) ∈ structs (versionModule b home).items →
      Means b version (.named [⟨"super", false⟩, .ofModule home, name] []) home fields

/-- What a field is taken from when the owner is borrowed or boxed. -/
inductive Derefs : Ty → Ty → Prop where
  | refl {t : Ty} : Derefs t t
  | reference {t u : Ty} : Derefs t u → Derefs (refTo t) u
  | box {t u : Ty} : Derefs t u → Derefs (applied ["Box"] [t]) u

/-- The type of an expression in a function with a receiver. -/
inductive HasType (b : Build) (self : Located) : Expr → Located → Prop where
  | self : HasType b self (.plain ["self"]) self
  /-- Its type is as the struct that declares it has it. -/
  | field {e : Expr} {t u : Ty} {v home : String} {fields : List Field} {f : Field} :
      HasType b self e ⟨v, t⟩ → Derefs t u → Means b v u home fields → f ∈ fields →
      HasType b self (.field e f.name) ⟨home, f.type⟩
  | asRef {e : Expr} {t : Ty} {v : String} : HasType b self e ⟨v, optionOf t⟩ →
      HasType b self (.method e ⟨"as_ref", false⟩ []) ⟨v, optionOf (refTo t)⟩
  /-- The function itself returns an optional value. -/
  | orReturn {e : Expr} {t : Ty} {v : String} : HasType b self e ⟨v, optionOf t⟩ →
      HasType b self (.orReturn e) ⟨v, t⟩
  | asDeref {e : Expr} {v : String} : HasType b self e ⟨v, optionOf (.plain ["String"])⟩ →
      HasType b self (.method e ⟨"as_deref", false⟩ []) ⟨v, optionOf (refTo (.plain ["str"]))⟩
  | asStr {e : Expr} {v : String} : HasType b self e ⟨v, .plain ["String"]⟩ →
      HasType b self (.method e ⟨"as_str", false⟩ []) ⟨v, refTo (.plain ["str"])⟩
  | present {e : Expr} {t : Ty} {v : String} : HasType b self e ⟨v, t⟩ →
      HasType b self (.call (.plain ["Some"]) [e]) ⟨v, optionOf t⟩

/-! ## Structs of items -/

/-- **No field has a name that is taken.** -/
theorem text_notMem_of_mem_assignFields {taken : List String} {ps : List Property} {ident : Ident}
    (h : ident ∈ assignFields taken ps) : ident.text ∉ taken := by
  induction ps generalizing taken with
  | nil => cases h
  | cons p ps ih =>
    rw [assignFields, List.mem_cons] at h
    rcases h with rfl | h
    · exact Text.part_firstFree_notMem
        (Source.text_candidate_injective (Source.isPlain_fieldName p.name)) (Nat.le_refl _)
    · exact fun hmem => ih h (List.mem_cons_of_mem _ hmem)

/-- No property of a split type has a field that could be taken for its base. -/
theorem ne_baseField_of_mem_fieldIdents {b : Build} {id : TypeId}
    (hsplit : (b.order.split? id).isSome = true) {ident : Ident} (h : ident ∈ fieldIdents b id) :
    ident ≠ baseField := by
  unfold fieldIdents at h
  rw [if_pos hsplit] at h
  rintro rfl
  exact text_notMem_of_mem_assignFields h List.mem_cons_self

/-- The fields of the struct of an item are exactly those of the item. -/
theorem exists_fields (version : String) (hitem : IsItem b.order.splits e)
    (hkind : (b.model.type e.id).kind = .object) :
    ∃ fields, structs (itemsOf b version e) = [(itemIdent b e, fields)]
      ∧ ∀ field, field ∈ fields ↔ FieldOf b version e field := by
  obtain ⟨fields, hstructs, hfields, hall⟩ := structs_itemsOf version hitem hkind
  refine ⟨fields, hstructs, fun field => ⟨hfields field, fun h => ?_⟩⟩
  cases h with
  | property hh hp hi => exact hall _ _ _ hh hp hi
  | @base id s hs =>
    -- the struct of a derived item begins with the field of its base
    have hderived : ∃ more, structs (itemsOf b version (.derived id))
        = (typeIdent b id, embedded s :: more) :: [] := by
      refine ⟨fieldsOf b version id fun i => s.closing.contains i, ?_⟩
      unfold itemsOf
      dsimp only
      rw [show (b.model.type (Emit.derived id).id).kind = .object from hkind,
        show b.order.split? (Emit.derived id).id = some s from hs]
      dsimp only
      rw [structs_append, structs_append, structs_append, structs_documentItems,
        structs_methodItems, structs_crudItems]
      rfl
    obtain ⟨more, hmore⟩ := hderived
    rw [hmore, List.cons.injEq, Prod.mk.injEq] at hstructs
    rw [← hstructs.1.2]
    exact List.mem_cons_self

/-- The structs of an item are among those of its version. -/
theorem mem_structs_of_mem_items (he : e ∈ b.items version) {s : Ident × List Field}
    (h : s ∈ structs (itemsOf b version e)) : s ∈ structs (versionModule b version).items := by
  unfold versionModule structs at *
  rw [List.filterMap_append, List.mem_append, List.filterMap_flatMap, List.mem_flatMap]
  exact .inr ⟨e, he, h⟩

/-- The path of an item means its struct, from wherever it is seen. -/
theorem means_itemPath (hb : Sorted b.model b.order) (v : String)
    (he : e ∈ b.items (b.model.type e.id).version) (hkind : (b.model.type e.id).kind = .object) :
    ∃ fields, Means b v (itemPath b v e) (b.model.type e.id).version fields
      ∧ ∀ field, field ∈ fields ↔ FieldOf b (b.model.type e.id).version e field := by
  obtain ⟨fields, hstructs, hfields⟩ :=
    exists_fields (b.model.type e.id).version ((Build.mem_items hb).mp he).2 hkind
  have hmem : (itemIdent b e, fields)
      ∈ structs (versionModule b (b.model.type e.id).version).items :=
    mem_structs_of_mem_items he (by rw [hstructs]; exact List.mem_singleton_self _)
  refine ⟨fields, ?_, hfields⟩
  unfold itemPath
  dsimp only
  split
  · rename_i hv
    rw [hv] at hmem ⊢
    exact .own hmem
  · exact .beside hmem

/-! ## Access to properties -/

section

variable {self : Located} (hb : Sorted b.model b.order)
  (he : e ∈ b.items (b.model.type e.id).version) (hkind : (b.model.type e.id).kind = .object)

include hb he hkind

/-- A property that an item holds is a field of what means the item. -/
theorem hasType_property (hh : Holds b.order.splits e i)
    (hp : (b.model.type e.id).properties[i]? = some p) (hroot : HasType b self root ⟨v, t⟩)
    (ht : Derefs t (itemPath b v e)) :
    HasType b self (.field root ((fieldIdents b e.id).getD i default))
      ⟨(b.model.type e.id).version, fieldType b (b.model.type e.id).version e.id p⟩ := by
  have hlt : i < (fieldIdents b e.id).length := by
    rw [length_fieldIdents]
    exact (List.getElem?_eq_some_iff.mp hp).1
  obtain ⟨fields, hmeans, hfields⟩ := means_itemPath hb v he hkind
  have hmem := (hfields _).mpr (.property hh hp (List.getElem?_eq_getElem hlt))
  rw [List.getD_eq_getElem?_getD, List.getElem?_eq_getElem hlt, Option.getD_some]
  exact .field hroot ht hmeans hmem

/-- The way that leads to a property from an item other than a base ends at its field, also where it
leads through the base. -/
theorem hasType_fieldAccess (hnotBase : e.isBase = false)
    (hp : (b.model.type e.id).properties[i]? = some p) (hroot : HasType b self root ⟨v, t⟩)
    (ht : Derefs t (itemPath b v e)) :
    HasType b self (fieldAccess b root e.id i)
      ⟨(b.model.type e.id).version, fieldType b (b.model.type e.id).version e.id p⟩ := by
  have hitem := ((Build.mem_items hb).mp he).2
  unfold fieldAccess
  dsimp only
  cases e with
  | base id => cases hnotBase
  | plain id =>
    have hs : b.order.split? (Emit.plain id).id = none := hitem
    rw [hs]
    exact hasType_property hb he hkind (.plain hs) hp hroot ht
  | derived id =>
    obtain ⟨s, hs⟩ := Option.isSome_iff_exists.mp hitem
    rw [show b.order.split? (Emit.derived id).id = some s from hs]
    dsimp only
    split
    · rename_i hclosing
      exact hasType_property hb he hkind (.derived hs (List.contains_iff_mem.mp hclosing)) hp
        hroot ht
    · rename_i hclosing
      -- the derived struct embeds the base, which holds the property
      obtain ⟨fields, hmeans, hfields⟩ := means_itemPath hb v he hkind
      have hembedded : HasType b self (.field root baseField)
          ⟨(b.model.type id).version, .named [.ofName s.baseName] []⟩ :=
        .field hroot ht hmeans ((hfields _).mpr (.base hs))
      have hbase : Emit.base id ∈ b.items (b.model.type (Emit.base id).id).version :=
        (Build.mem_items hb).mpr ⟨((Build.mem_items hb).mp he).1, hitem⟩
      have hpath : itemPath b (b.model.type id).version (.base id)
          = .named [.ofName s.baseName] [] := by
        unfold itemPath
        exact (if_pos rfl).trans (congrArg (fun name => Ty.named [name] []) (itemIdent_base hs))
      refine hasType_property (e := .base id) hb hbase hkind (.base hs ?_) hp hembedded ?_
      · rwa [← List.contains_iff_mem]
      · rw [hpath]
        exact .refl

end

/-! ## From a document to a text -/

theorem property?_eq_some {d : TypeDef} {name : String} (h : d.property? name = some (i, p)) :
    d.properties[i]? = some p := by
  unfold TypeDef.property? at h
  obtain ⟨⟨q, j⟩, hfind, heq⟩ := Option.map_eq_some_iff.mp h
  cases heq
  exact List.mem_zipIdx_iff_getElem?.mp (List.mem_of_find?_eq_some hfind)

/-- The metadata of a document, and the way that leads to them. -/
theorem metadata?_eq_some {holder : TypeId} (h : metadata? b id = some (root, holder)) :
    ∃ i p, (b.model.type id).property? "metadata" = some (i, p) ∧ p.type = .named holder
      ∧ (p.container = .optional
          ∧ root = .orReturn (.method (fieldAccess b (.plain ["self"]) id i) ⟨"as_ref", false⟩ [])
        ∨ p.container = .plain ∧ root = fieldAccess b (.plain ["self"]) id i) := by
  unfold metadata? at h
  split at h
  · rename_i i p hfound
    dsimp only at h
    split at h
    · rename_i htype hcontainer
      cases h
      exact ⟨i, p, hfound, htype, .inl ⟨hcontainer, rfl⟩⟩
    · rename_i htype hcontainer
      cases h
      exact ⟨i, p, hfound, htype, .inr ⟨hcontainer, rfl⟩⟩
    · cases h
  · cases h

/-- What is read off a type is an optional or a required text of it. -/
theorem textAccessor?_eq_some {field : String} {value : Expr}
    (h : textAccessor? b root id field = some value) :
    ∃ i p, (b.model.type id).properties[i]? = some p ∧ p.type = .primitive .string
      ∧ (p.container = .optional
          ∧ value = .method (fieldAccess b root id i) ⟨"as_deref", false⟩ []
        ∨ p.container = .plain ∧ value
          = .call (.plain ["Some"]) [.method (fieldAccess b root id i) ⟨"as_str", false⟩ []]) := by
  unfold textAccessor? at h
  split at h
  · rename_i i p hfound
    dsimp only at h
    split at h
    · rename_i htype
      split at h
      · rename_i hcontainer
        cases h
        exact ⟨i, p, property?_eq_some hfound, htype, .inl ⟨hcontainer, rfl⟩⟩
      · rename_i hcontainer
        cases h
        exact ⟨i, p, property?_eq_some hfound, htype, .inr ⟨hcontainer, rfl⟩⟩
      · cases h
      · cases h
    · cases h
  · cases h

/-- A text has the type that its container gives it. -/
theorem fieldType_text (htype : p.type = .primitive .string) :
    fieldType b version id p = contained (.plain ["String"]) p.container := by
  have hself : isSelfReference id p = false := by
    unfold isSelfReference
    rw [htype]
    rfl
  unfold fieldType fieldContainer
  rw [hself, htype]
  rfl

/-- The text of a type is given where the type is not meant by its base. -/
theorem hasType_textAccessor {self : Located} (hb : Sorted b.model b.order)
    (he : e ∈ b.items (b.model.type e.id).version) (hkind : (b.model.type e.id).kind = .object)
    (hnotBase : e.isBase = false) {field : String} {value : Expr}
    (h : textAccessor? b root e.id field = some value) (hroot : HasType b self root ⟨v, t⟩)
    (ht : Derefs t (itemPath b v e)) :
    HasType b self value ⟨(b.model.type e.id).version, optionOf (refTo (.plain ["str"]))⟩ := by
  obtain ⟨i, p, hp, htype, hvalue⟩ := textAccessor?_eq_some h
  have haccess := hasType_fieldAccess hb he hkind hnotBase hp hroot ht
  rw [fieldType_text htype] at haccess
  rcases hvalue with ⟨hcontainer, rfl⟩ | ⟨hcontainer, rfl⟩
  · rw [hcontainer] at haccess
    exact .asDeref haccess
  · rw [hcontainer] at haccess
    exact .present (.asStr haccess)

/-- The metadata of a document are a required value of its own type. -/
def RequiresItself (b : Build) (id : TypeId) : Prop :=
  ∃ i p, (b.model.type id).property? "metadata" = some (i, p) ∧ p.type = .named id
    ∧ p.container = .plain

/-- In its own version an item that is not a base goes by the name of its type. -/
theorem itemPath_of_not_isBase (hnotBase : e.isBase = false) :
    itemPath b (b.model.type e.id).version e = .named [typeIdent b e.id] [] := by
  unfold itemPath
  rw [if_pos rfl]
  cases e with
  | base id => cases hnotBase
  | plain id => rfl
  | derived id => rfl

/-- A field of another type holds the item that stands for that type. -/
theorem fieldType_of_ne {holder : TypeId} (htype : p.type = .named holder) (hne : holder ≠ id) :
    fieldType b version id p
      = contained (itemPath b version (itemFor b.order.splits id holder)) p.container := by
  have hnot : isSelfReference id p = false := by
    unfold isSelfReference
    rw [htype]
    simp [TypeRef.named?, hne]
  unfold fieldType fieldContainer
  rw [hnot, htype, refType, typePath_eq]
  rfl

/-- The metadata are reached, and are the item that stands for their type, unless they are a
required value of the document's own type. -/
theorem hasType_metadata (hb : Sorted b.model b.order)
    (he : e ∈ b.items (b.model.type e.id).version) (hkind : (b.model.type e.id).kind = .object)
    (hnotBase : e.isBase = false) {holder : TypeId}
    (h : metadata? b e.id = some (root, holder))
    (hrequired : ¬ RequiresItself b e.id) :
    ∃ t, HasType b ⟨(b.model.type e.id).version, refTo (.named [typeIdent b e.id] [])⟩ root
        ⟨(b.model.type e.id).version, t⟩
      ∧ Derefs t (itemPath b (b.model.type e.id).version
          (itemFor b.order.splits e.id holder)) := by
  obtain ⟨i, p, hfound, htype, hroot⟩ := metadata?_eq_some h
  have hp := property?_eq_some hfound
  have hown : Derefs (refTo (.named [typeIdent b e.id] []))
      (itemPath b (b.model.type e.id).version e) := by
    rw [itemPath_of_not_isBase hnotBase]
    exact .reference .refl
  have haccess := hasType_fieldAccess hb he hkind hnotBase hp .self hown
  by_cases hself : holder = e.id
  · -- what the document holds of its own type is boxed and optional
    have hnamed : p.type.named? = some e.id := by rw [htype, hself]; rfl
    rcases hroot with ⟨hcontainer, rfl⟩ | ⟨hcontainer, rfl⟩
    · rw [fieldType_self hnamed (by rw [hcontainer]; rfl), typePath_eq] at haccess
      refine ⟨_, .orReturn (.asRef haccess), ?_⟩
      rw [hself]
      exact .reference (.box .refl)
    · exact absurd ⟨i, p, hfound, hself ▸ htype, hcontainer⟩ hrequired
  · rw [fieldType_of_ne htype hself] at haccess
    rcases hroot with ⟨hcontainer, rfl⟩ | ⟨hcontainer, rfl⟩
    · rw [hcontainer] at haccess
      exact ⟨_, .orReturn (.asRef haccess), .reference .refl⟩
    · rw [hcontainer] at haccess
      exact ⟨_, haccess, .refl⟩

/-! ## Functions of documents -/

/-- The functions that make documents among some items, each with the type it is a function of. -/
def documentFunctions (items : List Item) : List (Ty × Function) :=
  items.flatMap fun
    | .implementation (some path) target members =>
      if path = Path.of ["keel_model", "Document"] then
        members.filterMap fun
          | .function f => some (target, f)
          | _ => none
      else []
    | _ => []

theorem documentFunctions_append (items more : List Item) :
    documentFunctions (items ++ more) = documentFunctions items ++ documentFunctions more :=
  List.flatMap_append

theorem documentFunctions_methodItems : documentFunctions (methodItems b version id) = [] := by
  unfold methodItems
  split
  · rfl
  · rfl

theorem documentFunctions_crudItems : documentFunctions (crudItems b id) = [] := by
  unfold crudItems
  split
  · rfl
  · rfl

theorem mem_documentFunctions_documentItems {d : Ty × Function}
    (h : d ∈ documentFunctions (documentItems b id)) :
    d.1 = .named [typeIdent b id] [] ∧ .function d.2 ∈ accessors b id := by
  unfold documentItems at h
  split at h
  · cases h
  · obtain ⟨item, hitem, hd⟩ := List.mem_flatMap.mp h
    rw [List.mem_cons, List.mem_singleton] at hitem
    rcases hitem with rfl | rfl
    · obtain ⟨m, hm, hd⟩ := List.mem_filterMap.mp hd
      cases m with
      | constant _ _ _ => cases hd
      | synonym _ _ => cases hd
      | function f =>
        cases hd
        -- the constants before the accessors are no functions
        simpa [textConstant] using hm
    · cases hd

/-- The functions of a document are those of an item other than a base. -/
theorem mem_documentFunctions_itemsOf (hitem : IsItem b.order.splits e) {d : Ty × Function}
    (h : d ∈ documentFunctions (itemsOf b version e)) :
    e.isBase = false ∧ d.1 = .named [typeIdent b e.id] [] ∧ .function d.2 ∈ accessors b e.id := by
  have hrest : documentFunctions
      (documentItems b e.id ++ methodItems b version e.id ++ crudItems b e.id)
      = documentFunctions (documentItems b e.id) := by
    rw [documentFunctions_append, documentFunctions_append, documentFunctions_methodItems,
      documentFunctions_crudItems, List.append_nil, List.append_nil]
  unfold itemsOf at h
  dsimp only at h
  split at h
  · cases h
  · cases e with
    | plain id => exact ⟨rfl, mem_documentFunctions_documentItems (hrest ▸ h)⟩
    | base id =>
      obtain ⟨s, hs⟩ := Option.isSome_iff_exists.mp hitem
      rw [show b.order.split? (Emit.base id).id = some s from hs] at h
      cases h
    | derived id =>
      obtain ⟨s, hs⟩ := Option.isSome_iff_exists.mp hitem
      rw [show b.order.split? (Emit.derived id).id = some s from hs] at h
      dsimp only at h
      rw [documentFunctions_append] at h
      exact ⟨rfl, mem_documentFunctions_documentItems (hrest ▸ h)⟩

theorem exists_item_of_mem_documentFunctions {d : Ty × Function}
    (h : d ∈ documentFunctions (versionModule b version).items) :
    ∃ e ∈ b.items version, d ∈ documentFunctions (itemsOf b version e) := by
  unfold versionModule documentFunctions at h
  rw [List.flatMap_append, List.mem_append, List.flatMap_assoc] at h
  rcases h with h | h
  · simp [moduleDeclaration] at h
  · exact List.mem_flatMap.mp h

/-- An accessor gives a text of the metadata. -/
theorem mem_accessors {f : Function} (h : .function f ∈ accessors b id) :
    ∃ root holder field value, metadata? b id = some (root, holder)
      ∧ textAccessor? b root holder field = some value ∧ f.body.result = some value
      ∧ f.result = some (optionOf (refTo (.plain ["str"]))) := by
  unfold accessors at h
  split at h
  · rename_i root holder hmetadata
    obtain ⟨field, -, hf⟩ := List.mem_filterMap.mp h
    obtain ⟨value, hvalue, hf⟩ := Option.map_eq_some_iff.mp hf
    cases hf
    exact ⟨root, holder, field, value, hmetadata, hvalue, rfl, rfl⟩
  · cases h

/-! ## Builds -/

/-- The metadata of a document are meant by their base, since their type is split with the document
as its partner. -/
def MeantByBase (b : Build) (id : TypeId) : Prop :=
  ∃ root holder s, metadata? b id = some (root, holder) ∧ b.order.split? holder = some s
    ∧ s.partner = id

/-- The item that stands for the metadata of a document is that of their own type, or their base
where they are meant by it. -/
theorem isBase_itemFor {holder : TypeId} (h : metadata? b id = some (root, holder))
    (hnot : ¬ MeantByBase b id) : (itemFor b.order.splits id holder).isBase = false := by
  unfold itemFor
  cases hs : splitOf? b.order.splits holder with
  | none => rfl
  | some s =>
    have hpartner : s.partner ≠ id := fun hp => hnot ⟨root, holder, s, h, hs, hp⟩
    dsimp only
    rw [if_neg hpartner]
    rfl

/-- The expression that an optional text is read from. -/
inductive ReadFrom : Expr → Expr → Prop where
  | optional {e : Expr} : ReadFrom (.method e ⟨"as_deref", false⟩ []) e
  | required {e : Expr} : ReadFrom (.call (.plain ["Some"]) [.method e ⟨"as_str", false⟩ []]) e

/-- A text of a split type is looked for in its base. -/
theorem readFrom_textAccessor (hb : Sorted b.model b.order) {s : Split}
    (hs : b.order.split? id = some s) {field : String} {value : Expr}
    (h : textAccessor? b root id field = some value) :
    ∃ ident, ReadFrom value (.field (.field root baseField) ident) := by
  obtain ⟨i, p, hp, htype, hvalue⟩ := textAccessor?_eq_some h
  have hopen : s.closing.contains i = false := by
    obtain ⟨hmem, htarget⟩ := mem_of_splitOf? hs
    have hclosing := hb.settled.closing s hmem i p (by rw [htarget]; exact hp)
    rw [htype] at hclosing
    rw [← Bool.not_eq_true, List.contains_iff_mem, hclosing]
    simp [TypeRef.named?]
  have haccess : fieldAccess b root id i
      = .field (.field root baseField) ((fieldIdents b id).getD i default) := by
    unfold fieldAccess
    rw [hs]
    dsimp only
    rw [hopen, if_neg Bool.false_ne_true]
  rw [haccess] at hvalue
  rcases hvalue with ⟨-, rfl⟩ | ⟨-, rfl⟩
  · exact ⟨_, .optional⟩
  · exact ⟨_, .required⟩

theorem refers_of_metadata {holder : TypeId} (h : metadata? b id = some (root, holder)) :
    b.model.Refers id holder := by
  obtain ⟨i, p, hfound, htype, -⟩ := metadata?_eq_some h
  exact .of_property (List.mem_of_getElem? (property?_eq_some hfound)) (by rw [htype]; rfl)

/-- A type that a text is read off has properties, so it is an object. -/
theorem kind_of_textAccessor
    (hobject : ∀ id p, p ∈ (b.model.type id).properties → (b.model.type id).kind = .object)
    {field : String} {value : Expr} (h : textAccessor? b root id field = some value) :
    (b.model.type id).kind = .object := by
  obtain ⟨i, p, hp, -⟩ := textAccessor?_eq_some h
  exact hobject id p (List.mem_of_getElem? hp)

/-- The fields of a base do not hold another base. -/
theorem ne_baseField_of_fieldOf {f : Field} (hs : (b.order.split? id).isSome = true)
    (h : FieldOf b version (.base id) f) : f.name ≠ baseField := by
  cases h with
  | property _ _ hi => exact ne_baseField_of_mem_fieldIdents hs (List.mem_of_getElem? hi)

section

variable (hb : Sorted b.model b.order)
  (hobject : ∀ id p, p ∈ (b.model.type id).properties → (b.model.type id).kind = .object)
  (he : e ∈ b.items version) (hnotBase : e.isBase = false) {holder : TypeId} {field : String}
  {value : Expr} (hmetadata : metadata? b e.id = some (root, holder))
  (hvalue : textAccessor? b root holder field = some value)

include hb hobject he hnotBase hmetadata hvalue

/-- An accessor is well typed unless its document is one of the two exceptions. -/
theorem hasType_accessor (hmeant : ¬ MeantByBase b e.id) (hrequired : ¬ RequiresItself b e.id) :
    ∃ home, HasType b ⟨version, refTo (.named [typeIdent b e.id] [])⟩ value
      ⟨home, optionOf (refTo (.plain ["str"]))⟩ := by
  obtain rfl : (b.model.type e.id).version = version := Build.version_of_mem_items hb he
  obtain ⟨i, p, hfound, -⟩ := metadata?_eq_some hmetadata
  have hkind := hobject e.id p (List.mem_of_getElem? (property?_eq_some hfound))
  obtain ⟨t, hroot, ht⟩ := hasType_metadata hb he hkind hnotBase hmetadata hrequired
  have hitem := Build.itemFor_mem_items hb he (refers_of_metadata hmetadata)
  have hholder : (b.model.type (itemFor b.order.splits e.id holder).id).kind = .object := by
    rw [itemFor_id]
    exact kind_of_textAccessor hobject hvalue
  have hread : textAccessor? b root (itemFor b.order.splits e.id holder).id field = some value := by
    rw [itemFor_id]
    exact hvalue
  exact ⟨_, hasType_textAccessor hb hitem hholder (isBase_itemFor hmetadata hmeant) hread hroot ht⟩

/-- The accessor of a document whose metadata are meant by their base asks the base for a base. -/
theorem readFrom_accessor {s : Split} (hs : b.order.split? holder = some s)
    (hpartner : s.partner = e.id) :
    ∃ t home fields ident, ReadFrom value (.field (.field root baseField) ident)
      ∧ HasType b ⟨version, refTo (.named [typeIdent b e.id] [])⟩ root ⟨version, t⟩
      ∧ Derefs t (itemPath b version (.base holder))
      ∧ Means b version (itemPath b version (.base holder)) home fields
      ∧ ∀ f ∈ fields, f.name ≠ baseField := by
  obtain rfl : (b.model.type e.id).version = version := Build.version_of_mem_items hb he
  obtain ⟨i, p, hfound, htype, -⟩ := metadata?_eq_some hmetadata
  have hkind := hobject e.id p (List.mem_of_getElem? (property?_eq_some hfound))
  have hitemFor : itemFor b.order.splits e.id holder = .base holder := by
    unfold itemFor
    rw [show splitOf? b.order.splits holder = some s from hs]
    exact if_pos hpartner
  -- the partner of a split type is not split, so it is another type
  have hne : holder ≠ e.id := by
    intro heq
    have hnone := hb.settled.partner s (mem_of_splitOf? hs).1
    rw [hpartner, ← heq, show splitOf? b.order.splits holder = some s from hs] at hnone
    cases hnone
  have hrequired : ¬ RequiresItself b e.id := by
    rintro ⟨j, q, hfound', htype', -⟩
    rw [hfound] at hfound'
    cases hfound'
    rw [htype] at htype'
    exact hne (TypeRef.named.inj htype')
  obtain ⟨t, hroot, ht⟩ := hasType_metadata hb he hkind hnotBase hmetadata hrequired
  have hitem := Build.itemFor_mem_items hb he (refers_of_metadata hmetadata)
  rw [hitemFor] at ht hitem
  obtain ⟨fields, hmeans, hfields⟩ := means_itemPath hb (b.model.type e.id).version hitem
    (kind_of_textAccessor hobject hvalue)
  obtain ⟨ident, hread⟩ := readFrom_textAccessor hb hs hvalue
  refine ⟨t, _, fields, ident, hread, hroot, ht, hmeans, fun f hf => ?_⟩
  exact ne_baseField_of_fieldOf (by rw [hs]; rfl) ((hfields f).mp hf)

end

/--
**A document gives its name and its namespace by a well-typed path, with two exceptions.**

Every function that makes a generated type a document reads an optional text, by a path of fields
each of which is declared by the struct that the type of the one before it means. The exceptions are
the documents whose metadata are a required value of their own type, and those that are the partner
in the split of the type of their metadata. There the first field holds the base of that type, and
the path goes on through a field `base` that the base does not have.
-/
theorem accessors_typed (config : ReleaseConfig) (doc : Swagger.Document) :
    let b := Build.ofDocument config doc
    (∀ version, ∀ d ∈ documentFunctions (versionModule b version).items, ∃ e ∈ b.items version,
        ∃ value, d.1 = .named [typeIdent b e.id] [] ∧ d.2.body.result = some value
          ∧ d.2.result = some (optionOf (refTo (.plain ["str"])))
          ∧ (¬ MeantByBase b e.id → ¬ RequiresItself b e.id →
            ∃ home, HasType b ⟨version, refTo d.1⟩ value
              ⟨home, optionOf (refTo (.plain ["str"]))⟩))
      ∧ ∀ version, ∀ e ∈ b.items version, e.isBase = false → ∀ root holder field value s,
          metadata? b e.id = some (root, holder) →
          textAccessor? b root holder field = some value → b.order.split? holder = some s →
          s.partner = e.id →
          ∃ t home fields ident, ReadFrom value (.field (.field root baseField) ident)
            ∧ HasType b ⟨version, refTo (.named [typeIdent b e.id] [])⟩ root ⟨version, t⟩
            ∧ Derefs t (itemPath b version (.base holder))
            ∧ Means b version (itemPath b version (.base holder)) home fields
            ∧ ∀ f ∈ fields, f.name ≠ baseField := by
  intro b
  have hb : Sorted b.model b.order := Build.ofDocument_sorted config doc
  have hobject : ∀ id p, p ∈ (b.model.type id).properties → (b.model.type id).kind = .object :=
    fun _ _ => Ingest.kind_of_mem_properties
  refine ⟨fun version d hd => ?_, ?_⟩
  · obtain ⟨e, he, hd⟩ := exists_item_of_mem_documentFunctions hd
    obtain ⟨hnotBase, htarget, hf⟩ :=
      mem_documentFunctions_itemsOf ((Build.mem_items hb).mp he).2 hd
    obtain ⟨root, holder, field, value, hmetadata, hvalue, hbody, hresult⟩ := mem_accessors hf
    refine ⟨e, he, value, htarget, hbody, hresult, fun hmeant hrequired => ?_⟩
    rw [htarget]
    exact hasType_accessor hb hobject he hnotBase hmetadata hvalue hmeant hrequired
  · intro version e he hnotBase root holder field value s hmetadata hvalue hs hpartner
    exact readFrom_accessor hb hobject he hnotBase hmetadata hvalue hs hpartner

end ApiModels.Generated
