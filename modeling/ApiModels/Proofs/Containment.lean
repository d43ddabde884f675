import ApiModels.Generated.Module
import ApiModels.Proofs.Emitted

/-!
# Generated types are finite

A struct holds in its own memory what its fields hold by value: a field's own type, alone or
optional, but not what is boxed, listed or mapped. Such *containment* runs downhill in weight, as
the needs of items do, and it does so across versions as well. So no struct contains itself, and
every generated type has a finite size.
-/

namespace ApiModels.Generated

open ApiModels.Order ReleaseModel Relation
open Source (Ident)

variable {b : Build} {version : String} {e f : Emit} {id r : TypeId} {p : Property} {t u : Ty}
  {field : Field} {keep : Nat → Bool}

/-- An item contains the items its fields hold by value: a split type its base, and any item what
its properties name, alone or optional. A value of the item's own type is boxed. -/
inductive Contains (b : Build) : Emit → Emit → Prop where
  | base {version : String} {id : TypeId} : .derived id ∈ b.items version →
      Contains b (.derived id) (.base id)
  | field {version : String} {e : Emit} {i : Nat} {p : Property} {r : TypeId} :
      e ∈ b.items version → Holds b.order.splits e i →
      (b.model.type e.id).properties[i]? = some p → p.container.isSingle = true →
      p.type.named? = some r → r ≠ e.id → Contains b e (itemFor b.order.splits e.id r)

section

variable (hb : Sorted b.model b.order)

include hb

/-- **What an item contains is lighter.** -/
theorem Contains.weight_lt (h : Contains b e f) : weight b.model f < weight b.model e := by
  cases h with
  | base _ => exact weight_base_lt _
  | field he hh hp _ hr hne =>
      have hex := (mem_kept.mp ((Build.mem_items hb).mp he).1).2.2
      exact hb.settled.weight_itemFor_lt hex hh hp hr hne

theorem transGen_weight_lt (h : TransGen (Contains b) e f) :
    weight b.model f < weight b.model e := by
  induction h with
  | single h => exact h.weight_lt hb
  | tail _ h ih => exact Nat.lt_trans (h.weight_lt hb) ih

/-- What an item contains is an item too. -/
theorem Contains.mem_items (h : Contains b e f) :
    f ∈ b.items (b.model.type f.id).version := by
  cases h with
  | @base version id he =>
      have hv := Build.version_of_mem_items hb he
      have hitem := ((Build.mem_items hb).mp he).2
      exact (Build.mem_items hb).mpr ⟨hv ▸ ((Build.mem_items hb).mp he).1, hitem⟩
  | @field version _ i p r he _ hp _ hr _ =>
      have href : b.model.Refers e.id r := .of_property (List.mem_of_getElem? hp) hr
      exact Build.itemFor_mem_items hb he href

end

/-! ## Names of items -/

/-- The identifier of the struct of an item. -/
def itemIdent (b : Build) (e : Emit) : Ident := .ofName (itemName b.names b.order.splits e)

theorem itemIdent_base {s : Split} (h : b.order.split? id = some s) :
    itemIdent b (.base id) = .ofName s.baseName := by
  unfold itemIdent itemName
  dsimp only
  rw [show splitOf? b.order.splits id = some s from h]
  rfl

/-- An item as seen from the module of a version. -/
def itemPath (b : Build) (version : String) (e : Emit) : Ty :=
  let home := (b.model.type e.id).version
  if home = version then .named [itemIdent b e] []
  else .named [⟨"super", false⟩, .ofModule home, itemIdent b e] []

/-- **The path that stands for a type when another refers to it is that of the item that stands for
it.** -/
theorem typePath_eq (b : Build) (version : String) (referrer id : TypeId) :
    typePath b version (some referrer) id
      = itemPath b version (itemFor b.order.splits referrer id) := by
  have hident : referenceIdent b (some referrer) id
      = itemIdent b (itemFor b.order.splits referrer id) := by
    unfold referenceIdent itemIdent itemFor
    rw [Option.bind_some, Order.baseRef?, Order.split?]
    cases hs : splitOf? b.order.splits id with
    | none => rfl
    | some s =>
        by_cases hp : s.partner = referrer
        · simp [Option.filter, hp, itemName, hs]
        · simp [Option.filter, hp, itemName]
  unfold typePath itemPath
  rw [hident, itemFor_id]

/-! ## What fields hold by value -/

/-- What a value of a type holds in its own memory, leaving aside primitives within. An option holds
its value; no other type with arguments holds them. -/
inductive ByValue : Ty → Ty → Prop where
  | plain {path : Path} : ByValue (.named path []) (.named path [])
  | option {path : Path} {t u : Ty} : path = Path.of ["Option"] → ByValue t u →
      ByValue (.named path [t]) u

theorem not_byValue_applied {names : List String} (hne : Path.of names ≠ Path.of ["Option"]) :
    ¬ ByValue (applied names [t]) u := by
  intro h
  cases h with
  | option hpath _ => exact hne hpath

/-- Only a single value is held. -/
theorem byValue_contained {c : Container} (h : ByValue (contained t c) u) :
    c.isSingle = true ∧ ByValue t u := by
  -- of the containers only an option passes on what it is given
  cases c with
  | plain => exact ⟨rfl, h⟩
  | optional =>
      cases h with
      | option _ h => exact ⟨rfl, h⟩
  | list => exact absurd h (not_byValue_applied (by decide))
  | map => cases h

theorem byValue_primitiveType {q : Primitive} (h : ByValue (primitiveType q) u) :
    u = primitiveType q := by
  cases q <;> (cases h; rfl)

theorem byValue_itemPath (h : ByValue (itemPath b version e) u) : u = itemPath b version e := by
  unfold itemPath at h ⊢
  dsimp only at h ⊢
  split at h
  · rename_i hv
    rw [if_pos hv]
    cases h
    rfl
  · rename_i hv
    rw [if_neg hv]
    cases h
    rfl

/-! ## Fields -/

/-- A field holds by value what its property names, or a primitive. -/
theorem byValue_fieldType (h : ByValue (fieldType b version id p) u) :
    (∃ q, u = primitiveType q)
      ∨ ∃ r, p.container.isSingle = true ∧ p.type.named? = some r ∧ r ≠ id
        ∧ u = itemPath b version (itemFor b.order.splits id r) := by
  unfold fieldType at h
  dsimp only at h
  obtain ⟨hsingle, h⟩ := byValue_contained h
  cases hself : isSelfReference id p with
  | true =>
      -- what is boxed is not held
      rw [if_pos hself] at h
      exact absurd h (not_byValue_applied (by decide))
  | false =>
      rw [if_neg (by rw [hself]; simp)] at h
      have hcontainer : fieldContainer id p = p.container := by
        unfold fieldContainer
        rw [if_neg (by rw [hself]; simp)]
      rw [hcontainer] at hsingle
      cases ht : p.type with
      | primitive q =>
          rw [ht] at h
          exact .inl ⟨q, byValue_primitiveType h⟩
      | named r =>
          rw [ht, refType, typePath_eq] at h
          refine .inr ⟨r, hsingle, rfl, fun hr => ?_, byValue_itemPath h⟩
          unfold isSelfReference at hself
          rw [ht, hr, hsingle] at hself
          simp [TypeRef.named?] at hself

/-- A value of the owner's own type is optional and boxed. -/
theorem fieldType_self (hp : p.type.named? = some id) (hsingle : p.container.isSingle = true) :
    fieldType b version id p
      = applied ["Option"] [applied ["Box"] [typePath b version (some id) id]] := by
  have hself : isSelfReference id p = true := by
    unfold isSelfReference
    rw [hp, hsingle]
    simp
  have ht : p.type = .named id := by
    cases h : p.type with
    | primitive q => rw [h] at hp; simp [TypeRef.named?] at hp
    | named r => rw [h] at hp; exact congrArg TypeRef.named (Option.some.inj hp)
  unfold fieldType fieldContainer
  dsimp only
  rw [if_pos hself, if_pos hself, ht]
  rfl

theorem length_assignFields (ps : List Property) (taken : List String) :
    (assignFields taken ps).length = ps.length := by
  induction ps generalizing taken with
  | nil => rfl
  | cons p ps ih =>
      rw [assignFields]
      exact congrArg Nat.succ (ih _)

theorem length_fieldIdents : (fieldIdents b id).length = (b.model.type id).properties.length :=
  length_assignFields _ _

theorem mem_fieldsOf : field ∈ fieldsOf b version id keep ↔
    ∃ i p ident, (b.model.type id).properties[i]? = some p ∧ (fieldIdents b id)[i]? = some ident
      ∧ keep i = true ∧ field = fieldOf b version id p ident := by
  unfold fieldsOf
  simp only [List.mem_map, List.mem_filter, Prod.exists, List.mem_zipIdx_iff_getElem?,
    List.getElem?_zip_eq_some]
  constructor
  · rintro ⟨p, ident, i, ⟨⟨hp, hi⟩, hk⟩, rfl⟩
    exact ⟨i, p, ident, hp, hi, hk, rfl⟩
  · rintro ⟨i, p, ident, hp, hi, hk, rfl⟩
    exact ⟨p, ident, i, ⟨⟨hp, hi⟩, hk⟩, rfl⟩

/-! ## Structs -/

/-- The structs among some items, with their fields. -/
def structs (items : List Item) : List (Ident × List Field) :=
  items.filterMap fun
    | .struct _ _ name fields => some (name, fields)
    | _ => none

theorem structs_append (items more : List Item) :
    structs (items ++ more) = structs items ++ structs more := List.filterMap_append

theorem structs_documentItems : structs (documentItems b id) = [] := by
  unfold documentItems
  split
  · rfl
  · rfl

theorem structs_methodItems : structs (methodItems b version id) = [] := by
  unfold methodItems
  split
  · rfl
  · rfl

theorem structs_crudItems : structs (crudItems b id) = [] := by
  unfold crudItems
  split
  · rfl
  · rfl

/-- The field of a derived item that embeds the base. -/
def embedded (s : Split) : Field :=
  { attributes := [serde [⟨Path.of ["flatten"], none⟩]], visibility := .everywhere,
    name := baseField, type := .named [.ofName s.baseName] [] }

/-- The fields of an item: the base that a derived item embeds, and those of the properties that the
item holds. -/
inductive FieldOf (b : Build) (version : String) : Emit → Field → Prop where
  | base {id : TypeId} {s : Split} : b.order.split? id = some s →
      FieldOf b version (.derived id) (embedded s)
  | property {e : Emit} {i : Nat} {p : Property} {ident : Ident} :
      Holds b.order.splits e i → (b.model.type e.id).properties[i]? = some p →
      (fieldIdents b e.id)[i]? = some ident →
      FieldOf b version e (fieldOf b version e.id p ident)

/-- Every property that an item holds has a field. -/
def HasFields (b : Build) (version : String) (e : Emit) (fields : List Field) : Prop :=
  ∀ i p ident, Holds b.order.splits e i → (b.model.type e.id).properties[i]? = some p →
    (fieldIdents b e.id)[i]? = some ident → fieldOf b version e.id p ident ∈ fields

theorem fieldOf_of_mem (hkeep : ∀ i, keep i = true ↔ Holds b.order.splits e i)
    (h : field ∈ fieldsOf b version e.id keep) : FieldOf b version e field := by
  obtain ⟨i, p, ident, hp, hi, hk, rfl⟩ := mem_fieldsOf.mp h
  exact .property ((hkeep i).mp hk) hp hi

theorem hasFields_fieldsOf (hkeep : ∀ i, keep i = true ↔ Holds b.order.splits e i) :
    HasFields b version e (fieldsOf b version e.id keep) :=
  fun i p ident hh hp hi => mem_fieldsOf.mpr ⟨i, p, ident, hp, hi, (hkeep i).mpr hh, rfl⟩

/-- **An item of an object is one struct**, whatever else is implemented for it. -/
theorem structs_itemsOf (version : String) (hitem : IsItem b.order.splits e)
    (hkind : (b.model.type e.id).kind = .object) :
    ∃ fields, structs (itemsOf b version e) = [(itemIdent b e, fields)]
      ∧ (∀ field ∈ fields, FieldOf b version e field) ∧ HasFields b version e fields := by
  have hrest : structs (documentItems b e.id ++ methodItems b version e.id ++ crudItems b e.id)
      = [] := by
    rw [structs_append, structs_append, structs_documentItems, structs_methodItems,
      structs_crudItems]
    rfl
  unfold itemsOf
  dsimp only
  rw [hkind]
  cases e with
  | plain id =>
      have hs : b.order.split? id = none := hitem
      have hkeep : ∀ i, true = true ↔ Holds b.order.splits (.plain id) i :=
        fun i => ⟨fun _ => .plain hs, fun _ => rfl⟩
      refine ⟨fieldsOf b version id fun _ => true, ?_, fun _ => fieldOf_of_mem hkeep,
        hasFields_fieldsOf hkeep⟩
      exact congrArg (List.cons _) hrest
  | base id =>
      obtain ⟨s, hs⟩ := Option.isSome_iff_exists.mp hitem
      have hkeep : ∀ i, (!s.closing.contains i) = true ↔ Holds b.order.splits (.base id) i := by
        intro i
        rw [holds_base hs]
        simp
      refine ⟨fieldsOf b version id fun i => !s.closing.contains i, ?_,
        fun _ => fieldOf_of_mem hkeep, hasFields_fieldsOf hkeep⟩
      rw [itemIdent_base hs, show b.order.split? (Emit.base id).id = some s from hs]
      rfl
  | derived id =>
      obtain ⟨s, hs⟩ := Option.isSome_iff_exists.mp hitem
      have hkeep : ∀ i, s.closing.contains i = true ↔ Holds b.order.splits (.derived id) i := by
        intro i
        rw [holds_derived hs, List.contains_iff_mem]
      have hall : HasFields b version (.derived id)
          (fieldsOf b version id fun i => s.closing.contains i) := hasFields_fieldsOf hkeep
      refine ⟨embedded s :: fieldsOf b version id fun i => s.closing.contains i, ?_,
        fun field hf => ?_,
        fun i p ident hh hp hi => List.mem_cons_of_mem _ (hall i p ident hh hp hi)⟩
      · rw [show b.order.split? (Emit.derived id).id = some s from hs]
        exact congrArg (List.cons _) hrest
      · rcases List.mem_cons.mp hf with rfl | hf
        · exact .base hs
        · exact fieldOf_of_mem hkeep hf

/-- The structs of a version are those of its items. -/
theorem exists_item_of_mem_structs {s : Ident × List Field}
    (h : s ∈ structs (versionModule b version).items) :
    ∃ e ∈ b.items version, s ∈ structs (itemsOf b version e) := by
  unfold versionModule structs at h
  rw [List.filterMap_append, List.mem_append, List.filterMap_flatMap, List.mem_flatMap] at h
  rcases h with h | h
  · simp [moduleDeclaration] at h
  · exact h

section

variable (hb : Sorted b.model b.order)

include hb

/-- **What a struct holds by value its item contains**, primitives apart. -/
theorem contains_of_mem_structs {s : Ident × List Field} (he : e ∈ b.items version)
    (h : s ∈ structs (itemsOf b version e)) :
    s.1 = itemIdent b e ∧ ∀ field ∈ s.2, ∀ u, ByValue field.type u →
      (∃ q, u = primitiveType q) ∨ ∃ f, Contains b e f ∧ u = itemPath b version f := by
  cases hkind : (b.model.type e.id).kind with
  | scalar q =>
      unfold itemsOf structs at h
      dsimp only at h
      rw [hkind] at h
      simp at h
  | object =>
      obtain ⟨fields, hstructs, hfields, -⟩ :=
        structs_itemsOf version ((Build.mem_items hb).mp he).2 hkind
      rw [hstructs, List.mem_singleton] at h
      subst h
      refine ⟨rfl, fun field hf u hu => ?_⟩
      cases hfields field hf with
      | @base id s hs =>
          refine .inr ⟨.base id, .base he, ?_⟩
          have hpath : itemPath b version (.base id) = .named [itemIdent b (.base id)] [] := by
            unfold itemPath
            exact if_pos (Build.version_of_mem_items hb he)
          rw [hpath, itemIdent_base hs]
          cases hu
          rfl
      | property hh hp _ =>
          rcases byValue_fieldType hu with hprim | ⟨r, hsingle, hr, hne, rfl⟩
          · exact .inl hprim
          · exact .inr ⟨_, .field he hh hp hsingle hr hne, rfl⟩

/-- No base holds a value of its type, for properties that name the type close its cycle. -/
theorem itemIdent_of_holds_self {i : Nat} (he : e ∈ b.items version)
    (hh : Holds b.order.splits e i) (hp : (b.model.type e.id).properties[i]? = some p)
    (hself : p.type.named? = some e.id) : itemIdent b e = typeIdent b e.id := by
  cases hh with
  | plain _ => rfl
  | derived _ _ => rfl
  | @base id _ s hs hi =>
      exfalso
      obtain ⟨hmem, htarget⟩ := mem_of_splitOf? hs
      have hclosing := hb.settled.closing s hmem i p
      rw [htarget] at hclosing
      exact hi ((hclosing hp).mpr (.inr hself))

/-- A type is not its own partner, so it refers to itself by its own name. -/
theorem referenceIdent_self : referenceIdent b (some id) id = typeIdent b id := by
  unfold referenceIdent
  rw [Option.bind_some, Order.baseRef?]
  cases hs : b.order.split? id with
  | none => rfl
  | some s =>
      have hne : s.partner ≠ id := by
        intro heq
        have hnone := hb.settled.partner s (mem_of_splitOf? hs).1
        rw [heq, show splitOf? b.order.splits id = some s from hs] at hnone
        simp at hnone
      simp [Option.filter, hne, typeIdent]

/-- **A value of the owner's own type is boxed and optional**, in the struct of the type itself. -/
theorem exists_boxed_field {i : Nat} (he : e ∈ b.items version)
    (hkind : (b.model.type e.id).kind = .object) (hh : Holds b.order.splits e i)
    (hp : (b.model.type e.id).properties[i]? = some p) (hself : p.type.named? = some e.id)
    (hsingle : p.container.isSingle = true) :
    ∃ fields ident, (typeIdent b e.id, fields) ∈ structs (itemsOf b version e)
      ∧ fieldOf b version e.id p ident ∈ fields
      ∧ (fieldOf b version e.id p ident).type
        = applied ["Option"] [applied ["Box"] [.named [typeIdent b e.id] []]] := by
  obtain ⟨fields, hstructs, -, hall⟩ :=
    structs_itemsOf version ((Build.mem_items hb).mp he).2 hkind
  have hlt : i < (fieldIdents b e.id).length := by
    rw [length_fieldIdents]
    exact (List.getElem?_eq_some_iff.mp hp).1
  refine ⟨fields, _, ?_, hall i p _ hh hp (List.getElem?_eq_getElem hlt), ?_⟩
  · rw [hstructs, itemIdent_of_holds_self hb he hh hp hself]
    exact List.mem_singleton_self _
  · refine (fieldType_self hself hsingle).trans ?_
    have hpath : typePath b version (some e.id) e.id = .named [typeIdent b e.id] [] := by
      unfold typePath
      dsimp only
      rw [if_pos (Build.version_of_mem_items hb he), referenceIdent_self hb]
    rw [hpath]

end

/-! ## Builds -/

/--
**No generated type has infinite size.**

Containment has no cycle, within a version or across versions, and leads from items to items. It
misses nothing: whatever a field of a generated struct holds by value is a primitive or an item that
the item of the struct contains. What would be a cycle of one, a value of the owner's own type, is
an `Option<Box<..>>` of the very struct it stands in.
-/
theorem containment_acyclic (config : ReleaseConfig) (doc : Swagger.Document) :
    let b := Build.ofDocument config doc
    (∀ e, ¬ TransGen (Contains b) e e)
      ∧ (∀ e f, Contains b e f → f ∈ b.items (b.model.type f.id).version)
      ∧ (∀ version, ∀ s ∈ structs (versionModule b version).items, ∃ e ∈ b.items version,
          s.1 = itemIdent b e ∧ ∀ field ∈ s.2, ∀ u, ByValue field.type u →
            (∃ q, u = primitiveType q) ∨ ∃ f, Contains b e f ∧ u = itemPath b version f)
      ∧ ∀ version, ∀ e ∈ b.items version, ∀ i p, Holds b.order.splits e i →
          (b.model.type e.id).properties[i]? = some p → p.type.named? = some e.id →
          p.container.isSingle = true → ∃ fields ident,
            (typeIdent b e.id, fields) ∈ structs (itemsOf b version e)
              ∧ fieldOf b version e.id p ident ∈ fields
              ∧ (fieldOf b version e.id p ident).type
                = applied ["Option"] [applied ["Box"] [.named [typeIdent b e.id] []]] := by
  intro b
  have hb : Sorted b.model b.order := Build.ofDocument_sorted config doc
  refine ⟨fun e h => ?_, fun e f h => h.mem_items hb, fun version s hs => ?_, ?_⟩
  · have hlt := transGen_weight_lt hb h
    omega
  · obtain ⟨e, he, hs⟩ := exists_item_of_mem_structs hs
    exact ⟨e, he, contains_of_mem_structs hb he hs⟩
  · intro version e he i p hh hp hself hsingle
    have hkind : (b.model.type e.id).kind = .object :=
      Ingest.kind_of_mem_properties (List.mem_of_getElem? hp)
    exact exists_boxed_field hb he hkind hh hp hself hsingle

end ApiModels.Generated
