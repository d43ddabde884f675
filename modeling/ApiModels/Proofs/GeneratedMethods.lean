import ApiModels.Generated.Module
import ApiModels.Proofs.Identifiers
import ApiModels.Proofs.MethodNames

/-!
# Bound methods are generated

Binding, the method map and the generated code each walk the model on their own. A method that is
bound to a struct comes out as a function of it. A method can also be bound to another name of a
primitive, by the table of irregular names, and then there is no implementation that it could stand
in: it is listed in the method map and not generated.

A function shares its class with others: with the methods of other operations, with what makes the
class a document, and with the access to the base of a split type. Method names are kept apart from
each other and from what is reserved, which is the second kind; but names that differ may make one
identifier, and the access to a base is not reserved.
-/

namespace ApiModels.Generated

open ApiModels.Order ReleaseModel Binding
open Source (Ident)

variable {b : Build} {version : String} {e : Emit} {id : TypeId} {name ident : Ident}
  {mb : MethodBinding} {f : Function}

/-! ## Functions of a class -/

/-- The functions that some items implement for the class of an identifier. -/
def functionsFor (name : Ident) (items : List Item) : List Function :=
  items.flatMap fun
    | .implementation _ (.named [target] []) members =>
      if target = name then
        members.filterMap fun
          | .function f => some f
          | _ => none
      else []
    | _ => []

/-- The identifier of the function of a bound method. -/
def methodIdent (mb : MethodBinding) : Ident := .ofName mb.methodName

/-- Functions that every document may have. -/
def documentFunctionIdents : List Ident := [⟨"new", false⟩, ⟨"name", false⟩, ⟨"namespace", false⟩]

/-- Functions of a split type that give access to its base. -/
def baseAccessIdents : List Ident := [⟨"deref", false⟩, ⟨"deref_mut", false⟩]

theorem functionsFor_append (name : Ident) (items more : List Item) :
    functionsFor name (items ++ more) = functionsFor name items ++ functionsFor name more :=
  List.flatMap_append

theorem functionsFor_methodItems : functionsFor name (methodItems b version id)
    = if typeIdent b id = name then (b.bindings.methods id).map (methodOf b version) else [] := by
  have hfunctions (ms : List MethodBinding) :
      (ms.map fun m => Member.function (methodOf b version m)).filterMap (fun
        | .function f => some f
        | _ => none) = ms.map (methodOf b version) := by
    rw [List.filterMap_map]
    exact congrFun List.filterMap_eq_map ms
  unfold methodItems
  split
  · rename_i hms
    rw [hms, List.map_nil, ite_self]
    rfl
  · unfold functionsFor
    rw [List.flatMap_singleton]
    dsimp only
    rw [hfunctions]

theorem functionsFor_crudItems : functionsFor name (crudItems b id) = [] := by
  unfold crudItems
  split
  · rfl
  · unfold functionsFor
    rw [List.flatMap_singleton]
    exact ite_self []

theorem name_of_mem_accessors (h : .function f ∈ accessors b id) :
    f.name ∈ documentFunctionIdents := by
  unfold accessors at h
  split at h
  · obtain ⟨field, hfield, hf⟩ := List.mem_filterMap.mp h
    obtain ⟨value, -, hf⟩ := Option.map_eq_some_iff.mp hf
    cases hf
    rw [List.mem_cons, List.mem_singleton] at hfield
    rcases hfield with rfl | rfl
    · simp [documentFunctionIdents]
    · simp [documentFunctionIdents]
  · cases h

theorem name_of_mem_documentItems (h : f ∈ functionsFor name (documentItems b id)) :
    f.name ∈ documentFunctionIdents := by
  unfold documentItems functionsFor at h
  split at h
  · cases h
  · obtain ⟨item, hitem, hf⟩ := List.mem_flatMap.mp h
    rw [List.mem_cons, List.mem_singleton] at hitem
    rcases hitem with rfl | rfl
    · dsimp only at hf
      split at hf
      · obtain ⟨m, hm, hf⟩ := List.mem_filterMap.mp hf
        cases m with
        | constant _ _ _ => cases hf
        | synonym _ _ => cases hf
        | function g =>
          cases hf
          exact name_of_mem_accessors (by simpa [textConstant] using hm)
      · cases hf
    · dsimp only at hf
      split at hf
      · rw [List.mem_singleton.mp hf]
        exact List.mem_cons_self
      · cases hf

theorem names_derivedItems {s : Split} :
    (functionsFor name (derivedItems b version id s)).map (·.name)
      = if typeIdent b id = name then baseAccessIdents else [] := by
  by_cases hname : typeIdent b id = name
  · simp [functionsFor, derivedItems, structItem, borrowing, baseAccessIdents, hname]
  · simp [functionsFor, derivedItems, structItem, hname]

/-! ## Functions of items -/

/-- Neither a base nor another name of a primitive has functions. -/
theorem functionsFor_itemsOf_eq_nil (hitem : IsItem b.order.splits e)
    (h : e.isBase = true ∨ (b.model.type e.id).kind ≠ .object) :
    functionsFor name (itemsOf b version e) = [] := by
  unfold itemsOf
  dsimp only
  split
  · rfl
  · rename_i hkind
    rcases h with hbase | hnot
    · cases e with
      | plain id => cases hbase
      | derived id => cases hbase
      | base id =>
        obtain ⟨s, hs⟩ := Option.isSome_iff_exists.mp hitem
        rw [show b.order.split? (Emit.base id).id = some s from hs]
        rfl
    · exact absurd hkind hnot

/-- The functions of an identifier among some. -/
def named (ident : Ident) (functions : List Function) : List Function :=
  functions.filter fun f => f.name = ident

theorem named_eq_nil_iff {functions : List Function} :
    named ident functions = [] ↔ ident ∉ functions.map (·.name) := by
  rw [named, List.filter_eq_nil_iff, List.mem_map]
  simp

theorem named_append (functions more : List Function) :
    named ident (functions ++ more) = named ident functions ++ named ident more :=
  List.filter_append ..

/-- The access to the base of an item, if it is the derived struct of a split type. -/
def accessItems (b : Build) (version : String) : Emit → List Item
  | .derived id =>
    match (b.model.type id).kind, b.order.split? id with
    | .object, some s => derivedItems b version id s
    | _, _ => []
  | .plain _ | .base _ => []

/-- The methods of an identifier that an item has, if it is a struct for the class of a name. -/
def itemMethods (b : Build) (name ident : Ident) (e : Emit) : List MethodBinding :=
  if e.isBase = false ∧ (b.model.type e.id).kind = .object ∧ typeIdent b e.id = name then
    (b.bindings.methods e.id).filter fun mb => methodIdent mb = ident
  else []

theorem mem_itemMethods : mb ∈ itemMethods b name ident e ↔
    e.isBase = false ∧ (b.model.type e.id).kind = .object ∧ typeIdent b e.id = name
      ∧ mb ∈ b.bindings.bound ∧ mb.target = e.id ∧ methodIdent mb = ident := by
  unfold itemMethods
  split
  · rename_i h
    rw [List.mem_filter, Bindings.mem_methods, decide_eq_true_iff]
    simp only [h, true_and, and_assoc]
  · rename_i h
    constructor
    · exact fun hmem => absurd hmem List.not_mem_nil
    · exact fun hmem => absurd ⟨hmem.1, hmem.2.1, hmem.2.2.1⟩ h

/-- Nor has it access to a base, or methods. -/
theorem accessItems_eq_nil (h : e.isBase = true ∨ (b.model.type e.id).kind ≠ .object) :
    accessItems b version e = [] := by
  cases e with
  | plain id => rfl
  | base id => rfl
  | derived id =>
    have hkind : (b.model.type id).kind ≠ .object := h.resolve_left Bool.false_ne_true
    unfold accessItems
    dsimp only
    split
    · rename_i hobject _
      exact absurd hobject hkind
    · rfl

theorem itemMethods_eq_nil (h : e.isBase = true ∨ (b.model.type e.id).kind ≠ .object) :
    itemMethods b name ident e = [] := by
  refine if_neg fun hstruct => ?_
  rcases h with hbase | hkind
  · rw [hstruct.1] at hbase
    cases hbase
  · exact hkind hstruct.2.1

section

variable (hdocument : ident ∉ documentFunctionIdents)

include hdocument

/-- What a struct has of an identifier besides the access to a base are methods. -/
theorem named_structFunctions :
    named ident (functionsFor name
        (documentItems b id ++ methodItems b version id ++ crudItems b id))
      = if typeIdent b id = name then
          ((b.bindings.methods id).filter fun mb => methodIdent mb = ident).map
            (methodOf b version)
        else [] := by
  have hmarkers : named ident (functionsFor name (documentItems b id)) = [] := by
    rw [named_eq_nil_iff]
    intro hmem
    obtain ⟨f, hf, rfl⟩ := List.mem_map.mp hmem
    exact hdocument (name_of_mem_documentItems hf)
  rw [functionsFor_append, functionsFor_append, functionsFor_crudItems, List.append_nil,
    named_append, hmarkers, List.nil_append, functionsFor_methodItems]
  split
  · exact List.filter_map
  · rfl

/-- **What an item has of an identifier** that no document has on its own: the access to a base, and
methods. -/
theorem named_functionsFor_itemsOf (hitem : IsItem b.order.splits e) :
    named ident (functionsFor name (itemsOf b version e))
      = named ident (functionsFor name (accessItems b version e))
        ++ (itemMethods b name ident e).map (methodOf b version) := by
  by_cases hnone : e.isBase = true ∨ (b.model.type e.id).kind ≠ .object
  · rw [functionsFor_itemsOf_eq_nil hitem hnone, accessItems_eq_nil hnone,
      itemMethods_eq_nil hnone]
    rfl
  · rw [not_or, Bool.not_eq_true, not_not] at hnone
    obtain ⟨hnotBase, hkind⟩ := hnone
    have hmethods : (itemMethods b name ident e).map (methodOf b version)
        = named ident (functionsFor name
            (documentItems b e.id ++ methodItems b version e.id ++ crudItems b e.id)) := by
      rw [named_structFunctions hdocument, itemMethods, apply_ite (List.map _)]
      simp only [hnotBase, hkind, true_and, List.map_nil]
    rw [hmethods]
    unfold itemsOf accessItems
    dsimp only
    rw [hkind]
    cases e with
    | base id => cases hnotBase
    | plain id => rfl
    | derived id =>
      obtain ⟨s, hs⟩ := Option.isSome_iff_exists.mp hitem
      have hs : b.order.split? id = some s := hs
      have hkind : (b.model.type id).kind = .object := hkind
      dsimp only [Emit.id]
      rw [hs, hkind]
      dsimp only
      rw [functionsFor_append, named_append]

end

theorem functionsFor_versionModule : functionsFor name (versionModule b version).items
    = (b.items version).flatMap fun e => functionsFor name (itemsOf b version e) := by
  unfold versionModule
  dsimp only
  rw [functionsFor_append]
  exact List.flatMap_assoc

/-! ## Functions of a version -/

/-- The access to bases in a version that has an identifier, for the class of a name. -/
def accessNamed (b : Build) (version : String) (name ident : Ident) : List Function :=
  (b.items version).flatMap fun e => named ident (functionsFor name (accessItems b version e))

/-- The bound methods of an identifier whose classes are structs of a name in a version. -/
def methodsNamed (b : Build) (version : String) (name ident : Ident) : List MethodBinding :=
  b.bindings.bound.filter fun mb => (b.model.type mb.target).kind = .object
    ∧ (b.model.type mb.target).version = version ∧ typeIdent b mb.target = name
    ∧ methodIdent mb = ident

theorem mem_methodsNamed : mb ∈ methodsNamed b version name ident ↔
    mb ∈ b.bindings.bound ∧ (b.model.type mb.target).kind = .object
      ∧ (b.model.type mb.target).version = version ∧ typeIdent b mb.target = name
      ∧ methodIdent mb = ident := by
  rw [methodsNamed, List.mem_filter, decide_eq_true_iff]

/-- An emitted type has an item other than a base. -/
theorem exists_item (h : b.Emitted id) :
    ∃ e ∈ b.items (b.model.type id).version, e.id = id ∧ e.isBase = false := by
  rcases h with he | he
  · exact ⟨_, he, rfl, rfl⟩
  · exact ⟨_, he, rfl, rfl⟩

/-- A type has only one item other than a base. -/
theorem eq_of_id_eq {splits : List Split} {f : Emit} (he : IsItem splits e) (hf : IsItem splits f)
    (hebase : e.isBase = false) (hfbase : f.isBase = false) (hid : e.id = f.id) : e = f := by
  cases e with
  | base i => cases hebase
  | plain i =>
    cases f with
    | base j => cases hfbase
    | plain j => exact congrArg Emit.plain hid
    | derived j =>
      obtain rfl : i = j := hid
      exact absurd hf (not_plain_and_derived he)
  | derived i =>
    cases f with
    | base j => cases hfbase
    | plain j =>
      obtain rfl : i = j := hid
      exact absurd he (not_plain_and_derived hf)
    | derived j => exact congrArg Emit.derived hid

section

variable (hb : Sorted b.model b.order)

include hb

section

variable (hnd : b.bindings.bound.Nodup)
  (hemitted : ∀ mb ∈ b.bindings.bound, b.Emitted mb.target)

include hnd hemitted

/-- **Every bound method comes out once**, with the item of its class. -/
theorem flatMap_itemMethods_perm :
    ((b.items version).flatMap (itemMethods b name ident)).Perm
      (methodsNamed b version name ident) := by
  have hnodup : ((b.items version).flatMap (itemMethods b name ident)).Nodup := by
    rw [List.nodup_flatMap]
    constructor
    · intro e _
      unfold itemMethods
      split
      · exact (hnd.filter _).filter _
      · exact List.nodup_nil
    · refine (Build.nodup_items hb).imp_of_mem fun {e f} he hf hne mb hmb hmb' => ?_
      obtain ⟨hebase, -, -, -, htarget, -⟩ := mem_itemMethods.mp hmb
      obtain ⟨hfbase, -, -, -, htarget', -⟩ := mem_itemMethods.mp hmb'
      exact hne (eq_of_id_eq ((Build.mem_items hb).mp he).2 ((Build.mem_items hb).mp hf).2
        hebase hfbase (htarget.symm.trans htarget'))
  have hnodup' : (methodsNamed b version name ident).Nodup := hnd.filter _
  refine (List.perm_ext_iff_of_nodup hnodup hnodup').mpr fun mb => ?_
  rw [mem_methodsNamed, List.mem_flatMap]
  constructor
  · rintro ⟨e, he, hmb⟩
    obtain ⟨-, hkind, hname, hbound, htarget, hident⟩ := mem_itemMethods.mp hmb
    have hversion := Build.version_of_mem_items hb he
    rw [← htarget] at hkind hname hversion
    exact ⟨hbound, hkind, hversion, hname, hident⟩
  · rintro ⟨hbound, hkind, rfl, hname, hident⟩
    obtain ⟨e, he, hid, hnotBase⟩ := exists_item (hemitted mb hbound)
    refine ⟨e, he, mem_itemMethods.mpr ⟨hnotBase, ?_, ?_, hbound, hid.symm, hident⟩⟩
    · rw [hid]
      exact hkind
    · rw [hid]
      exact hname

/-- **What a version has of an identifier for a class.** -/
theorem named_versionModule_perm (hdocument : ident ∉ documentFunctionIdents) :
    (named ident (functionsFor name (versionModule b version).items)).Perm
      (accessNamed b version name ident
        ++ (methodsNamed b version name ident).map (methodOf b version)) := by
  have hitems : named ident (functionsFor name (versionModule b version).items)
      = (b.items version).flatMap fun e =>
          named ident (functionsFor name (accessItems b version e))
            ++ (itemMethods b name ident e).map (methodOf b version) := by
    rw [functionsFor_versionModule, named, List.filter_flatMap]
    exact List.flatMap_congr fun e he =>
      named_functionsFor_itemsOf hdocument ((Build.mem_items hb).mp he).2
  have hmethods : ((b.items version).flatMap fun e =>
        (itemMethods b name ident e).map (methodOf b version)).Perm
      ((methodsNamed b version name ident).map (methodOf b version)) := by
    rw [← List.map_flatMap]
    exact (flatMap_itemMethods_perm hb hnd hemitted).map _
  rw [hitems]
  exact (List.flatMap_append_perm ..).symm.trans (hmethods.append_left _)

section

variable (hmem : mb ∈ methodsNamed b version name ident)
  (hdocument : ident ∉ documentFunctionIdents)

include hmem hdocument

/-- **A method that is bound to a struct is generated.** -/
theorem methodOf_mem_functionsFor :
    methodOf b version mb ∈ functionsFor name (versionModule b version).items := by
  have hmethod := List.mem_append_right (accessNamed b version name ident)
    (List.mem_map_of_mem (f := methodOf b version) hmem)
  rw [← (named_versionModule_perm hb hnd hemitted hdocument).mem_iff] at hmethod
  exact List.mem_of_mem_filter hmethod

/-- **It is the only function of its class with its identifier** if nothing else is to have it. -/
theorem named_eq_singleton_iff :
    named ident (functionsFor name (versionModule b version).items) = [methodOf b version mb]
      ↔ methodsNamed b version name ident = [mb] ∧ accessNamed b version name ident = [] := by
  have hperm : (named ident (functionsFor name (versionModule b version).items)).Perm
      (accessNamed b version name ident
        ++ (methodsNamed b version name ident).map (methodOf b version)) :=
    named_versionModule_perm hb hnd hemitted hdocument
  constructor
  · intro heq
    have hlength : 1 = (accessNamed b version name ident).length
        + (methodsNamed b version name ident).length := by
      have h := hperm.length_eq
      rwa [heq, List.length_singleton, List.length_append, List.length_map] at h
    have hpos := List.length_pos_of_mem hmem
    obtain ⟨m, hm⟩ := List.length_eq_one_iff.mp
      (show (methodsNamed b version name ident).length = 1 by omega)
    rw [hm, List.mem_singleton] at hmem
    exact ⟨by rw [hm, hmem], List.eq_nil_of_length_eq_zero (by omega)⟩
  · rintro ⟨hmethods, haccess⟩
    rw [hmethods, haccess] at hperm
    exact List.perm_singleton.mp hperm

end

end

/-- There is no access to a base with an identifier if no struct of the name is split, or no function
that gives access has the identifier. -/
theorem accessNamed_eq_nil_iff : accessNamed b version name ident = [] ↔
    ∀ id, Emit.derived id ∈ b.items version → (b.model.type id).kind = .object →
      typeIdent b id = name → ident ∉ baseAccessIdents := by
  unfold accessNamed
  simp only [List.flatMap_eq_nil_iff, named_eq_nil_iff]
  constructor
  · intro h id hid hkind hname hident
    obtain ⟨s, hs⟩ := Option.isSome_iff_exists.mp ((Build.mem_items hb).mp hid).2
    have hnot := h _ hid
    unfold accessItems at hnot
    dsimp only at hnot
    rw [hkind, show b.order.split? id = some s from hs] at hnot
    dsimp only at hnot
    rw [names_derivedItems, if_pos hname] at hnot
    exact hnot hident
  · intro h e he hmem
    cases e with
    | plain id => cases hmem
    | base id => cases hmem
    | derived id =>
      unfold accessItems at hmem
      dsimp only at hmem
      split at hmem
      · rename_i hkind _
        rw [names_derivedItems] at hmem
        split at hmem
        · rename_i hname
          exact h id he hkind hname hmem
        · cases hmem
      · cases hmem

end

/-! ## Methods and their rivals -/

/-- No other function of its class has the identifier of a method: no method of another operation,
for different names may make one identifier, and no access to a base. -/
structure Unrivalled (b : Build) (mb : MethodBinding) : Prop where
  methods : ∀ mb' ∈ b.bindings.bound, (b.model.type mb'.target).kind = .object →
    (b.model.type mb'.target).version = (b.model.type mb.target).version →
    typeIdent b mb'.target = typeIdent b mb.target → methodIdent mb' = methodIdent mb → mb' = mb
  access : ∀ id, Emit.derived id ∈ b.items (b.model.type mb.target).version →
    (b.model.type id).kind = .object → typeIdent b id = typeIdent b mb.target →
    methodIdent mb ∉ baseAccessIdents

theorem unrivalled_iff (hb : Sorted b.model b.order) (hnd : b.bindings.bound.Nodup)
    (hmb : mb ∈ b.bindings.bound) (hkind : (b.model.type mb.target).kind = .object) :
    Unrivalled b mb ↔
      methodsNamed b (b.model.type mb.target).version (typeIdent b mb.target) (methodIdent mb) = [mb]
        ∧ accessNamed b (b.model.type mb.target).version (typeIdent b mb.target) (methodIdent mb)
          = [] := by
  have hnd' : (methodsNamed b (b.model.type mb.target).version (typeIdent b mb.target)
      (methodIdent mb)).Nodup := hnd.filter _
  have hmem : mb ∈ methodsNamed b (b.model.type mb.target).version (typeIdent b mb.target)
      (methodIdent mb) := mem_methodsNamed.mpr ⟨hmb, hkind, rfl, rfl, rfl⟩
  rw [accessNamed_eq_nil_iff hb]
  constructor
  · intro h
    refine ⟨List.perm_singleton.mp
      ((List.perm_ext_iff_of_nodup hnd' (List.nodup_singleton mb)).mpr fun mb' => ?_), h.access⟩
    rw [List.mem_singleton]
    constructor
    · intro hmb'
      obtain ⟨hbound, hkind', hversion, hname, hident⟩ := mem_methodsNamed.mp hmb'
      exact h.methods mb' hbound hkind' hversion hname hident
    · rintro rfl
      exact hmem
  · rintro ⟨hmethods, haccess⟩
    refine ⟨fun mb' hbound hkind' hversion hname hident => ?_, haccess⟩
    have hmb' := mem_methodsNamed.mpr ⟨hbound, hkind', hversion, hname, hident⟩
    rwa [hmethods, List.mem_singleton] at hmb'

/-- **Method names that are identifiers as they stand have no rivals** among each other, for methods of
a version have different names. -/
theorem unrivalled_of_text_eq (hnamed : Named b.model b.bindings.bound)
    (htext : ∀ mb ∈ b.bindings.bound, (methodIdent mb).text = mb.methodName)
    (hmb : mb ∈ b.bindings.bound) (haccess : methodIdent mb ∉ baseAccessIdents) :
    Unrivalled b mb where
  methods := by
    intro mb' hmb' _ hversion _ hident
    have hname : mb'.methodName = mb.methodName := by
      rw [← htext mb' hmb', ← htext mb hmb, hident]
    exact List.inj_on_of_nodup_map hnamed.distinct hmb' hmb (Prod.ext hversion hname)
  access := fun _ _ _ _ => haccess

/-- A name that is not reserved is not that of a function that every document may have. -/
theorem methodIdent_notMem (h : mb.methodName ∉ reserved) :
    methodIdent mb ∉ documentFunctionIdents := by
  intro hmem
  have htext : ∃ name ∈ ["new", "name", "namespace"], (methodIdent mb).text = name := by
    simp only [documentFunctionIdents, List.mem_cons, List.not_mem_nil, or_false] at hmem
    rcases hmem with heq | heq | heq
    · exact ⟨"new", by decide, by rw [heq]⟩
    · exact ⟨"name", by decide, by rw [heq]⟩
    · exact ⟨"namespace", by decide, by rw [heq]⟩
  have hplain : ∀ name ∈ ["new", "name", "namespace"], '_' ∉ name.toList ∧ name ≠ "unknown"
      ∧ name ∈ reserved := by
    decide
  obtain ⟨name, hname, heq⟩ := htext
  obtain ⟨hunderscore, hne, hreserved⟩ := hplain name hname
  exact h (Source.eq_of_text_ofName hunderscore hne heq ▸ hreserved)

/-! ## Builds -/

/--
**Every method that is bound to a struct is generated.**

The module of the version of its class has its function, and no other function of the class has its
identifier unless it has a rival. It has none if the names of methods are identifiers as they stand
and its own is not that of an access to a base.

A method whose class is another name of a primitive is not generated: whatever functions the
identifier of such a class has belong to other types. Only the table of irregular names gives an
operation such a class. The method map lists these methods too, but nothing that is not bound.
-/
theorem methods_generated (config : ReleaseConfig) (doc : Swagger.Document) :
    let b := Build.ofDocument config doc
    (∀ mb ∈ b.bindings.bound, (b.model.type mb.target).kind = .object →
        let version := (b.model.type mb.target).version
        let functions := functionsFor (typeIdent b mb.target) (versionModule b version).items
        methodOf b version mb ∈ functions ∧ (methodOf b version mb).name = methodIdent mb
          ∧ (named (methodIdent mb) functions = [methodOf b version mb] ↔ Unrivalled b mb))
      ∧ ((∀ mb ∈ b.bindings.bound, (methodIdent mb).text = mb.methodName) →
        ∀ mb ∈ b.bindings.bound, methodIdent mb ∉ baseAccessIdents → Unrivalled b mb)
      ∧ (∀ mb ∈ b.bindings.bound, (b.model.type mb.target).kind ≠ .object →
        let version := (b.model.type mb.target).version
        mb.rule = .name
          ∧ (irregular.lookup (b.model.operation mb.operation).methodName).isSome = true
          ∧ ∀ f ∈ functionsFor (typeIdent b mb.target) (versionModule b version).items,
              ∃ e ∈ b.items version, e.id ≠ mb.target
                ∧ f ∈ functionsFor (typeIdent b mb.target) (itemsOf b version e))
      ∧ ∀ version name, (Build.classIn? b.methodMap version name).isSome = true →
          ∃ mb ∈ b.bindings.bound, methodKey b.model mb = (version, name) := by
  intro b
  have hb : Sorted b.model b.order := Build.ofDocument_sorted config doc
  have hbound := Build.ofDocument_bound config doc
  have hnamed := Build.ofDocument_named config doc
  have hnd : b.bindings.bound.Nodup := hnamed.distinct.of_map _
  have hemitted : ∀ mb ∈ b.bindings.bound, b.Emitted mb.target := fun mb hmb =>
    Build.emitted_of_mem_bound hb (fun _ _ hr => Ingest.operation_references hr) hbound hmb
  refine ⟨fun mb hmb hkind => ?_, fun htext mb hmb => unrivalled_of_text_eq hnamed htext hmb,
    fun mb hmb hkind => ?_, fun version name h => ?_⟩
  · have hreserved : mb.methodName ∉ reserved := by
      obtain ⟨before, after, heq⟩ := List.append_of_mem hmb
      exact fun hmem => (hnamed.found before mb after heq).not_taken (.inr hmem)
    have hmem : mb ∈ methodsNamed b (b.model.type mb.target).version (typeIdent b mb.target)
        (methodIdent mb) := mem_methodsNamed.mpr ⟨hmb, hkind, rfl, rfl, rfl⟩
    have hdocument := methodIdent_notMem hreserved
    exact ⟨methodOf_mem_functionsFor hb hnd hemitted hmem hdocument, rfl,
      (named_eq_singleton_iff hb hnd hemitted hmem hdocument).trans
        (unrivalled_iff hb hnd hmb hkind).symm⟩
  · obtain ⟨-, -, hclass⟩ := classOf_eq_ok (hbound.classes mb hmb)
    obtain ⟨hrule, hirregular⟩ := (isDocument_or_irregular hclass).resolve_left
      fun hdoc => hkind (Ingest.kind_of_isDocument hdoc)
    refine ⟨hrule, hirregular, fun f hf => ?_⟩
    rw [functionsFor_versionModule, List.mem_flatMap] at hf
    obtain ⟨e, he, hf⟩ := hf
    refine ⟨e, he, fun hid => ?_, hf⟩
    rw [functionsFor_itemsOf_eq_nil ((Build.mem_items hb).mp he).2 (.inr (hid ▸ hkind))] at hf
    cases hf
  · rw [← Build.mem_listed, (Build.listed_methodMap_perm
      (fun mb hmb => Build.target_lt config doc hmb) hnamed).mem_iff] at h
    exact List.mem_map.mp h

end ApiModels.Generated
