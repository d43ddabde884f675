import ApiModels.Proofs.BoundOrReported
import ApiModels.Proofs.FirstFree

/-!
# Names of methods

A class may get its methods from operations of any version, and method names are kept apart across
all classes of a version. A name is searched for when an operation is bound, among the names that
are free then; it stays free for no one after, so no two methods of a version share a name. That is
what a method map relies on, which lists the methods of a version by their names alone.
-/

namespace ApiModels

open ReleaseModel

namespace Binding

variable {m : ReleaseModel} {names : Names} {order : Order} {op : Operation} {id : OperationId}
  {bound : List MethodBinding} {mb : MethodBinding} {version name : String} {s : State}

/-- The version of the class a method is bound to, and the name it has there. -/
def methodKey (m : ReleaseModel) (mb : MethodBinding) : String × String :=
  ((m.type mb.target).version, mb.methodName)

/-- Whether no further method of a version can have a name. -/
def Taken (m : ReleaseModel) (bound : List MethodBinding) (version name : String) : Prop :=
  (version, name) ∈ bound.map (methodKey m) ∨ name ∈ reserved

/-- A name is the one an operation's method gets: the short one if it is free, else the first that is
free of the long one and its numbered forms. -/
def IsMethodName (op : Operation) (taken : String → Prop) (name : String) : Prop :=
  ¬ taken (Text.snakeCase op.methodName) ∧ name = Text.snakeCase op.methodName
    ∨ taken (Text.snakeCase op.methodName)
      ∧ Text.IsFirstFree taken (Text.numbered (Text.snakeCase op.operationId)) name

theorem IsMethodName.not_taken {taken : String → Prop} (h : IsMethodName op taken name) :
    ¬ taken name := by
  rcases h with ⟨hfree, rfl⟩ | ⟨-, n, -, hfree, -⟩
  · exact hfree
  · exact hfree

/-- **A name is found** whatever names are used, and the search for it ends. -/
theorem methodName_isMethodName (op : Operation) (used : List String) :
    IsMethodName op (fun n => n ∈ used ∨ n ∈ reserved) (methodName op used) := by
  have hmem : ∀ n, (used.contains n || reserved.contains n) = true ↔ n ∈ used ∨ n ∈ reserved := by
    intro n
    rw [Bool.or_eq_true, List.contains_iff_mem, List.contains_iff_mem]
  have hfirst : ∀ base, Text.IsFirstFree (fun n => n ∈ used ∨ n ∈ reserved) (Text.numbered base)
      (Text.firstFree (fun n => used.contains n || reserved.contains n) (Text.numbered base)
        (used.length + reserved.length)) := by
    intro base
    refine (Text.isFirstFree_firstFree (Text.numbered_injective base) (used ++ reserved)
      (fun n hn => ?_) ?_).congr hmem
    · exact List.mem_append.mpr ((hmem n).mp hn)
    · rw [List.length_append]
  unfold methodName
  dsimp only
  split
  · rename_i htaken
    exact .inr ⟨(hmem _).mp htaken, hfirst _⟩
  · rename_i hfree
    have hshort := fun h => hfree ((hmem (Text.snakeCase op.methodName)).mpr h)
    obtain ⟨n, hname, hnot, hbefore⟩ := hfirst (Text.snakeCase op.methodName)
    refine .inl ⟨hshort, ?_⟩
    -- the short name is the first candidate, and free
    cases n with
    | zero => exact hname
    | succ n => exact absurd (hbefore 0 (Nat.succ_pos n)) hshort

theorem mem_usedNames :
    name ∈ usedNames m bound version ↔ (version, name) ∈ bound.map (methodKey m) := by
  rw [usedNames, List.mem_map, List.mem_map]
  constructor
  · rintro ⟨mb, hmb, rfl⟩
    obtain ⟨hmb, hversion⟩ := List.mem_filter.mp hmb
    exact ⟨mb, hmb, Prod.ext (beq_iff_eq.mp hversion) rfl⟩
  · rintro ⟨mb, hmb, hkey⟩
    obtain ⟨hversion, hname⟩ := Prod.mk.inj hkey
    exact ⟨mb, List.mem_filter.mpr ⟨hmb, beq_iff_eq.mpr hversion⟩, hname⟩

/-! ## One after the other -/

/-- What holds of the names of methods in the order in which they are bound. -/
structure Named (m : ReleaseModel) (bound : List MethodBinding) : Prop where
  /-- No two methods of a version have one name. -/
  distinct : (bound.map (methodKey m)).Nodup
  /-- Each method has the name that was found for it among those then free. -/
  found : ∀ before mb after, bound = before ++ mb :: after →
    IsMethodName (m.operation mb.operation) (Taken m before (m.type mb.target).version)
      mb.methodName

theorem Named.snoc (h : Named m bound)
    (hname : IsMethodName (m.operation mb.operation) (Taken m bound (m.type mb.target).version)
      mb.methodName) :
    Named m (bound ++ [mb]) where
  distinct := by
    rw [List.map_append, List.nodup_append]
    refine ⟨h.distinct, List.nodup_singleton _, fun k hk k' hk' heq => ?_⟩
    obtain rfl := List.mem_singleton.mp (heq ▸ hk')
    exact hname.not_taken (.inl hk)
  found := by
    intro before mb' after heq
    rcases List.eq_nil_or_concat after with rfl | ⟨after, last, rfl⟩
    · obtain ⟨rfl, hlast⟩ := List.append_inj' heq rfl
      obtain rfl := List.singleton_inj.mp hlast
      exact hname
    · rw [List.concat_eq_append, ← List.cons_append, ← List.append_assoc] at heq
      obtain ⟨hbound, -⟩ := List.append_inj' heq rfl
      exact h.found before mb' after hbound

/-- **Kept by every operation.** -/
theorem Named.bindOne (h : Named m s.bindings.bound) (id : OperationId) :
    Named m (bindOne m names order s id).bindings.bound := by
  unfold Binding.bindOne
  dsimp only
  cases classOf m names order (m.operation id) with
  | error reason => exact h
  | ok found =>
      obtain ⟨target, kind, rule⟩ := found
      refine h.snoc ?_
      have hname := methodName_isMethodName (m.operation id)
        (usedNames m s.bindings.bound (m.type target).version)
      simp only [mem_usedNames] at hname
      exact hname

/-- **How the methods of a release are named.** -/
theorem bindRelease_named (m : ReleaseModel) (names : Names) (order : Order) :
    Named m (bindRelease m names order).1.bound := by
  have hempty : Named m ({} : State).bindings.bound :=
    ⟨List.nodup_nil, fun before mb after h => absurd h (by simp)⟩
  exact foldl_bindOne (P := fun _ s => Named m s.bindings.bound) (fun _ _ id h => h.bindOne id)
    hempty _

end Binding

namespace Build

open Binding

variable {b : Build} {map : Table (Table String)} {c : TypeId × List MethodBinding}
  {classes : List (TypeId × List MethodBinding)} {version name : String}

/-! ## Method maps -/

/-- The class that a method map has for a method of a version. -/
def classIn? (map : Table (Table String)) (version name : String) : Option String :=
  (map.get? version).bind (·.get? name)

/-- A method map with the methods of one more class. -/
def listClass (b : Build) (map : Table (Table String)) (c : TypeId × List MethodBinding) :
    Table (Table String) :=
  map.insert (b.model.type c.1).version
    (c.2.foldl (fun t mb => t.insert mb.methodName (b.names.name c.1))
      ((map.get? (b.model.type c.1).version).getD {}))

theorem methodMap_eq : b.methodMap = (b.bindings.byClass b.model).foldl (listClass b) {} := rfl

/-- A class has a method of a name in a version. -/
def HasMethod (b : Build) (version name : String) (c : TypeId × List MethodBinding) : Prop :=
  (b.model.type c.1).version = version ∧ name ∈ c.2.map (·.methodName)

theorem get?_foldl_methods {className : String} {methods : List MethodBinding} {t : Table String} :
    (methods.foldl (fun t mb => t.insert mb.methodName className) t).get? name
      = if name ∈ methods.map (·.methodName) then some className else t.get? name := by
  induction methods generalizing t with
  | nil => simp
  | cons mb methods ih =>
      rw [List.foldl_cons, ih, Table.get?_insert]
      by_cases hrest : name ∈ methods.map (·.methodName)
      · simp [hrest]
      · by_cases hname : name = mb.methodName
        · simp [hname]
        · simp [hrest, hname]

open Classical in
/-- Listing a class sets its own methods and leaves all others. -/
theorem classIn?_listClass : classIn? (listClass b map c) version name
    = if HasMethod b version name c then some (b.names.name c.1) else classIn? map version name := by
  have hold : ((map.get? version).getD {}).get? name = classIn? map version name := by
    unfold classIn?
    cases map.get? version with
    | none => rfl
    | some t => rfl
  unfold classIn? listClass HasMethod
  rw [Table.get?_insert]
  by_cases hversion : (b.model.type c.1).version = version
  · subst hversion
    rw [if_pos rfl, Option.bind_some, get?_foldl_methods, hold]
    simp [classIn?]
  · rw [if_neg fun h => hversion h.symm, if_neg fun h => hversion h.1]

theorem isSome_classIn?_foldl : (classIn? (classes.foldl (listClass b) map) version name).isSome
    ↔ (classIn? map version name).isSome ∨ ∃ c ∈ classes, HasMethod b version name c := by
  induction classes generalizing map with
  | nil => simp
  | cons c classes ih =>
      rw [List.foldl_cons, ih, classIn?_listClass]
      by_cases hc : HasMethod b version name c
      · simp [hc]
      · simp [hc]

/-- A method that one class only has is listed with that class. -/
theorem classIn?_foldl {className : String}
    (hone : ∀ c ∈ classes, HasMethod b version name c → b.names.name c.1 = className)
    (h : classIn? map version name = some className
      ∨ ∃ c ∈ classes, HasMethod b version name c) :
    classIn? (classes.foldl (listClass b) map) version name = some className := by
  induction classes generalizing map with
  | nil => simpa using h
  | cons c classes ih =>
      rw [List.foldl_cons]
      refine ih (fun c' hc' => hone c' (List.mem_cons_of_mem _ hc')) ?_
      rw [classIn?_listClass]
      by_cases hc : HasMethod b version name c
      · rw [if_pos hc, hone c List.mem_cons_self hc]
        exact .inl rfl
      · rw [if_neg hc]
        refine h.imp_right fun ⟨c', hc', hmethod⟩ => ⟨c', ?_, hmethod⟩
        exact (List.mem_cons.mp hc').resolve_left fun he => hc (he ▸ hmethod)

/-! ## Entries -/

/-- Versions and names of the methods that a method map lists. -/
def listed (map : Table (Table String)) : List (String × String) :=
  map.entries.flatMap fun e => e.2.keys.map fun name => (e.1, name)

theorem mem_listed : (version, name) ∈ listed map ↔ (classIn? map version name).isSome := by
  rw [listed, List.mem_flatMap, classIn?]
  constructor
  · rintro ⟨⟨v, t⟩, he, hname⟩
    obtain ⟨n, hn, heq⟩ := List.mem_map.mp hname
    obtain ⟨rfl, rfl⟩ := Prod.mk.inj heq
    rw [Table.mem_entries.mp he, Option.bind_some]
    exact Table.isSome_get?.mpr hn
  · intro h
    obtain ⟨className, h⟩ := Option.isSome_iff_exists.mp h
    obtain ⟨t, ht, hname⟩ := Option.bind_eq_some_iff.mp h
    refine ⟨(version, t), Table.mem_entries.mpr ht, List.mem_map.mpr ⟨name, ?_, rfl⟩⟩
    exact Table.isSome_get?.mp (by rw [hname]; rfl)

/-- Nothing is listed twice. -/
theorem nodup_listed : (listed map).Nodup := by
  rw [listed, List.nodup_flatMap]
  constructor
  · intro e _
    exact e.2.nodup_keys.map fun n n' h => (Prod.mk.inj h).2
  · refine map.sorted.imp fun {e e'} hlt k hk hk' => ?_
    obtain ⟨n, -, rfl⟩ := List.mem_map.mp hk
    obtain ⟨n', -, heq⟩ := List.mem_map.mp hk'
    exact String.ne_of_lt hlt (congrArg Prod.fst heq).symm

theorem length_listed :
    (listed map).length = (map.values.map fun t => t.entries.length).sum := by
  rw [listed, List.length_flatMap, Table.values, List.map_map]
  simp [Table.keys, Function.comp_def]

section

variable (hlt : ∀ mb ∈ b.bindings.bound, mb.target < b.model.types.size)

include hlt

/-- The methods that classes have are those that are bound. -/
theorem exists_hasMethod : (∃ c ∈ b.bindings.byClass b.model, HasMethod b version name c)
    ↔ (version, name) ∈ b.bindings.bound.map (methodKey b.model) := by
  constructor
  · rintro ⟨c, hc, hversion, hname⟩
    obtain ⟨-, heq, -⟩ := Bindings.mem_byClass.mp hc
    obtain ⟨mb, hmb, hmethod⟩ := List.mem_map.mp hname
    rw [heq, Bindings.mem_methods] at hmb
    refine List.mem_map.mpr ⟨mb, hmb.1, Prod.ext ?_ hmethod⟩
    rw [methodKey, hmb.2]
    exact hversion
  · intro h
    obtain ⟨mb, hmb, heq⟩ := List.mem_map.mp h
    obtain ⟨hversion, hname⟩ := Prod.mk.inj heq
    have hmethod : mb ∈ b.bindings.methods mb.target := Bindings.mem_methods.mpr ⟨hmb, rfl⟩
    refine ⟨(mb.target, b.bindings.methods mb.target), ?_, hversion,
      List.mem_map.mpr ⟨mb, hmethod, hname⟩⟩
    exact Bindings.mem_byClass.mpr ⟨hlt mb hmb, rfl, List.ne_nil_of_mem hmethod⟩

/-- **A method map lists every bound method**, with the name of its class, and nothing else. -/
theorem classIn?_methodMap (h : Named b.model b.bindings.bound) {mb : MethodBinding}
    (hmb : mb ∈ b.bindings.bound) :
    classIn? b.methodMap (b.model.type mb.target).version mb.methodName
      = some (b.names.name mb.target) := by
  refine classIn?_foldl (fun c hc hmethod => ?_) (.inr ((exists_hasMethod hlt).mpr
    (List.mem_map.mpr ⟨mb, hmb, rfl⟩)))
  -- two methods of one version and name are one method
  obtain ⟨hversion, hname⟩ := hmethod
  obtain ⟨-, heq, -⟩ := Bindings.mem_byClass.mp hc
  obtain ⟨mb', hmb', hmethod⟩ := List.mem_map.mp hname
  rw [heq, Bindings.mem_methods] at hmb'
  obtain ⟨hmb', htarget⟩ := hmb'
  have hkey : methodKey b.model mb' = methodKey b.model mb := by
    rw [methodKey, methodKey, htarget, hversion, hmethod]
  rw [← htarget, List.inj_on_of_nodup_map h.distinct hmb' hmb hkey]

theorem listed_methodMap_perm (h : Named b.model b.bindings.bound) :
    (listed b.methodMap).Perm (b.bindings.bound.map (methodKey b.model)) := by
  refine (List.perm_ext_iff_of_nodup nodup_listed h.distinct).mpr fun ⟨version, name⟩ => ?_
  have hempty : classIn? {} version name = none := rfl
  rw [mem_listed, methodMap_eq, isSome_classIn?_foldl, exists_hasMethod hlt, hempty]
  simp

end

/-! ## Builds -/

/-- How the methods of a build are named. -/
theorem ofDocument_named (config : ReleaseConfig) (doc : Swagger.Document) :
    Named (ofDocument config doc).model (ofDocument config doc).bindings.bound := by
  rw [bindings_eq]
  exact bindRelease_named _ _ _

/--
**Methods of a version never share a name, and a method map loses none.**

The methods bound to classes of one version have different names, none of them reserved. Each got its
name when it was bound, by a search that ended: the short name if that was free, else the first free
one of the long name and its numbered forms. So a method map has as many entries as there are bound
operations, and the entry of each gives the class it is bound to.
-/
theorem method_names_distinct (config : ReleaseConfig) (doc : Swagger.Document) :
    let b := ofDocument config doc
    (b.bindings.bound.map (methodKey b.model)).Nodup
      ∧ (∀ mb ∈ b.bindings.bound, mb.methodName ∉ reserved)
      ∧ (∀ before mb after, b.bindings.bound = before ++ mb :: after →
          IsMethodName (b.model.operation mb.operation)
            (Taken b.model before (b.model.type mb.target).version) mb.methodName)
      ∧ (b.methodMap.values.map fun t => t.entries.length).sum = b.summary.bound
      ∧ ∀ mb ∈ b.bindings.bound,
          (b.methodMap.get? (b.model.type mb.target).version).bind (·.get? mb.methodName)
            = some (b.names.name mb.target) := by
  intro b
  have hlt : ∀ mb ∈ b.bindings.bound, mb.target < b.model.types.size :=
    fun mb hmb => target_lt config doc hmb
  have hnamed := ofDocument_named config doc
  refine ⟨hnamed.distinct, fun mb hmb => ?_, hnamed.found, ?_,
    fun mb hmb => classIn?_methodMap hlt hnamed hmb⟩
  · obtain ⟨before, after, heq⟩ := List.append_of_mem hmb
    exact fun hreserved => (hnamed.found before mb after heq).not_taken (.inr hreserved)
  · rw [← length_listed, (listed_methodMap_perm hlt hnamed).length_eq, List.length_map]
    rfl

end Build

end ApiModels
