import ApiModels.Proofs.NameEntries
import ApiModels.Proofs.Renumbering

/-!
# Names of renumbered types

Types of one name are put in the order of groups and keys before one is made primary and the others
get their aliases, and simple names are put in order before that. So where keys are distinct, a type
gets the same name under any number.
-/

namespace ApiModels

/-- An entry under other numbers. -/
def NameEntry.renumber (σ : TypeId → TypeId) (e : NameEntry) : NameEntry :=
  { e with primary := σ e.primary, aliases := e.aliases.map fun a => (σ a.1, a.2) }

namespace Names

open ReleaseModel

variable {σ : Equiv.Perm TypeId} {m m' : ReleaseModel} {preferences : Preferences}
  {version name : String} {ids ids' : List TypeId} {id u v : TypeId}

/-- **Sorting does not depend on the numbers** where no two of the types compare equal. -/
theorem mergeSort_renumber {cmp cmp' : TypeId → TypeId → Ordering} [Std.TransCmp cmp]
    [Std.TransCmp cmp'] (hperm : ids'.Perm (ids.map σ))
    (hcmp : ∀ u ∈ ids, ∀ v ∈ ids, cmp' (σ u) (σ v) = cmp u v)
    (hstrict : ∀ u ∈ ids, ∀ v ∈ ids, cmp u v = .eq → u = v) :
    (ids'.mergeSort fun a b => cmp' a b != .gt)
      = (ids.mergeSort fun a b => cmp a b != .gt).map σ := by
  have hsort := List.mergeSort_perm ids fun a b => cmp a b != .gt
  have hsame := (List.mergeSort_perm ids' fun a b => cmp' a b != .gt).trans
    (hperm.trans (hsort.map σ).symm)
  have hsorted : ((ids.mergeSort fun a b => cmp a b != .gt).map σ).Pairwise
      fun a b => (cmp' a b).isLE = true := by
    refine List.pairwise_map.mpr ((pairwise_mergeSort cmp ids).imp_of_mem fun {u v} hu hv huv => ?_)
    rwa [hcmp u (hsort.mem_iff.mp hu) v (hsort.mem_iff.mp hv)]
  refine List.Perm.eq_of_pairwise ?_ (pairwise_mergeSort cmp' ids') hsorted hsame
  intro u' v' hu' hv' huv hvu
  obtain ⟨u, hu, rfl⟩ := List.mem_map.mp (hsame.mem_iff.mp hu')
  obtain ⟨v, hv, rfl⟩ := List.mem_map.mp hv'
  have huv' := hcmp u (hsort.mem_iff.mp hu) v (hsort.mem_iff.mp hv)
  have heq : cmp' (σ u) (σ v) = .eq := Std.OrientedCmp.isLE_antisymm huv hvu
  rw [hstrict u (hsort.mem_iff.mp hu) v (hsort.mem_iff.mp hv) (huv'.symm.trans heq)]

/-! ## Types of one name -/

theorem compareMembers_renumber (h : Renumbered σ m m') (u v : TypeId) :
    compareMembers m' (σ u) (σ v) = compareMembers m u v := by
  unfold compareMembers
  rw [h.typeGroup, h.typeGroup, h.typeKey, h.typeKey]

theorem key_eq_of_compareMembers (h : compareMembers m u v = .eq) :
    (m.type u).key = (m.type v).key :=
  Std.LawfulEqCmp.eq_of_compare (Ordering.then_eq_eq.mp h).2

theorem members_renumber (h : Renumbered σ m m') (hm : m.DistinctKeys) (version name : String) :
    members m' version name = (members m version name).map σ := by
  refine mergeSort_renumber (h.find version name)
    (fun u _ v _ => compareMembers_renumber h u v) fun u hu v hv heq => ?_
  exact hm u (mem_find.mp hu).1 v (mem_find.mp hv).1 (key_eq_of_compareMembers heq)

theorem primaryOf_renumber (h : Renumbered σ m m') (preferred : List String) (hne : ids ≠ []) :
    primaryOf m' preferred (ids.map σ) = σ (primaryOf m preferred ids) := by
  have hgroup : ∀ g, ((ids.map σ).find? fun id => (m'.type id).group == some g)
      = (ids.find? fun id => (m.type id).group == some g).map σ := by
    intro g
    rw [List.find?_map]
    congr 2
    funext id
    rw [Function.comp_apply, h.typeGroup]
  have hfound : (preferred.findSome? fun g =>
        (ids.map σ).find? fun id => (m'.type id).group == some g)
      = (preferred.findSome? fun g => ids.find? fun id => (m.type id).group == some g).map σ := by
    rw [List.map_findSome?]
    exact congrArg (List.findSome? · preferred) (funext hgroup)
  obtain ⟨first, rest, rfl⟩ := List.exists_cons_of_ne_nil hne
  unfold primaryOf
  rw [hfound]
  cases preferred.findSome? fun g => (first :: rest).find? fun id => (m.type id).group == some g with
  | none => rfl
  | some id => rfl

theorem assignAliases_renumber (h : Renumbered σ m m') (name : String) (taken : List String)
    (ids : List TypeId) :
    assignAliases m' name taken (ids.map σ)
      = (assignAliases m name taken ids).map fun a => (σ a.1, a.2) := by
  induction ids generalizing taken with
  | nil => rfl
  | cons id ids ih =>
      rw [List.map_cons, assignAliases, assignAliases, List.map_cons, h.typeGroup, ih]

/-! ## Entries -/

theorem simpleNames_renumber (h : Renumbered σ m m') (version : String) :
    simpleNames m' version = simpleNames m version := by
  refine sortedTexts_congr fun name => ?_
  rw [((h.typesOf version).map _).mem_iff, List.map_map]
  have hname : ((fun id => (m'.type id).name) ∘ σ) = fun id => (m.type id).name :=
    funext fun id => h.typeName id
  rw [hname]

theorem entryOf_renumber (h : Renumbered σ m m') (hm : m.DistinctKeys) (taken : List String)
    (hname : name ∈ simpleNames m version) :
    entryOf m' preferences version taken name
      = (entryOf m preferences version taken name).renumber σ := by
  obtain ⟨id, hlt, hversion, hid⟩ := mem_simpleNames_iff.mp hname
  have hne : members m version name ≠ [] :=
    List.ne_nil_of_mem (mem_members.mpr ⟨hlt, hversion, hid⟩)
  have hothers : ∀ primary : TypeId,
      (((members m version name).map σ).filter fun id => id ≠ σ primary)
        = ((members m version name).filter fun id => id ≠ primary).map σ := by
    intro primary
    rw [List.filter_map]
    congr 2
    funext id
    simp [σ.injective.eq_iff]
  unfold entryOf NameEntry.renumber
  dsimp only
  rw [members_renumber h hm, primaryOf_renumber h _ hne, hothers, assignAliases_renumber h]

theorem texts_renumber (e : NameEntry) :
    (e.renumber σ).aliases.map Prod.snd = e.aliases.map Prod.snd := by
  unfold NameEntry.renumber
  rw [List.map_map]
  rfl

theorem entriesOf_renumber (h : Renumbered σ m m') (hm : m.DistinctKeys) {names : List String}
    (hnames : ∀ name ∈ names, name ∈ simpleNames m version) (taken : List String) :
    entriesOf m' preferences version taken names
      = (entriesOf m preferences version taken names).map (NameEntry.renumber σ) := by
  induction names generalizing taken with
  | nil => rfl
  | cons name names ih =>
      have hentry : entryOf m' preferences version taken name
          = (entryOf m preferences version taken name).renumber σ :=
        entryOf_renumber h hm taken (hnames name List.mem_cons_self)
      rw [entriesOf, entriesOf, List.map_cons, hentry, texts_renumber,
        ih fun name hname => hnames name (List.mem_cons_of_mem _ hname)]

theorem aliasesOf_renumber (h : Renumbered σ m m') (hm : m.DistinctKeys) (version : String) :
    aliasesOf m' preferences version
      = (aliasesOf m preferences version).map fun a => (σ a.1, a.2) := by
  unfold aliasesOf
  rw [simpleNames_renumber h, entriesOf_renumber h hm (fun _ hname => hname), List.flatMap_map,
    List.map_flatMap]
  rfl

/-! ## Names -/

theorem lookup_renumber (aliases : List (TypeId × String)) (id : TypeId) :
    (aliases.map fun a => (σ a.1, a.2)).lookup (σ id) = aliases.lookup id := by
  induction aliases with
  | nil => rfl
  | cons a aliases ih =>
      have hbeq : (σ id == σ a.1) = (id == a.1) := by
        rw [Bool.eq_iff_iff, beq_iff_eq, beq_iff_eq, σ.injective.eq_iff]
      rw [List.map_cons, List.lookup_cons, List.lookup_cons, hbeq, ih]

/-- **A type has the same name under any number.** -/
theorem name_renumber (h : Renumbered σ m m') (hm : m.DistinctKeys) (preferences : Preferences)
    (id : TypeId) : (resolve m' preferences).name (σ id) = (resolve m preferences).name id := by
  by_cases hid : id < m.types.size
  · have haliases : m'.versions.flatMap (aliasesOf m' preferences)
        = (m.versions.flatMap (aliasesOf m preferences)).map fun a => (σ a.1, a.2) := by
      rw [h.versions, List.map_flatMap]
      exact List.flatMap_congr fun version _ => aliasesOf_renumber h hm version
    rw [name_eq_lookup preferences hid, name_eq_lookup preferences ((h.lt id).mpr hid), haliases,
      lookup_renumber, h.typeName]
  · have hid' : ¬ σ id < m'.types.size := fun hlt => hid ((h.lt id).mp hlt)
    simp [name, resolve, typeIds, hid, hid']

end Names

end ApiModels
