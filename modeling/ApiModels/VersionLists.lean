import ApiModels.Table

/-!
# Lists of versions

Types and operations are listed under their versions while they are numbered: a number goes to the
end of the list of its version, which is begun with the first number it gets. A version may get
types, operations, or both. Whatever the order in which types and operations come, a version lists
the places that it has among each of them, and only what has a type or an operation is a version.
-/

namespace ApiModels

/-- The numbers of the types and of the operations of a version. -/
structure VersionList where
  types : List Nat := []
  operations : List Nat := []
deriving DecidableEq, Repr, Inhabited

/-- Changes the list of a version, which is begun where there is none. -/
def enter (version : String) (add : VersionList → VersionList) (lists : Table VersionList) :
    Table VersionList :=
  lists.insert version (add ((lists.get? version).getD {}))

/-- Lists a type at the end. -/
def VersionList.addType (id : Nat) (l : VersionList) : VersionList :=
  { l with types := l.types ++ [id] }

/-- Lists an operation at the end. -/
def VersionList.addOperation (id : Nat) (l : VersionList) : VersionList :=
  { l with operations := l.operations ++ [id] }

/-- The places of a version among the versions of things that are numbered in turn. -/
def placesOf (versions : List String) (version : String) : List Nat :=
  (List.range versions.length).filter fun id => versions[id]? == some version

/-- Lists say of each version where it is among the versions of types and of operations. -/
structure ListsPlaces (types operations : List String) (lists : Table VersionList) : Prop where
  list : ∀ version,
    (lists.get? version).getD {} = ⟨placesOf types version, placesOf operations version⟩
  keys : ∀ version, version ∈ lists.keys ↔ version ∈ types ∨ version ∈ operations

/-! ## Listing one more -/

section

variable {types operations versions : List String} {version v : String}
  {lists : Table VersionList} {add : VersionList → VersionList}

/-- One number changes the list of its version, and no other. -/
theorem getD_enter : ((enter v add lists).get? version).getD {}
    = if version = v then add ((lists.get? version).getD {}) else (lists.get? version).getD {} := by
  unfold enter
  rw [Table.get?_insert]
  by_cases hversion : version = v
  · rw [if_pos hversion, if_pos hversion, hversion]
    rfl
  · rw [if_neg hversion, if_neg hversion]

/-- What is numbered last has the next place in its version. -/
theorem placesOf_concat : placesOf (versions ++ [v]) version
    = if version = v then placesOf versions version ++ [versions.length]
      else placesOf versions version := by
  have hbefore (id : Nat) (hid : id ∈ List.range versions.length) :
      ((versions ++ [v])[id]? == some version) = (versions[id]? == some version) := by
    rw [List.getElem?_append_left (List.mem_range.mp hid)]
  have hlast : (versions ++ [v])[versions.length]? = some v := List.getElem?_concat_length
  unfold placesOf
  rw [List.length_append, List.length_singleton, List.range_succ, List.filter_append,
    List.filter_congr hbefore, List.filter_cons, List.filter_nil, hlast]
  -- the places before are as they were, so what stands last decides
  by_cases hversion : version = v
  · rw [if_pos hversion, if_pos (beq_iff_eq.mpr (congrArg some hversion.symm))]
  · have hne : ¬ (some v == some version) = true :=
      fun h => hversion (Option.some.inj (eq_of_beq h)).symm
    rw [if_neg hversion, if_neg hne, List.append_nil]

namespace ListsPlaces

theorem empty : ListsPlaces [] [] {} where
  list _ := rfl
  keys _ := by simp [Table.keys, EmptyCollection.emptyCollection, Table.empty]

theorem enterType (h : ListsPlaces types operations lists) (v : String) :
    ListsPlaces (types ++ [v]) operations (enter v (.addType types.length) lists) where
  list version := by
    rw [getD_enter, h.list, placesOf_concat]
    split <;> rfl
  keys version := by
    rw [enter, Table.mem_keys_insert, h.keys, List.mem_append, List.mem_singleton,
      ← or_assoc, or_comm (a := version = v)]

theorem enterOperation (h : ListsPlaces types operations lists) (v : String) :
    ListsPlaces types (operations ++ [v]) (enter v (.addOperation operations.length) lists) where
  list version := by
    rw [getD_enter, h.list, placesOf_concat]
    split <;> rfl
  keys version := by
    rw [enter, Table.mem_keys_insert, h.keys, List.mem_append, List.mem_singleton,
      or_left_comm, or_comm (a := version = v)]

end ListsPlaces

end

end ApiModels
