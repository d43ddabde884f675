/-!
# Sorted tables

A finite map from text to values, listed in the order of its keys and holding each key once. Tables
that are written out or reported come out in this order whatever the order they were filled in.
-/

namespace ApiModels

/-- Entries in strictly increasing order of their keys. -/
structure Table (α : Type u) where
  entries : List (String × α)
  sorted : entries.Pairwise fun a b => a.1 < b.1

namespace Table

/-- The table without entries. -/
def empty : Table α := ⟨[], .nil⟩

instance : Inhabited (Table α) := ⟨empty⟩
instance : EmptyCollection (Table α) := ⟨empty⟩

/-- Puts an entry among entries in order, in place of one with the same key. -/
def insertSorted (key : String) (value : α) : List (String × α) → List (String × α)
  | [] => [(key, value)]
  | (k, v) :: rest =>
    if key < k then (key, value) :: (k, v) :: rest
    else if k < key then (k, v) :: insertSorted key value rest
    else (key, value) :: rest

theorem mem_insertSorted {key : String} {value : α} {entries : List (String × α)}
    {e : String × α} (h : e ∈ insertSorted key value entries) : e = (key, value) ∨ e ∈ entries := by
  induction entries with
  | nil => simpa [insertSorted] using h
  | cons a rest ih =>
    obtain ⟨k, v⟩ := a
    simp only [insertSorted] at h
    split at h
    · simpa using h
    · split at h
      · rcases List.mem_cons.1 h with h | h
        · exact .inr (by simp [h])
        · rcases ih h with h | h
          · exact .inl h
          · exact .inr (List.mem_cons_of_mem _ h)
      · rcases List.mem_cons.1 h with h | h
        · exact .inl h
        · exact .inr (List.mem_cons_of_mem _ h)

theorem insertSorted_sorted (key : String) (value : α) {entries : List (String × α)}
    (h : entries.Pairwise fun a b => a.1 < b.1) :
    (insertSorted key value entries).Pairwise fun a b => a.1 < b.1 := by
  induction entries with
  | nil => simp [insertSorted]
  | cons a rest ih =>
    obtain ⟨k, v⟩ := a
    obtain ⟨first, later⟩ := List.pairwise_cons.1 h
    simp only [insertSorted]
    split
    · rename_i below
      refine List.pairwise_cons.2 ⟨fun e he => ?_, h⟩
      rcases List.mem_cons.1 he with rfl | he
      · exact below
      · exact String.lt_trans below (first e he)
    · rename_i notBelow
      split
      · rename_i above
        refine List.pairwise_cons.2 ⟨fun e he => ?_, ih later⟩
        rcases mem_insertSorted he with rfl | he
        · exact above
        · exact first e he
      · rename_i notAbove
        have same : k = key := String.le_antisymm notBelow notAbove
        subst same
        exact List.pairwise_cons.2 ⟨first, later⟩

/-- The table with an entry set. -/
def insert (t : Table α) (key : String) (value : α) : Table α :=
  ⟨insertSorted key value t.entries, insertSorted_sorted key value t.sorted⟩

/-- The value of a key. -/
def get? (t : Table α) (key : String) : Option α := t.entries.lookup key

/-- Whether the table has a key. -/
def contains (t : Table α) (key : String) : Bool := (t.get? key).isSome

/-- Keys in order. -/
def keys (t : Table α) : List String := t.entries.map Prod.fst

/-- Values in the order of their keys. -/
def values (t : Table α) : List α := t.entries.map Prod.snd

/-- Whether the table has no entry. -/
def isEmpty (t : Table α) : Bool := t.entries.isEmpty

/-- The table of a list of entries; of several with one key the last counts. -/
def ofList (entries : List (String × α)) : Table α :=
  entries.foldl (fun t e => t.insert e.1 e.2) empty

/-- The entries of `u` set in `t`. -/
def update (t u : Table α) : Table α := u.entries.foldl (fun t e => t.insert e.1 e.2) t

/-- The table with every value changed. -/
def map (f : α → β) (t : Table α) : Table β :=
  ⟨t.entries.map fun e => (e.1, f e.2), by
    rw [List.pairwise_map]
    exact t.sorted⟩

instance [BEq α] : BEq (Table α) := ⟨fun t u => t.entries == u.entries⟩
instance [DecidableEq α] : DecidableEq (Table α) := fun t u =>
  if h : t.entries = u.entries then
    .isTrue (by cases t; cases u; cases h; rfl)
  else .isFalse fun e => h (by rw [e])
instance [Repr α] : Repr (Table α) := ⟨fun t n => reprPrec t.entries n⟩

/-! ## Setting an entry -/

/-- Setting an entry adds its key and loses none. -/
theorem mem_keys_insertSorted {key k : String} {value : α} {entries : List (String × α)} :
    k ∈ (insertSorted key value entries).map Prod.fst ↔ k = key ∨ k ∈ entries.map Prod.fst := by
  induction entries with
  | nil => simp [insertSorted]
  | cons e rest ih =>
    obtain ⟨k', v⟩ := e
    rw [insertSorted]
    split
    · simp
    · split
      · rw [List.map_cons, List.mem_cons, ih, List.map_cons, List.mem_cons]
        exact or_left_comm
      · rename_i hlt hgt
        have heq : k' = key := String.le_antisymm hlt hgt
        subst heq
        simp

theorem mem_keys_insert {t : Table α} {key k : String} {value : α} :
    k ∈ (t.insert key value).keys ↔ k = key ∨ k ∈ t.keys := mem_keys_insertSorted

theorem lookup_cons_eq {κ : Type v} [BEq κ] [LawfulBEq κ] [DecidableEq κ] {k k' : κ} {value : α}
    {entries : List (κ × α)} :
    ((k', value) :: entries).lookup k = if k = k' then some value else entries.lookup k := by
  rw [List.lookup_cons]
  by_cases h : k = k'
  · simp [h]
  · rw [beq_false_of_ne h, if_neg h]

theorem lookup_insertSorted {key k : String} {value : α} {entries : List (String × α)} :
    (insertSorted key value entries).lookup k
      = if k = key then some value else entries.lookup k := by
  induction entries with
  | nil => rw [insertSorted, lookup_cons_eq]
  | cons e rest ih =>
    obtain ⟨k', v⟩ := e
    rw [insertSorted]
    split
    · rw [lookup_cons_eq]
    · split
      · rename_i hlt
        rw [lookup_cons_eq, lookup_cons_eq, ih]
        by_cases hk : k = k'
        · have hne : k ≠ key := hk ▸ String.ne_of_lt hlt
          rw [if_pos hk, if_neg hne, if_pos hk]
        · rw [if_neg hk, if_neg hk]
      · rename_i hlt hgt
        obtain rfl : k' = key := String.le_antisymm hlt hgt
        rw [lookup_cons_eq, lookup_cons_eq]
        split <;> rfl

/-- **A table has the value set last for a key.** -/
theorem get?_insert {t : Table α} {key k : String} {value : α} :
    (t.insert key value).get? k = if k = key then some value else t.get? k := lookup_insertSorted

end Table

/-- Texts in increasing order, each once. -/
def sortedTexts (texts : List String) : List String :=
  (Table.ofList (texts.map fun s => (s, ()))).keys

end ApiModels
