import ApiModels.Table
import Mathlib.Data.List.Nodup
import Mathlib.Data.List.Perm.Subperm

/-!
# What sorted tables hold

A table is filled entry by entry. What counts afterwards is which keys it has, and that it has each
once.
-/

namespace ApiModels

namespace Table

variable {α : Type u}

theorem mem_keys_foldl {entries : List (String × α)} {k : String} :
    ∀ t : Table α, k ∈ (entries.foldl (fun t e => t.insert e.1 e.2) t).keys
      ↔ k ∈ t.keys ∨ k ∈ entries.map Prod.fst := by
  induction entries with
  | nil => intro t; simp
  | cons e rest ih =>
      intro t
      rw [List.foldl_cons, ih, mem_keys_insert, List.map_cons, List.mem_cons]
      tauto

theorem mem_keys_ofList {entries : List (String × α)} {k : String} :
    k ∈ (ofList entries).keys ↔ k ∈ entries.map Prod.fst := by
  rw [ofList, mem_keys_foldl]
  simp [keys, empty]

/-- The keys of a table come in strictly increasing order. -/
theorem keys_pairwise (t : Table α) : t.keys.Pairwise (· < ·) := by
  rw [keys, List.pairwise_map]
  exact t.sorted

theorem nodup_keys (t : Table α) : t.keys.Nodup :=
  t.keys_pairwise.imp fun h => String.ne_of_lt h

/-! ## Values -/

theorem isSome_get? {t : Table α} {k : String} : (t.get? k).isSome = true ↔ k ∈ t.keys := by
  rw [Option.isSome_iff_ne_none, ne_eq, get?, List.lookup_eq_none_iff, keys, List.mem_map]
  simp

theorem lookup_eq_none {entries : List (String × α)} {k : String}
    (h : k ∉ entries.map Prod.fst) : entries.lookup k = none := by
  refine List.lookup_eq_none_iff.mpr fun e he => ?_
  have hne : k ≠ e.1 := fun heq => h (heq ▸ List.mem_map.mpr ⟨e, he, rfl⟩)
  simpa using hne

theorem mem_of_lookup {entries : List (String × α)} {k : String} {v : α}
    (h : entries.lookup k = some v) : (k, v) ∈ entries := by
  obtain ⟨l₁, l₂, rfl, -⟩ := List.lookup_eq_some_iff.mp h
  simp

/-- The entries of a table are its keys with their values. -/
theorem mem_entries {t : Table α} {k : String} {v : α} :
    (k, v) ∈ t.entries ↔ t.get? k = some v := by
  constructor
  · intro h
    obtain ⟨w, hw⟩ := Option.isSome_iff_exists.mp
      (isSome_get?.mpr (List.mem_map.mpr ⟨(k, v), h, rfl⟩))
    obtain ⟨-, rfl⟩ :=
      Prod.mk.inj (List.inj_on_of_nodup_map t.nodup_keys h (mem_of_lookup hw) rfl)
    exact hw
  · exact mem_of_lookup

theorem lookup_of_mem {entries : List (String × α)} {k : String} {v : α}
    (hnodup : (entries.map Prod.fst).Nodup) (h : (k, v) ∈ entries) : entries.lookup k = some v := by
  induction entries with
  | nil => cases h
  | cons e rest ih =>
      obtain ⟨k', v'⟩ := e
      rw [List.map_cons, List.nodup_cons] at hnodup
      rw [lookup_cons_eq]
      rcases List.mem_cons.mp h with heq | h
      · cases heq
        exact if_pos rfl
      · have hne : k ≠ k' := fun heq => hnodup.1 (List.mem_map.mpr ⟨(k, v), h, heq⟩)
        rw [if_neg hne]
        exact ih hnodup.2 h

/-- Where each key is there once, the order of the entries does not matter. -/
theorem lookup_perm {entries entries' : List (String × α)}
    (hnodup : (entries.map Prod.fst).Nodup) (h : entries.Perm entries') (k : String) :
    entries'.lookup k = entries.lookup k := by
  cases hk : entries'.lookup k with
  | some v => exact (lookup_of_mem hnodup (h.mem_iff.mpr (mem_of_lookup hk))).symm
  | none =>
    refine (List.lookup_eq_none_iff.mpr fun e he => ?_).symm
    exact List.lookup_eq_none_iff.mp hk e (h.mem_iff.mp he)

/-- Entries set one after the other count before those that were there. -/
theorem get?_foldl {entries : List (String × α)} (hnodup : (entries.map Prod.fst).Nodup)
    (t : Table α) (k : String) :
    (entries.foldl (fun t e => t.insert e.1 e.2) t).get? k = (entries.lookup k).or (t.get? k) := by
  induction entries generalizing t with
  | nil => rfl
  | cons e rest ih =>
      obtain ⟨k', v⟩ := e
      obtain ⟨hnot, hrest⟩ := List.nodup_cons.mp hnodup
      rw [List.foldl_cons, ih hrest, get?_insert, lookup_cons_eq]
      by_cases hk : k = k'
      · rw [if_pos hk, if_pos hk, hk, lookup_eq_none hnot]
        rfl
      · rw [if_neg hk, if_neg hk]

/-- A list with each key once gives a table of its entries. -/
theorem get?_ofList {entries : List (String × α)} (hnodup : (entries.map Prod.fst).Nodup)
    (k : String) : (ofList entries).get? k = entries.lookup k := by
  rw [ofList, get?_foldl hnodup]
  exact Option.or_none

/-- A key after all others comes last. -/
theorem insertSorted_of_forall_lt {key : String} {value : α} {entries : List (String × α)}
    (h : ∀ e ∈ entries, e.1 < key) : insertSorted key value entries = entries ++ [(key, value)] := by
  induction entries with
  | nil => rfl
  | cons e rest ih =>
      have hfirst := h e List.mem_cons_self
      rw [insertSorted, if_neg (String.lt_asymm hfirst), if_pos hfirst,
        ih fun e' he' => h e' (List.mem_cons_of_mem e he')]
      rfl

/-- A table is that of its entries. -/
theorem ofList_entries (t : Table α) : ofList t.entries = t := by
  have hfold : ∀ (entries : List (String × α)) (u : Table α),
      (u.entries ++ entries).Pairwise (fun a b => a.1 < b.1) →
      (entries.foldl (fun t e => t.insert e.1 e.2) u).entries = u.entries ++ entries := by
    intro entries
    induction entries with
    | nil => exact fun u _ => (List.append_nil _).symm
    | cons e rest ih =>
        intro u hsorted
        have hinsert : (u.insert e.1 e.2).entries = u.entries ++ [e] :=
          insertSorted_of_forall_lt fun a ha =>
            (List.pairwise_append.mp hsorted).2.2 a ha e List.mem_cons_self
        have hassoc : u.entries ++ e :: rest = u.entries ++ [e] ++ rest := by simp
        rw [List.foldl_cons, ih _ (by rwa [hinsert, ← hassoc]), hinsert, ← hassoc]
  have hentries := hfold t.entries empty t.sorted
  obtain ⟨entries, sorted⟩ := t
  rw [Table.mk.injEq]
  exact hentries

/-- **What a table is updated with counts before what it had.** -/
theorem get?_update (t u : Table α) (k : String) : (t.update u).get? k = (u.get? k).or (t.get? k) :=
  get?_foldl u.nodup_keys t k

end Table

variable {texts : List String} {s : String}

/-- Sorting texts keeps which there are. -/
theorem mem_sortedTexts : s ∈ sortedTexts texts ↔ s ∈ texts := by
  rw [sortedTexts, Table.mem_keys_ofList, List.map_map]
  simp

theorem pairwise_sortedTexts (texts : List String) : (sortedTexts texts).Pairwise (· < ·) :=
  Table.keys_pairwise _

/-- Sorted texts come each once. -/
theorem nodup_sortedTexts : (sortedTexts texts).Nodup :=
  Table.nodup_keys _

/-- The keys of a table are known from which there are. -/
theorem Table.keys_eq_sortedTexts {t : Table α} (h : ∀ s, s ∈ t.keys ↔ s ∈ texts) :
    t.keys = sortedTexts texts := by
  have hperm : t.keys.Perm (sortedTexts texts) := by
    refine (List.perm_ext_iff_of_nodup t.nodup_keys nodup_sortedTexts).mpr fun s => ?_
    rw [mem_sortedTexts, h]
  refine List.Perm.eq_of_pairwise ?_ t.keys_pairwise (pairwise_sortedTexts _) hperm
  intro s u _ _ hsu hus
  exact absurd hus (String.lt_asymm hsu)

/-- **Sorted texts depend on no more than which texts there are.** -/
theorem sortedTexts_congr {texts' : List String} (h : ∀ s, s ∈ texts' ↔ s ∈ texts) :
    sortedTexts texts' = sortedTexts texts :=
  Table.keys_eq_sortedTexts fun s => mem_sortedTexts.trans (h s)

/-- One text is left exactly where all are that one. -/
theorem length_sortedTexts_eq_one :
    (sortedTexts texts).length = 1 ↔ texts ≠ [] ∧ ∀ s ∈ texts, ∀ t ∈ texts, s = t := by
  constructor
  · intro h
    obtain ⟨a, ha⟩ := List.length_eq_one_iff.mp h
    have hall : ∀ s ∈ texts, s = a := by
      intro s hs
      rw [← mem_sortedTexts, ha] at hs
      exact List.mem_singleton.mp hs
    refine ⟨?_, fun s hs t ht => (hall s hs).trans (hall t ht).symm⟩
    have hmem : a ∈ texts := by rw [← mem_sortedTexts, ha]; exact List.mem_singleton_self a
    exact List.ne_nil_of_mem hmem
  · rintro ⟨hne, hall⟩
    obtain ⟨a, ha⟩ := List.exists_mem_of_ne_nil texts hne
    have hrep : ∀ s ∈ sortedTexts texts, s = a :=
      fun s hs => hall s (mem_sortedTexts.mp hs) a ha
    have hsub : sortedTexts texts ⊆ [a] :=
      fun s hs => List.mem_singleton.mpr (hrep s hs)
    have hle := (List.subperm_of_subset nodup_sortedTexts hsub).length_le
    have hpos := List.length_pos_of_mem (mem_sortedTexts.mpr ha)
    simp only [List.length_singleton] at hle
    omega

end ApiModels
