import ApiModels.Proofs.PrintedJson

/-!
# Registry tables read back

The table of a release and the index of a registry are written to files as JSON, and each reader
gives back what was written. A reader of parts needs a level for every container it opens; the tables
open three, of many more that are allowed.
-/

namespace ApiModels

namespace Json

variable {α β σ : Type} {depth levels : Nat} {r : Reader α} {v : Json} {a : α} {d : Draft}

/-- A reader takes a value for some data, given a number of levels or more. -/
def Reads (depth : Nat) (r : Reader α) (v : Json) (a : α) : Prop :=
  ∀ levels d, depth ≤ levels → Shows v d → r levels d = .ok a

/-- What a reader takes a value for, it reads from the file of the value. -/
theorem Reads.ofText_fileText (h : Reads depth r v a) (hplain : Plain v) (hdepth : depth ≤ maxLevels) :
    Reader.ofText r v.fileText = .ok a := by
  obtain ⟨start, d, htext, hshows⟩ := Json.ofText_fileText hplain
  unfold Reader.ofText Reader.whole
  rw [htext]
  dsimp only
  rw [h _ _ hdepth hshows]

/-- Steps that all give something give it in their order. -/
theorem mapM_eq_ok {ε : Type} {f : β → Except ε α} {bs : List β} {as : List α}
    (h : List.Forall₂ (fun a b => f b = .ok a) as bs) : bs.mapM f = .ok as := by
  induction h with
  | nil => rfl
  | cons hfirst _ ih =>
    rw [List.mapM_cons, hfirst, ok_bind, ih]
    rfl

namespace Reader

theorem reads_text (s : String) : Reads 0 text (.string s) s := by
  rintro levels d - (_ | _ | _)
  rfl

theorem reads_nullable_text (s : Option String) : Reads 0 (nullable text) (.ofText? s) s := by
  intro levels d _ hshows
  cases s with
  | none =>
    cases hshows
    rfl
  | some s =>
    cases hshows
    rfl

/-- A list is read item by item. -/
theorem reads_list {f : α → Json} {as : List α} (h : ∀ a ∈ as, Reads depth r (f a) a) :
    Reads (depth + 1) (list r) (.array (as.map f)) as := by
  rintro (_ | levels) d hlevels hshows
  · cases hlevels
  cases hshows with
  | array start hitems =>
    have hread := (List.forall₂_and_left _ _).mpr ⟨h, List.forall₂_map_left_iff.mp hitems⟩
    have hvalues := mapM_eq_ok (hread.imp fun a d hd => hd.1 _ _ (Nat.le_of_succ_le_succ hlevels) hd.2)
    unfold list
    dsimp only
    rw [hvalues]
    rfl

/-- A table is read entry by entry, its keys in order. -/
theorem reads_table {f : α → Json} {t : Table α} (h : ∀ e ∈ t.entries, Reads depth r (f e.2) e.2) :
    Reads (depth + 1) (table r) (.ofTable f t) t := by
  rintro (_ | levels) d hlevels hshows
  · cases hlevels
  cases hshows with
  | object start hnames hitems =>
    have hread := (List.forall₂_and_left _ _).mpr ⟨h, List.forall₂_map_left_iff.mp hitems⟩
    have hpairs := mapM_eq_ok (f := fun p : Except Fault String × Draft => do
        let name ← p.1
        let value ← r levels p.2
        pure (name, value))
      ((List.forall₂_map_left_iff.mp hnames).mp (fun e d hname hd => ?_) hread)
    · unfold table pairs
      dsimp only
      rw [hpairs]
      exact congrArg Except.ok t.ofList_entries
    · rw [hname, ok_bind, hd.1 _ _ (Nat.le_of_succ_le_succ hlevels) hd.2]
      rfl

/-! ## Records -/

/-- What a field of a record does with a value, given a number of levels or more. -/
def Sets (depth : Nat) (field : RecordField σ) (v : Json) (s s' : σ) : Prop :=
  ∀ levels d, depth ≤ levels → Shows v d → field.read levels d s = .ok s'

/-- To read with a reader and then set what was read. -/
theorem sets_of_reads {set : α → σ → σ} {field : RecordField σ} {more : Nat}
    (h : Reads depth r v a) (hle : depth ≤ more)
    (hread : ∀ levels d s, field.read levels d s = (set · s) <$> r levels d) (s : σ) :
    Sets more field v s (set a s) := by
  intro levels d hlevels hshows
  rw [hread, h _ _ (Nat.le_trans hle hlevels) hshows]
  rfl

/-- Fields of an object fill a record one after the other, each of them known and new. -/
inductive Fills (depth : Nat) (fields : List (RecordField σ)) : List String → σ → Fields → σ → Prop
  | nil (seen : List String) (s : σ) : Fills depth fields seen s [] s
  | cons {seen : List String} {name : String} {field : RecordField σ} {v : Json} {values : Fields}
      {s s₁ s' : σ} : fields.find? (·.name = name) = some field → name ∉ seen →
      Sets depth field v s s₁ → Fills depth fields (name :: seen) s₁ values s' →
      Fills depth fields seen s ((name, v) :: values) s'

variable {fields : List (RecordField σ)} {values : Fields} {seen : List String} {s s' : σ}

/-- The record that fields fill is read from them, and all their names are met. -/
theorem Fills.objectFields (h : Fills depth fields seen s values s') (hlevels : depth ≤ levels)
    {drafts : List (Except Fault String × Draft)}
    (hnames : List.Forall₂ (fun f d => d.1 = .ok f.1) values drafts)
    (hvalues : List.Forall₂ (fun f d => Shows f.2 d.2) values drafts) :
    Reader.objectFields fields levels seen s drafts
      = .ok ((values.map Prod.fst).reverse ++ seen, s') := by
  induction h generalizing drafts with
  | nil seen s =>
    cases hnames
    rfl
  | @cons seen name field v values s s₁ s' hfind hnew hsets _ ih =>
    obtain ⟨⟨n, d⟩, drafts, rfl, hnames, rfl⟩ := List.forall₂_cons_left_iff.mp hnames
    obtain ⟨hshows, hvalues⟩ := List.forall₂_cons.mp hvalues
    have hread := ih ‹_› hvalues
    -- The field is one of the record and was not met before, so its value is read into it.
    rw [Reader.objectFields]
    simp [hfind, hnew, hsets _ _ hlevels hshows, hread]

/-- A record is read from an object whose fields fill it and lack none that is required. -/
theorem Fills.reads_record (h : Fills depth fields [] s values s')
    (hall : ∀ f ∈ fields, f.presence = .required → f.name ∈ values.map Prod.fst) :
    Reads (depth + 1) (record fields s) (.object values) s' := by
  rintro (_ | levels) d hlevels hshows
  · cases hlevels
  cases hshows with
  | object start hnames hvalues =>
    have hread := h.objectFields (Nat.le_of_succ_le_succ hlevels) hnames hvalues
    have hseen : (fields.all fun f => f.presence ≠ .required
        || ((values.map Prod.fst).reverse ++ []).contains f.name) = true := by
      rw [List.all_eq_true]
      intro f hf
      by_cases hrequired : f.presence = .required
      · simpa [hrequired] using hall f hf hrequired
      · simp [hrequired]
    unfold record objectRecord
    dsimp only
    rw [hread, ok_bind]
    dsimp only [closed]
    rw [ok_bind, if_pos hseen]

end Reader

end Json

open Json Json.Reader

namespace Json

/-! ## What tables are made of -/

theorem plain_texts (texts : List String) : Plain (.array (texts.map .string)) := by
  refine .array fun v hv => ?_
  obtain ⟨s, -, rfl⟩ := List.mem_map.mp hv
  exact .string s

theorem plain_ofText? (s : Option String) : Plain (.ofText? s) := by
  cases s with
  | none => exact .null
  | some s => exact .string s

theorem plain_ofTable {α : Type} {f : α → Json} (h : ∀ a, Plain (f a)) (t : Table α) :
    Plain (.ofTable f t) := by
  refine .object fun e he => ?_
  obtain ⟨e, -, rfl⟩ := List.mem_map.mp he
  exact h e.2

end Json

namespace ReleaseEntry

theorem plain_toJson (e : ReleaseEntry) : Plain e.toJson := by
  have hdeprecations := plain_ofTable (plain_ofTable Plain.string) e.deprecations
  refine .object ?_
  simp only [List.forall_mem_cons]
  exact ⟨.string _, .string _, .string _, plain_texts _, hdeprecations, by simp⟩

/-- The fields of a table come in the order its reader has them. -/
theorem reads_toJson (e : ReleaseEntry) : Reads 3 reader e.toJson e := by
  have hversions : Reads 1 (list text) (.array (e.versions.map .string)) e.versions :=
    reads_list fun s _ => reads_text s
  have hdeprecations : Reads 2 (table (table text)) (.ofTable (.ofTable .string) e.deprecations)
      e.deprecations := reads_table fun _ _ => reads_table fun e _ => reads_text e.2
  refine Fills.reads_record (.cons rfl ?_ (sets_of_reads (reads_text _) ?_ (fun _ _ _ => rfl) _) <|
    .cons rfl ?_ (sets_of_reads (reads_text _) ?_ (fun _ _ _ => rfl) _) <|
    .cons rfl ?_ (sets_of_reads (reads_text _) ?_ (fun _ _ _ => rfl) _) <|
    .cons rfl ?_ (sets_of_reads hversions ?_ (fun _ _ _ => rfl) _) <|
    .cons rfl ?_ (sets_of_reads hdeprecations ?_ (fun _ _ _ => rfl) _) <|
    .nil _ _) ?_
  all_goals simp [RecordField.required, RecordField.defaulted]

/-- **The table of a release is read back from its file.** -/
theorem ofText_fileText (e : ReleaseEntry) :
    Json.Reader.ofText reader e.toJson.fileText = .ok e :=
  e.reads_toJson.ofText_fileText e.plain_toJson (by decide)

end ReleaseEntry

namespace RegistryIndex

theorem plain_toJson (i : RegistryIndex) : Plain i.toJson := by
  refine .object ?_
  simp only [List.forall_mem_cons]
  exact ⟨plain_ofText? _, plain_texts _, by simp⟩

theorem reads_toJson (i : RegistryIndex) : Reads 2 reader i.toJson i := by
  have hreleases : Reads 1 (list text) (.array (i.releases.map .string)) i.releases :=
    reads_list fun s _ => reads_text s
  refine Fills.reads_record
    (.cons rfl ?_ (sets_of_reads (reads_nullable_text _) ?_ (fun _ _ _ => rfl) _) <|
    .cons rfl ?_ (sets_of_reads hreleases ?_ (fun _ _ _ => rfl) _) <| .nil _ _) ?_
  all_goals simp [RecordField.required, RecordField.optional]

/-- **The index of a registry is read back from its file.** -/
theorem ofText_fileText (i : RegistryIndex) :
    Json.Reader.ofText reader i.toJson.fileText = .ok i :=
  i.reads_toJson.ofText_fileText i.plain_toJson (by decide)

end RegistryIndex

end ApiModels
