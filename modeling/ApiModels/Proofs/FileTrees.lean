import ApiModels.Files.Tree
import ApiModels.Proofs.Edits
import ApiModels.Proofs.Segments
import ApiModels.Proofs.Table
import ApiModels.Workspace.Failure

/-!
# Files that stay as they are

A path leads to one place, whatever the tree is, and what is done with a path changes the files at
that place or below it and no others. So a run that names paths of one part of the tree leaves the
files of the other parts alone.
-/

namespace ApiModels.Files

/-! ## Names and places -/

/-- A name that can stand in a path. -/
structure IsName (name : String) : Prop where
  ne_empty : name ≠ ""
  notMem : '/' ∉ name.toList

/-- The names that stand in a path. -/
def partsOf (path : String) : List String :=
  (Text.split '/' path).filter fun name => !name.isEmpty

theorem isName_of_mem_partsOf {path name : String} (h : name ∈ partsOf path) : IsName name := by
  obtain ⟨hsplit, hne⟩ := List.mem_filter.mp h
  obtain ⟨piece, hpiece, rfl⟩ := List.mem_map.mp hsplit
  refine ⟨by simpa using hne, ?_⟩
  rw [String.toList_ofList]
  exact Text.notMem_of_mem_pieces hpiece

theorem partsOf_append (dir path : String) :
    partsOf (dir ++ "/" ++ path) = partsOf dir ++ partsOf path := by
  have hslash : (dir ++ "/" ++ path).toList = dir.toList ++ '/' :: path.toList := by
    simp [String.toList_append]
  unfold partsOf Text.split
  rw [hslash, Text.pieces_append, List.map_append, List.filter_append]

theorem partsOf_joinPath (dir : String) {path : String} (h : isAbsolute path = false) :
    partsOf (joinPath dir path) = partsOf dir ++ partsOf path := by
  unfold joinPath
  rw [h, Bool.false_or]
  split
  · rename_i hdir
    rw [String.isEmpty_iff.mp hdir]
    rfl
  · split
    · rename_i hlast
      obtain ⟨cs, hcs⟩ := List.getLast?_eq_some_iff.mp hlast
      have hdir : dir = String.ofList cs ++ "/" := by
        rw [← String.toList_inj, hcs, String.toList_append, String.toList_ofList]
        rfl
      have hend := partsOf_append (String.ofList cs) ""
      rw [String.append_empty, ← hdir] at hend
      rw [hend, hdir, partsOf_append]
      exact congrArg (· ++ partsOf path) (List.append_nil _).symm
    · exact partsOf_append dir path

namespace FileTree

/-- Where a name leads from a place. -/
def enter (p : Place) (name : String) : Place :=
  if name = "." then p else if name = ".." then p.dropLast else p ++ [name]

/-- The place that a path names in every tree in which it names one. -/
def placeOf (path : String) : Place := (partsOf path).foldl enter []

theorem follow_eq_ok {t : FileTree} {p q : Place} {names : List String}
    (h : t.follow p names = .ok q) : q = names.foldl enter p := by
  induction names generalizing p with
  | nil =>
    cases h
    rfl
  | cons name names ih =>
    unfold follow at h
    split at h
    · exact ih h
    · split at h
      · cases h
      · cases h

theorem place_eq_ok {t : FileTree} {path : String} {p : Place} (h : t.place path = .ok p) :
    p = placeOf path := by
  unfold place at h
  split at h
  · cases h
  · obtain ⟨q, hq, h⟩ := bind_eq_ok h
    split at h
    · cases h
    · cases h
      exact follow_eq_ok hq

/-- A place below one that a path names. -/
theorem placeOf_joinPath (dir : String) {path : String} (h : isAbsolute path = false)
    (hplain : ∀ name ∈ partsOf path, name ≠ "." ∧ name ≠ "..") :
    placeOf (joinPath dir path) = placeOf dir ++ partsOf path := by
  have henter : ∀ (names : List String) (p : Place), (∀ name ∈ names, name ≠ "." ∧ name ≠ "..") →
      names.foldl enter p = p ++ names := by
    intro names
    induction names with
    | nil => exact fun p _ => (List.append_nil p).symm
    | cons name names ih =>
      intro p hnames
      obtain ⟨hdot, hdots⟩ := hnames name List.mem_cons_self
      rw [List.foldl_cons, ih _ fun n hn => hnames n (List.mem_cons_of_mem _ hn), enter,
        if_neg hdot, if_neg hdots, List.append_assoc]
      rfl
  unfold placeOf
  rw [partsOf_joinPath dir h, List.foldl_append, henter _ _ hplain]

/-- A place that has names, which can stand in a path. The root has none. -/
structure IsBelowRoot (p : Place) : Prop where
  ne_nil : p ≠ []
  names : ∀ name ∈ p, IsName name

theorem isBelowRoot_placeOf {path : String} (h : placeOf path ≠ []) :
    IsBelowRoot (placeOf path) := by
  have hfold : ∀ (names : List String) (p : Place), (∀ n ∈ names, IsName n) →
      (∀ n ∈ p, IsName n) → ∀ n ∈ names.foldl enter p, IsName n := by
    intro names
    induction names with
    | nil => exact fun p _ hp => hp
    | cons first names ih =>
      intro p hnames hp
      refine ih _ (fun n hn => hnames n (List.mem_cons_of_mem _ hn)) fun n hn => ?_
      unfold enter at hn
      split at hn
      · exact hp n hn
      · split at hn
        · exact hp n (List.dropLast_subset p hn)
        · rcases List.mem_append.mp hn with hn | hn
          · exact hp n hn
          · rw [List.mem_singleton.mp hn]
            exact hnames first List.mem_cons_self
  exact ⟨h, hfold _ [] (fun n hn => isName_of_mem_partsOf hn) (by simp)⟩

/-! ## Keys -/

variable {p q : Place}

theorem split_key (hp : IsBelowRoot p) : Text.split '/' (key p) = p :=
  Text.split_intercalate rfl (fun name hname => (hp.names name hname).notMem) hp.ne_nil

/-- A key is that of one place. -/
theorem key_inj (hp : IsBelowRoot p) (hq : IsBelowRoot q) (h : key p = key q) : p = q := by
  rw [← split_key hp, h, split_key hq]

/-- What is under a place by its key is below it. -/
theorem prefix_of_isUnder (hp : IsBelowRoot p) (hq : IsBelowRoot q)
    (h : isUnder p (key q) = true) : p <+: q := by
  unfold isUnder at h
  rw [Bool.or_eq_true, beq_iff_eq] at h
  rcases h with h | h
  · obtain rfl := key_inj hq hp h
    exact List.prefix_rfl
  · cases hafter : Text.dropStart? (key p ++ "/") (key q) with
    | none =>
      rw [hafter] at h
      cases h
    | some rest =>
      have hkey : (key q).toList = (key p).toList ++ '/' :: rest.toList := by
        rw [Text.dropStart?_eq_some hafter]
        simp [String.toList_append]
      refine ⟨Text.split '/' rest, ?_⟩
      rw [← split_key hq, ← split_key hp]
      unfold Text.split
      rw [hkey, Text.pieces_append, List.map_append]

theorem partsOf_key (hp : IsBelowRoot p) : partsOf (key p) = p := by
  unfold partsOf
  rw [split_key hp, List.filter_eq_self]
  intro name hname
  simpa using (hp.names name hname).ne_empty

/-- A key does not begin with a slash, since its first name is not empty. -/
theorem isAbsolute_key (hp : IsBelowRoot p) : isAbsolute (key p) = false := by
  unfold isAbsolute
  rw [beq_eq_false_iff_ne]
  intro hhead
  obtain ⟨rest, hrest⟩ := List.head?_eq_some_iff.mp hhead
  have hempty : "" ∈ p := by
    rw [← split_key hp]
    unfold Text.split
    rw [hrest]
    exact List.mem_cons_self
  exact (hp.names "" hempty).ne_empty rfl

/-- The path of a place below a directory leads there, unless it leads up again. -/
theorem placeOf_joinPath_key (dir : String) (hp : IsBelowRoot p)
    (hplain : ∀ name ∈ p, name ≠ "." ∧ name ≠ "..") :
    placeOf (joinPath dir (key p)) = placeOf dir ++ p := by
  rw [placeOf_joinPath dir (isAbsolute_key hp) (by rwa [partsOf_key hp]), partsOf_key hp]

/-! ## Changes -/

/-- The text of the file at a place. -/
def fileAt (t : FileTree) (p : Place) : Option String := t.files.get? (key p)

theorem get?_without {α : Type} (t : Table α) (drop : String → Bool) (k : String) :
    (without t drop).get? k = if drop k then none else t.get? k := by
  unfold without Table.get?
  dsimp only
  induction t.entries with
  | nil => simp
  | cons e entries ih =>
    obtain ⟨k', v⟩ := e
    rw [List.filter_cons, Table.lookup_cons_eq]
    by_cases hdrop : drop k' = true
    · rw [hdrop, Bool.not_true, if_neg Bool.false_ne_true, ih]
      by_cases hk : k = k'
      · rw [hk, if_pos hdrop, if_pos hdrop]
      · rw [if_neg hk]
    · rw [Bool.not_eq_true] at hdrop
      rw [hdrop, Bool.not_false, if_pos rfl, Table.lookup_cons_eq, ih]
      by_cases hk : k = k'
      · rw [if_pos hk, if_pos hk, hk, hdrop, if_neg Bool.false_ne_true]
      · rw [if_neg hk, if_neg hk]

variable {t t' : FileTree} {path : String}

theorem write_eq_ok {text : String} (h : t.write path text = .ok t') :
    t'.files = t.files.insert (key (placeOf path)) text := by
  unfold write at h
  obtain ⟨p, hp, h⟩ := bind_eq_ok h
  split at h
  · cases h
  · cases h
    rw [place_eq_ok hp]

theorem removeDirectory_eq_ok (h : t.removeDirectory path = .ok t') :
    t'.files = without t.files (isUnder (placeOf path)) := by
  unfold removeDirectory at h
  obtain ⟨p, hp, h⟩ := bind_eq_ok h
  dsimp only at h
  split at h
  · cases h
  · split at h
    · cases h
    · cases h
      rw [place_eq_ok hp]

theorem removeFile_eq_ok (h : t.removeFile path = .ok t') :
    t'.files = without t.files (· == key (placeOf path)) := by
  unfold removeFile at h
  obtain ⟨p, hp, h⟩ := bind_eq_ok h
  dsimp only at h
  split at h
  · cases h
  · split at h
    · cases h
    · cases h
      rw [place_eq_ok hp]

/-- What is written is not at the root, which is a directory. -/
theorem placeOf_ne_nil_of_write {text : String} (h : t.write path text = .ok t') :
    placeOf path ≠ [] := by
  unfold write at h
  obtain ⟨p, hp, h⟩ := bind_eq_ok h
  obtain rfl := place_eq_ok hp
  split at h
  · cases h
  · rename_i hfree
    intro hnil
    rw [hnil] at hfree
    exact hfree rfl

theorem fileAt_write {text : String} (h : t.write path text = .ok t') (hq : IsBelowRoot q)
    (hne : q ≠ placeOf path) : fileAt t' q = fileAt t q := by
  have hpath := isBelowRoot_placeOf (placeOf_ne_nil_of_write h)
  rw [fileAt, write_eq_ok h, Table.get?_insert, if_neg fun hkey => hne (key_inj hq hpath hkey)]
  rfl

theorem fileAt_removeDirectory (h : t.removeDirectory path = .ok t') (hq : IsBelowRoot q)
    (hpath : placeOf path ≠ []) (hne : ¬ placeOf path <+: q) : fileAt t' q = fileAt t q := by
  have hunder : ¬ isUnder (placeOf path) (key q) = true := fun hunder =>
    hne (prefix_of_isUnder (isBelowRoot_placeOf hpath) hq hunder)
  rw [fileAt, removeDirectory_eq_ok h, get?_without, if_neg hunder]
  rfl

theorem fileAt_removeFile (h : t.removeFile path = .ok t') (hq : IsBelowRoot q)
    (hpath : placeOf path ≠ []) (hne : q ≠ placeOf path) : fileAt t' q = fileAt t q := by
  have hkey : ¬ (key q == key (placeOf path)) = true := fun hkey =>
    hne (key_inj hq (isBelowRoot_placeOf hpath) (beq_iff_eq.mp hkey))
  rw [fileAt, removeFile_eq_ok h, get?_without, if_neg hkey]
  rfl

theorem ensureDirectory_eq_ok (h : t.ensureDirectory path = .ok t') : t'.files = t.files := by
  unfold ensureDirectory at h
  split at h
  · rename_i made hmade
    cases h
    unfold makeDirectory at hmade
    obtain ⟨p, -, hmade⟩ := bind_eq_ok hmade
    split at hmade
    · cases hmade
    · cases hmade
      rfl
  · split at h
    · cases h
      rfl
    · cases h

/-- Making directories leaves all files. -/
theorem makeDirectories_eq_ok (h : t.makeDirectories path = .ok t') : t'.files = t.files := by
  have hgo : ∀ (n : Nat) {t t' : FileTree} {path : String},
      makeDirectories.go n t path = .ok t' → t'.files = t.files := by
    intro n
    induction n with
    | zero =>
      intro t t' path h
      unfold makeDirectories.go at h
      split at h
      · cases h
        rfl
      · exact ensureDirectory_eq_ok h
    | succ n ih =>
      intro t t' path h
      unfold makeDirectories.go at h
      split at h
      · cases h
        rfl
      · split at h
        · obtain ⟨above, habove, h⟩ := bind_eq_ok h
          rw [ensureDirectory_eq_ok h, ih habove]
        · exact ensureDirectory_eq_ok h
  exact hgo path.length h

end FileTree

end ApiModels.Files

namespace ApiModels.Workspace

open Files FileTree

/-! ## Runs -/

variable {α β : Type} {q : Place}

theorem run_bind {ε : Type} (run : ExceptT ε (StateM FileTree) α)
    (f : α → ExceptT ε (StateM FileTree) β) (t : FileTree) :
    (run >>= f).run t = match run.run t with
      | (.ok a, t') => (f a).run t'
      | (.error e, t') => (.error e, t') := by
  simp only [ExceptT.run, Bind.bind, ExceptT.bind, ExceptT.mk, StateT.bind]
  rcases run t with ⟨_ | _, _⟩ <;> rfl

/-- A run of two parts that ended well was one of each. -/
theorem run_bind_eq_ok {run : Run (StateM FileTree) α} {f : α → Run (StateM FileTree) β}
    {t t' : FileTree} {b : β} (h : (run >>= f).run t = (.ok b, t')) :
    ∃ a t₁, run.run t = (.ok a, t₁) ∧ (f a).run t₁ = (.ok b, t') := by
  rw [run_bind] at h
  rcases hrun : run.run t with ⟨_ | a, t₁⟩
  · rw [hrun] at h
    cases h
  · rw [hrun] at h
    exact ⟨a, t₁, rfl, h⟩

/-- A change to a file is made or reported. -/
theorem run_commit (path : String) (f : FileTree → Outcome FileTree) (t : FileTree) :
    (onFile path (fun t => t.commit (f t)) : Run (StateM FileTree) Unit).run t = match f t with
      | .ok t' => (.ok (), t')
      | .error e => (.error (.file path e), t) := by
  unfold onFile
  rw [run_bind]
  have hlift : (ExceptT.lift (fun t => t.commit (f t)) :
      Run (StateM FileTree) (Outcome Unit)).run t = (.ok (t.commit (f t)).1, (t.commit (f t)).2) := rfl
  rw [hlift]
  unfold commit
  cases f t with
  | ok t' => rfl
  | error e => rfl

/-- A run keeps a property of the tree, however it ends. -/
def Keeps (P : FileTree → Prop) (run : Run (StateM FileTree) α) : Prop :=
  ∀ t, P t → P (run.run t).2

namespace Keeps

variable {P : FileTree → Prop}

/-- What a run keeps is so in the tree it ends in. -/
theorem after {run : Run (StateM FileTree) α} (h : Keeps P run) {t t' : FileTree}
    {r : Except Failure α} (hrun : run.run t = (r, t')) (ht : P t) : P t' := by
  have hkept := h t ht
  rwa [hrun] at hkept

theorem pure (a : α) : Keeps P (Pure.pure a : Run (StateM FileTree) α) := fun _ => id

theorem bind {run : Run (StateM FileTree) α} {f : α → Run (StateM FileTree) β}
    (h : Keeps P run) (hf : ∀ a, Keeps P (f a)) : Keeps P (run >>= f) := by
  intro t ht
  have hrun := h t ht
  rw [run_bind]
  revert hrun
  rcases run.run t with ⟨_ | a, t'⟩
  · exact id
  · exact hf a t'

theorem ite {c : Prop} [Decidable c] {run run' : Run (StateM FileTree) α}
    (h : Keeps P run) (h' : Keeps P run') : Keeps P (if c then run else run') := by
  split
  · exact h
  · exact h'

/-- To look something up changes nothing. -/
theorem query (f : FileTree → α) :
    Keeps P (ExceptT.lift (fun t => (f t, t)) : Run (StateM FileTree) α) := fun _ => id

/-- A change keeps what it does where it is made. -/
theorem change {f : FileTree → Outcome FileTree} (path : String)
    (h : ∀ t t', f t = .ok t' → P t → P t') :
    Keeps P (onFile path (fun t => t.commit (f t)) : Run (StateM FileTree) Unit) := by
  intro t ht
  rw [run_commit]
  cases hf : f t with
  | ok t' => exact h t t' hf ht
  | error e => exact ht

/-- What each step keeps, a run of them keeps. -/
theorem forM {f : α → Run (StateM FileTree) Unit} {l : List α}
    (h : ∀ a ∈ l, Keeps P (f a)) : Keeps P (l.forM f) := by
  induction l with
  | nil => exact .pure ()
  | cons a l ih =>
    exact (h a List.mem_cons_self).bind fun _ => ih fun b hb => h b (List.mem_cons_of_mem a hb)

end Keeps

/-- A run leaves the file at a place as it is, whatever tree it starts in and however it ends. -/
def Leaves (q : Place) (run : Run (StateM FileTree) α) : Prop :=
  ∀ t, fileAt (run.run t).2 q = fileAt t q

/-- To leave a file is to keep whatever there is of it. -/
theorem leaves_iff {run : Run (StateM FileTree) α} :
    Leaves q run ↔ ∀ x, Keeps (fun t => fileAt t q = x) run :=
  ⟨fun h _ t hx => (h t).trans hx, fun h t => h (fileAt t q) t rfl⟩

theorem Leaves.pure (a : α) : Leaves q (Pure.pure a : Run (StateM FileTree) α) := fun _ => rfl

theorem Leaves.bind {run : Run (StateM FileTree) α} {f : α → Run (StateM FileTree) β}
    (h : Leaves q run) (hf : ∀ a, Leaves q (f a)) : Leaves q (run >>= f) :=
  leaves_iff.mpr fun x => (leaves_iff.mp h x).bind fun a => leaves_iff.mp (hf a) x

theorem Leaves.ite {c : Prop} [Decidable c] {run run' : Run (StateM FileTree) α}
    (h : Leaves q run) (h' : Leaves q run') : Leaves q (if c then run else run') :=
  leaves_iff.mpr fun x => (leaves_iff.mp h x).ite (leaves_iff.mp h' x)

theorem Leaves.query (f : FileTree → α) :
    Leaves q (ExceptT.lift (fun t => (f t, t)) : Run (StateM FileTree) α) := fun _ => rfl

/-- A change to a file leaves another one if it does where it is made. -/
theorem Leaves.change {f : FileTree → Outcome FileTree} (path : String)
    (h : ∀ t t', f t = .ok t' → fileAt t' q = fileAt t q) :
    Leaves q (onFile path (fun t => t.commit (f t)) : Run (StateM FileTree) Unit) :=
  leaves_iff.mpr fun _ => .change path fun t t' ht hx => (h t t' ht).trans hx

theorem Leaves.forM {f : α → Run (StateM FileTree) Unit} {l : List α}
    (h : ∀ a ∈ l, Leaves q (f a)) : Leaves q (l.forM f) :=
  leaves_iff.mpr fun x => .forM fun a ha => leaves_iff.mp (h a ha) x

/-- After a run that ended well, what each step brought about is there, if no later one undid it. -/
theorem forM_run_eq_ok {P : α → FileTree → Prop} {f : α → Run (StateM FileTree) Unit} {l : List α}
    (hstep : ∀ a ∈ l, ∀ t t', (f a).run t = (.ok (), t') → P a t')
    (hkeep : l.Pairwise fun a b => Keeps (P a) (f b)) {t t' : FileTree}
    (h : (l.forM f).run t = (.ok (), t')) : ∀ a ∈ l, P a t' := by
  induction l generalizing t with
  | nil => simp
  | cons a l ih =>
    obtain ⟨hfirst, hlater⟩ := List.pairwise_cons.mp hkeep
    obtain ⟨_, t₁, hrun, hmore⟩ := run_bind_eq_ok (f := fun _ => l.forM f) h
    -- The later steps end in the tree in which the whole run ends.
    have ha : P a t' := (Keeps.forM hfirst).after hmore (hstep a List.mem_cons_self t t₁ hrun)
    have hrest := ih (fun b hb => hstep b (List.mem_cons_of_mem a hb)) hlater hmore
    intro b hb
    rcases List.mem_cons.mp hb with rfl | hb
    · exact ha
    · exact hrest b hb

/-! ## Changes by their paths -/

variable {path : String}

theorem leaves_makeDirectories (path : String) :
    Leaves q (makeDirectories path : Run (StateM FileTree) Unit) :=
  .change path fun _ _ h => by rw [fileAt, makeDirectories_eq_ok h]; rfl

theorem leaves_writeText (text : String) (hq : IsBelowRoot q) (h : q ≠ placeOf path) :
    Leaves q (writeText path text : Run (StateM FileTree) Unit) :=
  .change path fun _ _ ht => fileAt_write ht hq h

theorem leaves_removeDirectory (hq : IsBelowRoot q) (hpath : placeOf path ≠ [])
    (h : ¬ placeOf path <+: q) :
    Leaves q (onFile path (Disk.removeDirectory path) : Run (StateM FileTree) Unit) :=
  .change path fun _ _ ht => fileAt_removeDirectory ht hq hpath h

theorem leaves_removeFile (hq : IsBelowRoot q) (hpath : placeOf path ≠ [])
    (h : q ≠ placeOf path) :
    Leaves q (onFile path (Disk.removeFile path) : Run (StateM FileTree) Unit) :=
  .change path fun _ _ ht => fileAt_removeFile ht hq hpath h

/-- A text that was written is there. -/
theorem writeText_run_eq_ok {text : String} {t t' : FileTree}
    (h : (writeText path text : Run (StateM FileTree) Unit).run t = (.ok (), t')) :
    fileAt t' (placeOf path) = some text := by
  have hrun : (writeText path text : Run (StateM FileTree) Unit).run t
      = match t.write path text with
        | .ok t' => (.ok (), t')
        | .error e => (.error (.file path e), t) := run_commit path (fun t => t.write path text) t
  rw [hrun] at h
  cases hwrite : t.write path text with
  | error e =>
    rw [hwrite] at h
    cases h
  | ok t'' =>
    rw [hwrite] at h
    cases h
    rw [fileAt, write_eq_ok hwrite, Table.get?_insert, if_pos rfl]

end ApiModels.Workspace
