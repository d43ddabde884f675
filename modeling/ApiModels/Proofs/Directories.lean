import ApiModels.Proofs.FileTrees

/-!
# Directories and what they hold

To make a directory makes those that lead to it, and no others; a directory goes only where it or one
above it is removed. What a directory lists are the names of the files and directories directly in
it, and each of these can be found by its path.
-/

namespace ApiModels.Files

/-! ## The directory that holds something -/

/-- `partsOf` on characters. -/
def partsOfChars (cs : List Char) : List String :=
  ((Text.pieces '/' cs).map String.ofList).filter fun name => !name.isEmpty

theorem partsOf_ofList (cs : List Char) : partsOf (String.ofList cs) = partsOfChars cs := by
  unfold partsOf Text.split
  rw [String.toList_ofList]
  rfl

theorem partsOfChars_append (cs ds : List Char) :
    partsOfChars (cs ++ '/' :: ds) = partsOfChars cs ++ partsOfChars ds := by
  unfold partsOfChars
  rw [Text.pieces_append, List.map_append, List.filter_append]

/-- What says nothing at the end of a path leads nowhere else than what is before it. -/
theorem prefix_trimmed (cs : List Char) :
    partsOfChars (trimmed cs).reverse <+: partsOfChars cs.reverse := by
  induction cs using trimmed.induct with
  | case1 cs ih =>
    rw [trimmed, List.reverse_cons, partsOfChars_append]
    exact ih.trans (List.prefix_append _ _)
  | case2 cs ih =>
    -- The dot goes and the slash before it stays, to be passed in the next step.
    have hdot : ('.' :: '/' :: cs).reverse = cs.reverse ++ '/' :: ['.'] := by simp
    have hslash : ('/' :: cs).reverse = cs.reverse ++ '/' :: [] := by simp
    rw [hslash, partsOfChars_append] at ih
    rw [trimmed, hdot, partsOfChars_append]
    exact ih.trans (by simp [partsOfChars, Text.pieces])
  | case3 cs hslash hdot =>
    have hstop : trimmed cs = cs := trimmed.eq_3 cs hslash hdot
    simp only [hstop, List.prefix_rfl]

/-- What stands before the last slash of a path leads along it. -/
theorem prefix_dropWhile (cs : List Char) :
    partsOfChars (cs.dropWhile (· ≠ '/')).reverse <+: partsOfChars cs.reverse := by
  have hsplit := List.takeWhile_append_dropWhile (p := (· ≠ '/')) (l := cs)
  have hhead := List.head?_dropWhile_not (· ≠ '/') cs
  rcases hdir : cs.dropWhile (· ≠ '/') with _ | ⟨c, rest⟩
  · simp [partsOfChars, Text.pieces]
  · rw [hdir] at hsplit hhead
    obtain rfl : c = '/' := by simpa using hhead
    rw [← hsplit, List.reverse_append, List.reverse_cons, List.append_assoc, List.singleton_append,
      partsOfChars_append, partsOfChars_append]
    exact (List.prefix_append_right_inj _).mpr (by simp [partsOfChars, Text.pieces])

/-- The path of the directory that holds something is the beginning of its path. -/
theorem prefix_of_parent? {path dir : String} (h : parent? path = some dir) :
    partsOf dir <+: partsOf path := by
  have hpath : partsOf path = partsOfChars path.toList.reverse.reverse := by
    rw [List.reverse_reverse]
    rfl
  have hnamed := (prefix_trimmed _).trans
    ((prefix_dropWhile (trimmed path.toList.reverse)).trans (prefix_trimmed path.toList.reverse))
  rw [← hpath] at hnamed
  unfold parent? at h
  split at h
  · cases h
  · dsimp only at h
    split at h
    · cases h
      exact List.nil_prefix
    · split at h
      · cases h
        exact List.nil_prefix
      · cases h
        rwa [partsOf_ofList]

namespace FileTree

variable {p q : Place} {t t' : FileTree} {path : String}

/-! ## Directories that are made -/

/-- Whether a place other than the root is a directory. -/
def directoryAt (t : FileTree) (p : Place) : Bool := t.directories.contains (key p)

/-- The names of a path, or the first few of them, lead to a place. -/
def LeadsThrough (path : String) (p : Place) : Prop :=
  ∃ names, names <+: partsOf path ∧ names.foldl enter [] = p

theorem leadsThrough_placeOf (path : String) : LeadsThrough path (placeOf path) :=
  ⟨partsOf path, List.prefix_rfl, rfl⟩

/-- A path leads no deeper than it has names. -/
theorem LeadsThrough.length_le (h : LeadsThrough path p) : p.length ≤ (partsOf path).length := by
  have hfold : ∀ (names : List String) (p : Place),
      (names.foldl enter p).length ≤ p.length + names.length := by
    intro names
    induction names with
    | nil => exact fun p => Nat.le_refl _
    | cons name names ih =>
      intro p
      have hstep : (enter p name).length ≤ p.length + 1 := by
        unfold enter
        split
        · omega
        · split
          · rw [List.length_dropLast]
            omega
          · rw [List.length_append, List.length_singleton]
      have hrest := ih (enter p name)
      rw [List.foldl_cons, List.length_cons]
      omega
  obtain ⟨names, hnames, rfl⟩ := h
  have hlength := hfold names []
  have hle := hnames.length_le
  rw [List.length_nil] at hlength
  omega

theorem LeadsThrough.lengthen {dir : String} (h : LeadsThrough dir p)
    (hdir : partsOf dir <+: partsOf path) : LeadsThrough path p := by
  obtain ⟨names, hnames, hp⟩ := h
  exact ⟨names, hnames.trans hdir, hp⟩

/-- What may become of the directories of a tree: more of them, at places that a path leads to. -/
structure GrowsAlong (path : String) (t t' : FileTree) : Prop where
  keeps : ∀ p, t.hasDirectory p = true → t'.hasDirectory p = true
  along : ∀ p, IsBelowRoot p → ¬ LeadsThrough path p → t'.directoryAt p = t.directoryAt p

theorem GrowsAlong.refl (path : String) (t : FileTree) : GrowsAlong path t t :=
  ⟨fun _ h => h, fun _ _ _ => rfl⟩

theorem GrowsAlong.trans {t'' : FileTree} (h : GrowsAlong path t t') (h' : GrowsAlong path t' t'') :
    GrowsAlong path t t'' :=
  ⟨fun p hp => h'.keeps p (h.keeps p hp), fun p hp hnot => (h'.along p hp hnot).trans
    (h.along p hp hnot)⟩

theorem GrowsAlong.lengthen {dir : String} (h : GrowsAlong dir t t')
    (hdir : partsOf dir <+: partsOf path) : GrowsAlong path t t' :=
  ⟨h.keeps, fun p hp hnot => h.along p hp fun hleads => hnot (hleads.lengthen hdir)⟩

theorem contains_insert {α : Type} {table : Table α} {k k' : String} {a : α} :
    (table.insert k a).contains k' = (decide (k' = k) || table.contains k') := by
  unfold Table.contains
  rw [Table.get?_insert]
  by_cases h : k' = k <;> simp [h]

theorem makeDirectory_growsAlong (h : t.makeDirectory path = .ok t') : GrowsAlong path t t' := by
  unfold makeDirectory at h
  obtain ⟨p, hp, h⟩ := bind_eq_ok h
  obtain rfl := place_eq_ok hp
  split at h
  · cases h
  · rename_i hfree
    cases h
    have hne : placeOf path ≠ [] := by
      intro hnil
      rw [hnil] at hfree
      exact hfree rfl
    refine ⟨fun q hq => ?_, fun q hq hnot => ?_⟩
    · unfold hasDirectory at hq ⊢
      rw [contains_insert]
      rcases Bool.or_eq_true_iff.mp hq with hq | hq <;> simp [hq]
    · -- Names below the root have no slash, so no other place has the same key.
      unfold directoryAt
      rw [contains_insert, decide_eq_false, Bool.false_or]
      intro hkey
      obtain rfl := key_inj hq (isBelowRoot_placeOf hne) hkey
      exact hnot (leadsThrough_placeOf path)

theorem ensureDirectory_growsAlong (h : t.ensureDirectory path = .ok t') : GrowsAlong path t t' := by
  unfold ensureDirectory at h
  split at h
  · rename_i made hmade
    cases h
    exact makeDirectory_growsAlong hmade
  · split at h
    · cases h
      exact .refl path t
    · cases h

/-- Directories are made where a path leads, by induction on the steps up from its end. -/
theorem makeDirectories_growsAlong (h : t.makeDirectories path = .ok t') : GrowsAlong path t t' := by
  have hgo : ∀ (n : Nat) {t t' : FileTree} {path : String},
      makeDirectories.go n t path = .ok t' → GrowsAlong path t t' := by
    intro n
    induction n with
    | zero =>
      intro t t' path h
      unfold makeDirectories.go at h
      split at h
      · cases h
        exact .refl path t
      · exact ensureDirectory_growsAlong h
    | succ n ih =>
      intro t t' path h
      unfold makeDirectories.go at h
      split at h
      · cases h
        exact .refl path t
      · split at h
        · rename_i dir hnone hdir
          obtain ⟨above, habove, h⟩ := bind_eq_ok h
          have hmade := (ih habove).lengthen (prefix_of_parent? hdir)
          exact hmade.trans (ensureDirectory_growsAlong h)
        · exact ensureDirectory_growsAlong h
  exact hgo path.length h

theorem write_directories {text : String} (h : t.write path text = .ok t') :
    t'.directories = t.directories := by
  unfold write at h
  obtain ⟨p, -, h⟩ := bind_eq_ok h
  split at h
  · cases h
  · cases h
    rfl

theorem removeFile_directories (h : t.removeFile path = .ok t') :
    t'.directories = t.directories := by
  unfold removeFile at h
  obtain ⟨p, -, h⟩ := bind_eq_ok h
  dsimp only at h
  split at h
  · cases h
  · split at h
    · cases h
    · cases h
      rfl

/-- To remove a directory makes none. -/
theorem removeDirectory_directoryAt (h : t.removeDirectory path = .ok t')
    (hp : t.directoryAt p = false) : t'.directoryAt p = false := by
  unfold removeDirectory at h
  obtain ⟨q, -, h⟩ := bind_eq_ok h
  dsimp only at h
  split at h
  · cases h
  · split at h
    · cases h
    · cases h
      unfold directoryAt Table.contains at hp ⊢
      dsimp only
      rw [get?_without]
      split
      · rfl
      · exact hp

/-! ## What a directory lists -/

/-- A name under which something can lie in a directory. -/
structure IsEntry (name : String) : Prop extends IsName name where
  ne_dot : name ≠ "."
  ne_dots : name ≠ ".."

variable {dir name : String} {names more : List String}

theorem follow_append :
    t.follow p (names ++ more) = t.follow p names >>= fun q => t.follow q more := by
  induction names generalizing p with
  | nil => rfl
  | cons first names ih =>
    rw [List.cons_append, follow, follow]
    split
    · exact ih
    · split <;> rfl

theorem follow_keeps (h : ∀ p, t.hasDirectory p = true → t'.hasDirectory p = true)
    (hfollow : t.follow p names = .ok q) : t'.follow p names = .ok q := by
  induction names generalizing p with
  | nil => exact hfollow
  | cons first names ih =>
    rw [follow] at hfollow ⊢
    split at hfollow
    · rename_i hp
      rw [if_pos (h p hp)]
      exact ih hfollow
    · split at hfollow <;> cases hfollow

/-- A path that does not end in a slash keeps its place where directories are only added. -/
theorem place_keeps (h : ∀ p, t.hasDirectory p = true → t'.hasDirectory p = true)
    (hname : namesDirectory path = false) (hplace : t.place path = .ok p) :
    t'.place path = .ok p := by
  unfold place at hplace ⊢
  split at hplace
  · cases hplace
  · rename_i hnamed
    obtain ⟨q, hfollow, hplace⟩ := bind_eq_ok hplace
    rw [if_neg hnamed, follow_keeps h hfollow]
    rw [hname] at hplace ⊢
    exact hplace

theorem IsEntry.partsOf_eq (h : IsEntry name) : partsOf name = [name] := by
  have hone : IsBelowRoot [name] := ⟨List.cons_ne_nil _ _, by simpa using h.toIsName⟩
  exact partsOf_key hone

theorem IsEntry.isAbsolute_eq (h : IsEntry name) : isAbsolute name = false := by
  have hone : IsBelowRoot [name] := ⟨List.cons_ne_nil _ _, by simpa using h.toIsName⟩
  exact isAbsolute_key hone

theorem IsEntry.enter_eq (h : IsEntry name) (p : Place) : enter p name = p ++ [name] := by
  rw [enter, if_neg h.ne_dot, if_neg h.ne_dots]

theorem IsEntry.placeOf_joinPath (h : IsEntry name) (dir : String) :
    placeOf (joinPath dir name) = placeOf dir ++ [name] := by
  rw [FileTree.placeOf_joinPath dir h.isAbsolute_eq, h.partsOf_eq]
  rw [h.partsOf_eq]
  simpa using ⟨h.ne_dot, h.ne_dots⟩

/-- The path of an entry ends with its name, so with no slash. -/
theorem IsEntry.namesDirectory_joinPath (h : IsEntry name) (dir : String) :
    namesDirectory (joinPath dir name) = false := by
  have hends : ∃ before, joinPath dir name = before ++ name := by
    unfold joinPath
    split
    · exact ⟨"", (String.empty_append).symm⟩
    · split
      · exact ⟨dir, rfl⟩
      · exact ⟨dir ++ "/", rfl⟩
  obtain ⟨before, heq⟩ := hends
  have hne : name.toList ≠ [] := fun hnil => h.ne_empty (String.toList_eq_nil_iff.mp hnil)
  unfold namesDirectory
  rw [heq, String.toList_append, List.getLast?_append_of_ne_nil _ hne, decide_eq_false_iff_not]
  exact fun hlast => h.notMem (List.mem_of_getLast? hlast)

/-- The path of an entry begins as that of its directory does. -/
theorem IsEntry.named_joinPath (h : IsEntry name)
    (hdir : ¬ (dir.isEmpty || isAbsolute dir) = true) :
    ¬ ((joinPath dir name).isEmpty || isAbsolute (joinPath dir name)) = true := by
  rw [Bool.or_eq_true, not_or, Bool.not_eq_true] at hdir ⊢
  obtain ⟨hempty, habsolute⟩ := hdir
  have hbegins : ∃ after, joinPath dir name = dir ++ after := by
    unfold joinPath
    rw [h.isAbsolute_eq, hempty, Bool.or_false, if_neg Bool.false_ne_true]
    split
    · exact ⟨name, rfl⟩
    · exact ⟨"/" ++ name, String.append_assoc⟩
  obtain ⟨after, heq⟩ := hbegins
  have hne : dir.toList ≠ [] := fun hnil => by simp [String.toList_eq_nil_iff.mp hnil] at hempty
  constructor
  · rw [heq]
    simp [String.isEmpty_eq_false_iff.mp hempty]
  · unfold isAbsolute at habsolute ⊢
    rwa [heq, String.toList_append, List.head?_append_of_ne_nil _ hne]

/-- An entry of a directory that exists can be found by its path. -/
theorem IsEntry.place_joinPath (h : IsEntry name) (hdir : t.place dir = .ok p)
    (hp : t.hasDirectory p = true) : t.place (joinPath dir name) = .ok (p ++ [name]) := by
  unfold place at hdir ⊢
  split at hdir
  · cases hdir
  · rename_i hnamed
    obtain ⟨q, hfollow, hdir⟩ := bind_eq_ok hdir
    obtain rfl : q = p := by
      split at hdir <;> cases hdir
      rfl
    have hfound : t.follow [] (partsOf (joinPath dir name)) = .ok (q ++ [name]) := by
      have hlast : t.follow q [name] = .ok (enter q name) := by
        rw [follow, if_pos hp]
        rfl
      rw [partsOf_joinPath dir h.isAbsolute_eq, h.partsOf_eq, follow_append, ← h.enter_eq, ← hlast]
      exact congrArg (· >>= fun p => t.follow p [name]) hfollow
    rw [if_neg (h.named_joinPath hnamed), h.namesDirectory_joinPath dir]
    exact congrArg (· >>= pure) hfound

/-- The key of an entry begins with that of its directory. -/
theorem key_append_singleton (hp : p ≠ []) (name : String) :
    key (p ++ [name]) = key p ++ "/" ++ name := by
  unfold key Text.join
  rw [String.intercalate_append_of_ne_nil hp (List.cons_ne_nil _ _), String.intercalate_singleton]

/-- What is directly in a directory. -/
theorem nameIn?_eq_some {k : String} :
    nameIn? p k = some name ↔ k = key (p ++ [name]) ∧ '/' ∉ name.toList := by
  unfold nameIn?
  dsimp only
  rw [Option.filter_eq_some_iff]
  have hslash : ((!name.toList.contains '/') = true) ↔ '/' ∉ name.toList := by simp
  rw [hslash]
  refine and_congr_left fun _ => ?_
  by_cases hp : p = []
  · obtain rfl := hp
    have hkey : key [name] = name := (String.intercalate_singleton : "/".intercalate [name] = name)
    have hroot : ([] : Place).isEmpty = true := rfl
    rw [List.nil_append, hkey, if_pos hroot, Option.some_inj]
  · rw [if_neg (by simpa using hp), key_append_singleton hp]
    constructor
    · exact Text.dropStart?_eq_some
    · rintro rfl
      exact Text.dropStart?_append _ _

/-- What can be listed is a directory, and its list is made of what is directly in it. -/
theorem list_eq_ok {listed : List String} (h : t.list path = .ok listed) :
    t.place path = .ok (placeOf path) ∧ t.hasDirectory (placeOf path) = true
      ∧ listed = sortedTexts
        ((t.files.keys ++ t.directories.keys).filterMap (nameIn? (placeOf path))) := by
  unfold list at h
  obtain ⟨p, hp, h⟩ := bind_eq_ok h
  obtain rfl := place_eq_ok hp
  dsimp only at h
  split at h
  · cases h
  · split at h
    · cases h
    · rename_i hdirectory
      cases h
      exact ⟨hp, by simpa using hdirectory, rfl⟩

/-- **A directory lists the names of the files and directories in it.** -/
theorem mem_list {listed : List String} (h : t.list path = .ok listed) :
    name ∈ listed ↔ '/' ∉ name.toList ∧ ((fileAt t (placeOf path ++ [name])).isSome = true
      ∨ t.directoryAt (placeOf path ++ [name]) = true) := by
  obtain ⟨-, -, rfl⟩ := list_eq_ok h
  rw [mem_sortedTexts, List.mem_filterMap]
  unfold fileAt directoryAt Table.contains
  simp only [nameIn?_eq_some, List.mem_append, ← Table.isSome_get?]
  constructor
  · rintro ⟨k, hk, rfl, hslash⟩
    exact ⟨hslash, hk⟩
  · rintro ⟨hslash, hk⟩
    exact ⟨_, hk, rfl, hslash⟩

theorem nodup_list {listed : List String} (h : t.list path = .ok listed) : listed.Nodup := by
  obtain ⟨-, -, rfl⟩ := list_eq_ok h
  exact nodup_sortedTexts

end FileTree

end ApiModels.Files

namespace ApiModels.Workspace

open Files FileTree

/-! ## What lies at a place through a run -/

/-- A place has a file with some text, or none, and is no directory. -/
structure Holds (q : Place) (text : Option String) (t : FileTree) : Prop where
  file : fileAt t q = text
  directory : t.directoryAt q = false

variable {q : Place} {x : Option String} {path : String}

theorem keeps_makeDirectories (hq : IsBelowRoot q) (h : ¬ LeadsThrough path q) :
    Keeps (Holds q x) (makeDirectories path : Run (StateM FileTree) Unit) := by
  refine .change path fun t t' ht hholds => ⟨?_, ?_⟩
  · rw [← hholds.file, fileAt, makeDirectories_eq_ok ht]
    rfl
  · rw [← hholds.directory, (makeDirectories_growsAlong ht).along q hq h]

theorem keeps_writeText (text : String) (hq : IsBelowRoot q) (h : q ≠ placeOf path) :
    Keeps (Holds q x) (writeText path text : Run (StateM FileTree) Unit) := by
  refine .change path fun t t' ht hholds => ⟨(fileAt_write ht hq h).trans hholds.file, ?_⟩
  rw [← hholds.directory, directoryAt, write_directories ht]
  rfl

theorem keeps_removeDirectory (hq : IsBelowRoot q) (hpath : placeOf path ≠ [])
    (h : ¬ placeOf path <+: q) :
    Keeps (Holds q x) (onFile path (Disk.removeDirectory path) : Run (StateM FileTree) Unit) :=
  .change path fun _ _ ht hholds => ⟨(fileAt_removeDirectory ht hq hpath h).trans hholds.file,
    removeDirectory_directoryAt ht hholds.directory⟩

theorem keeps_removeFile (hq : IsBelowRoot q) (hpath : placeOf path ≠ []) (h : q ≠ placeOf path) :
    Keeps (Holds q x) (onFile path (Disk.removeFile path) : Run (StateM FileTree) Unit) := by
  refine .change path fun t t' ht hholds =>
    ⟨(fileAt_removeFile ht hq hpath h).trans hholds.file, ?_⟩
  rw [← hholds.directory, directoryAt, removeFile_directories ht]
  rfl

/-! ## Places that can be reached through a run -/

variable {p : Place} {name : String}

theorem keeps_place_makeDirectories (hname : namesDirectory name = false) :
    Keeps (fun t => t.place name = .ok p) (makeDirectories path : Run (StateM FileTree) Unit) :=
  .change path fun _ _ ht hplace => place_keeps (makeDirectories_growsAlong ht).keeps hname hplace

theorem keeps_place_writeText (text : String) (hname : namesDirectory name = false) :
    Keeps (fun t => t.place name = .ok p) (writeText path text : Run (StateM FileTree) Unit) := by
  refine .change path fun t t' ht hplace => place_keeps (fun p hp => ?_) hname hplace
  unfold hasDirectory at hp ⊢
  rwa [write_directories ht]

end ApiModels.Workspace
