import ApiModels.Ingest
import ApiModels.Proofs.NameEntries
import Mathlib.Data.String.Basic

/-!
# How far a preference reaches

A preference for a simple name decides which of its types keeps it. The others go by aliases, and
what an alias takes is no longer free for the simple names that come later in the version. So a
preference can be felt by types of another name, but only where a name that was tried for one of them
is a name of the preferred collision under one of the preferences and not under the other. In
particular, only a simple name that goes on from the preferred one by an underscore can feel it.
-/

namespace ApiModels

/-! ## First free candidates -/

namespace Text

variable {α : Type u} {taken taken' : α → Prop} {candidate : Nat → α} {name name' : α}

theorem IsFirstFree.unique (h : IsFirstFree taken candidate name)
    (h' : IsFirstFree taken candidate name') : name = name' := by
  obtain ⟨n, rfl, hfree, htaken⟩ := h
  obtain ⟨n', rfl, hfree', htaken'⟩ := h'
  rcases Nat.lt_trichotomy n n' with hlt | rfl | hlt
  · exact absurd (htaken' n hlt) hfree
  · rfl
  · exact absurd (htaken n' hlt) hfree'

end Text

namespace Names

open ReleaseModel

variable {m : ReleaseModel} {preferences preferences' : Preferences}
  {version name pinned text text' s : String} {id : TypeId} {taken taken' names : List String}
  {aliases aliases' : List (TypeId × String)}

/-- The candidates for the alias of a type, in order. -/
def candidate (m : ReleaseModel) (id : TypeId) : Nat → String :=
  Text.numbered ((m.type id).name ++ "_" ++ aliasSuffix (m.type id).group)

/-- A candidate for the alias of a type up to the one that it goes by. -/
def Tried (m : ReleaseModel) (id : TypeId) (text tried : String) : Prop :=
  ∃ n, text = candidate m id n ∧ ∃ k ≤ n, tried = candidate m id k

/-- Whichever candidates are taken, the same one is the first free if those tried are taken alike. -/
theorem isFirstFree_of_tried (h : Text.IsFirstFree (· ∈ taken) (candidate m id) text)
    (hagree : ∀ s, Tried m id text s → (s ∈ taken ↔ s ∈ taken')) :
    Text.IsFirstFree (· ∈ taken') (candidate m id) text := by
  obtain ⟨n, rfl, hfree, htaken⟩ := h
  refine ⟨n, rfl, ?_, fun k hk => ?_⟩
  · exact fun hmem => hfree ((hagree _ ⟨n, rfl, n, Nat.le_refl n, rfl⟩).mpr hmem)
  · exact (hagree _ ⟨n, rfl, k, Nat.le_of_lt hk, rfl⟩).mp (htaken k hk)

/-- What was tried is taken, but for the alias itself, which is free. -/
theorem mem_iff_of_tried (h : Text.IsFirstFree (· ∈ taken) (candidate m id) text)
    (hs : Tried m id text s) : s ∈ taken ↔ s ≠ text := by
  obtain ⟨n, rfl, hfree, htaken⟩ := h
  obtain ⟨n', heq, k, hk, rfl⟩ := hs
  obtain rfl : n = n' := Text.numbered_injective _ heq
  rcases Nat.lt_or_eq_of_le hk with hlt | rfl
  · refine iff_of_true (htaken k hlt) fun heq => ?_
    exact Nat.ne_of_lt hlt (Text.numbered_injective _ heq)
  · exact iff_of_false hfree (not_not_intro rfl)

/-! ## Aliases given where other names are taken -/

/-- **The same aliases are given** if what is tried for them is taken alike. -/
theorem Given.eq_of_tried (h : Given m taken aliases) (h' : Given m taken' aliases')
    (hids : aliases'.map Prod.fst = aliases.map Prod.fst)
    (hagree : ∀ a ∈ aliases, ∀ s, Tried m a.1 a.2 s → (s ∈ taken ↔ s ∈ taken')) :
    aliases' = aliases := by
  induction aliases generalizing taken taken' aliases' with
  | nil => exact List.map_eq_nil_iff.mp hids
  | cons a rest ih =>
      obtain ⟨a', rest', rfl, hid, htail⟩ := List.map_eq_cons_iff.mp hids
      obtain ⟨i, text⟩ := a
      obtain ⟨i', text'⟩ := a'
      obtain rfl : i' = i := hid
      have hfirst : Text.IsFirstFree (· ∈ taken') (candidate m i') text :=
        isFirstFree_of_tried h.1 (hagree _ List.mem_cons_self)
      obtain rfl : text' = text := h'.1.unique hfirst
      rw [ih h.2 h'.2 htail fun b hb s hs => ?_]
      rw [List.mem_cons, List.mem_cons, hagree b (List.mem_cons_of_mem _ hb) s hs]

/-- **Where the same aliases are given, what was tried for them is taken alike.** -/
theorem Given.tried_iff (h : Given m taken aliases) (h' : Given m taken' aliases)
    {a : TypeId × String} (ha : a ∈ aliases) (hs : Tried m a.1 a.2 s) :
    s ∈ taken ↔ s ∈ taken' := by
  induction aliases generalizing taken taken' with
  | nil => cases ha
  | cons b rest ih =>
      rcases List.mem_cons.mp ha with rfl | ha
      · exact (mem_iff_of_tried h.1 hs).trans (mem_iff_of_tried h'.1 hs).symm
      · have hrest := ih h.2 h'.2 ha
        -- the alias given before was free in both cases
        by_cases hsb : s = b.2
        · obtain ⟨⟨n, -, hfree, -⟩, -⟩ := h
          obtain ⟨⟨n', -, hfree', -⟩, -⟩ := h'
          rw [hsb]
          exact iff_of_false hfree hfree'
        · rwa [List.mem_cons, List.mem_cons, or_iff_right hsb, or_iff_right hsb] at hrest

/-- What was tried for an alias is taken from the start or by an alias. -/
theorem Given.mem_of_tried (h : Given m taken aliases) {a : TypeId × String} (ha : a ∈ aliases)
    (hs : Tried m a.1 a.2 s) : s ∈ taken ∨ s ∈ aliases.map Prod.snd := by
  induction aliases generalizing taken with
  | nil => cases ha
  | cons b rest ih =>
      rw [List.map_cons, List.mem_cons]
      rcases List.mem_cons.mp ha with rfl | ha
      · by_cases hsa : s = a.2
        · exact .inr (.inl hsa)
        · exact .inl ((mem_iff_of_tried h.1 hs).mpr hsa)
      · rcases ih h.2 ha with hs | hs
        · exact (List.mem_cons.mp hs).elim (fun hs => .inr (.inl hs)) .inl
        · exact .inr (.inr hs)

/-- Every alias is one of the candidates for it. -/
theorem Given.exists_candidate (h : Given m taken aliases) {a : TypeId × String}
    (ha : a ∈ aliases) : ∃ n, a.2 = candidate m a.1 n := by
  induction aliases generalizing taken with
  | nil => cases ha
  | cons b rest ih =>
      obtain ⟨⟨n, hn, -, -⟩, hrest⟩ := h
      rcases List.mem_cons.mp ha with rfl | ha
      · exact ⟨n, hn⟩
      · exact ih hrest ha

/-- Let names be taken alike outside of some, and let the candidates of each type all be inside or
all be outside of these. Then the aliases outside are the same. -/
theorem Given.mem_of_outside (inside : String → Prop) (h : Given m taken aliases)
    (h' : Given m taken' aliases') (hids : aliases'.map Prod.fst = aliases.map Prod.fst)
    (hagree : ∀ s, ¬ inside s → (s ∈ taken ↔ s ∈ taken'))
    (hside : ∀ a ∈ aliases, (∀ n, inside (candidate m a.1 n))
      ∨ ∀ n, ¬ inside (candidate m a.1 n)) :
    ∀ a ∈ aliases, ¬ inside a.2 → a ∈ aliases' := by
  induction aliases generalizing taken taken' aliases' with
  | nil => simp
  | cons a rest ih =>
      obtain ⟨a', rest', rfl, hid, htail⟩ := List.map_eq_cons_iff.mp hids
      obtain ⟨i, text⟩ := a
      obtain ⟨i', text'⟩ := a'
      obtain rfl : i' = i := hid
      have hrest : (∀ s, ¬ inside s → (s ∈ text :: taken ↔ s ∈ text' :: taken')) →
          ∀ b ∈ rest, ¬ inside b.2 → b ∈ (i', text') :: rest' :=
        fun hagree b hb hout => List.mem_cons_of_mem _
          (ih h.2 h'.2 htail hagree (fun c hc => hside c (List.mem_cons_of_mem _ hc)) b hb hout)
      obtain ⟨n, hn⟩ : ∃ n, text = candidate m i' n := h.exists_candidate List.mem_cons_self
      obtain ⟨n', hn'⟩ : ∃ n, text' = candidate m i' n := h'.exists_candidate List.mem_cons_self
      intro b hb hout
      rcases hside _ List.mem_cons_self with hin | hside
      · -- both aliases of this type are inside
        rcases List.mem_cons.mp hb with rfl | hb
        · exact absurd (hn ▸ hin n) hout
        · refine hrest (fun s hs => ?_) b hb hout
          have hne : s ≠ text := fun heq => hs (heq ▸ hn ▸ hin n)
          have hne' : s ≠ text' := fun heq => hs (heq ▸ hn' ▸ hin n')
          rw [List.mem_cons, List.mem_cons, or_iff_right hne, or_iff_right hne', hagree s hs]
      · have hfirst : Text.IsFirstFree (· ∈ taken') (candidate m i') text := by
          refine isFirstFree_of_tried h.1 ?_
          rintro s ⟨-, -, k, -, rfl⟩
          exact hagree _ (hside k)
        obtain rfl : text' = text := h'.1.unique hfirst
        rcases List.mem_cons.mp hb with rfl | hb
        · exact List.mem_cons_self
        · refine hrest (fun s hs => ?_) b hb hout
          rw [List.mem_cons, List.mem_cons, hagree s hs]

/-! ## Entries under two preferences -/

/-- Preferences that differ in no more than what is preferred for one simple name. -/
def AgreeApart (pinned : String) (preferences preferences' : Preferences) : Prop :=
  ∀ name ≠ pinned, preferences'.get? name = preferences.get? name

theorem entryOf_congr (h : AgreeApart pinned preferences preferences') (hne : name ≠ pinned)
    (taken : List String) :
    entryOf m preferences' version taken name = entryOf m preferences version taken name := by
  unfold entryOf
  rw [h name hne]

theorem primary_congr (h : AgreeApart pinned preferences preferences') (hne : name ≠ pinned) :
    primary m preferences' version name = primary m preferences version name := by
  unfold primary
  rw [h name hne]

theorem entriesOf_congr (h : AgreeApart pinned preferences preferences') (hnot : pinned ∉ names)
    (taken : List String) :
    entriesOf m preferences' version taken names = entriesOf m preferences version taken names := by
  induction names generalizing taken with
  | nil => rfl
  | cons name names ih =>
      have hne : name ≠ pinned := fun heq => hnot (heq ▸ List.mem_cons_self)
      rw [entriesOf, entriesOf, entryOf_congr h hne,
        ih fun hmem => hnot (List.mem_cons_of_mem _ hmem)]

/-- The names that are taken once some entries are made. -/
def takenAfter (taken : List String) (entries : List NameEntry) : List String :=
  entries.foldl (fun taken e => e.aliases.map Prod.snd ++ taken) taken

theorem mem_takenAfter {entries : List NameEntry} : s ∈ takenAfter taken entries
    ↔ s ∈ (entries.flatMap (·.aliases)).map Prod.snd ∨ s ∈ taken := by
  induction entries generalizing taken with
  | nil => simp [takenAfter]
  | cons e entries ih =>
      rw [takenAfter, List.foldl_cons, ← takenAfter, ih, List.flatMap_cons, List.map_append,
        List.mem_append, List.mem_append]
      tauto

theorem entriesOf_append {names' : List String} :
    entriesOf m preferences version taken (names ++ names')
      = entriesOf m preferences version taken names ++ entriesOf m preferences version
          (takenAfter taken (entriesOf m preferences version taken names)) names' := by
  induction names generalizing taken with
  | nil => rfl
  | cons name names ih =>
      rw [List.cons_append, entriesOf, ih, entriesOf, List.cons_append]
      rfl

/-- The types that get aliases for some simple names, in order. -/
theorem map_fst_entriesOf :
    ((entriesOf m preferences version taken names).flatMap (·.aliases)).map Prod.fst
      = names.flatMap fun name =>
          (members m version name).filter fun id => id ≠ primary m preferences version name := by
  induction names generalizing taken with
  | nil => rfl
  | cons name names ih =>
      rw [entriesOf, List.flatMap_cons, List.map_append, ih, List.flatMap_cons]
      exact congrArg (· ++ _) (assignAliases_ids _ _)

theorem name_of_mem_entriesOf {a : TypeId × String}
    (ha : a ∈ (entriesOf m preferences version taken names).flatMap (·.aliases)) :
    (m.type a.1).name ∈ names := by
  have hid : a.1
      ∈ ((entriesOf m preferences version taken names).flatMap (·.aliases)).map Prod.fst :=
    List.mem_map.mpr ⟨a, ha, rfl⟩
  rw [map_fst_entriesOf] at hid
  obtain ⟨name, hname, hmem⟩ := List.mem_flatMap.mp hid
  rwa [(mem_members.mp (List.mem_filter.mp hmem).1).2.2]

theorem name_of_mem_entryOf {a : TypeId × String}
    (ha : a ∈ (entryOf m preferences version taken name).aliases) : (m.type a.1).name = name := by
  have hid : a.1 ∈ (entryOf m preferences version taken name).aliases.map Prod.fst :=
    List.mem_map.mpr ⟨a, ha, rfl⟩
  have hids : (entryOf m preferences version taken name).aliases.map Prod.fst
      = (members m version name).filter fun id => id ≠ primary m preferences version name :=
    assignAliases_ids _ _
  rw [hids] at hid
  exact (mem_members.mp (List.mem_filter.mp hid).1).2.2

/-! ## A version under two preferences -/

/-- The aliases of a version under two preferences for one of its simple names: those of earlier
names, which are given first and alike; those of the name itself; and those of later names, given
where the ones of the name itself are taken. -/
structure Sides (m : ReleaseModel) (version pinned : String) (taken : List String)
    (earlier own later own' later' : List (TypeId × String)) : Prop where
  given_earlier : Given m (simpleNames m version) earlier
  mem_taken : ∀ s, s ∈ taken ↔ s ∈ earlier.map Prod.snd ∨ s ∈ simpleNames m version
  given_own : Given m taken own
  given_own' : Given m taken own'
  given_later : Given m (own.map Prod.snd ++ taken) later
  given_later' : Given m (own'.map Prod.snd ++ taken) later'
  ids_later : later'.map Prod.fst = later.map Prod.fst
  name_earlier : ∀ a ∈ earlier, (m.type a.1).name ≠ pinned
  name_own : ∀ a ∈ own, (m.type a.1).name = pinned
  name_own' : ∀ a ∈ own', (m.type a.1).name = pinned
  name_later : ∀ a ∈ later, pinned < (m.type a.1).name

theorem exists_sides (h : AgreeApart pinned preferences preferences')
    (hpinned : pinned ∈ simpleNames m version) :
    ∃ taken earlier own later own' later',
      aliasesOf m preferences version = earlier ++ (own ++ later)
        ∧ aliasesOf m preferences' version = earlier ++ (own' ++ later')
        ∧ Sides m version pinned taken earlier own later own' later' := by
  obtain ⟨before, after, hsplit⟩ := List.append_of_mem hpinned
  have hsorted : (simpleNames m version).Pairwise (· < ·) := pairwise_sortedTexts _
  rw [hsplit] at hsorted
  obtain ⟨-, hrest, hbefore⟩ := List.pairwise_append.mp hsorted
  have hlater : ∀ name ∈ after, pinned < name := (List.pairwise_cons.mp hrest).1
  have hnotBefore : pinned ∉ before :=
    fun hmem => String.lt_irrefl _ (hbefore pinned hmem pinned List.mem_cons_self)
  have hnotAfter : pinned ∉ after := fun hmem => String.lt_irrefl _ (hlater pinned hmem)
  -- the same entries come first
  let first := entriesOf m preferences version (simpleNames m version) before
  let taken := takenAfter (simpleNames m version) first
  let own (p : Preferences) := (entryOf m p version taken pinned).aliases
  let later (p : Preferences) :=
    (entriesOf m p version ((own p).map Prod.snd ++ taken) after).flatMap (·.aliases)
  have haliases : ∀ p, entriesOf m p version (simpleNames m version) before = first →
      aliasesOf m p version = first.flatMap (·.aliases) ++ (own p ++ later p) := by
    intro p hfirst
    unfold aliasesOf
    rw [congrArg (entriesOf m p version (simpleNames m version)) hsplit, entriesOf_append, hfirst,
      List.flatMap_append, entriesOf, List.flatMap_cons]
  refine ⟨taken, first.flatMap (·.aliases), own preferences, later preferences, own preferences',
    later preferences', haliases _ rfl, haliases _ (entriesOf_congr h hnotBefore _), ?_⟩
  have hown : ∀ p, Given m taken (own p) := fun p =>
    assignAliases_given taken _ fun id hid => (mem_members.mp (List.mem_filter.mp hid).1).2.2
  exact {
    given_earlier := entriesOf_given m preferences version _ before
    mem_taken := fun s => mem_takenAfter
    given_own := hown preferences
    given_own' := hown preferences'
    given_later := entriesOf_given m preferences version _ after
    given_later' := entriesOf_given m preferences' version _ after
    ids_later := by
      rw [map_fst_entriesOf, map_fst_entriesOf]
      refine List.flatMap_congr fun name hname => ?_
      rw [primary_congr h fun heq => hnotAfter (heq ▸ hname)]
    name_earlier := fun a ha heq => hnotBefore (heq ▸ name_of_mem_entriesOf ha)
    name_own := fun a ha => name_of_mem_entryOf ha
    name_own' := fun a ha => name_of_mem_entryOf ha
    name_later := fun a ha => hlater _ (name_of_mem_entriesOf ha) }

section Sides

variable {earlier own later own' later' : List (TypeId × String)}

/-- Only names of the preferred collision are taken under one of the preferences alone. -/
theorem Sides.taken_iff (h : Sides m version pinned taken earlier own later own' later') :
    (s ∈ own.map Prod.snd ++ taken ↔ s ∈ own'.map Prod.snd ++ taken)
      ↔ (s ∈ own.map Prod.snd ↔ s ∈ own'.map Prod.snd) := by
  rw [List.mem_append, List.mem_append]
  by_cases hs : s ∈ taken
  · have hown : s ∉ own.map Prod.snd := fun hmem => h.given_own.texts.2 s hmem hs
    have hown' : s ∉ own'.map Prod.snd := fun hmem => h.given_own'.texts.2 s hmem hs
    simp [hs, hown, hown']
  · rw [or_iff_left hs, or_iff_left hs]

/-- **Later names have the same aliases exactly if nothing that was tried for them is an alias of the
preferred name under one of the preferences alone.** -/
theorem Sides.later_eq_iff (h : Sides m version pinned taken earlier own later own' later') :
    later' = later ↔ ∀ a ∈ later, ∀ s, Tried m a.1 a.2 s →
      (s ∈ own.map Prod.snd ↔ s ∈ own'.map Prod.snd) := by
  constructor
  · rintro rfl a ha s hs
    exact h.taken_iff.mp (h.given_later.tried_iff h.given_later' ha hs)
  · intro hagree
    exact h.given_later.eq_of_tried h.given_later' h.ids_later fun a ha s hs =>
      h.taken_iff.mpr (hagree a ha s hs)

/-- What was tried for earlier names was taken before. -/
theorem Sides.iff_of_earlier (h : Sides m version pinned taken earlier own later own' later')
    {a : TypeId × String} (ha : a ∈ earlier) (hs : Tried m a.1 a.2 s) :
    s ∈ own.map Prod.snd ↔ s ∈ own'.map Prod.snd := by
  have htaken : s ∈ taken := (h.mem_taken s).mpr (h.given_earlier.mem_of_tried ha hs).symm
  exact iff_of_false (fun hmem => h.given_own.texts.2 s hmem htaken)
    fun hmem => h.given_own'.texts.2 s hmem htaken

end Sides

/-! ## Names that go on from another -/

/-- A name goes on from another one by an underscore. -/
def GoesOn (pinned name : String) : Prop := pinned.toList ++ ['_'] <+: name.toList

theorem toList_candidate (m : ReleaseModel) (id : TypeId) (n : Nat) :
    ∃ rest, (candidate m id n).toList = (m.type id).name.toList ++ '_' :: rest := by
  cases n with
  | zero =>
      exact ⟨(aliasSuffix (m.type id).group).toList,
        by simp [candidate, Text.numbered, String.toList_append]⟩
  | succ n =>
      exact ⟨(aliasSuffix (m.type id).group).toList ++ '_' :: (toString (n + 2)).toList,
        by simp [candidate, Text.numbered, String.toList_append]⟩

theorem ne_candidate (m : ReleaseModel) (id : TypeId) (n : Nat) :
    (m.type id).name ≠ candidate m id n := by
  intro heq
  obtain ⟨rest, hrest⟩ := toList_candidate m id n
  rw [← heq] at hrest
  have hlength := congrArg List.length hrest
  simp at hlength

theorem goesOn_candidate_self (m : ReleaseModel) (id : TypeId) (n : Nat) :
    GoesOn (m.type id).name (candidate m id n) := by
  obtain ⟨rest, hrest⟩ := toList_candidate m id n
  unfold GoesOn
  rw [hrest]
  exact ⟨rest, by simp⟩

/-- Candidates for a later name go on from a name exactly if the later name does. -/
theorem goesOn_candidate (hlt : pinned < (m.type id).name) (n : Nat) :
    GoesOn pinned (candidate m id n) ↔ GoesOn pinned (m.type id).name := by
  obtain ⟨rest, hrest⟩ := toList_candidate m id n
  unfold GoesOn
  rw [hrest]
  constructor
  · intro hprefix
    refine List.prefix_of_prefix_length_le hprefix (List.prefix_append _ _) ?_
    -- else the later name would begin the other one
    by_contra hlength
    rw [List.length_append, List.length_singleton] at hlength
    have hbegins : (m.type id).name.toList <+: pinned.toList :=
      List.prefix_of_prefix_length_le (List.prefix_append _ _)
        ((List.prefix_append _ _).trans hprefix) (by omega)
    exact hbegins.le (String.lt_iff_toList_lt.mp hlt)
  · exact fun hprefix => hprefix.trans (List.prefix_append _ _)

/-! ## Names of types -/

/-- The names of the types of one simple name are that name and their aliases. -/
theorem mem_names_iff (hname : name ∈ simpleNames m version) :
    s ∈ (m.find version name).map (resolve m preferences).name
      ↔ s = name ∨ ∃ a ∈ aliasesOf m preferences version, (m.type a.1).name = name ∧ a.2 = s := by
  rw [List.mem_map]
  constructor
  · rintro ⟨id, hid, rfl⟩
    obtain ⟨hlt, rfl, rfl⟩ := mem_find.mp hid
    rcases name_cases preferences hlt with halias | ⟨hsimple, -⟩
    · exact .inr ⟨_, halias, rfl, rfl⟩
    · exact .inl hsimple
  · rintro (rfl | ⟨a, ha, rfl, rfl⟩)
    · obtain ⟨e, he, rfl⟩ := exists_entry m preferences version (simpleNames m version) hname
      have hversion : e.version = version := (entriesOf_ids _ _ he).1
      have hentry : e ∈ (resolve m preferences).entries := by
        rw [mem_entries, hversion]
        exact he
      exact ⟨e.primary, hversion ▸ (isPrimary_primary hentry).mem, name_primary hentry⟩
    · obtain ⟨hlt, hversion, -⟩ := ne_primary_of_mem_aliasesOf ha
      exact ⟨a.1, mem_find.mpr ⟨hlt, hversion, rfl⟩, name_of_mem_aliasesOf ha⟩

/-- A type keeps its name where its alias, if it has one, is kept. -/
theorem name_eq_of_alias (h : AgreeApart pinned preferences preferences')
    (hlt : id < m.types.size) (hne : (m.type id).name ≠ pinned)
    (halias : ∀ text, (id, text) ∈ aliasesOf m preferences (m.type id).version →
      (id, text) ∈ aliasesOf m preferences' (m.type id).version) :
    (resolve m preferences').name id = (resolve m preferences).name id := by
  rcases name_cases preferences hlt with hold | ⟨hsimple, hprimary⟩
  · exact name_of_mem_aliasesOf (halias _ hold)
  · rcases name_cases preferences' hlt with hnew | ⟨hsimple', -⟩
    · obtain ⟨-, -, hnot⟩ := ne_primary_of_mem_aliasesOf hnew
      rw [primary_congr h hne] at hnot
      exact absurd hprimary hnot
    · rw [hsimple, hsimple']

/-- Nothing changes in a version that has no type of the name. -/
theorem aliasesOf_congr (h : AgreeApart pinned preferences preferences')
    (hnot : pinned ∉ simpleNames m version) :
    aliasesOf m preferences' version = aliasesOf m preferences version := by
  unfold aliasesOf
  rw [entriesOf_congr h hnot]

/-- **Names that do not go on from the preferred one are kept.** -/
theorem name_eq_of_not_goesOn (h : AgreeApart pinned preferences preferences')
    (hlt : id < m.types.size) (hne : (m.type id).name ≠ pinned)
    (hnot : ¬ GoesOn pinned (m.type id).name) :
    (resolve m preferences').name id = (resolve m preferences).name id := by
  refine name_eq_of_alias h hlt hne fun text hold => ?_
  by_cases hpinned : pinned ∈ simpleNames m (m.type id).version
  · obtain ⟨taken, earlier, own, later, own', later', hsides, hsides', hs⟩ :=
      exists_sides h hpinned
    rw [hsides] at hold
    rw [hsides']
    rcases List.mem_append.mp hold with hearlier | hold
    · exact List.mem_append_left _ hearlier
    rcases List.mem_append.mp hold with hown | hlater
    · exact absurd (hs.name_own _ hown) hne
    refine List.mem_append_right _ (List.mem_append_right _ ?_)
    -- outside of the names that go on from the preferred one, the same names are taken
    have hgoesOn : ∀ {taken : List String} {own : List (TypeId × String)}, Given m taken own →
        (∀ a ∈ own, (m.type a.1).name = pinned) → ∀ s, ¬ GoesOn pinned s →
        s ∉ own.map Prod.snd := by
      intro taken own hgiven hname s hs hmem
      obtain ⟨a, ha, rfl⟩ := List.mem_map.mp hmem
      obtain ⟨n, hn⟩ := hgiven.exists_candidate ha
      exact hs (hn ▸ hname a ha ▸ goesOn_candidate_self m a.1 n)
    refine hs.given_later.mem_of_outside (GoesOn pinned) hs.given_later' hs.ids_later
      (fun s hout => hs.taken_iff.mpr ?_) (fun a ha => ?_) _ hlater ?_
    · exact iff_of_false (hgoesOn hs.given_own hs.name_own s hout)
        (hgoesOn hs.given_own' hs.name_own' s hout)
    · have hiff := goesOn_candidate (hs.name_later a ha)
      by_cases hin : GoesOn pinned (m.type a.1).name
      · exact .inl fun n => (hiff n).mpr hin
      · exact .inr fun n hn => hin ((hiff n).mp hn)
    · obtain ⟨n, hn⟩ := hs.given_later.exists_candidate hlater
      exact fun hin => hnot ((goesOn_candidate (hs.name_later _ hlater) n).mp (hn ▸ hin))
  · rwa [aliasesOf_congr h hpinned]

/-- Aliases are the names of the types that have them. -/
theorem eq_map_name (h : ∀ a ∈ aliases, a ∈ aliasesOf m preferences version) :
    aliases = (aliases.map Prod.fst).map fun id => (id, (resolve m preferences).name id) := by
  rw [List.map_map]
  refine (List.map_id aliases).symm.trans (List.map_congr_left fun a ha => ?_)
  exact Prod.ext rfl (name_of_mem_aliasesOf (h a ha)).symm

section Kept

variable {earlier own later own' later' : List (TypeId × String)}

theorem Sides.name_later' (h : Sides m version pinned taken earlier own later own' later')
    {a : TypeId × String} (ha : a ∈ later') : pinned < (m.type a.1).name := by
  have hid : a.1 ∈ later'.map Prod.fst := List.mem_map.mpr ⟨a, ha, rfl⟩
  rw [h.ids_later] at hid
  obtain ⟨b, hb, heq⟩ := List.mem_map.mp hid
  exact heq ▸ h.name_later b hb

/-- The names of the preferred collision are its aliases and the name itself. -/
theorem mem_own_iff (hpinned : pinned ∈ simpleNames m version)
    (haliases : aliasesOf m preferences version = earlier ++ (own ++ later))
    (hearlier : ∀ a ∈ earlier, (m.type a.1).name ≠ pinned)
    (hown : ∀ a ∈ own, (m.type a.1).name = pinned)
    (hlater : ∀ a ∈ later, pinned < (m.type a.1).name) :
    s ∈ (m.find version pinned).map (resolve m preferences).name
      ↔ s = pinned ∨ s ∈ own.map Prod.snd := by
  rw [mem_names_iff hpinned, haliases, List.mem_map]
  refine or_congr_right ⟨?_, ?_⟩
  · rintro ⟨a, ha, hname, rfl⟩
    rcases List.mem_append.mp ha with ha | ha
    · exact absurd hname (hearlier a ha)
    rcases List.mem_append.mp ha with ha | ha
    · exact ⟨a, ha, rfl⟩
    · exact absurd hname (String.ne_of_lt (hlater a ha)).symm
  · rintro ⟨a, ha, rfl⟩
    exact ⟨a, List.mem_append_right _ (List.mem_append_left _ ha), hown a ha, rfl⟩

/-- A text is a name of the preferred collision under one of the preferences alone exactly if it is
an alias of it under that one alone. -/
theorem Sides.names_iff (h : Sides m version pinned taken earlier own later own' later')
    (hpinned : pinned ∈ simpleNames m version)
    (haliases : aliasesOf m preferences version = earlier ++ (own ++ later))
    (haliases' : aliasesOf m preferences' version = earlier ++ (own' ++ later')) :
    (s ∈ (m.find version pinned).map (resolve m preferences).name
        ↔ s ∈ (m.find version pinned).map (resolve m preferences').name)
      ↔ (s ∈ own.map Prod.snd ↔ s ∈ own'.map Prod.snd) := by
  rw [mem_own_iff hpinned haliases h.name_earlier h.name_own h.name_later,
    mem_own_iff hpinned haliases' h.name_earlier h.name_own' fun a ha => h.name_later' ha]
  by_cases hs : s = pinned
  · subst hs
    have htaken : s ∈ taken := (h.mem_taken s).mpr (.inr hpinned)
    have hown : s ∉ own.map Prod.snd := fun hmem => h.given_own.texts.2 s hmem htaken
    have hown' : s ∉ own'.map Prod.snd := fun hmem => h.given_own'.texts.2 s hmem htaken
    simp [hown, hown']
  · rw [or_iff_right hs, or_iff_right hs]

end Kept

/-- **All other names of a version are kept exactly if nothing that was tried for them is a name of
the preferred collision under one of the preferences alone.** -/
theorem names_eq_iff (h : AgreeApart pinned preferences preferences') (version : String) :
    (∀ id ∈ m.typesOf version, (m.type id).name ≠ pinned →
        (resolve m preferences').name id = (resolve m preferences).name id)
      ↔ ∀ id ∈ m.typesOf version, (m.type id).name ≠ pinned →
          ∀ s, Tried m id ((resolve m preferences).name id) s →
            (s ∈ (m.find version pinned).map (resolve m preferences).name
              ↔ s ∈ (m.find version pinned).map (resolve m preferences').name) := by
  by_cases hpinned : pinned ∈ simpleNames m version
  · obtain ⟨taken, earlier, own, later, own', later', hsides, hsides', hs⟩ :=
      exists_sides h hpinned
    have hlater : ∀ a ∈ later, a ∈ aliasesOf m preferences version := fun a ha =>
      hsides ▸ List.mem_append_right _ (List.mem_append_right _ ha)
    have hlater' : ∀ a ∈ later', a ∈ aliasesOf m preferences' version := fun a ha =>
      hsides' ▸ List.mem_append_right _ (List.mem_append_right _ ha)
    have hother : ∀ a ∈ later, a.1 ∈ m.typesOf version ∧ (m.type a.1).name ≠ pinned := by
      intro a ha
      obtain ⟨hlt, hversion, -⟩ := ne_primary_of_mem_aliasesOf (hlater a ha)
      exact ⟨mem_typesOf.mpr ⟨hlt, hversion⟩, (String.ne_of_lt (hs.name_later a ha)).symm⟩
    constructor
    · intro hkept id hid hne s htried
      obtain ⟨hlt, rfl⟩ := mem_typesOf.mp hid
      rw [hs.names_iff hpinned hsides hsides']
      rcases name_cases preferences hlt with halias | ⟨hsimple, -⟩
      · rw [hsides] at halias
        rcases List.mem_append.mp halias with hmem | hmem
        · exact hs.iff_of_earlier hmem htried
        rcases List.mem_append.mp hmem with hmem | hmem
        · exact absurd (hs.name_own _ hmem) hne
        -- later aliases are the names of their types, which are kept
        refine hs.later_eq_iff.mp ?_ _ hmem s htried
        rw [eq_map_name hlater, eq_map_name hlater', hs.ids_later]
        refine List.map_congr_left fun i hi => ?_
        obtain ⟨a, ha, rfl⟩ := List.mem_map.mp hi
        rw [hkept a.1 (hother a ha).1 (hother a ha).2]
      · obtain ⟨n, hn, -⟩ := htried
        exact absurd (hsimple.symm.trans hn) (ne_candidate m id n)
    · intro hagree id hid hne
      have hsame : later' = later := by
        refine hs.later_eq_iff.mpr fun a ha s htried => ?_
        rw [← hs.names_iff hpinned hsides hsides']
        refine hagree a.1 (hother a ha).1 (hother a ha).2 s ?_
        rwa [name_of_mem_aliasesOf (hlater a ha)]
      obtain ⟨hlt, rfl⟩ := mem_typesOf.mp hid
      refine name_eq_of_alias h hlt hne fun text hold => ?_
      rw [hsides] at hold
      rw [hsides', hsame]
      rcases List.mem_append.mp hold with hmem | hmem
      · exact List.mem_append_left _ hmem
      rcases List.mem_append.mp hmem with hmem | hmem
      · exact absurd (hs.name_own _ hmem) hne
      · exact List.mem_append_right _ (List.mem_append_right _ hmem)
  · have hnone : m.find version pinned = [] := by
      refine List.eq_nil_iff_forall_not_mem.mpr fun id hid => hpinned ?_
      obtain ⟨hlt, hversion, hname⟩ := mem_find.mp hid
      exact mem_simpleNames_iff.mpr ⟨id, hlt, hversion, hname⟩
    rw [hnone]
    refine iff_of_true (fun id hid hne => ?_) fun id _ _ s _ => Iff.rfl
    obtain ⟨hlt, rfl⟩ := mem_typesOf.mp hid
    refine name_eq_of_alias h hlt hne fun text hold => ?_
    rwa [aliasesOf_congr h hpinned]

/--
**How far a preference reaches.**

Let two preferences differ for one simple name only. Then there are the same entries, each with the
same types and the same number of aliases, and in an entry of any other name the same type is primary
and the same types get aliases, in the same order. A type of another name keeps its name, unless its
simple name goes on from the preferred one by an underscore. In a version, all types of other names
keep their names exactly if nothing that was tried for the alias of one of them is a name of the
preferred collision under one of the preferences and not under the other.
-/
theorem reach_of_preference (m : ReleaseModel) (preferences preferences' : Preferences)
    (pinned : String)
    (h : ∀ name ≠ pinned, preferences'.get? name = preferences.get? name) :
    let names := resolve m preferences
    let names' := resolve m preferences'
    (names'.entries.map fun e => (e.version, e.name))
        = (names.entries.map fun e => (e.version, e.name))
      ∧ (∀ e ∈ names.entries, ∀ e' ∈ names'.entries, e'.version = e.version → e'.name = e.name →
          e'.aliases.length = e.aliases.length
            ∧ (e'.primary :: e'.aliases.map Prod.fst).Perm (e.primary :: e.aliases.map Prod.fst)
            ∧ (e.name ≠ pinned → e'.primary = e.primary
                ∧ e'.aliases.map Prod.fst = e.aliases.map Prod.fst))
      ∧ (∀ id < m.types.size, (m.type id).name ≠ pinned → ¬ GoesOn pinned (m.type id).name →
          names'.name id = names.name id)
      ∧ ∀ version,
          (∀ id ∈ m.typesOf version, (m.type id).name ≠ pinned → names'.name id = names.name id)
            ↔ ∀ id ∈ m.typesOf version, (m.type id).name ≠ pinned →
                ∀ s, Tried m id (names.name id) s →
                  (s ∈ (m.find version pinned).map names.name
                    ↔ s ∈ (m.find version pinned).map names'.name) := by
  intro names names'
  refine ⟨map_key_entries.trans map_key_entries.symm, fun e he e' he' hversion hname => ?_,
    fun id hlt hne hnot => name_eq_of_not_goesOn h hlt hne hnot, names_eq_iff h⟩
  have hperm : (e'.primary :: e'.aliases.map Prod.fst).Perm
      (e.primary :: e.aliases.map Prod.fst) := by
    have hfind := types_perm he'
    rw [hversion, hname] at hfind
    exact hfind.trans (types_perm he).symm
  have hlength : e'.aliases.length = e.aliases.length := by
    have hcons := hperm.length_eq
    simpa using hcons
  refine ⟨hlength, hperm, fun hne => ?_⟩
  obtain ⟨-, hprimary, hids⟩ := entriesOf_ids _ _ (mem_entries.mp he)
  obtain ⟨-, hprimary', hids'⟩ := entriesOf_ids _ _ (mem_entries.mp he')
  rw [hversion, hname, primary_congr h hne] at hprimary' hids'
  exact ⟨hprimary'.trans hprimary.symm, hids'.trans hids.symm⟩

/-- Events of two groups, and two types whose aliases may be one that an event takes. -/
def nestedEvents : Swagger.Document where
  definitions :=
    [ ("example.apps-k8s.v1.Event", .mk { type := some "object" } [] none none),
      ("example.events.v1.Event", .mk { type := some "object" } [] none none),
      ("example.core.v1.Event_apps", .mk { type := some "object" } [] none none),
      ("example.k8s.v1.Event_apps", .mk { type := some "object" } [] none none) ]

/-- A preference for one of the events moves the alias of a type of another simple name. -/
theorem reach_of_preference_nestedEvents :
    let m := (Ingest.ingest "rel" nestedEvents).1
    let preferred : Preferences := .ofList [("Event", ["events"])]
    (∀ name ≠ "Event", preferred.get? name = Table.get? ({} : Preferences) name)
      ∧ (resolve m preferred).entries.map (fun e => (e.version, e.name))
        = [("v1", "Event"), ("v1", "Event_apps")]
      ∧ (resolve m {}).resolved = #["Event", "Event_events", "Event_apps", "Event_apps_k8s"]
      ∧ (resolve m preferred).resolved
        = #["Event_apps_k8s", "Event", "Event_apps", "Event_apps_k8s_2"] := by
  intro m preferred
  have hversions : m.versions = ["v1"] := by decide +kernel
  have hsimple : simpleNames m "v1" = ["Event", "Event_apps"] := by decide +kernel
  have hevent : members m "v1" "Event" = [0, 1] := by
    have hfind : m.find "v1" "Event" = [0, 1] := by decide +kernel
    rw [members, hfind]
    exact List.mergeSort_of_pairwise (by decide +kernel)
  have happs : members m "v1" "Event_apps" = [2, 3] := by
    have hfind : m.find "v1" "Event_apps" = [2, 3] := by decide +kernel
    rw [members, hfind]
    exact List.mergeSort_of_pairwise (by decide +kernel)
  have hdefault : (resolve m {}).entries = [⟨"v1", "Event", 0, [(1, "Event_events")]⟩,
        ⟨"v1", "Event_apps", 2, [(3, "Event_apps_k8s")]⟩]
      ∧ (resolve m {}).resolved = #["Event", "Event_events", "Event_apps", "Event_apps_k8s"] := by
    unfold resolve
    rw [hversions, List.flatMap_singleton, hsimple]
    unfold entriesOf entriesOf entriesOf entryOf
    rw [hevent, happs]
    decide +kernel
  have hpreferred : (resolve m preferred).resolved
      = #["Event_apps_k8s", "Event", "Event_apps", "Event_apps_k8s_2"] := by
    unfold resolve
    rw [hversions, List.flatMap_singleton, hsimple]
    unfold entriesOf entriesOf entriesOf entryOf
    rw [hevent, happs]
    decide +kernel
  have hother : ∀ name ≠ "Event", preferred.get? name = Table.get? ({} : Preferences) name := by
    intro name hne
    exact Table.get?_insert.trans (if_neg hne)
  obtain ⟨hkeys, -⟩ := reach_of_preference m {} preferred "Event" hother
  refine ⟨hother, ?_, hdefault.2, hpreferred⟩
  rw [hkeys, hdefault.1]
  rfl

end Names

end ApiModels
