import ApiModels.Proofs.Patterns
import ApiModels.Proofs.Table
import ApiModels.Registry.Kinds

/-!
# What a registry of kinds holds

A registry is filled by calls, each of which may fail. What it holds is settled by the calls that
succeeded: for each pair of markers the type of the last of them. A call that fails is as if it had
not been made. Whether a call succeeds depends on its markers alone.

So the registry and the list of calls that succeeded are followed side by side. A call with markers
that pass lengthens the list and puts its type in front of the registry, any older one with the same
markers being taken out; so no markers occur twice, and the registry is as large as there are
markers.
-/

namespace ApiModels

open Text (Matches versionPattern)

/-- The part of an api version behind its last slash, which is the whole of one without a slash. -/
def IsVersionPart (apiVersion part : String) : Prop :=
  '/' ∉ part.toList ∧ (apiVersion = part ∨ ∃ group, apiVersion = group ++ "/" ++ part)

/-- Markers with a kind, and an api version that ends in a version. -/
def Markers.AreValid (m : Markers) : Prop :=
  m.kind ≠ "" ∧ ∃ version, IsVersionPart m.apiVersion version ∧ Matches versionPattern version

/-- A type that is to be registered. -/
structure Registration where
  markers : Markers
  typeName : String
deriving DecidableEq, Repr

/-- What a call to register a type answers, and the registry that it leaves. -/
def Registration.run (c : Registration) (r : KindRegistry) :
    Except MarkerFault Unit × KindRegistry :=
  (KindRegistry.registering c.markers c.typeName).run.run r

namespace KindRegistry

/-- The registry after some calls. -/
def after (r : KindRegistry) (calls : List Registration) : KindRegistry :=
  calls.foldl (fun r c => (c.run r).2) r

/-- Those of some calls that succeed. -/
def succeeded (r : KindRegistry) : List Registration → List Registration
  | [] => []
  | c :: calls =>
    match c.run r with
    | (.ok (), r') => c :: r'.succeeded calls
    | (.error _, r') => r'.succeeded calls

end KindRegistry

variable {m : Markers} {c : Registration} {r : KindRegistry} {calls done : List Registration}

/-! ## Checking markers -/

theorem splitApiVersion_snd_eq_iff {apiVersion part : String} :
    (splitApiVersion apiVersion).2 = part ↔ IsVersionPart apiVersion part := by
  have hwhole {s : String} (h : '/' ∉ s.toList) : (splitApiVersion s).2 = s := by
    unfold splitApiVersion Text.splitLast?
    rw [Text.pieces_single h]
    rfl
  have hbehind {group part : String} (h : '/' ∉ part.toList) :
      (splitApiVersion (group ++ "/" ++ part)).2 = part := by
    have hlist : group ++ "/" ++ part = String.ofList (group.toList ++ '/' :: part.toList) := by
      rw [← String.toList_inj]
      simp
    rw [splitApiVersion, hlist, Text.splitLast?_append h, Option.getD_some]
    exact String.ofList_toList
  constructor
  · rintro rfl
    by_cases h : '/' ∈ apiVersion.toList
    · -- the last slash is the first one from behind
      obtain ⟨last, first, hcut, hlast⟩ := List.eq_append_cons_of_mem (List.mem_reverse.mpr h)
      have hpart : '/' ∉ (String.ofList last.reverse).toList := by simpa using hlast
      have heq : apiVersion = String.ofList first.reverse ++ "/" ++ String.ofList last.reverse := by
        rw [← String.toList_inj, ← List.reverse_reverse apiVersion.toList, hcut]
        simp
      rw [heq, hbehind hpart]
      exact ⟨hpart, .inr ⟨_, rfl⟩⟩
    · rw [hwhole h]
      exact ⟨h, .inl rfl⟩
  · rintro ⟨h, rfl | ⟨group, rfl⟩⟩
    · exact hwhole h
    · exact hbehind h

theorem Markers.areValid_iff :
    m.AreValid ↔ m.kind ≠ "" ∧ isVersion (splitApiVersion m.apiVersion).2 = true := by
  refine and_congr_right fun _ => ?_
  constructor
  · rintro ⟨version, hpart, hversion⟩
    rw [splitApiVersion_snd_eq_iff.mpr hpart]
    exact Text.isVersion_iff_matches.mpr hversion
  · intro h
    exact ⟨_, splitApiVersion_snd_eq_iff.mp rfl, Text.isVersion_iff_matches.mp h⟩

instance : Decidable m.AreValid := decidable_of_iff _ Markers.areValid_iff.symm

/-- **Markers pass exactly if they are valid.** -/
theorem Markers.check_eq_ok_iff : m.check = .ok () ↔ m.AreValid := by
  rw [Markers.areValid_iff, Markers.check]
  by_cases hkind : m.kind = ""
  · rw [if_pos (String.isEmpty_iff.mpr hkind)]
    exact iff_of_false (by simp) fun h => h.1 hkind
  · rw [if_neg (mt String.isEmpty_iff.mp hkind)]
    by_cases hversion : m.apiVersion = ""
    · -- the empty text is no version either
      rw [if_pos (String.isEmpty_iff.mpr hversion), hversion]
      exact iff_of_false (by simp) fun h => absurd h.2 (by decide)
    · rw [if_neg (mt String.isEmpty_iff.mp hversion)]
      split
      · rename_i h
        exact iff_of_true rfl ⟨hkind, h⟩
      · rename_i h
        exact iff_of_false (by simp) fun hvalid => h hvalid.2

/-- What stands before the last slash does not matter, and a version has to stand behind it. -/
example : (⟨"a/b/v2beta10", "Nested"⟩ : Markers).AreValid
    ∧ ¬ (⟨"v1/", "Slash"⟩ : Markers).AreValid := by
  decide

/-! ## One call -/

namespace Registration

/-- A call with valid markers succeeds, and its type is in place of any other with its markers. -/
theorem run_of_valid (h : c.markers.AreValid) :
    c.run r = (.ok (), ⟨(c.markers, c.typeName) :: r.kinds.filter fun e => e.1 ≠ c.markers⟩) := by
  unfold run KindRegistry.registering
  rw [Markers.check_eq_ok_iff.mpr h]
  rfl

/-- A call with other markers fails, and the registry is as it was. -/
theorem run_of_invalid (h : ¬ c.markers.AreValid) : ∃ fault, c.run r = (.error fault, r) := by
  cases hcheck : c.markers.check with
  | ok =>
    exact absurd (Markers.check_eq_ok_iff.mp hcheck) h
  | error fault =>
    refine ⟨fault, ?_⟩
    unfold run KindRegistry.registering
    rw [hcheck]
    rfl

theorem run_eq_ok_iff : (c.run r).1 = .ok () ↔ c.markers.AreValid := by
  by_cases h : c.markers.AreValid
  · rw [run_of_valid h]
    exact iff_of_true rfl h
  · obtain ⟨fault, hrun⟩ := run_of_invalid (r := r) h
    rw [hrun]
    exact iff_of_false (by simp) h

end Registration

/-! ## A run of calls -/

namespace KindRegistry

/-- The type of the last of some calls with given markers. -/
def lastType? (done : List Registration) (m : Markers) : Option String :=
  ((done.filter fun c => c.markers = m).getLast?).map (·.typeName)

/-- What holds of a registry that some calls have filled. -/
structure IsFilledBy (r : KindRegistry) (done : List Registration) : Prop where
  /-- No markers occur twice. -/
  nodup : (r.kinds.map Prod.fst).Nodup
  /-- The markers are those of the calls. -/
  mem : ∀ m, m ∈ r.kinds.map Prod.fst ↔ m ∈ done.map (·.markers)
  /-- The type is that of the last call with the markers. -/
  lookup : ∀ m, r.lookup m = lastType? done m

theorem isFilledBy_empty : IsFilledBy {} [] where
  nodup := List.nodup_nil
  mem := fun _ => Iff.rfl
  lookup := fun _ => rfl

/-- Taking out an entry leaves those with other markers. -/
theorem mem_map_filter_ne {m' : Markers} {kinds : List (Markers × String)} (h : m ≠ m') :
    m ∈ (kinds.filter fun e => e.1 ≠ m').map Prod.fst ↔ m ∈ kinds.map Prod.fst := by
  rw [List.mem_map, List.mem_map]
  constructor
  · rintro ⟨e, he, rfl⟩
    exact ⟨e, List.mem_of_mem_filter he, rfl⟩
  · rintro ⟨e, he, rfl⟩
    exact ⟨e, List.mem_filter.mpr ⟨he, by simpa using h⟩, rfl⟩

theorem lookup_filter_ne {m' : Markers} {kinds : List (Markers × String)} (h : m ≠ m') :
    (kinds.filter fun e => e.1 ≠ m').lookup m = kinds.lookup m := by
  induction kinds with
  | nil => rfl
  | cons e kinds ih =>
    obtain ⟨k, typeName⟩ := e
    by_cases hk : k = m'
    · rw [List.filter_cons_of_neg (by simpa using hk), ih, Table.lookup_cons_eq,
        if_neg fun heq => h (heq.trans hk)]
    · rw [List.filter_cons_of_pos (by simpa using hk), Table.lookup_cons_eq, Table.lookup_cons_eq,
        ih]

theorem lastType?_concat :
    lastType? (done ++ [c]) m = if m = c.markers then some c.typeName else lastType? done m := by
  unfold lastType?
  rw [List.filter_append]
  split
  · rename_i h
    rw [List.filter_cons_of_pos (by simpa using h.symm), List.filter_nil, List.getLast?_concat]
    rfl
  · rename_i h
    rw [List.filter_cons_of_neg (by simpa using Ne.symm h), List.filter_nil, List.append_nil]

/-- **A call that succeeds keeps the registry filled** by the calls that succeeded. -/
theorem IsFilledBy.concat (h : IsFilledBy r done) :
    IsFilledBy ⟨(c.markers, c.typeName) :: r.kinds.filter fun e => e.1 ≠ c.markers⟩
      (done ++ [c]) where
  nodup := by
    have hsub : ((r.kinds.filter fun e => e.1 ≠ c.markers).map Prod.fst).Sublist
        (r.kinds.map Prod.fst) := List.filter_sublist.map Prod.fst
    refine List.nodup_cons.mpr ⟨?_, h.nodup.sublist hsub⟩
    simp
  mem := by
    intro m
    rw [List.map_cons, List.mem_cons, List.map_append, List.mem_append, List.map_singleton,
      List.mem_singleton]
    by_cases heq : m = c.markers
    · exact iff_of_true (.inl heq) (.inr heq)
    · rw [mem_map_filter_ne heq, h.mem m]
      simp [heq]
  lookup := by
    intro m
    show List.lookup m ((c.markers, c.typeName) :: _) = _
    rw [Table.lookup_cons_eq, lastType?_concat]
    split
    · rfl
    · rename_i hne
      rw [lookup_filter_ne hne]
      exact h.lookup m

theorem IsFilledBy.size_eq (h : IsFilledBy r done) :
    r.size = (done.map (·.markers)).toFinset.card := by
  have hfinset : (done.map (·.markers)).toFinset = (r.kinds.map Prod.fst).toFinset := by
    ext m
    rw [List.mem_toFinset, List.mem_toFinset, h.mem]
  rw [hfinset, List.toFinset_card_of_nodup h.nodup, List.length_map]
  rfl

/-- A run of calls fills a registry by those that succeed. -/
theorem IsFilledBy.after (h : IsFilledBy r done) (calls : List Registration) :
    IsFilledBy (r.after calls) (done ++ r.succeeded calls) := by
  induction calls generalizing r done with
  | nil =>
    rw [succeeded, List.append_nil]
    exact h
  | cons c calls ih =>
    rw [KindRegistry.after, List.foldl_cons, succeeded]
    by_cases hc : c.markers.AreValid
    · -- the registry grows in front, the list of calls at its end
      rw [Registration.run_of_valid hc]
      have hrest := ih (h.concat (c := c))
      rwa [List.append_assoc] at hrest
    · obtain ⟨fault, hrun⟩ := Registration.run_of_invalid (r := r) hc
      rw [hrun]
      exact ih h

/--
**What a registry answers after any calls.**

After any calls a further one succeeds exactly if its markers are valid, and if it fails the
registry is as it was. Looking up markers gives the type of the last call with them that succeeded,
and nothing if there is none. The size is the number of different markers among the calls that
succeeded.
-/
theorem registry_after_calls (calls : List Registration) :
    (∀ c : Registration, ((c.run (after {} calls)).1 = .ok () ↔ c.markers.AreValid)
        ∧ ∀ fault, (c.run (after {} calls)).1 = .error fault →
          (c.run (after {} calls)).2 = after {} calls)
      ∧ (∀ apiVersion kind, (after {} calls).lookup ⟨apiVersion, kind⟩
        = lastType? (succeeded {} calls) ⟨apiVersion, kind⟩)
      ∧ (after {} calls).size = ((succeeded {} calls).map (·.markers)).toFinset.card := by
  have hfilled : IsFilledBy (after {} calls) (succeeded {} calls) := by
    simpa using isFilledBy_empty.after calls
  refine ⟨fun c => ⟨Registration.run_eq_ok_iff, ?_⟩, fun _ _ => hfilled.lookup _, hfilled.size_eq⟩
  intro fault hfault
  have hinvalid : ¬ c.markers.AreValid := by
    rw [← Registration.run_eq_ok_iff (r := after {} calls), hfault]
    simp
  obtain ⟨_, hrun⟩ := Registration.run_of_invalid (r := after {} calls) hinvalid
  rw [hrun]

/-- Two types with the same markers, one of the core group, and one with two slashes; then a type
whose api version ends in a slash, which fails and changes nothing. -/
theorem registry_after_calls_twins :
    let calls : List Registration :=
      [ ⟨⟨"example.io/v1alpha1", "Good"⟩, "Good"⟩, ⟨⟨"v1", ""⟩, "NoKind"⟩, ⟨⟨"v1", "Core"⟩, "Core"⟩,
        ⟨⟨"example.io/v1alpha1", "Good"⟩, "GoodTwin"⟩, ⟨⟨"v1/stable", "Core"⟩, "Stable"⟩,
        ⟨⟨"a/b/v2beta10", "Core"⟩, "Nested"⟩ ]
    let c : Registration := ⟨⟨"v1/", "Core"⟩, "Slash"⟩
    (c.run (after {} calls)).1 = .error (.noVersion "v1/")
      ∧ (c.run (after {} calls)).2 = after {} calls
      ∧ (after {} calls).lookup ⟨"example.io/v1alpha1", "Good"⟩ = some "GoodTwin"
      ∧ (after {} calls).lookup ⟨"v1/stable", "Core"⟩ = none
      ∧ (after {} calls).size = 3 := by
  intro calls c
  obtain ⟨hcall, hlookup, hsize⟩ := registry_after_calls calls
  have herror : (c.run (after {} calls)).1 = .error (.noVersion "v1/") := by decide
  refine ⟨herror, (hcall c).2 _ herror, ?_, ?_, ?_⟩
  · rw [hlookup]
    decide
  · rw [hlookup]
    decide
  · rw [hsize]
    decide

end KindRegistry

end ApiModels
