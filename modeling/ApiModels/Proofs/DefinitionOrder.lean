import ApiModels.Proofs.RenumberedOrder

/-!
# The order of definitions does not matter

Two documents that differ in no more than the order of their definitions come out alike: the same
definitions have the same names, are left out and are split, and where the names of items differ,
every version comes in the same order.
-/

namespace ApiModels

/-- An item by the key of its type and whether it is a plain item, a base or a derived type. -/
def Emit.byKey (m : ReleaseModel) (e : Emit) : String × Nat := ((m.type e.id).key, e.rank)

/-- A split by the keys of its types. -/
def Split.byKey (m : ReleaseModel) (s : Split) : String × String × String × List Nat :=
  ((m.type s.target).key, (m.type s.partner).key, s.baseName, s.closing)

namespace Order

open ReleaseModel

variable {σ : Equiv.Perm TypeId} {m m' : ReleaseModel} {names names' : Names}
  {excluded excluded' : List TypeId} {splits splits' : List Split} {version : String}

theorem byKey_renumber (h : Renumbered σ m m') (e : Emit) :
    (e.renumber σ).byKey m' = e.byKey m := by
  unfold Emit.byKey
  rw [Emit.id_renumber, Emit.rank_renumber, h.typeKey]

theorem map_byKey_items (h : Renumbered σ m m') {es es' : List Emit}
    (hperm : es'.Perm (es.map (Emit.renumber σ))) :
    (es'.map (Emit.byKey m')).Perm (es.map (Emit.byKey m)) := by
  refine (hperm.map _).trans (List.Perm.of_eq ?_)
  rw [List.map_map]
  exact List.map_congr_left fun e _ => byKey_renumber h e

theorem map_byKey_splits (h : Renumbered σ m m')
    (hperm : splits'.Perm (splits.map (Split.renumber σ))) :
    (splits'.map (Split.byKey m')).Perm (splits.map (Split.byKey m)) := by
  refine (hperm.map _).trans (List.Perm.of_eq ?_)
  rw [List.map_map]
  refine List.map_congr_left fun s _ => ?_
  unfold Split.byKey Split.renumber
  dsimp only [Function.comp_apply]
  rw [h.typeKey, h.typeKey]

/-! ## One version -/

/-- The items released are those pending. -/
theorem Settled.released_perm (h : Settled m excluded splits) (names : Names) (version : String) :
    (releasedOf m names excluded splits version).1.Perm
      ((pendingOf m excluded splits version).map (·.item)) :=
  ((h.founded version).release (precedes names splits) (Nat.le_refl _)).2.perm

section

variable (h : Renumbered σ m m') (hs : Settled m excluded splits)
  (hs' : Settled m' excluded' splits') (hex : ∀ u, σ u ∈ excluded' ↔ u ∈ excluded)
  (hsplit : ∀ u, splitOf? splits' (σ u) = (splitOf? splits u).map (Split.renumber σ))

include h hex hsplit

theorem splits_of_version_perm (version : String) :
    ((kept m' excluded' version).filterMap (splitOf? splits')).Perm
      (((kept m excluded version).filterMap (splitOf? splits)).map (Split.renumber σ)) := by
  refine ((kept_perm h hex version).filterMap _).trans (List.Perm.of_eq ?_)
  rw [List.filterMap_map, List.map_filterMap]
  exact List.filterMap_congr fun u _ => hsplit u

include hs

include hs' in
/-- A version has the same items under any numbers. -/
theorem released_renumber_perm (names names' : Names) (version : String) :
    (releasedOf m' names' excluded' splits' version).1.Perm
      ((releasedOf m names excluded splits version).1.map (Emit.renumber σ)) := by
  have hpending := (pendingOf_perm h hex hsplit version).map (·.item)
  rw [map_item_renumber] at hpending
  exact (hs'.released_perm names' version).trans
    (hpending.trans ((hs.released_perm names version).map _).symm)

/-- **Where their names differ, the items come in the same order.** -/
theorem released_renumber (hname : ∀ id, names'.name (σ id) = names.name id)
    (hdiffer : ((releasedOf m names excluded splits version).1.map
      (itemName names splits)).Nodup) :
    (releasedOf m' names' excluded' splits' version).1
      = (releasedOf m names excluded splits version).1.map (Emit.renumber σ) := by
  have htext := itemName_renumber hsplit hname
  have hpending := pendingOf_perm h hex hsplit version
  have hitems := (hpending.map (·.item)).trans (List.Perm.of_eq (map_item_renumber _))
  have hnodup : (((pendingOf m excluded splits version).map (·.item)).map
      (itemName names splits)).Nodup :=
    ((hs.released_perm names version).map _).nodup_iff.mp hdiffer
  have hnodup' : (((pendingOf m' excluded' splits' version).map (·.item)).map
      (itemName names' splits')).Nodup := by
    have hsame : itemName names' splits' ∘ Emit.renumber σ = itemName names splits := funext htext
    refine (hitems.map _).nodup_iff.mpr ?_
    rw [List.map_map, hsame]
    exact hnodup
  have hlength : (pendingOf m' excluded' splits' version).length
      = (pendingOf m excluded splits version).length := by
    rw [hpending.length_eq, List.length_map]
  unfold releasedOf
  rw [hlength]
  exact release_renumber (ranked_precedes hnodup) (ranked_precedes hnodup') hpending
    (fun e _ => htext e) _

end

/-! ## Releases -/

/--
**The order of definitions does not matter.**

Let two documents have the same paths, and the same definitions in some order, with distinct keys.
Then with the same preferences every key has the same name in both; the same keys are left out; and
the same types are split, with the same partner, the same name of the base and the same properties
that close the cycle. Every version has the same items and splits, and if no two of its items have
one name, they come in the same order.
-/
theorem output_of_perm (label : String) (preferences : Preferences)
    {doc doc' : Swagger.Document} (hpaths : doc'.paths = doc.paths)
    (hperm : doc.definitions.Perm doc'.definitions)
    (hnodup : (doc.definitions.map Prod.fst).Nodup) :
    let m := (Ingest.ingest label doc).1
    let m' := (Ingest.ingest label doc').1
    let names := Names.resolve m preferences
    let names' := Names.resolve m' preferences
    let o := (ofModel m names).1
    let o' := (ofModel m' names').1
    (∀ key, (m'.findKey? key).map names'.name = (m.findKey? key).map names.name)
      ∧ (o'.excluded.map fun id => (m'.type id).key).Perm
          (o.excluded.map fun id => (m.type id).key)
      ∧ (o'.splits.map (Split.byKey m')).Perm (o.splits.map (Split.byKey m))
      ∧ List.Forall₂ (fun v v' : VersionOrder =>
          v'.version = v.version
            ∧ (v'.splits.map (Split.byKey m')).Perm (v.splits.map (Split.byKey m))
            ∧ (v'.items.map (Emit.byKey m')).Perm (v.items.map (Emit.byKey m))
            ∧ ((v.items.map (itemName names o.splits)).Nodup →
                v'.items.map (Emit.byKey m') = v.items.map (Emit.byKey m)))
          o.versions o'.versions := by
  intro m m' names names' o o'
  -- Another order of the definitions gives their types other numbers, and no more.
  obtain ⟨σ, h⟩ := Ingest.exists_renumbered label hpaths hperm hnodup
  have hm : m.Closed := Ingest.closed
  have hkeys : m.DistinctKeys := Ingest.distinctKeys hnodup
  have hname : ∀ id, names'.name (σ id) = names.name id := Names.name_renumber h hkeys preferences
  have hex : ∀ u, σ u ∈ o'.excluded ↔ u ∈ o.excluded :=
    fun u => mem_excluded_renumber h hm names names'
  have hsplit := splitOf?_renumber h hkeys hm preferences
  have hs : Settled m o.excluded o.splits := (ofModel_sorted names hm).1.settled
  have hs' : Settled m' o'.excluded o'.splits := (ofModel_sorted names' (h.closed hm)).1.settled
  refine ⟨fun key => ?_, ?_, map_byKey_splits h (splits_perm h hkeys hm preferences), ?_⟩
  · rw [h.findKey? hkeys, Option.map_map]
    exact congrArg (Option.map · _) (funext hname)
  · refine ((excluded_perm h hm names names').map _).trans (List.Perm.of_eq ?_)
    rw [List.map_map]
    exact List.map_congr_left fun id _ => h.typeKey id
  · have hversions := ofModel_versions names hm
    have hversions' := ofModel_versions names' (h.closed hm)
    rw [h.versions] at hversions'
    rw [hversions, hversions', List.forall₂_map_left_iff, List.forall₂_map_right_iff]
    refine List.forall₂_same.mpr fun version _ => ⟨rfl, ?_, ?_, fun hdiffer => ?_⟩
    · exact map_byKey_splits h (splits_of_version_perm h hex hsplit version)
    · exact map_byKey_items h (released_renumber_perm h hs hs' hex hsplit names names' version)
    · dsimp only
      rw [released_renumber h hs hex hsplit hname hdiffer, List.map_map]
      exact List.map_congr_left fun e _ => byKey_renumber h e

/-- Two types of one simple name, one of which refers to the other. -/
def linkedEvents : Swagger.Document where
  definitions :=
    [ ("io.k8s.api.core.v1.Event", .mk { type := some "object" }
        [("related", .mk { reference := some "#/definitions/io.k8s.api.events.v1.Event" }
          [] none none)] none none),
      ("io.k8s.api.events.v1.Event", .mk { type := some "object" } [] none none) ]

/-- Whichever event is defined first, it is the same one that goes by an alias, and comes first. -/
theorem output_of_perm_linkedEvents :
    let doc' := { linkedEvents with definitions := linkedEvents.definitions.reverse }
    let m' := (Ingest.ingest "rel" doc').1
    let names' := Names.resolve m' {}
    doc'.definitions.map Prod.fst ≠ linkedEvents.definitions.map Prod.fst
      ∧ (m'.findKey? "io.k8s.api.events.v1.Event").map names'.name = some "Event_events"
      ∧ (ofModel m' names').1.versions.map (fun v => v.items.map (Emit.byKey m'))
        = [[("io.k8s.api.events.v1.Event", 0), ("io.k8s.api.core.v1.Event", 0)]] := by
  intro doc' m' names'
  let m := (Ingest.ingest "rel" linkedEvents).1
  -- One order is evaluated, stage by stage, as sorting does not compute; the other comes out alike.
  have hentries : Names.entriesOf m {} "v1" (Names.simpleNames m "v1") (Names.simpleNames m "v1")
      = [⟨"v1", "Event", 0, [(1, "Event_events")]⟩] := by
    have hmembers : Names.members m "v1" "Event" = [0, 1] := by
      have hfind : m.find "v1" "Event" = [0, 1] := by decide +kernel
      rw [Names.members, hfind]
      exact List.mergeSort_of_pairwise (by decide +kernel)
    have hsimple : Names.simpleNames m "v1" = ["Event"] := by decide +kernel
    rw [hsimple]
    unfold Names.entriesOf Names.entryOf
    rw [hmembers]
    decide +kernel
  have hnames : Names.resolve m {}
      = ⟨[⟨"v1", "Event", 0, [(1, "Event_events")]⟩], #["Event", "Event_events"]⟩ := by
    have hversions : m.versions = ["v1"] := by decide +kernel
    unfold Names.resolve
    rw [hversions, List.flatMap_singleton, hentries]
    rfl
  have hcycles : cycles m (Names.resolve m {}) = [] := by
    have hnodes : nodes m (Names.resolve m {}) = [0, 1] := by
      have hall : m.versions.flatMap m.typesOf = [0, 1] := by decide +kernel
      rw [nodes, hall, hnames]
      exact List.mergeSort_of_pairwise (by decide +kernel)
    unfold cycles
    rw [hnodes, hnames]
    decide +kernel
  have hitems : (ofModel m (Names.resolve m {})).1.versions.map (·.items)
      = [[.plain 1, .plain 0]] := by
    unfold ofModel
    rw [hcycles, hnames]
    decide +kernel
  obtain ⟨v, hversion, hv⟩ := List.map_eq_singleton_iff.mp hitems
  have hpaths : doc'.paths = linkedEvents.paths := rfl
  obtain ⟨hkeys, -, -, hversions⟩ :=
    output_of_perm "rel" {} hpaths (List.reverse_perm _).symm (by decide)
  refine ⟨by decide, ?_, ?_⟩
  · rw [hkeys, hnames]
    decide +kernel
  · rw [hversion] at hversions
    obtain ⟨v', vs', ⟨-, -, -, hsame⟩, hnone, hversion'⟩ := List.forall₂_cons_left_iff.mp hversions
    rw [List.forall₂_nil_left_iff.mp hnone] at hversion'
    rw [hversion', List.map_singleton, hsame ?_, hv]
    · decide +kernel
    · rw [hv, hnames]
      decide +kernel

end Order

end ApiModels
