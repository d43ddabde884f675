import ApiModels.Proofs.Containment
import ApiModels.Proofs.GeneratedMethods

/-!
# Names of the items of a version

The module of a version declares its two inner modules and its items, each under the identifier made
of the item's name. Types of a version differ in their names. The base of a split type has a name
made of the type's own, which gives way once if a type has it already. Nothing looks whether the
second choice is free, nor at other bases, nor at the inner modules, nor whether names that differ
make one identifier.

Whatever is declared twice comes of one of these. Two items have one name exactly if they *meet*: a
base that gave way meets a type, or a base that did not.
-/

namespace ApiModels

namespace Order

open ReleaseModel Relation

variable {m : ReleaseModel} {names : Names} {s : Split}

/-- The splits of a model come from its cycles. -/
theorem mem_splits_ofModel (h : s ∈ (ofModel m names).1.splits) :
    ∃ t p, [t, p] ∈ cycles m names ∧ s = splitFor m names t p := by
  obtain ⟨t, p, hc, -, -, rfl⟩ := mem_splitsFor h
  exact ⟨t, p, (List.mem_filter.mp hc).1, rfl⟩

/-- A type of a cycle has a property, by which it refers to the next. -/
theorem exists_property_of_cycle {t p : TypeId} (hm : m.Closed) (hc : [t, p] ∈ cycles m names) :
    ∃ q, q ∈ (m.type t).properties := by
  obtain ⟨-, hnodup, hmem⟩ := cycle_eq_component hm hc
  have hne : t ≠ p := by
    rintro rfl
    simp at hnodup
  have hreaches : m.Reaches t p := (((hmem t List.mem_cons_self).2 p).mp (by simp)).1
  rcases ReflTransGen.cases_head hreaches with heq | ⟨v, hv, -⟩
  · exact absurd heq hne
  · obtain ⟨q, hq, -⟩ := List.mem_filterMap.mp hv
    exact ⟨q, hq⟩

end Order

namespace Generated

open ApiModels.Order ReleaseModel
open Source (Ident IsPlain unusable)

variable {b : Build} {version : String} {e f : Emit} {id u : TypeId}

/-! ## Bases that meet -/

/-- A type of its version has the name that the base of a type has by default. -/
def Crowded (b : Build) (id : TypeId) : Prop :=
  ∃ t ∈ b.model.typesOf (b.model.type id).version, b.names.name t = b.names.name id ++ "Base"

/-- What has the name of a base: a type, or the base of another type. -/
inductive Meets (b : Build) : Emit → Emit → Prop where
  | type {id : TypeId} {e : Emit} : Crowded b id → e.isBase = false →
      b.names.name e.id = b.names.name id ++ "SplitBase" → Meets b (.base id) e
  | base {id u : TypeId} : Crowded b id → ¬ Crowded b u →
      b.names.name u = b.names.name id ++ "Split" → Meets b (.base id) (.base u)

/-- No item meets itself. -/
theorem Meets.ne (h : Meets b e f) : e ≠ f := by
  rintro rfl
  cases h with
  | type _ hnot _ => cases hnot
  | base hcrowded hnot _ => exact hnot hcrowded

/-- The name an item comes out under. -/
def nameOf (b : Build) (e : Emit) : String := itemName b.names b.order.splits e

theorem nameOf_of_not_isBase (h : e.isBase = false) : nameOf b e = b.names.name e.id := by
  cases e with
  | base id => cases h
  | plain id => rfl
  | derived id => rfl

theorem baseName_of_crowded (h : Crowded b id) :
    baseName b.model b.names id = b.names.name id ++ "SplitBase" := by
  obtain ⟨t, ht, hname⟩ := h
  unfold baseName
  exact if_pos (List.any_eq_true.mpr ⟨t, ht, by rw [hname]; exact beq_self_eq_true _⟩)

theorem baseName_of_not_crowded (h : ¬ Crowded b id) :
    baseName b.model b.names id = b.names.name id ++ "Base" := by
  unfold baseName
  refine if_neg fun hany => h ?_
  obtain ⟨t, ht, hname⟩ := List.any_eq_true.mp hany
  exact ⟨t, ht, eq_of_beq hname⟩

/-- What is known of the names of a build: types of a version differ in theirs, and bases are named
after theirs. -/
structure WellNamed (b : Build) : Prop where
  sorted : Sorted b.model b.order
  distinct : ∀ i < b.model.types.size, ∀ j < b.model.types.size,
    (b.model.type i).version = (b.model.type j).version → b.names.name i = b.names.name j → i = j
  base : ∀ s ∈ b.order.splits, s.baseName = baseName b.model b.names s.target
  /-- What is split has fields. -/
  object : ∀ s ∈ b.order.splits, (b.model.type s.target).kind = .object

theorem wellNamed_ofDocument (config : ReleaseConfig) (doc : Swagger.Document) :
    WellNamed (Build.ofDocument config doc) where
  sorted := Build.ofDocument_sorted config doc
  distinct _ hi _ hj := Names.name_injective hi hj
  base s hs := by
    obtain ⟨t, p, -, rfl⟩ := mem_splits_ofModel hs
    rfl
  object s hs := by
    obtain ⟨t, p, hc, rfl⟩ := mem_splits_ofModel hs
    obtain ⟨q, hq⟩ := exists_property_of_cycle Ingest.closed hc
    exact Ingest.kind_of_mem_properties hq

section

variable (hb : WellNamed b)

include hb

theorem WellNamed.nameOf_base (hitem : IsItem b.order.splits (.base id)) :
    nameOf b (.base id) = baseName b.model b.names id := by
  obtain ⟨s, hs⟩ := Option.isSome_iff_exists.mp hitem
  obtain ⟨hmem, rfl⟩ := mem_of_splitOf? hs
  unfold nameOf itemName
  dsimp only
  rw [hs]
  exact hb.base s hmem

/-- Items of a version other than bases differ in their names. -/
theorem WellNamed.eq_of_not_isBase (he : e ∈ b.items version) (hf : f ∈ b.items version)
    (hebase : e.isBase = false) (hfbase : f.isBase = false) (h : nameOf b e = nameOf b f) :
    e = f := by
  obtain ⟨hekept, heitem⟩ := (Build.mem_items hb.sorted).mp he
  obtain ⟨hfkept, hfitem⟩ := (Build.mem_items hb.sorted).mp hf
  obtain ⟨helt, hever, -⟩ := mem_kept.mp hekept
  obtain ⟨hflt, hfver, -⟩ := mem_kept.mp hfkept
  rw [nameOf_of_not_isBase hebase, nameOf_of_not_isBase hfbase] at h
  exact eq_of_id_eq heitem hfitem hebase hfbase
    (hb.distinct _ helt _ hflt (hever.trans hfver.symm) h)

/-- A base has the name of another kind of item if it gave way to that name. -/
theorem WellNamed.nameOf_base_eq_iff (hbase : .base id ∈ b.items version)
    (he : e ∈ b.items version) (hnot : e.isBase = false) :
    nameOf b (.base id) = nameOf b e ↔ Meets b (.base id) e := by
  have hitem := ((Build.mem_items hb.sorted).mp hbase).2
  rw [hb.nameOf_base hitem, nameOf_of_not_isBase hnot]
  constructor
  · intro h
    by_cases hcrowded : Crowded b id
    · rw [baseName_of_crowded hcrowded] at h
      exact .type hcrowded hnot h.symm
    · -- the type would have had the first choice already
      rw [baseName_of_not_crowded hcrowded] at h
      obtain ⟨helt, hever, -⟩ := mem_kept.mp ((Build.mem_items hb.sorted).mp he).1
      have hversion := Build.version_of_mem_items hb.sorted hbase
      exact absurd ⟨e.id, mem_typesOf.mpr ⟨helt, hever.trans hversion.symm⟩, h.symm⟩ hcrowded
  · intro h
    cases h with
    | type hcrowded _ hname => rw [baseName_of_crowded hcrowded, hname]
    | base _ _ _ => cases hnot

/-- Bases of two types have one name if just one of them gave way, to the other. -/
theorem WellNamed.nameOf_bases_eq_iff (hid : .base id ∈ b.items version)
    (hu : .base u ∈ b.items version) (hne : id ≠ u) :
    nameOf b (.base id) = nameOf b (.base u)
      ↔ Meets b (.base id) (.base u) ∨ Meets b (.base u) (.base id) := by
  obtain ⟨hidkept, hiditem⟩ := (Build.mem_items hb.sorted).mp hid
  obtain ⟨hukept, huitem⟩ := (Build.mem_items hb.sorted).mp hu
  obtain ⟨hidlt, hidver, -⟩ := mem_kept.mp hidkept
  obtain ⟨hult, huver, -⟩ := mem_kept.mp hukept
  have hnames : b.names.name id ≠ b.names.name u := fun h =>
    hne (hb.distinct _ hidlt _ hult (hidver.trans huver.symm) h)
  have hsplit (s : String) : s ++ "SplitBase" = s ++ "Split" ++ "Base" := by
    rw [String.append_assoc]
    rfl
  rw [hb.nameOf_base hiditem, hb.nameOf_base huitem]
  constructor
  · intro h
    by_cases hcid : Crowded b id
    · by_cases hcu : Crowded b u
      · rw [baseName_of_crowded hcid, baseName_of_crowded hcu, String.append_left_inj] at h
        exact absurd h hnames
      · rw [baseName_of_crowded hcid, baseName_of_not_crowded hcu, hsplit,
          String.append_left_inj] at h
        exact .inl (.base hcid hcu h.symm)
    · by_cases hcu : Crowded b u
      · rw [baseName_of_not_crowded hcid, baseName_of_crowded hcu, hsplit,
          String.append_left_inj] at h
        exact .inr (.base hcu hcid h)
      · rw [baseName_of_not_crowded hcid, baseName_of_not_crowded hcu,
          String.append_left_inj] at h
        exact absurd h hnames
  · rintro (h | h)
    · cases h with
      | type _ hnot _ => cases hnot
      | base hcid hcu hname =>
        rw [baseName_of_crowded hcid, baseName_of_not_crowded hcu, hname, hsplit]
    · cases h with
      | type _ hnot _ => cases hnot
      | base hcu hcid hname =>
        rw [baseName_of_crowded hcu, baseName_of_not_crowded hcid, hname, hsplit]

/-- **Items of a version have one name exactly if they meet.** -/
theorem WellNamed.nameOf_eq_iff (he : e ∈ b.items version) (hf : f ∈ b.items version)
    (hne : e ≠ f) : nameOf b e = nameOf b f ↔ Meets b e f ∨ Meets b f e := by
  have hnot {e f : Emit} (h : e.isBase = false) : ¬ Meets b e f := by
    rintro (_ | _)
    · cases h
    · cases h
  cases hebase : e.isBase with
  | false =>
    cases hfbase : f.isBase with
    | false =>
      refine ⟨fun h => absurd (hb.eq_of_not_isBase he hf hebase hfbase h) hne, ?_⟩
      exact fun h => (h.elim (hnot hebase) (hnot hfbase)).elim
    | true =>
      cases f with
      | plain u | derived u => cases hfbase
      | base u =>
        rw [eq_comm, hb.nameOf_base_eq_iff hf he hebase]
        exact ⟨.inr, fun h => h.resolve_left (hnot hebase)⟩
  | true =>
    cases e with
    | plain id | derived id => cases hebase
    | base id =>
      cases hfbase : f.isBase with
      | false =>
        rw [hb.nameOf_base_eq_iff he hf hfbase]
        exact ⟨.inl, fun h => h.resolve_right (hnot hfbase)⟩
      | true =>
        cases f with
        | plain u | derived u => cases hfbase
        | base u => exact hb.nameOf_bases_eq_iff he hf fun h => hne (congrArg Emit.base h)

end

/-! ## What a module declares -/

/-- The identifiers that some items declare, in order. -/
def declared (items : List Item) : List Ident := items.filterMap Item.name?

theorem declared_append (items more : List Item) :
    declared (items ++ more) = declared items ++ declared more := List.filterMap_append

theorem declared_rest :
    declared (documentItems b id ++ methodItems b version id ++ crudItems b id) = [] := by
  have hdocument : declared (documentItems b id) = [] := by
    unfold documentItems
    split
    · rfl
    · rfl
  have hmethods : declared (methodItems b version id) = [] := by
    unfold methodItems
    split
    · rfl
    · rfl
  have hcrud : declared (crudItems b id) = [] := by
    unfold crudItems
    split
    · rfl
    · rfl
  rw [declared_append, declared_append, hdocument, hmethods, hcrud]
  rfl

/-- **An item declares its identifier and nothing else.** -/
theorem WellNamed.declared_itemsOf (hb : WellNamed b) (version : String)
    (hitem : IsItem b.order.splits e) : declared (itemsOf b version e) = [itemIdent b e] := by
  unfold itemsOf
  dsimp only
  cases e with
  | plain id =>
    split
    · rfl
    · exact congrArg (List.cons (typeIdent b id)) declared_rest
  | base id =>
    obtain ⟨s, hs⟩ := Option.isSome_iff_exists.mp hitem
    obtain ⟨hmem, rfl⟩ := mem_of_splitOf? hs
    rw [show (b.model.type (Emit.base s.target).id).kind = .object from hb.object s hmem,
      show b.order.split? (Emit.base s.target).id = some s from hs, itemIdent_base hs]
    rfl
  | derived id =>
    obtain ⟨s, hs⟩ := Option.isSome_iff_exists.mp hitem
    obtain ⟨hmem, rfl⟩ := mem_of_splitOf? hs
    rw [show (b.model.type (Emit.derived s.target).id).kind = .object from hb.object s hmem,
      show b.order.split? (Emit.derived s.target).id = some s from hs]
    dsimp only
    -- the implementations that give access to the base declare nothing
    rw [declared_append, declared_rest]
    rfl

theorem WellNamed.declared_versionModule (hb : WellNamed b) (version : String) :
    declared (versionModule b version).items
      = [⟨"documents", false⟩, ⟨"watchables", false⟩] ++ (b.items version).map (itemIdent b) := by
  have hitems : declared ((b.items version).flatMap (itemsOf b version))
      = (b.items version).map (itemIdent b) := by
    unfold declared
    rw [List.filterMap_flatMap, ← List.flatMap_singleton' ((b.items version).map (itemIdent b)),
      List.flatMap_map]
    exact List.flatMap_congr fun e he =>
      hb.declared_itemsOf version ((Build.mem_items hb.sorted).mp he).2
  unfold versionModule
  rw [declared_append, hitems]
  rfl

/-! ## Identifiers -/

/-- A name that is an identifier as it stands, or with the sign that it is raw. -/
structure Usable (name : String) : Prop where
  plain : IsPlain name
  usable : name ∉ unusable

theorem eq_of_ofName_eq {name other : String} (hname : Usable name) (hother : Usable other)
    (h : Ident.ofName name = Ident.ofName other) : name = other := by
  have htext : ∀ {s : String}, Usable s → (Ident.ofName s).text = s := by
    intro s hs
    rw [Source.text_ofName hs.plain, if_neg (by simpa using hs.usable)]
  rw [← htext hname, ← htext hother, h]

/-- A module inside that of a version is met by an item of its name only. -/
theorem itemIdent_eq_iff {name : String} (hplain : '_' ∉ name.toList) (hne : name ≠ "unknown")
    (hname : Ident.ofName name = ⟨name, false⟩) :
    itemIdent b e = ⟨name, false⟩ ↔ nameOf b e = name := by
  refine ⟨fun h => Source.eq_of_text_ofName hplain hne (congrArg Ident.text h), fun h => ?_⟩
  unfold itemIdent
  rw [show itemName b.names b.order.splits e = name from h, hname]

/-- **Identifiers of items are distinct exactly if no two meet and no two names make one.** -/
theorem WellNamed.nodup_itemIdent_iff (hb : WellNamed b) :
    ((b.items version).map (itemIdent b)).Nodup ↔
      (∀ e ∈ b.items version, ∀ f ∈ b.items version, ¬ Meets b e f)
        ∧ ∀ e ∈ b.items version, ∀ f ∈ b.items version,
            itemIdent b e = itemIdent b f → nameOf b e = nameOf b f := by
  rw [List.nodup_map_iff_inj_on (Build.nodup_items hb.sorted)]
  constructor
  · intro hinj
    refine ⟨fun e he f hf hmeets => ?_, fun e he f hf h => by rw [hinj e he f hf h]⟩
    have hname := (hb.nameOf_eq_iff he hf hmeets.ne).mpr (.inl hmeets)
    exact hmeets.ne (hinj e he f hf (congrArg Ident.ofName hname))
  · rintro ⟨hmeets, hidents⟩ e he f hf h
    by_contra hne
    rcases (hb.nameOf_eq_iff he hf hne).mp (hidents e he f hf h) with h | h
    · exact hmeets e he f hf h
    · exact hmeets f hf e he h

/--
**When the identifiers of a version are distinct.**

The module of a version declares its inner modules and one identifier for each of its items. They
are distinct exactly if no item has the name of an inner module, no base meets a type or another
base, and names that differ make different identifiers, as all names do that are identifiers as they
stand.
-/
theorem declared_nodup_iff (config : ReleaseConfig) (doc : Swagger.Document) (version : String) :
    let b := Build.ofDocument config doc
    declared (versionModule b version).items
        = [⟨"documents", false⟩, ⟨"watchables", false⟩] ++ (b.items version).map (itemIdent b)
      ∧ ((declared (versionModule b version).items).Nodup ↔
          (∀ e ∈ b.items version, nameOf b e ≠ "documents" ∧ nameOf b e ≠ "watchables")
            ∧ (∀ e ∈ b.items version, ∀ f ∈ b.items version, ¬ Meets b e f)
            ∧ ∀ e ∈ b.items version, ∀ f ∈ b.items version,
                itemIdent b e = itemIdent b f → nameOf b e = nameOf b f)
      ∧ ∀ e f, Usable (nameOf b e) → Usable (nameOf b f) → itemIdent b e = itemIdent b f →
          nameOf b e = nameOf b f := by
  intro b
  have hb : WellNamed b := wellNamed_ofDocument config doc
  have hdeclared := hb.declared_versionModule version
  refine ⟨hdeclared, ?_, fun e f => eq_of_ofName_eq⟩
  have hdocuments (e : Emit) : itemIdent b e = ⟨"documents", false⟩ ↔ nameOf b e = "documents" :=
    itemIdent_eq_iff (by decide) (by decide) (by decide)
  have hwatchables (e : Emit) :
      itemIdent b e = ⟨"watchables", false⟩ ↔ nameOf b e = "watchables" :=
    itemIdent_eq_iff (by decide) (by decide) (by decide)
  have hinner : (∀ i ∈ [⟨"documents", false⟩, ⟨"watchables", false⟩],
        ∀ j ∈ (b.items version).map (itemIdent b), i ≠ j)
      ↔ ∀ e ∈ b.items version, nameOf b e ≠ "documents" ∧ nameOf b e ≠ "watchables" := by
    rw [List.forall_mem_cons, List.forall_mem_singleton, List.forall_mem_map, List.forall_mem_map,
      ← forall₂_and]
    exact forall₂_congr fun e _ =>
      and_congr (ne_comm.trans (hdocuments e).not) (ne_comm.trans (hwatchables e).not)
  rw [hdeclared, List.nodup_append, hb.nodup_itemIdent_iff, hinner]
  have hnodup : [(⟨"documents", false⟩ : Ident), ⟨"watchables", false⟩].Nodup := by decide
  tauto

/-- A definition named as an inner module is declared next to it. -/
example :
    let config : ReleaseConfig :=
      { label := "rel", semver := "1.0.0", defaultVersion := "v1", preferences := {},
        deprecations := {} }
    let doc : Swagger.Document :=
      { definitions :=
          [("io.k8s.api.core.v1.documents", .mk { type := some "object" } [] none none)],
        paths := [] }
    (versionModule (Build.ofDocument config doc) "v1").items.filterMap Item.name?
      = [⟨"documents", false⟩, ⟨"watchables", false⟩, ⟨"documents", false⟩] := by
  decide +kernel

end Generated

end ApiModels
