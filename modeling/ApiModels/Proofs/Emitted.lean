import ApiModels.Build
import ApiModels.Proofs.EmissionOrder

/-!
# What a build emits

The order of a build is that of an ingested model, so its items are known: those of the types that
are kept. A type is emitted in its own version or not at all.
-/

namespace ApiModels.Build

open ApiModels.Order ReleaseModel

variable {b : Build} {version : String} {e f : Emit} {id r : TypeId}

/-- **The order of a build is complete.** -/
theorem ofDocument_sorted (config : ReleaseConfig) (doc : Swagger.Document) :
    Sorted (ofDocument config doc).model (ofDocument config doc).order :=
  (ofModel_sorted _ Ingest.closed).1

section

variable (hb : Sorted b.model b.order)

include hb

/-- The items of a version are those of its types that are kept. -/
theorem mem_items :
    e ∈ b.items version ↔ e.id ∈ kept b.model b.order.excluded version
      ∧ IsItem b.order.splits e := by
  unfold items Order.version?
  cases hv : b.order.versions.find? fun v => v.version == version with
  | some v =>
      obtain rfl : v.version = version := by simpa using List.find?_some hv
      exact (hb.ordered v (List.mem_of_find?_eq_some hv)).mem e
  | none =>
      refine ⟨fun h => absurd h List.not_mem_nil, fun h => ?_⟩
      -- a version without an order is no version of the model
      obtain ⟨hlt, hver, -⟩ := mem_kept.mp h.1
      have hmem := version_mem_versions hlt
      rw [hver, ← hb.versions] at hmem
      obtain ⟨v, hvm, hveq⟩ := List.mem_map.mp hmem
      exact absurd hveq (by simpa using List.find?_eq_none.mp hv v hvm)

theorem nodup_items : (b.items version).Nodup := by
  unfold items Order.version?
  cases hv : b.order.versions.find? fun v => v.version == version with
  | some v => exact (hb.ordered v (List.mem_of_find?_eq_some hv)).nodup
  | none => exact List.nodup_nil

/-- An item comes out in the version of its type. -/
theorem version_of_mem_items (he : e ∈ b.items version) :
    (b.model.type e.id).version = version :=
  (mem_kept.mp ((mem_items hb).mp he).1).2.1

end

/-! ## Emitted types -/

/-- A type is emitted in its version, as a plain item or as a derived one. -/
def Emitted (b : Build) (id : TypeId) : Prop :=
  .plain id ∈ b.items (b.model.type id).version ∨ .derived id ∈ b.items (b.model.type id).version

/-- **What is emitted is what is kept.** -/
theorem emitted_iff (hb : Sorted b.model b.order) :
    b.Emitted id ↔ id < b.model.types.size ∧ id ∉ b.order.excluded := by
  unfold Emitted
  rw [mem_items hb, mem_items hb]
  constructor
  · rintro (⟨hid, -⟩ | ⟨hid, -⟩)
    · obtain ⟨hlt, -, hex⟩ := mem_kept.mp hid
      exact ⟨hlt, hex⟩
    · obtain ⟨hlt, -, hex⟩ := mem_kept.mp hid
      exact ⟨hlt, hex⟩
  · rintro ⟨hlt, hex⟩
    have hid := mem_kept.mpr ⟨hlt, rfl, hex⟩
    exact (plain_or_derived b.order.splits id).imp (⟨hid, ·⟩) (⟨hid, ·⟩)

/-- The type of an item is emitted. -/
theorem emitted_of_mem_items (hb : Sorted b.model b.order) (he : e ∈ b.items version) :
    b.Emitted e.id := by
  obtain ⟨hlt, -, hex⟩ := mem_kept.mp ((mem_items hb).mp he).1
  exact (emitted_iff hb).mpr ⟨hlt, hex⟩

/-- What an emitted type refers to is emitted. -/
theorem Emitted.of_refers (hb : Sorted b.model b.order) (hid : b.Emitted id)
    (hr : b.model.Refers id r) : b.Emitted r := by
  obtain ⟨-, hex⟩ := (emitted_iff hb).mp hid
  exact (emitted_iff hb).mpr
    ⟨hb.settled.closed id r hr, fun h => hex (hb.settled.exclusion id r hr h)⟩

/-- What an emitted type means by another is an item of the other's version. -/
theorem itemFor_mem_items (hb : Sorted b.model b.order) (he : e ∈ b.items version)
    (hr : b.model.Refers e.id r) :
    itemFor b.order.splits e.id r
      ∈ b.items (b.model.type (itemFor b.order.splits e.id r).id).version := by
  obtain ⟨hlt, hex⟩ := (emitted_iff hb).mp ((emitted_of_mem_items hb he).of_refers hb hr)
  refine (mem_items hb).mpr ⟨?_, itemFor_isItem⟩
  rw [itemFor_id]
  exact mem_kept.mpr ⟨hlt, rfl, hex⟩

end ApiModels.Build
