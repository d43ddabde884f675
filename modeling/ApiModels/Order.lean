import ApiModels.Diagnostics
import ApiModels.Graph
import ApiModels.Names

/-!
# Emission order

Every type of a version comes after the types of that version it refers to. Two types that refer to
each other are no obstacle: one is split into a base, with the properties that do not close the
cycle, and a derived type that embeds the base and adds the rest; the partner then refers to the
base. Larger cycles, and cycles through more than one version, cannot be emitted. They are left out
together with everything that refers to them.
-/

namespace ApiModels

/-- An item of the output. -/
inductive Emit where
  | plain (id : TypeId)
  /-- The base of a split type. -/
  | base (id : TypeId)
  /-- The split type itself, which embeds its base. -/
  | derived (id : TypeId)
deriving DecidableEq, Repr, Inhabited

namespace Emit

/-- The type an item belongs to. -/
def id : Emit → TypeId
  | .plain id | .base id | .derived id => id

/-- Plain items come before bases and those before derived ones where names are equal. -/
def rank : Emit → Nat
  | .plain _ => 0
  | .base _ => 1
  | .derived _ => 2

/-- Whether an item is the base of a split type. -/
def isBase : Emit → Bool
  | .base _ => true
  | _ => false

end Emit

/-- A type that is split to break the cycle with its partner. The properties at the closing indexes
stay on the derived type. -/
structure Split where
  target : TypeId
  partner : TypeId
  baseName : String
  closing : List Nat
deriving DecidableEq, Repr

/-- The items of a version in order, and the types of it that are split. -/
structure VersionOrder where
  version : String
  items : List Emit
  splits : List Split
deriving Repr

/-- The order of every version, the types left out, and all splits. -/
structure Order where
  versions : List VersionOrder
  excluded : List TypeId
  splits : List Split
deriving Repr

namespace Order

/-- Whether a type is left out. -/
def isExcluded (o : Order) (id : TypeId) : Bool := o.excluded.contains id

/-- The order of a version. -/
def version? (o : Order) (version : String) : Option VersionOrder :=
  o.versions.find? fun v => v.version == version

/-- The split of a type, if it is split. -/
def splitOf? (splits : List Split) (target : TypeId) : Option Split :=
  splits.find? fun s => s.target == target

/-- The split of a type, if it is split. -/
def split? (o : Order) (target : TypeId) : Option Split := splitOf? o.splits target

/-- The base that stands for a type when a given type refers to it: only the partner of a split type
refers to the base. -/
def baseRef? (o : Order) (referrer referenced : TypeId) : Option String :=
  ((o.split? referenced).filter fun s => s.partner == referrer).map (·.baseName)

/-! ## Cycles -/

/-- Types in the order in which cycles are looked for: by version, then by name. -/
def nodes (m : ReleaseModel) (names : Names) : List TypeId :=
  (m.versions.flatMap m.typesOf).mergeSort fun a b =>
    ((compare (m.type a).version (m.type b).version).then
      (compare (names.name a) (names.name b))) != .gt

/-- Types in the order of their names. -/
def sortByName (names : Names) (ids : List TypeId) : List TypeId :=
  ids.mergeSort fun a b => compare (names.name a) (names.name b) != .gt

/-- Other types a type refers to, each once, in the order of their names. -/
def edges (m : ReleaseModel) (names : Names) (id : TypeId) : List TypeId :=
  let targets := (m.type id).references.filter fun r => r ≠ id
  sortByName names (m.typeIds.filter targets.contains)

/-- Cycles of more than one type, each in the order of names. -/
def cycles (m : ReleaseModel) (names : Names) : List (List TypeId) :=
  let targets := (m.typeIds.map (edges m names)).toArray
  ((Graph.components (fun id => targets.getD id []) (nodes m names)).filter
    fun c => 2 ≤ c.length).map (sortByName names)

/-- Versions that the types of a cycle belong to. -/
def versionsOf (m : ReleaseModel) (cycle : List TypeId) : List String :=
  sortedTexts (cycle.map fun id => (m.type id).version)

/-- Whether a cycle can be broken by a split: it has two types, of one version. -/
def isSplittable (m : ReleaseModel) (cycle : List TypeId) : Bool :=
  cycle.length = 2 && (versionsOf m cycle).length = 1

/-- Why the types of a cycle are left out. -/
def cycleReason (m : ReleaseModel) (names : Names) (cycle : List TypeId) : String :=
  let members := Text.join ", " (cycle.map fun id => (m.type id).version ++ "." ++ names.name id)
  if 1 < (versionsOf m cycle).length then
    "member of a cycle across versions (" ++ members ++ ")"
  else "member of a " ++ toString cycle.length ++ "-type cycle (" ++ members ++ ")"

/-- Anomalies of a cycle that cannot be broken. -/
def cycleAnomalies (m : ReleaseModel) (names : Names) (cycle : List TypeId) : Diagnostics :=
  cycle.map fun id =>
    ⟨.unsupportedCycle, (m.type id).version, names.name id, cycleReason m names cycle⟩

/-! ## Exclusion -/

/-- Types still kept that refer to one left out, each with the first such reference. -/
def dependents (m : ReleaseModel) (excluded : List TypeId) : List (TypeId × TypeId) :=
  (m.typeIds.filter fun id => !excluded.contains id).filterMap fun id =>
    ((m.type id).references.find? excluded.contains).map fun culprit => (id, culprit)

/-- Leaves out dependents until there are none. Each round leaves out one more type at least, so the
number of types bounds the rounds. -/
def spread (m : ReleaseModel) (names : Names) :
    (rounds : Nat) → List TypeId → List TypeId × Diagnostics
  | 0, excluded => (excluded, [])
  | rounds + 1, excluded =>
    match dependents m excluded with
    | [] => (excluded, [])
    | found =>
      let (all, later) := spread m names rounds (excluded ++ found.map Prod.fst)
      (all, found.map (fun (id, culprit) =>
        ⟨.dependsOnExcluded, (m.type id).version, names.name id,
          "references excluded type " ++ names.name culprit⟩) ++ later)

/-! ## Splits -/

/-- The name of the base of a type: the type's own and `Base`, or `SplitBase` if a type of the
version has that name. -/
def baseName (m : ReleaseModel) (names : Names) (target : TypeId) : String :=
  let base := names.name target ++ "Base"
  if (m.typesOf (m.type target).version).any fun id => names.name id == base then
    names.name target ++ "SplitBase"
  else base

/-- The split of the first of two types. Properties that name either of the two close the cycle. -/
def splitFor (m : ReleaseModel) (names : Names) (target partner : TypeId) : Split :=
  { target, partner, baseName := baseName m names target,
    closing := (m.type target).properties.zipIdx.filterMap fun (p, i) =>
      match p.type.named? with
      | some r => if r = partner ∨ r = target then some i else none
      | none => none }

/-- The splits of cycles of two types whose types are all kept. -/
def splitsFor (m : ReleaseModel) (names : Names) (excluded : List TypeId)
    (cycles : List (List TypeId)) : List Split :=
  cycles.filterMap fun cycle =>
    match cycle with
    | [target, partner] =>
      if excluded.contains target || excluded.contains partner then none
      else some (splitFor m names target partner)
    | _ => none

/-! ## Items of a version -/

/-- The item that stands for a type when a given type refers to it. -/
def itemFor (splits : List Split) (referrer referenced : TypeId) : Emit :=
  match splitOf? splits referenced with
  | some s => if s.partner = referrer then .base referenced else .derived referenced
  | none => .plain referenced

/-- An item and the items it still waits for. -/
structure Pending where
  item : Emit
  waits : List Emit
deriving Repr

/-- Items that the properties of a type at the given indexes need, leaving aside itself, other
versions and types left out. -/
def needs (m : ReleaseModel) (excluded : List TypeId) (splits : List Split) (id : TypeId)
    (keep : Nat → Bool) : List Emit :=
  (m.type id).properties.zipIdx.filterMap fun (p, i) =>
    match p.type.named? with
    | some r =>
      if r ≠ id ∧ (m.type r).version = (m.type id).version ∧ !excluded.contains r ∧ keep i then
        some (itemFor splits id r)
      else none
    | none => none

/-- The items of a type with what they need. -/
def itemsOf (m : ReleaseModel) (excluded : List TypeId) (splits : List Split) (id : TypeId) :
    List Pending :=
  match splitOf? splits id with
  | some s =>
    [ ⟨.base id, needs m excluded splits id fun i => !s.closing.contains i⟩,
      ⟨.derived id, .base id :: needs m excluded splits id fun i => s.closing.contains i⟩ ]
  | none => [⟨.plain id, needs m excluded splits id fun _ => true⟩]

/-- The name an item comes out under. -/
def itemName (names : Names) (splits : List Split) : Emit → String
  | .plain id | .derived id => names.name id
  | .base id => ((splitOf? splits id).map (·.baseName)).getD (names.name id)

/-- Which of two items that are ready comes first: by name, then by rank and number. -/
def precedes (names : Names) (splits : List Split) (a b : Emit) : Bool :=
  (((compare (itemName names splits a) (itemName names splits b)).then
    (compare a.rank b.rank)).then (compare a.id b.id)) == .lt

/-- The first in order of some items. -/
def first? (before : Emit → Emit → Bool) : List Emit → Option Emit
  | [] => none
  | e :: es => some (es.foldl (fun best e => if before e best then e else best) e)

/-- Takes the first item that waits for nothing, again and again. What is left waits for itself in
the end. -/
def release (before : Emit → Emit → Bool) :
    (steps : Nat) → List Pending → List Emit × List Pending
  | 0, pending => ([], pending)
  | steps + 1, pending =>
    match first? before ((pending.filter fun p => p.waits.isEmpty).map (·.item)) with
    | none => ([], pending)
    | some next =>
      let others := (pending.filter fun p => p.item ≠ next).map fun p =>
        { p with waits := p.waits.filter (· ≠ next) }
      let (items, left) := release before steps others
      (next :: items, left)

/-- The order of a version, with an anomaly for every type that is stuck in a cycle all the same. -/
def versionOrder (m : ReleaseModel) (names : Names) (excluded : List TypeId)
    (splits : List Split) (version : String) : VersionOrder × Diagnostics :=
  let live := (m.typesOf version).filter fun id => !excluded.contains id
  let pending := live.flatMap (itemsOf m excluded splits)
  let (items, left) := release (precedes names splits) pending.length pending
  let stuck := live.filter fun id => left.any fun p => p.item.id == id
  ({ version,
     items := items.filter fun e => !stuck.contains e.id,
     splits := (live.filterMap (splitOf? splits)).filter fun s => !stuck.contains s.target },
   stuck.map fun id =>
     ⟨.unsupportedCycle, version, names.name id, "still cyclic after splitting"⟩)

/-- Types of a version that its order leaves out. -/
def leftOut (m : ReleaseModel) (v : VersionOrder) : List TypeId :=
  (m.typesOf v.version).filter fun id => !v.items.any fun e => e.id == id

/-- Orders versions one after the other; what one leaves out is left out for the next. -/
def orderVersions (m : ReleaseModel) (names : Names) (splits : List Split) :
    (excluded : List TypeId) → List String → List VersionOrder × List TypeId × Diagnostics
  | excluded, [] => ([], excluded, [])
  | excluded, version :: versions =>
    let (v, found) := versionOrder m names excluded splits version
    let (vs, all, later) := orderVersions m names splits (excluded ++ leftOut m v) versions
    (v :: vs, all, found ++ later)

/-! ## Releases -/

/-- The order of a release, with the anomalies found on the way. -/
def ofModel (m : ReleaseModel) (names : Names) : Order × Diagnostics :=
  let found := cycles m names
  let unsupported := found.filter fun c => !isSplittable m c
  let (excluded, spreading) := spread m names m.types.size unsupported.flatten
  let splits := splitsFor m names excluded (found.filter (isSplittable m))
  let (versions, excluded, stuck) := orderVersions m names splits excluded m.versions
  ({ versions, excluded := m.typeIds.filter excluded.contains, splits },
   unsupported.flatMap (cycleAnomalies m names) ++ spreading ++ stuck)

end Order

end ApiModels
