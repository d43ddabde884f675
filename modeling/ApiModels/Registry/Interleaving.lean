import ApiModels.Registry.Selector

/-!
# Calls that overlap

To set a default and to read one takes several steps, and between two steps of one thread other
threads may take theirs. Who sets a default does so under a lock that nobody else has: first the slot
changes, then the epoch. Who reads one looks at the epoch without a lock. Where its copy is of
another epoch it reads both under a lock that it may share with other readers, and keeps the copy
when it has left the lock.
-/

namespace ApiModels

/-- How far a thread is with a call. -/
inductive Activity where
  | idle
  /-- Has the lock alone and is about to change the slot. -/
  | setting (id : SelectorId) (release : Option String)
  /-- Has changed the slot. The epoch is still that of what was there before. -/
  | renewing (id : SelectorId)
  /-- Has changed the epoch too and is about to leave the lock. -/
  | leaving (id : SelectorId)
  /-- Has seen an epoch without a lock. -/
  | looking (id : SelectorId) (epoch : Nat)
  /-- Has no copy of that epoch and is about to take the lock. -/
  | waiting (id : SelectorId)
  /-- Has the lock, maybe with other readers. -/
  | reading (id : SelectorId)
  /-- Has read the epoch under the lock. -/
  | readingAt (id : SelectorId) (epoch : Nat)
  /-- Has read the slot too and is about to leave the lock. -/
  | taking (id : SelectorId) (copy : CachedDefault)
  /-- Has left the lock and is about to keep its copy. -/
  | keeping (id : SelectorId) (copy : CachedDefault)
  /-- Is about to answer with a copy. -/
  | answering (id : SelectorId) (copy : CachedDefault)
deriving DecidableEq, Repr

namespace Activity

/-- The selector a thread has a handle in use of. -/
def selector? : Activity → Option SelectorId
  | .idle => none
  | .setting id _ | .renewing id | .leaving id | .looking id _ | .waiting id | .reading id
  | .readingAt id _ | .taking id _ | .keeping id _ | .answering id _ => some id

/-- The selector whose lock a thread has alone. -/
def writes? : Activity → Option SelectorId
  | .setting id _ | .renewing id | .leaving id => some id
  | _ => none

/-- The selector whose lock a thread may share with other readers. -/
def reads? : Activity → Option SelectorId
  | .reading id | .readingAt id _ | .taking id _ => some id
  | _ => none

end Activity

/-- Selectors, and how far each thread is with a call on one. -/
structure Overlap where
  selection : Selection := {}
  doing : ThreadId → Activity := fun _ => .idle

namespace Overlap

/-- A thread goes on to do something else. -/
def turn (o : Overlap) (t : ThreadId) (a : Activity) : Overlap :=
  { o with doing := setAt o.doing t a }

/-- A thread goes on with the selectors changed. -/
def change (o : Overlap) (s : Selection) (t : ThreadId) (a : Activity) : Overlap :=
  { o with selection := s }.turn t a

/-- The steps of a thread. A call uses a handle, so the last one can only be dropped when no call on
the selector is under way. -/
inductive Step (t : ThreadId) (o : Overlap) : Overlap → Prop
  | new (h : o.doing t = .idle) : Step t o { o with selection := o.selection.new.2 }
  | clone {id : SelectorId} (h : o.doing t = .idle) (hid : o.selection.isAlive id = true) :
      Step t o { o with selection := o.selection.clone id }
  | drop {id : SelectorId} {d : SharedDefault} (h : o.doing t = .idle)
      (hd : o.selection.shared id = some d)
      (hlast : d.handles ≤ 1 → ∀ t', (o.doing t').selector? ≠ some id) :
      Step t o { o with selection := o.selection.drop t id }
  | lockAlone {id : SelectorId} (release : Option String) (h : o.doing t = .idle)
      (hid : o.selection.isAlive id = true)
      (hfree : ∀ t', (o.doing t').writes? ≠ some id ∧ (o.doing t').reads? ≠ some id) :
      Step t o (o.turn t (.setting id release))
  | setSlot {id : SelectorId} {release : Option String} {d : SharedDefault}
      (h : o.doing t = .setting id release) (hd : o.selection.shared id = some d) :
      Step t o (o.change (o.selection.setShared id (some { d with value := release }))
        t (.renewing id))
  | setEpoch {id : SelectorId} {d : SharedDefault} (h : o.doing t = .renewing id)
      (hd : o.selection.shared id = some d) :
      Step t o (o.change (o.selection.setShared id (some { d with epoch := d.epoch + 1 }))
        t (.leaving id))
  | unlockAlone {id : SelectorId} (h : o.doing t = .leaving id) : Step t o (o.turn t .idle)
  | look {id : SelectorId} {d : SharedDefault} (h : o.doing t = .idle)
      (hd : o.selection.shared id = some d) : Step t o (o.turn t (.looking id d.epoch))
  | hit {id : SelectorId} {c : CachedDefault} (h : o.doing t = .looking id c.epoch)
      (hc : o.selection.caches t id = some c) : Step t o (o.turn t (.answering id c))
  | miss {id : SelectorId} {epoch : Nat} (h : o.doing t = .looking id epoch)
      (hc : ∀ c, o.selection.caches t id = some c → c.epoch ≠ epoch) :
      Step t o (o.turn t (.waiting id))
  | lockShared {id : SelectorId} (h : o.doing t = .waiting id)
      (hfree : ∀ t', (o.doing t').writes? ≠ some id) : Step t o (o.turn t (.reading id))
  | readEpoch {id : SelectorId} {d : SharedDefault} (h : o.doing t = .reading id)
      (hd : o.selection.shared id = some d) : Step t o (o.turn t (.readingAt id d.epoch))
  | readSlot {id : SelectorId} {epoch : Nat} {d : SharedDefault}
      (h : o.doing t = .readingAt id epoch) (hd : o.selection.shared id = some d) :
      Step t o (o.turn t (.taking id ⟨epoch, d.value⟩))
  | unlockShared {id : SelectorId} {c : CachedDefault} (h : o.doing t = .taking id c) :
      Step t o (o.turn t (.keeping id c))
  | keep {id : SelectorId} {c : CachedDefault} (h : o.doing t = .keeping id c) :
      Step t o (o.change ((o.selection.prune t).setCache t id (some c)) t (.answering id c))
  | answer {id : SelectorId} {c : CachedDefault} (h : o.doing t = .answering id c) :
      Step t o (o.turn t .idle)

/-- The states that some steps go through, the latest first. -/
inductive Run : List Overlap → Prop
  | start : Run [{}]
  | step {o o' : Overlap} {earlier : List Overlap} (t : ThreadId) :
      Run (o :: earlier) → Step t o o' → Run (o' :: o :: earlier)

/-- The epoch of a selector, as long as it has handles. -/
def epoch? (o : Overlap) (id : SelectorId) : Option Nat := (o.selection.shared id).map (·.epoch)

/-- Somewhere on the way, the epoch of a selector has become a given one while a given default was in
its slot. -/
def Became (run : List Overlap) (id : SelectorId) (epoch : Nat) (value : Option String) : Prop :=
  ∃ before after : Overlap, [after, before] <:+: run ∧ before.epoch? id ≠ some epoch
    ∧ ∃ d, after.selection.shared id = some d ∧ d.epoch = epoch ∧ d.value = value

end Overlap

end ApiModels
