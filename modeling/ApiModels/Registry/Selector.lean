/-!
# Selecting a release

A selector says which release to use where none is given: an override of the current thread if there
is one, else a default that all threads share. Handles to a selector can be cloned and dropped, and
its shared part lives as long as a handle does.

Reading the default takes no lock in the steady state. Every change gives it a new epoch, and each
thread keeps the value together with the epoch it was read at; a copy of an older epoch is read
anew. A thread's copies of selectors that are gone are dropped whenever it reads one anew.
-/

namespace ApiModels

/-- The identity of a selector. No two selectors share one, not even one after another. -/
abbrev SelectorId := Nat

/-- The identity of a thread. -/
abbrev ThreadId := Nat

/-- What the handles of a selector share. -/
structure SharedDefault where
  /-- How often the default has been set. -/
  epoch : Nat := 0
  value : Option String := none
  /-- Handles that have not been dropped. -/
  handles : Nat := 1
deriving DecidableEq, Repr

/-- A thread's copy of a default, and the epoch it was read at. -/
structure CachedDefault where
  epoch : Nat
  value : Option String
deriving DecidableEq, Repr

/-- The selectors of a process. -/
structure Selection where
  /-- The identity of the next selector. -/
  nextId : SelectorId := 1
  /-- What the handles of each selector share, as long as there are any. -/
  shared : SelectorId → Option SharedDefault := fun _ => none
  /-- Copies of each thread. -/
  caches : ThreadId → SelectorId → Option CachedDefault := fun _ _ => none
  /-- Overrides of each thread, the innermost first. -/
  overrides : ThreadId → SelectorId → List String := fun _ _ => []
  /-- The selector of the whole process, once it has been asked for. -/
  processId : Option SelectorId := none

instance : Inhabited Selection := ⟨{}⟩

/-- A function changed in one place. -/
def setAt (f : Nat → α) (i : Nat) (a : α) : Nat → α := fun j => if j = i then a else f j

namespace Selection

/-- Changes what the handles of a selector share. -/
def setShared (s : Selection) (id : SelectorId) (d : Option SharedDefault) : Selection :=
  { s with shared := setAt s.shared id d }

/-- Changes a thread's copy. -/
def setCache (s : Selection) (t : ThreadId) (id : SelectorId) (c : Option CachedDefault) :
    Selection :=
  { s with caches := setAt s.caches t (setAt (s.caches t) id c) }

/-- Changes the overrides of a thread. -/
def setOverrides (s : Selection) (t : ThreadId) (id : SelectorId) (releases : List String) :
    Selection :=
  { s with overrides := setAt s.overrides t (setAt (s.overrides t) id releases) }

/-- Whether a selector still has handles. -/
def isAlive (s : Selection) (id : SelectorId) : Bool := (s.shared id).isSome

/-! ## Handles -/

/-- A new selector without a default. -/
def new (s : Selection) : SelectorId × Selection :=
  (s.nextId, { s with nextId := s.nextId + 1 }.setShared s.nextId (some {}))

/-- One more handle to a selector. -/
def clone (s : Selection) (id : SelectorId) : Selection :=
  match s.shared id with
  | some d => s.setShared id (some { d with handles := d.handles + 1 })
  | none => s

/-- One handle to a selector less, dropped by a thread. With the last one the selector goes, and
that thread's copy of it. -/
def drop (s : Selection) (t : ThreadId) (id : SelectorId) : Selection :=
  match s.shared id with
  | some d =>
    if d.handles ≤ 1 then (s.setShared id none).setCache t id none
    else s.setShared id (some { d with handles := d.handles - 1 })
  | none => s

/-- The selector of the process, and one more handle to it. -/
def process (s : Selection) : SelectorId × Selection :=
  match s.processId with
  | some id => (id, s.clone id)
  | none =>
    let (id, s) := s.new
    (id, { s with processId := some id }.clone id)

/-! ## The default -/

/-- Sets or clears the default of a selector. -/
def setGlobal (s : Selection) (id : SelectorId) (release : Option String) : Selection :=
  match s.shared id with
  | some d => s.setShared id (some { d with epoch := d.epoch + 1, value := release })
  | none => s

/-- A new selector with a default. -/
def withDefault (s : Selection) (release : String) : SelectorId × Selection :=
  let (id, s) := s.new
  (id, s.setGlobal id (some release))

/-- Drops a thread's copies of selectors that are gone. -/
def prune (s : Selection) (t : ThreadId) : Selection :=
  { s with caches := setAt s.caches t fun id => if s.isAlive id then s.caches t id else none }

/-- A thread's copy, if it is of the current epoch. -/
def freshCopy? (s : Selection) (t : ThreadId) (id : SelectorId) (d : SharedDefault) :
    Option CachedDefault :=
  (s.caches t id).filter fun c => c.epoch = d.epoch

/-- The default of a selector as a thread sees it. -/
def global (s : Selection) (t : ThreadId) (id : SelectorId) : Option String × Selection :=
  match s.shared id with
  | none => (none, s)
  | some d =>
    match s.freshCopy? t id d with
    | some c => (c.value, s)
    | none => (d.value, (s.prune t).setCache t id (some ⟨d.epoch, d.value⟩))

/-! ## Overrides -/

/-- Overrides the release of a thread. -/
def overrideThread (s : Selection) (t : ThreadId) (id : SelectorId) (release : String) :
    Selection :=
  s.setOverrides t id (release :: s.overrides t id)

/-- Ends the innermost override of a thread. -/
def endOverride (s : Selection) (t : ThreadId) (id : SelectorId) : Selection :=
  s.setOverrides t id (s.overrides t id).tail

/-- The innermost override of a thread. -/
def threadOverride (s : Selection) (t : ThreadId) (id : SelectorId) : Option String :=
  (s.overrides t id).head?

/-- The release to use: an explicit one, else the override of the thread, else the default. -/
def current (s : Selection) (t : ThreadId) (id : SelectorId) (explicit : Option String) :
    Option String × Selection :=
  match explicit.or (s.threadOverride t id) with
  | some release => (some release, s)
  | none => s.global t id

end Selection

end ApiModels
