import ApiModels.Json.Draft

/-!
# Reading drafts into types

A reader takes a draft and gives a value of some type, or the first fault in text order. Records are
read field by field: an unknown name is skipped, a known name that comes twice is a fault of shape,
and what may be left out is said field by field. A record may also be written as an array of its
fields.

Containers open at most `maxLevels` deep, but only where they are read: what is skipped may be as
deep as it likes.
-/

namespace ApiModels.Json

/-- A way to read a value, given the number of levels that may still open. -/
abbrev Reader (α : Type) := (levels : Nat) → Draft → Except Fault α

/-- Levels of containers that a text may open. -/
def maxLevels : Nat := 127

/-- The fault of a draft that is not of the shape asked for. A number out of range and a string with
a bad escape are noticed first. -/
def Draft.mismatch : Draft → Fault
  | .number (.error f) | .string (.error f) => f
  | .broken b => b.reading
  | _ => .shape

mutual

/-- The fault met when a draft is skipped, if there is one. -/
def Draft.skipFault? : Draft → Option Fault
  | .array _ items failure => (skipItems items).or (failure.map Break.skipping)
  | .object _ fields failure => (skipFields fields).or (failure.map Break.skipping)
  | .broken b => some b.skipping
  | .null | .bool _ | .number _ | .string _ => none

/-- The first fault met when items are skipped. -/
def skipItems : List (Nat × Draft) → Option Fault
  | [] => none
  | (_, d) :: items => d.skipFault?.or (skipItems items)

/-- The first fault met when fields are skipped. -/
def skipFields : List (Except Fault String × Draft) → Option Fault
  | [] => none
  | (_, d) :: fields => d.skipFault?.or (skipFields fields)

end

namespace Reader

/-- Succeeds unless a container failed to close. -/
def closed (failure : Option Break) (value : α) : Except Fault α :=
  match failure with
  | some b => .error b.reading
  | none => .ok value

/-! ## Single values -/

/-- A text. -/
def text : Reader String := fun _ d =>
  match d with
  | .string (.ok s) => .ok s
  | d => .error d.mismatch

/-- A truth value. -/
def bool : Reader Bool := fun _ d =>
  match d with
  | .bool b => .ok b
  | d => .error d.mismatch

/-- A number that `pick` accepts. -/
def number (pick : Number → Option α) : Reader α := fun _ d =>
  match d with
  | .number (.ok n) => match pick n with
    | some a => .ok a
    | none => .error .shape
  | d => .error d.mismatch

/-- A whole number of 64 bits with sign. -/
def int64 : Reader Int :=
  number fun
    | .int i => if i < Nat.pow 2 63 then some i else none
    | .real _ => none

/-- A count of 64 bits. -/
def count : Reader Nat :=
  number fun
    | .int i => if 0 ≤ i then some i.toNat else none
    | .real _ => none

/-- Bits of the binary64 number nearest to a whole number. -/
def realBits (i : Int) : UInt64 :=
  let f := (UInt64.ofNat i.natAbs).toFloat
  (if i < 0 then -f else f).toBits

/-- A binary64 number, as bits. -/
def real : Reader UInt64 :=
  number fun
    | .int i => some (realBits i)
    | .real bits => some bits

/-- Any value. A name that comes twice in an object keeps its place and takes the last value. -/
def json (levels : Nat) (d : Draft) : Except Fault Json :=
  match levels, d with
  | _, .null => .ok .null
  | _, .bool b => .ok (.bool b)
  | _, .number n => n.map .number
  | _, .string s => s.map .string
  | _, .broken b => .error b.reading
  | 0, .array start _ _ | 0, .object start _ _ => .error (.malformed (start + 1))
  | levels + 1, .array _ items failure => do
    let values ← items.mapM fun p => json levels p.2
    closed failure (.array values)
  | levels + 1, .object _ fields failure => do
    let pairs ← fields.mapM fun p => do
      let name ← p.1
      let value ← json levels p.2
      pure (name, value)
    closed failure (Json.ofPairs pairs)

/-! ## Combinations -/

/-- Null for absence. -/
def nullable (r : Reader α) : Reader (Option α) := fun levels d =>
  match d with
  | .null => .ok none
  | d => some <$> r levels d

/-- The items of an array. -/
def list (r : Reader α) : Reader (List α) := fun levels d =>
  match levels, d with
  | 0, .array start _ _ => .error (.malformed (start + 1))
  | levels + 1, .array _ items failure => do
    let values ← items.mapM fun p => r levels p.2
    closed failure values
  | _, d => .error d.mismatch

/-- The fields of an object in order, repeated names included. -/
def pairs (r : Reader α) : Reader (List (String × α)) := fun levels d =>
  match levels, d with
  | 0, .object start _ _ => .error (.malformed (start + 1))
  | levels + 1, .object _ fields failure => do
    let values ← fields.mapM fun p => do
      let name ← p.1
      let value ← r levels p.2
      pure (name, value)
    closed failure values
  | _, d => .error d.mismatch

/-- The first of several readers that succeeds. The value is read whole before any is tried, so that
a fault of the text comes first. -/
def firstOf (rs : List (Reader α)) : Reader α := fun levels d => do
  let _ ← json levels d
  match rs.findSome? fun r => (r levels d).toOption with
  | some a => .ok a
  | none => .error .shape

/-! ## Records -/

/-- What may be left out of a record. -/
inductive Presence where
  /-- Must be there. -/
  | required
  /-- May be missing from an object. -/
  | optional
  /-- May be missing from an object and from the end of an array. -/
  | defaulted
deriving DecidableEq, Repr

/-- A field of a record: how it changes the record read so far. -/
structure RecordField (σ : Type) where
  name : String
  presence : Presence
  read : (levels : Nat) → Draft → σ → Except Fault σ

/-- A field that must be there. -/
def RecordField.required (name : String) (r : Reader α) (set : α → σ → σ) : RecordField σ :=
  ⟨name, .required, fun levels d s => (set · s) <$> r levels d⟩

/-- A field that may be missing or null. -/
def RecordField.optional (name : String) (r : Reader α) (set : Option α → σ → σ) : RecordField σ :=
  ⟨name, .optional, fun levels d s => (set · s) <$> nullable r levels d⟩

/-- A field that may be missing but, if there, must be a value. -/
def RecordField.defaulted (name : String) (r : Reader α) (set : α → σ → σ) : RecordField σ :=
  ⟨name, .defaulted, fun levels d s => (set · s) <$> r levels d⟩

/-- Reads the fields of an object into a record; gives the names met as well. -/
def objectFields (fields : List (RecordField σ)) (levels : Nat) (seen : List String) (s : σ) :
    List (Except Fault String × Draft) → Except Fault (List String × σ)
  | [] => .ok (seen, s)
  | (.error f, _) :: _ => .error f
  | (.ok name, d) :: rest =>
    match fields.find? (·.name = name) with
    | none => match d.skipFault? with
      | some f => .error f
      | none => objectFields fields levels seen s rest
    | some field =>
      if seen.contains name then .error .shape
      else match field.read levels d s with
        | .error f => .error f
        | .ok s => objectFields fields levels (name :: seen) s rest

/-- The fault of an array that goes on after the last field of a record, noticed at the item that is
one too many. -/
def surplus (start : Nat) : Draft → Fault
  | .broken ⟨.truncated n, _⟩ => .malformed (if n = start then n else start + 1)
  | _ => .malformed (start + 1)

/-- Reads the items of an array as the fields of a record, in order. -/
def arrayFields (levels : Nat) (s : σ) (failure : Option Break) :
    List (RecordField σ) → List (Nat × Draft) → Except Fault σ
  | [], [] => closed failure s
  | [], (start, d) :: _ => .error (surplus start d)
  | field :: fields, (_, d) :: items =>
    match field.read levels d s with
    | .error f => .error f
    | .ok s => arrayFields levels s failure fields items
  | field :: fields, [] =>
    match failure with
    | some b => .error b.reading
    | none =>
      if field.presence = .defaulted then arrayFields levels s failure fields []
      else .error .shape

/-- A record written as an object. -/
def objectRecord (fields : List (RecordField σ)) (start : σ) : Reader σ := fun levels d =>
  match levels, d with
  | 0, .object pos _ _ => .error (.malformed (pos + 1))
  | levels + 1, .object _ values failure => do
    let (seen, s) ← objectFields fields levels [] start values
    let s ← closed failure s
    if fields.all fun f => f.presence ≠ .required || seen.contains f.name then .ok s
    else .error .shape
  | _, d => .error d.mismatch

/-- A record written as an object or as the array of its fields. -/
def record (fields : List (RecordField σ)) (start : σ) : Reader σ := fun levels d =>
  match levels, d with
  | 0, .array pos _ _ => .error (.malformed (pos + 1))
  | levels + 1, .array _ items failure => arrayFields levels start failure fields items
  | levels, d => objectRecord fields start levels d

/-- Reads a whole draft, given the fault of anything that follows it. -/
def whole (r : Reader α) (draft : (Nat × Draft) × Option Fault) : Except Fault α :=
  match r maxLevels draft.1.2, draft.2 with
  | .error f, _ => .error f
  | .ok _, some f => .error f
  | .ok a, none => .ok a

/-- Reads a whole text. -/
def ofText (r : Reader α) (text : String) : Except Fault α := r.whole (Draft.ofText text)

/-- Reads a whole text given as bytes. -/
def ofBytes (r : Reader α) (bytes : List UInt8) : Except Fault α := r.whole (Draft.ofBytes bytes)

end Reader

mutual

/-- A value as a draft. -/
def toDraft : Json → Draft
  | .null => .null
  | .bool b => .bool b
  | .number n => .number (.ok n)
  | .string s => .string (.ok s)
  | .array items => .array 0 (itemDrafts items) none
  | .object fields => .object 0 (fieldDrafts fields) none

/-- Items as drafts. -/
def itemDrafts : List Json → List (Nat × Draft)
  | [] => []
  | v :: items => (0, toDraft v) :: itemDrafts items

/-- Fields as drafts. -/
def fieldDrafts : List (String × Json) → List (Except Fault String × Draft)
  | [] => []
  | (name, v) :: fields => (.ok name, toDraft v) :: fieldDrafts fields

end

/-- Reads a value already in memory. -/
def decode (r : Reader α) (v : Json) : Except Fault α := r maxLevels v.toDraft

/-- The value a text holds. -/
def parse (text : String) : Except Fault Json := Reader.ofText Reader.json text

end ApiModels.Json
