import ApiModels.Number.Shortest

/-!
# JSON values

Objects keep the order of their fields and hold each name once. A number is a whole number of at
most 64 bits or a binary64 number, kept as its bits so that equal values are equal data.

That objects keep the order in which their fields are set is an assumption on the maps that hold
them: they are taken to be ones that preserve insertion order, and not ones that sort their entries
by name, with which the same fields would have the same values in another order. Whatever is said of
the order of fields, after reading, setting or merging, rests on it.
-/

namespace ApiModels

/-- A JSON number. -/
inductive Json.Number where
  | int (value : Int)
  | real (bits : UInt64)
deriving DecidableEq, Repr, Inhabited

/-- A JSON value. -/
inductive Json where
  | null
  | bool (value : Bool)
  | number (value : Json.Number)
  | string (value : String)
  | array (items : List Json)
  | object (fields : List (String × Json))
deriving Repr, BEq, Inhabited

namespace Json

/-- Fields of an object, in order. -/
abbrev Fields := List (String × Json)

/-- Sets a field: a name that is there keeps its place, a new one comes last. -/
def setField (name : String) (value : Json) : Fields → Fields
  | [] => [(name, value)]
  | (n, v) :: fields =>
    if n = name then (n, value) :: fields else (n, v) :: setField name value fields

/-- Fields in the order of their first mention, each with its last value. -/
def ofPairs (pairs : Fields) : Json :=
  .object (pairs.foldl (fun fields p => setField p.1 p.2 fields) [])

/-- The value of a field of an object. -/
def field? (name : String) : Json → Option Json
  | .object fields => fields.lookup name
  | _ => none

/-- The text of a string value. -/
def text? : Json → Option String
  | .string s => some s
  | _ => none

/-- The field of an object set, anything else left alone. -/
def withField (object : Json) (name : String) (value : Json) : Json :=
  match object with
  | .object fields => .object (setField name value fields)
  | other => other

/-- A text or null. -/
def ofText? : Option String → Json
  | some s => .string s
  | none => .null

/-- A count. -/
def ofNat (n : Nat) : Json := .number (.int n)

mutual

/-- Deep merge: where both values are objects they merge field by field, otherwise `patch` replaces
`target`. As objects are assumed to keep insertion order, fields of the target stay in their places
and new ones come behind them in the order of the patch. -/
def merge : (target patch : Json) → Json
  | .object target, .object patch => .object (mergeFields target patch)
  | _, patch => patch

/-- Fields of the patch, in order, merged into those of the target. -/
def mergeFields : (target patch : Fields) → Fields
  | target, [] => target
  | target, (name, value) :: patch =>
    let merged := match target.lookup name with
      | some old => merge old value
      | none => value
    mergeFields (setField name merged target) patch

end

end Json

end ApiModels
