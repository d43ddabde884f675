import ApiModels.Json.Fault
import ApiModels.Json.Value

/-!
# Number literals

A literal keeps its digits; its value is found only when it is asked for, because a value nobody
asks for may be out of range. A whole number of at most 64 bits is itself. All else is a binary64
number: the leading digits that fit a 64-bit word, scaled by a power of ten in steps of at most 308
places.
-/

namespace ApiModels.Json

/-- A number as written. -/
structure Literal where
  negative : Bool
  whole : List Char
  /-- Digits after the point, if there is one. -/
  fraction : Option (List Char)
  /-- Sign (true for minus) and digits of the exponent, if there is one. -/
  exponent : Option (Bool × List Char)
  /-- Bytes of the text consumed up to its end. -/
  stop : Nat
deriving Repr, Inhabited

/-- Value of a digit. -/
def digit (c : Char) : Nat := c.toNat - '0'.toNat

/-- Adds digits to a word as long as it holds them; the digits left over come back. -/
def gather (word : Nat) : List Char → Nat × List Char
  | [] => (word, [])
  | c :: rest =>
    let more := 10 * word + digit c
    if more < UInt64.size then gather more rest else (word, c :: rest)

/-- Ten to a power of at most 308. -/
def powerOfTen (n : Nat) : Float := Float.ofScientific 1 false n

/-- The value times a power of ten, in steps. Fails when it would not be finite. -/
def scale : Nat → Float → Int → Option Float
  | 0, f, _ => some f
  | steps + 1, f, e =>
    if e.natAbs ≤ 308 then
      if 0 ≤ e then
        let g := f * powerOfTen e.natAbs
        if g.isInf then none else some g
      else some (f / powerOfTen e.natAbs)
    else if f == 0 then some f
    else if 0 ≤ e then none
    else scale steps (f / powerOfTen 308) (e + 308)

/-- The value of an exponent: its digits up to the first that no longer fits 31 bits, with the count
of digits read when that happens. -/
def exponentValue (value read : Nat) : List Char → Except Nat Nat
  | [] => .ok value
  | c :: rest =>
    if 10 * value + digit c < Nat.pow 2 31 then exponentValue (10 * value + digit c) (read + 1) rest
    else .error (read + 1)

/-- A binary64 number of the literal's sign. -/
def Literal.signed (l : Literal) (f : Float) : Number :=
  .real (if l.negative then -f else f).toBits

/-- The value of a literal that has a point, an exponent, or too many digits. -/
def Literal.realValue (l : Literal) (word : Nat) (dropped : Nat) : Except Fault Number :=
  let (word, used) := match l.fraction with
    | none => (word, 0)
    | some ds => let (w, left) := gather word ds; (w, ds.length - left.length)
  let base : Int := dropped - used
  let finish (e : Int) : Except Fault Number :=
    match scale (e.natAbs / 308 + 2) (UInt64.ofNat word).toFloat e with
    | some f => .ok (l.signed f)
    | none => .error (.malformed l.stop)
  match l.exponent with
  | none => finish base
  | some (minus, ds) =>
    match exponentValue 0 0 ds with
    | .ok e => finish (if minus then base - e else base + e)
    | .error read =>
      if word ≠ 0 ∧ !minus then .error (.malformed (l.stop - ds.length + read))
      else .ok (l.signed 0)

/-- The value of a literal, or the fault of one that no finite number stands for. -/
def Literal.value (l : Literal) : Except Fault Number :=
  let (word, left) := gather 0 l.whole
  if !left.isEmpty || l.fraction.isSome || l.exponent.isSome then l.realValue word left.length
  else if !l.negative then .ok (.int word)
  else if 0 < word ∧ word ≤ Nat.pow 2 63 then .ok (.int (-word))
  else .ok (l.signed (UInt64.ofNat word).toFloat)

end ApiModels.Json
