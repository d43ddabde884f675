/-!
# Faults of a JSON text

A text can fail as JSON, by holding something the grammar does not allow or by ending too early, or
it can be well-formed and not have the shape that was asked for. The first two are noticed at a
byte, which is reported as line and column and turned back into an offset into the text.
-/

namespace ApiModels.Json

/-- What is wrong with a text. A count is the number of bytes consumed when it was noticed. -/
inductive Fault where
  /-- Well-formed, but not what was asked for. -/
  | shape
  /-- Not allowed by the grammar. -/
  | malformed (consumed : Nat)
  /-- Ended where more was needed. -/
  | truncated (consumed : Nat)
deriving DecidableEq, Repr, Inhabited

/-- The fault met at the next byte, which counts as consumed unless the text has ended. -/
def Fault.atNext (pos : Nat) (rest : List Char) : Fault :=
  if rest.isEmpty then .truncated pos else .malformed (pos + 1)

/-- Line, counted from 1, and column of the last of the consumed bytes. The column is 0 when that
byte ends a line. -/
def lineColumn (text : List UInt8) (consumed : Nat) : Nat × Nat :=
  let before := text.take consumed
  (before.count 10 + 1, (before.reverse.takeWhile (· ≠ 10)).length)

/-- Lengths of the lines of a text, the newline that ends a line included. -/
def lineLengths : List UInt8 → List Nat
  | [] => []
  | b :: rest =>
    if b = 10 then 1 :: lineLengths rest
    else match rest, lineLengths rest with
      | [], _ => [1]
      | _, [] => [1]
      | _, n :: ns => (n + 1) :: ns

/-- The offset of a line and column, both counted from 1; column 0 stands for the start of the
line. It never passes the last byte. There is no line 0. The sums in it are those of `add`. -/
def offsetWith (add : Nat → Nat → Nat) (text : List UInt8) (line column : Nat) : Option Nat :=
  match line with
  | 0 => none
  | line + 1 =>
    some (min (add (((lineLengths text).take line).foldl add 0) (column - 1)) (text.length - 1))

/-- The offset of a line and column, with the sums of numbers of any size. -/
def offsetOf (text : List UInt8) (line column : Nat) : Option Nat :=
  offsetWith (· + ·) text line column

/-- The sum of two words of 64 bits. One that does not fit starts again at 0. -/
def addWords (a b : Nat) : Nat := (a + b) % UInt64.size

/-- Where a fault is, if it is one of the text itself. -/
def Fault.offset? (text : String) : Fault → Option Nat
  | .shape => none
  | .malformed n | .truncated n =>
    let bytes := text.toUTF8.toList
    let (line, column) := lineColumn bytes n
    offsetOf bytes line column

end ApiModels.Json
