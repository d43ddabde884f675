/-!
# Shortest decimals

A binary64 number is written with the fewest decimal digits that still read back as that number.
A finite number other than zero is `m · 2 ^ q`; the reals that round to it form an interval around
it, whose ends belong to it when `m` is even. For 1, 2, … 17 digits the two neighbours of the number
on that decimal grid are tested in exact arithmetic, and the first grid with a hit wins. Of two
hits the nearer one is taken.
-/

namespace ApiModels.Number

/-- A power of two. -/
def twoTo (n : Nat) : Nat := Nat.pow 2 n

/-- A power of ten. -/
def tenTo (n : Nat) : Nat := Nat.pow 10 n

/-- The magnitude of a finite number as `mantissa · 2 ^ (exponent - 1075)`. -/
structure Binary where
  mantissa : Nat
  exponent : Nat
deriving Repr, DecidableEq

/-- Mantissa and exponent of the bits of a finite number, without its sign. -/
def Binary.ofBits (bits : UInt64) : Binary :=
  let e := (bits.toNat / twoTo 52) % twoTo 11
  let f := bits.toNat % twoTo 52
  if e = 0 then ⟨f, 1⟩ else ⟨twoTo 52 + f, e⟩

/-- A quarter unit of the last binary place, as a fraction. -/
def Binary.quarter (b : Binary) : Nat × Nat :=
  if 1077 ≤ b.exponent then (twoTo (b.exponent - 1077), 1) else (1, twoTo (1077 - b.exponent))

/-- The number and the ends of its interval, in quarter units: low end, number, high end. The low
end is nearer where the number below has a smaller exponent. -/
def Binary.quarters (b : Binary) : Nat × Nat × Nat :=
  let low := if b.mantissa = twoTo 52 ∧ 1 < b.exponent then 1 else 2
  (4 * b.mantissa - low, 4 * b.mantissa, 4 * b.mantissa + 2)

/-- A decimal `digits · 10 ^ scale`. -/
structure Decimal where
  digits : Nat
  scale : Int
deriving Repr, DecidableEq

/-- The best decimal on the grid of multiples of `10 ^ scale`, if one lies in the interval. -/
def Binary.onGrid? (b : Binary) (scale : Int) : Option Decimal :=
  let (low, mid, high) := b.quarters
  let (num, den) := b.quarter
  let num := num * tenTo (-scale).toNat
  let den := den * tenTo scale.toNat
  let inside (c : Nat) : Bool :=
    if b.mantissa % 2 = 0 then low * num ≤ c * den && c * den ≤ high * num
    else low * num < c * den && c * den < high * num
  let below := mid * num / den
  let rest := mid * num % den
  match inside below && below != 0, inside (below + 1) with
  | true, true => some ⟨if 2 * rest < den ∨ (2 * rest = den ∧ below % 2 = 0) then below
                        else below + 1, scale⟩
  | true, false => some ⟨below, scale⟩
  | false, true => some ⟨below + 1, scale⟩
  | false, false => none

/-- The place of the leading digit: the number is below `10 ^ place` and not below a tenth of it. -/
def Binary.place (b : Binary) : Int :=
  let (num, den) := b.quarter
  ((Nat.toDigits 10 (4 * b.mantissa * num * tenTo 400 / den)).length : Int) - 400

/-- The first grid with a hit, from few digits to many. -/
def Binary.search (b : Binary) (digits : Nat) : Nat → Decimal
  | 0 => ⟨b.mantissa, 0⟩
  | tries + 1 =>
    match b.onGrid? (b.place - digits) with
    | some d => d
    | none => b.search (digits + 1) tries

/-- Fewest digits that read back. -/
def shortest (bits : UInt64) : Decimal := (Binary.ofBits bits).search 1 17

/-- Digits of a decimal without closing zeros, and the place of the first:
`0.digits · 10 ^ place`. -/
def Decimal.significant (d : Decimal) : List Char × Int :=
  let ds := Nat.toDigits 10 d.digits
  ((ds.reverse.dropWhile (· = '0')).reverse, ds.length + d.scale)

/-- Whether the bits carry a minus sign. -/
def isNegative (bits : UInt64) : Bool := twoTo 63 ≤ bits.toNat

/-- Whether the bits are those of a zero of either sign. -/
def isZero (bits : UInt64) : Bool := bits.toNat % twoTo 63 = 0

/-- Decimal text of a magnitude from its digits and place. Positional for places from -4 to 16, with
`.0` for whole numbers; otherwise one digit, a point before the rest if any, and the signed
exponent. -/
def decimalText (digits : List Char) (place : Int) : List Char :=
  let n : Int := digits.length
  if 0 < place ∧ place ≤ 16 then
    if n ≤ place then digits ++ List.replicate (place - n).toNat '0' ++ ['.', '0']
    else digits.take place.toNat ++ '.' :: digits.drop place.toNat
  else if -5 < place ∧ place ≤ 0 then
    ['0', '.'] ++ List.replicate (-place).toNat '0' ++ digits
  else
    let e := place - 1
    let exponent := (if e < 0 then '-' else '+') :: (toString e.natAbs).toList
    match digits with
    | [] => []
    | [d] => d :: 'e' :: exponent
    | d :: ds => d :: '.' :: ds ++ 'e' :: exponent

/-- Text of a finite number. -/
def text (bits : UInt64) : List Char :=
  let magnitude :=
    if isZero bits then ['0', '.', '0']
    else let (digits, place) := (shortest bits).significant; decimalText digits place
  if isNegative bits then '-' :: magnitude else magnitude

end ApiModels.Number
