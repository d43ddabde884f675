/-!
# UTF-8

Decoding bytes that claim to be text. The first sequence that is no character is reported with its
place and the number of its bytes, or as cut short if the bytes end inside it.
-/

namespace ApiModels.Text

/-- Where and how bytes fail to be text. -/
structure Utf8Fault where
  /-- Bytes before the faulty sequence. -/
  index : Nat
  /-- Bytes of the faulty sequence, or none if it is cut short. -/
  length : Option Nat
deriving DecidableEq, Repr

/-- A fault in words. -/
def Utf8Fault.text (f : Utf8Fault) : String :=
  match f.length with
  | some n =>
    "invalid utf-8 sequence of " ++ toString n ++ " bytes from index " ++ toString f.index
  | none => "incomplete utf-8 byte sequence from index " ++ toString f.index

/-- Whether a byte continues a sequence. -/
def isContinuation (b : UInt8) : Bool := 0x80 ≤ b && b ≤ 0xbf

/-- Whether `b` can follow `a` at the front of a sequence of three bytes: not of a character that
has a shorter form, nor of a surrogate. -/
def followsOfThree (a b : UInt8) : Bool :=
  isContinuation b && (a != 0xe0 || 0xa0 ≤ b) && (a != 0xed || b ≤ 0x9f)

/-- Whether `b` can follow `a` at the front of a sequence of four bytes: not of a character that has
a shorter form, nor of one beyond the last. -/
def followsOfFour (a b : UInt8) : Bool :=
  isContinuation b && (a != 0xf0 || 0x90 ≤ b) && (a != 0xf4 || b ≤ 0x8f)

/-- The bits that a continuation byte carries. -/
def tailBits (b : UInt8) : Nat := b.toNat % 64

/-- The character of a sequence of two bytes, with the number of bytes after the first. -/
def charOfTwo (a : UInt8) : List UInt8 → Except (Option Nat) (Char × Nat)
  | [] => .error none
  | b :: _ =>
    if isContinuation b then .ok (Char.ofNat (a.toNat % 32 * 64 + tailBits b), 1)
    else .error (some 1)

/-- The character of a sequence of three bytes, with the number of bytes after the first. -/
def charOfThree (a : UInt8) : List UInt8 → Except (Option Nat) (Char × Nat)
  | [] => .error none
  | b :: rest =>
    if followsOfThree a b then
      match rest with
      | [] => .error none
      | c :: _ =>
        if isContinuation c then
          .ok (Char.ofNat ((a.toNat % 16 * 64 + tailBits b) * 64 + tailBits c), 2)
        else .error (some 2)
    else .error (some 1)

/-- The character of a sequence of four bytes, with the number of bytes after the first. -/
def charOfFour (a : UInt8) : List UInt8 → Except (Option Nat) (Char × Nat)
  | [] => .error none
  | b :: rest =>
    if followsOfFour a b then
      match rest with
      | [] => .error none
      | c :: rest =>
        if isContinuation c then
          match rest with
          | [] => .error none
          | d :: _ =>
            if isContinuation d then
              let n := ((a.toNat % 8 * 64 + tailBits b) * 64 + tailBits c) * 64 + tailBits d
              .ok (Char.ofNat n, 3)
            else .error (some 3)
        else .error (some 2)
    else .error (some 1)

/-- The character that begins with a byte, and how many of the bytes that follow belong to it; or
how many bytes make up the faulty sequence, none if it is cut short. -/
def firstChar (a : UInt8) (rest : List UInt8) : Except (Option Nat) (Char × Nat) :=
  if a < 0x80 then .ok (Char.ofNat a.toNat, 0)
  else if 0xc2 ≤ a ∧ a ≤ 0xdf then charOfTwo a rest
  else if 0xe0 ≤ a ∧ a ≤ 0xef then charOfThree a rest
  else if 0xf0 ≤ a ∧ a ≤ 0xf4 then charOfFour a rest
  else .error (some 1)

/-- The characters of some bytes after the first `skip`, or the first fault, with indices from
`index` on. -/
def decodeUtf8 (index skip : Nat) : List UInt8 → Except Utf8Fault (List Char)
  | [] => .ok []
  | a :: rest =>
    match skip with
    | skip + 1 => decodeUtf8 (index + 1) skip rest
    | 0 =>
      match firstChar a rest with
      | .ok (c, more) => (decodeUtf8 (index + 1) more rest).map (c :: ·)
      | .error length => .error ⟨index, length⟩

/-- The characters of some bytes after the first `skip`. A byte that belongs to none is left as
nothing, and reading goes on after it. -/
def looseChars (skip : Nat) : List UInt8 → List (Option Char)
  | [] => []
  | a :: rest =>
    match skip with
    | skip + 1 => looseChars skip rest
    | 0 =>
      match firstChar a rest with
      | .ok (c, more) => some c :: looseChars more rest
      | .error _ => none :: looseChars 0 rest

/-- The text of some bytes, or the first fault. -/
def ofUtf8 (bytes : List UInt8) : Except Utf8Fault String :=
  (decodeUtf8 0 0 bytes).map String.ofList

/-- The bytes of a text. -/
def toUtf8 (s : String) : List UInt8 := s.toList.flatMap String.utf8EncodeChar

end ApiModels.Text
