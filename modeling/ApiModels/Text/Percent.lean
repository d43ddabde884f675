/-!
# Percent and form encoding

Two ways to carry arbitrary text inside an address. A path segment keeps every character that
cannot be mistaken for structure and writes the bytes of all others as `%XX`. A form component
keeps only letters, digits and `*-._`, and writes a space as `+`. Both work byte by byte on UTF-8.
-/

namespace ApiModels.Text

/-- Upper-case hexadecimal digit. -/
def upperHexDigit (n : Nat) : Char :=
  if n < 10 then Char.ofNat (48 + n) else Char.ofNat (55 + n)

/-- One byte as `%XX`. -/
def percentByte (b : UInt8) : List Char :=
  ['%', upperHexDigit (b.toNat / 16), upperHexDigit (b.toNat % 16)]

/-- The UTF-8 bytes of a character, each as `%XX`. -/
def percentChar (c : Char) : List Char :=
  (String.utf8EncodeChar c).flatMap percentByte

/-- Characters a path segment may hold as they are: printable ASCII other than space and those
that delimit or quote. -/
def keptInSegment (c : Char) : Bool :=
  32 < c.toNat && c.toNat < 127 &&
    !(['"', '#', '%', '/', '<', '>', '?', '\x60', '\x7b', '\x7d'].contains c)

/-- Text as one path segment. -/
def encodeSegment (s : String) : String :=
  String.ofList (s.toList.flatMap fun c => if keptInSegment c then [c] else percentChar c)

/-- Characters a form component may hold as they are. -/
def keptInForm (c : Char) : Bool :=
  c.isAlphanum || ['*', '-', '.', '_'].contains c

/-- One character of a form component. -/
def formChar (c : Char) : List Char :=
  if keptInForm c then [c] else if c = ' ' then ['+'] else percentChar c

/-- Text as a form component. -/
def encodeForm (s : String) : String := String.ofList (s.toList.flatMap formChar)

/-- Pairs as `name=value`, joined with `&`. -/
def encodePairs (pairs : List (String × String)) : String :=
  "&".intercalate (pairs.map fun p => encodeForm p.1 ++ "=" ++ encodeForm p.2)

end ApiModels.Text
