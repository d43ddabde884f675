import ApiModels.Source.Token
import ApiModels.Text.NameCharacter
import ApiModels.Text.Pieces

/-!
# Scanning literals

Each reader here is given the characters behind the mark that opens a literal, and answers what
follows it; those of texts answer what the text says as well. They refuse what is no literal.
-/

namespace ApiModels.Source.Scan

/-- Whether a word can begin with a character. -/
def startsWord (c : Char) : Bool := c = '_' || Text.isNameStart c

/-- What follows the suffix of a literal, if it has one. -/
def afterSuffix : List Char → List Char
  | [] => []
  | c :: cs => if startsWord c then cs.dropWhile Text.isNameChar else c :: cs

/-! ## Texts -/

/-- What a text between quotes is made of. -/
inductive TextStyle where
  | chars
  | bytes
  /-- Characters without NUL, which ends such a text. -/
  | terminated
deriving DecidableEq, Repr

/-- Whether a text may hold a character as it is. -/
def TextStyle.allows : TextStyle → Char → Bool
  | chars, _ => true
  | bytes, c => c.toNat < 128
  | terminated, c => c ≠ '\x00'

/-- An escape by two digits, behind its `x`. A character has to be of ASCII. -/
def shortEscape (style : TextStyle) : List Char → Option (Char × List Char)
  | a :: b :: rest => do
    let n := 16 * (← Text.hexValue? a) + (← Text.hexValue? b)
    match style with
    | .chars => if n < 128 then some (Char.ofNat n, rest) else none
    | .bytes => some (Char.ofNat n, rest)
    | .terminated => if n = 0 then none else some (Char.ofNat n, rest)
  | _ => none

/-- An escape by a number of up to six digits, behind its opening brace. -/
def longEscape (value count : Nat) : List Char → Option (Char × List Char)
  | [] => none
  | c :: cs =>
    match Text.hexValue? c with
    | some d => if count = 6 then none else longEscape (16 * value + d) (count + 1) cs
    | none =>
      if count = 0 then none
      else if c = '_' then longEscape value count cs
      else if c = '\x7d' ∧ value.isValidChar then some (Char.ofNat value, cs)
      else none

/-- What follows the blanks at the start of a joined line. A text cannot end with them. -/
def afterJoin : List Char → Option (List Char)
  | [] => none
  | '\r' :: '\n' :: cs => afterJoin cs
  | '\r' :: _ => none
  | c :: cs => if c = ' ' ∨ c = '\t' ∨ c = '\n' then afterJoin cs else some (c :: cs)

/-- The value of an escape of one letter. -/
def letterEscape? : Char → Option Char
  | 'n' => some '\n'
  | 'r' => some '\r'
  | 't' => some '\t'
  | '0' => some '\x00'
  | '\\' => some '\\'
  | '"' => some '"'
  | '\'' => some '\''
  | _ => none

/-- An escape behind its backslash. One that joins two lines stands for nothing. -/
def escape (style : TextStyle) : List Char → Option (Option Char × List Char)
  | [] => none
  | 'x' :: cs => (shortEscape style cs).map fun r => (some r.1, r.2)
  | 'u' :: '\x7b' :: cs => do
    let (c, rest) ← longEscape 0 0 cs
    if style = .bytes ∨ !style.allows c then none else some (some c, rest)
  | c :: cs =>
    if c = '\n' ∨ c = '\r' then (afterJoin (c :: cs)).map fun rest => (none, rest)
    else do
      let value ← letterEscape? c
      if style.allows value then some (some value, cs) else none

/-- A text behind its opening quote, with what follows the closing one. Every step takes a
character. -/
def quoted (style : TextStyle) : Nat → List Char → Option (List Char × List Char)
  | 0, _ | _, [] => none
  | _ + 1, '"' :: rest => some ([], rest)
  | n + 1, '\r' :: '\n' :: cs => (quoted style n cs).map fun r => ('\n' :: r.1, r.2)
  | _ + 1, '\r' :: _ => none
  | n + 1, '\\' :: cs => do
    let (c, cs) ← escape style cs
    let (text, rest) ← quoted style n cs
    some (c.toList ++ text, rest)
  | n + 1, c :: cs =>
    if style.allows c then (quoted style n cs).map fun r => (c :: r.1, r.2) else none

/-- A raw text behind its opening quote, up to a quote with all the hash signs. -/
def fenced (style : TextStyle) (hashes : List Char) : List Char → Option (List Char × List Char)
  | [] => none
  | '\r' :: '\n' :: cs => (fenced style hashes cs).map fun r => ('\r' :: '\n' :: r.1, r.2)
  | '\r' :: _ => none
  | c :: cs =>
    match if c = '"' then Text.afterStart? hashes cs else none with
    | some rest => some ([], rest)
    | none =>
      if style.allows c then (fenced style hashes cs).map fun r => (c :: r.1, r.2) else none

/-- Hash signs that a raw text may have at most. -/
def mostHashes : Nat := 255

/-- A raw text behind its `r`. -/
def raw (style : TextStyle) (cs : List Char) : Option (List Char × List Char) :=
  let hashes := cs.takeWhile (· = '#')
  match cs.drop hashes.length with
  | '"' :: rest => if hashes.length ≤ mostHashes then fenced style hashes rest else none
  | _ => none

/-- What follows a character behind its opening quote. -/
def afterChar (style : TextStyle) (cs : List Char) : Option (List Char) :=
  let close : List Char → Option (List Char)
    | '\'' :: rest => some rest
    | _ => none
  match cs with
  | [] => none
  | '\\' :: cs => do
    let (value, rest) ← escape style cs
    if value.isNone then none else close rest
  | c :: cs => if style.allows c then close cs else none

/-! ## Numbers -/

/-- Whether a character is a digit or stands between digits. -/
def isDigitPart (c : Char) : Bool := c.isDigit || c = '_'

/-- What follows an exponent behind its `e`. One without digits is none, and leaves what stood
before it. -/
def afterExponent (before : Option (List Char)) (signed valued : Bool) :
    List Char → Option (List Char)
  | [] => if valued then some [] else before
  | c :: cs =>
    if c.isDigit then afterExponent before signed true cs
    else if c = '_' then afterExponent before signed valued cs
    else if (c = '+' ∨ c = '-') ∧ !valued then
      if signed then before else afterExponent before true valued cs
    else if valued then some (c :: cs)
    else before

/-- What follows a number with a point or an exponent, without its suffix. A point before another
one or before a word is no part of the number. -/
def afterReal (cs : List Char) : Option (List Char) :=
  match cs.dropWhile isDigitPart with
  | '.' :: rest =>
    if rest.head?.any fun c => c = '.' || startsWord c then none
    else
      match rest.dropWhile isDigitPart with
      | [] => some []
      | c :: more =>
        if c = 'e' ∨ c = 'E' then afterExponent (some (c :: more)) false false more
        else some (c :: more)
  | c :: more => if c = 'e' ∨ c = 'E' then afterExponent none false false more else none
  | [] => none

/-- What follows the digits of a whole number. A digit that the base does not have is an error, a
letter that it does not have begins the suffix. -/
def afterDigits (base : Nat) (found : Bool) : List Char → Option (List Char)
  | [] => if found then some [] else none
  | c :: cs =>
    if c = '_' then if !found ∧ base = 10 then none else afterDigits base found cs
    else
      match Text.hexValue? c with
      | some d =>
        if d < base then afterDigits base true cs
        else if c.isDigit ∨ !found then none
        else some (c :: cs)
      | none => if found then some (c :: cs) else none

/-- What follows a whole number, without its suffix. -/
def afterWhole : List Char → Option (List Char)
  | '0' :: 'x' :: cs => afterDigits 16 false cs
  | '0' :: 'o' :: cs => afterDigits 8 false cs
  | '0' :: 'b' :: cs => afterDigits 2 false cs
  | cs => afterDigits 10 false cs

/-- What follows the suffix of a number. A number cannot run into the middle of a word. -/
def afterNumber (cs : List Char) : Option (List Char) :=
  let rest := afterSuffix cs
  if rest.head?.any Text.isNameChar then none else some rest

/-- The kind of a number and what follows it. -/
def number (cs : List Char) : Option (LiteralKind × List Char) :=
  if cs.head?.any Char.isDigit then
    ((afterReal cs).bind afterNumber).map (fun rest => (.real, rest))
      <|> ((afterWhole cs).bind afterNumber).map fun rest => (.whole, rest)
  else none

/-! ## Literals -/

/-- A text with what follows it, as the parts of a literal. -/
def textParts (kind : LiteralKind) (r : Option (List Char × List Char)) :
    Option (LiteralKind × Option (List Char) × List Char) :=
  r.map fun r => (kind, if kind = .text then some r.1 else none, afterSuffix r.2)

/-- A literal as its kind, what it says if it is a text, and what follows it. -/
def literalParts (cs : List Char) : Option (LiteralKind × Option (List Char) × List Char) :=
  let steps := cs.length
  match cs with
  | '"' :: cs => textParts .text (quoted .chars steps cs)
  | 'r' :: cs => textParts .text (raw .chars cs)
  | 'b' :: '"' :: cs => textParts .rawText (quoted .bytes steps cs)
  | 'b' :: 'r' :: cs => textParts .rawText (raw .bytes cs)
  | 'c' :: '"' :: cs => textParts .rawText (quoted .terminated steps cs)
  | 'c' :: 'r' :: cs => textParts .rawText (raw .terminated cs)
  | 'b' :: '\'' :: cs => (afterChar .bytes cs).map fun rest => (.byte, none, afterSuffix rest)
  | '\'' :: cs => (afterChar .chars cs).map fun rest => (.char, none, afterSuffix rest)
  | cs => (number cs).map fun r => (r.1, none, r.2)

/-- The literal at the front of a text, with what follows it. -/
def literal (cs : List Char) : Option (Literal × List Char) :=
  (literalParts cs).map fun r =>
    let written := cs.take (cs.length - r.2.2.length)
    (⟨String.ofList written, r.1, r.2.1.map String.ofList⟩, r.2.2)

end ApiModels.Source.Scan
