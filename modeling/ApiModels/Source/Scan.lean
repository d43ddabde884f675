import ApiModels.Source.Scan.Literal

/-!
# Scanning source text

The tokens of a text. Blanks and comments vanish, except for comments that document what they stand
at: each of them is the attribute it abbreviates. Brackets have to match.
-/

namespace ApiModels.Source.Scan

/-! ## Blanks and comments -/

/-- Whether a character separates tokens. The marks of writing direction do, too. -/
def isBlank (c : Char) : Bool := Text.isBlank c || c = '\u200e' || c = '\u200f'

/-- What stands on a line and what follows it, the end of the line included. -/
def line : List Char → List Char × List Char
  | [] => ([], [])
  | '\r' :: '\n' :: cs => ([], '\n' :: cs)
  | c :: cs => if c = '\n' then ([], c :: cs) else ((c :: (line cs).1), (line cs).2)

/-- The rest of a block comment and what follows it. Comments nest. -/
def blockComment : Nat → List Char → Option (List Char × List Char)
  | 0, '*' :: '/' :: rest => some ([], rest)
  | depth + 1, '*' :: '/' :: cs =>
    (blockComment depth cs).map fun r => ('*' :: '/' :: r.1, r.2)
  | depth, '/' :: '*' :: cs =>
    (blockComment (depth + 1) cs).map fun r => ('/' :: '*' :: r.1, r.2)
  | depth, c :: cs => (blockComment depth cs).map fun r => (c :: r.1, r.2)
  | _, [] => none

/-- What a documentation comment says: whether it is about what it stands in, its text, and what
follows it. -/
def documentation : List Char → Option (Bool × List Char × List Char)
  | '/' :: '/' :: '!' :: cs => some (true, line cs)
  | '/' :: '/' :: '/' :: '/' :: _ => none
  | '/' :: '/' :: '/' :: cs => some (false, line cs)
  | '/' :: '*' :: '!' :: cs => (blockComment 0 cs).map fun r => (true, r)
  | '/' :: '*' :: '*' :: '*' :: _ => none
  | '/' :: '*' :: '*' :: '/' :: _ => none
  | '/' :: '*' :: '*' :: cs => (blockComment 0 cs).map fun r => (false, r)
  | _ => none

/-- Whether the ends of lines in a text are whole. -/
def hasWholeLines : List Char → Bool
  | [] => true
  | '\r' :: '\n' :: cs => hasWholeLines cs
  | c :: cs => c ≠ '\r' && hasWholeLines cs

/-- What follows a comment that says nothing. -/
def afterComment? (cs : List Char) : Option (List Char) :=
  if (documentation cs).isSome then none
  else
    match cs with
    | '/' :: '/' :: cs => some (line cs).2
    | '/' :: '*' :: cs => (blockComment 0 cs).map (·.2)
    | _ => none

/-- What follows blanks and comments. -/
def afterBlanks : Nat → List Char → List Char
  | 0, cs => cs
  | _, [] => []
  | n + 1, c :: cs =>
    if isBlank c then afterBlanks n cs
    else
      match afterComment? (c :: cs) with
      | some rest => afterBlanks n rest
      | none => c :: cs

/-! ## Words and marks -/

/-- A word and what follows it. -/
def plainWord : List Char → Option (List Char × List Char)
  | [] => none
  | c :: cs =>
    if startsWord c then some (c :: cs.takeWhile Text.isNameChar, cs.dropWhile Text.isNameChar)
    else none

/-- Words that cannot be written raw. -/
def neverRaw : List String := ["_", "super", "self", "Self", "crate"]

/-- A word, raw or not, and what follows it. -/
def anyWord : List Char → Option (Ident × List Char)
  | 'r' :: '#' :: cs => do
    let (w, rest) ← plainWord cs
    let text := String.ofList w
    if neverRaw.contains text then none else some (⟨text, true⟩, rest)
  | cs => (plainWord cs).map fun r => (⟨String.ofList r.1, false⟩, r.2)

/-- What a word cannot begin with, because a literal would. -/
def literalStarts : List String :=
  ["r\"", "r#\"", "r##", "b\"", "b'", "br\"", "br#", "c\"", "cr\"", "cr#"]

/-- A word that is no broken literal, and what follows it. -/
def word (cs : List Char) : Option (Ident × List Char) :=
  if literalStarts.any fun s => (Text.afterStart? s.toList cs).isSome then none else anyWord cs

/-- Marks that code is made of. -/
def marks : List Char := "~!@#$%^&*-=+|;:,<.>/?'".toList

/-- Whether a text begins with a mark. The slash of a comment is none. -/
def startsMark : List Char → Bool
  | '/' :: '/' :: _ | '/' :: '*' :: _ => false
  | c :: _ => marks.contains c
  | [] => false

/-- A lifetime behind its quote, and what follows it. A word that another quote or a hash sign ends
is none. -/
def lifetime (cs : List Char) : Option (Token × List Char) := do
  let (name, rest) ← anyWord cs
  match rest with
  | '\'' :: _ => none
  | '#' :: _ => if name.raw then some (.lifetime name, rest) else none
  | _ => some (.lifetime name, rest)

/-- A mark and what follows it. -/
def mark (cs : List Char) : Option (Token × List Char) :=
  if startsMark cs then
    match cs with
    | '\'' :: rest => lifetime rest
    | c :: rest => some (.mark c (startsMark rest), rest)
    | [] => none
  else none

/-- A token that is no bracket, and what follows it. -/
def leaf (cs : List Char) : Option (Token × List Char) :=
  (literal cs).map (fun r => (.literal r.1, r.2)) <|> mark cs
    <|> (word cs).map fun r => (.word r.1, r.2)

/-! ## Texts -/

/-- Brackets that are open, the innermost first: each with the tokens before it, the last first. -/
abbrev Opened := List (Delimiter × List Token)

/-- Reads tokens to the end of a text. Those found since the last bracket opened are held backwards.
Every step takes a character. -/
def tokensFrom : Nat → Opened → (held : List Token) → List Char → Option (List Token)
  | 0, _, _, _ => none
  | n + 1, opened, held, cs =>
    match afterBlanks cs.length cs with
    | [] => if opened.isEmpty then some held.reverse else none
    | c :: rest =>
      match documentation (c :: rest) with
      | some (inner, text, rest) =>
        if hasWholeLines text then
          tokensFrom n opened ((Token.ofComment inner (String.ofList text)).reverse ++ held) rest
        else none
      | none =>
        match Delimiter.ofOpening? c, Delimiter.ofClosing? c with
        | some d, _ => tokensFrom n ((d, held) :: opened) [] rest
        | none, some d =>
          match opened with
          | (e, before) :: opened =>
            if d = e then tokensFrom n opened (.group d held.reverse :: before) rest else none
          | [] => none
        | none, none => do
          let (t, rest) ← leaf (c :: rest)
          tokensFrom n opened (t :: held) rest

/-- The tokens of a text. A mark of the order of bytes may stand before them. -/
def tokens? (s : String) : Option (List Token) :=
  let cs := match s.toList with
    | '\ufeff' :: cs => cs
    | cs => cs
  tokensFrom (cs.length + 1) [] [] cs

end ApiModels.Source.Scan
