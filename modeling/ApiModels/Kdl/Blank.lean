import ApiModels.Kdl.Character

/-!
# Between the words of a KDL document

Blanks, comments, and the ends of lines. Readers take characters from the front of a text and may
refuse; one that refuses takes nothing.
-/

namespace ApiModels.Kdl

/-- A reader of characters, which may refuse. -/
abbrev Reading := StateT (List Char) Option

namespace Reading

/-- Takes the next character if it passes a test. -/
def satisfy (p : Char → Bool) : Reading Char := fun cs =>
  match cs with
  | c :: rest => if p c then some (c, rest) else none
  | [] => none

/-- Takes the given characters. -/
def exactly : List Char → Reading Unit
  | [] => pure ()
  | c :: cs => do
    let _ ← satisfy (· == c)
    exactly cs

/-- Takes the given text. -/
def word (s : String) : Reading Unit := exactly s.toList

/-- Refuses unless the text is at its end. -/
def atEnd : Reading Unit := fun cs => if cs.isEmpty then some ((), cs) else none

/-- Refuses unless a reader would succeed here. Takes nothing. -/
def peek (r : Reading α) : Reading Unit := fun cs => (r.run cs).map fun _ => ((), cs)

/-- Refuses if a reader would succeed here. Takes nothing. -/
def notHere (r : Reading α) : Reading Unit := fun cs =>
  if (r.run cs).isSome then none else some ((), cs)

/-- Whether a reader succeeds. -/
def accept (r : Reading α) : Reading Bool := (do let _ ← r; pure true) <|> pure false

/-- A reader, if it succeeds. -/
def optionally (r : Reading α) : Reading (Option α) := (do return some (← r)) <|> pure none

/-- Repeats a reader as long as it succeeds, at most so many times. -/
def upTo (r : Reading α) : Nat → Reading (List α)
  | 0 => pure []
  | n + 1 => do
    match ← optionally r with
    | some a => return a :: (← upTo r n)
    | none => pure []

/-- Repeats a reader that takes at least one character as long as it succeeds. -/
def many (r : Reading α) : Reading (List α) := do upTo r (← get).length

/-- Repeats a reader at least once, with another one in between. -/
def separated (r : Reading α) (between : Reading β) : Reading (List α) := do
  let first ← r
  return first :: (← many (between *> r))

/-- The end of a line. -/
def newline : Reading Unit :=
  word "\r\n" <|> (do let _ ← satisfy isNewline)

/-- The rest of a block comment of some depth. Comments nest. -/
def commentRest : Nat → List Char → Option (List Char)
  | 0, '*' :: '/' :: rest => some rest
  | depth + 1, '*' :: '/' :: rest => commentRest depth rest
  | depth, '/' :: '*' :: rest => commentRest (depth + 1) rest
  | depth, _ :: rest => commentRest depth rest
  | _, [] => none

/-- A block comment. -/
def blockComment : Reading Unit := do
  word "/*"
  fun cs => (commentRest 0 cs).map fun rest => ((), rest)

/-- A comment that ends with its line. -/
def lineComment : Reading Unit := do
  word "//"
  let _ ← many (satisfy fun c => !isNewline c)
  newline <|> atEnd

/-- A blank or a block comment. -/
def blank : Reading Unit := (do let _ ← satisfy isSpace) <|> blockComment

/-- A backslash that joins a line with the next one. -/
def continuation : Reading Unit := do
  word "\\"
  let _ ← many blank
  lineComment <|> newline <|> atEnd

/-- A piece of what may stand between the parts of a node. -/
def gap : Reading Unit := blank <|> continuation

/-- Whatever may stand between the parts of a node. -/
def gaps : Reading Unit := do let _ ← many gap

/-- At least one gap. -/
def someGaps : Reading Unit := gap *> gaps

/-- A piece of what may stand between nodes. -/
def lineGap : Reading Unit := gap <|> newline <|> lineComment

/-- Whatever may stand between nodes. -/
def lineGaps : Reading Unit := do let _ ← many lineGap

/-- What ends a node. -/
def nodeEnd : Reading Unit := lineComment <|> newline <|> word ";"

/-- Refuses unless a word or a number may end here. -/
def wordEnd : Reading Unit :=
  peek (atEnd <|> word "=" <|> word ")" <|> word "\x7b" <|> word "\x7d" <|> gap <|> nodeEnd)

/-- The mark that comments out the next node, entry or block. -/
def slashdash : Reading Unit := do
  word "/-"
  lineGaps

end Reading

end ApiModels.Kdl
