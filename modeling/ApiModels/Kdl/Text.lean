import ApiModels.Kdl.Blank
import ApiModels.Text.Hexadecimal
import ApiModels.Text.Pieces

/-!
# Texts of a KDL document

A text is a bare word, quoted, or raw. A quoted or raw one of several lines starts and ends with
three quotes on lines of their own; the blanks before the closing quotes are taken off every line.
-/

namespace ApiModels.Kdl

/-- Words that are no texts, because they look like values of another kind. -/
def reservedWords : List String := ["true", "false", "null", "inf", "-inf", "nan"]

/-- Whether the characters of a word may stand without quotes: it must not look like a number. -/
def isBareWord : List Char → Bool
  | [] => false
  | '+' :: '.' :: c :: _ | '-' :: '.' :: c :: _ | '+' :: c :: _ | '-' :: c :: _ | '.' :: c :: _ =>
    !c.isDigit
  | c :: cs => !c.isDigit && !reservedWords.contains (String.ofList (c :: cs))

/-- A character of a text of several lines, and whether it stands for itself. -/
structure Drawn where
  char : Char
  plain : Bool

/-- The lines of a text, cut where a newline stands for itself. -/
def drawnLines : List Drawn → List (List Drawn)
  | [] => [[]]
  | d :: ds =>
    if d.plain && isNewline d.char then [] :: drawnLines ds
    else
      match drawnLines ds with
      | line :: lines => (d :: line) :: lines
      | [] => [[d]]

/-- Drops the given blanks from a line. -/
def unindented? : (indent : List Char) → List Drawn → Option (List Drawn)
  | [], ds => some ds
  | c :: cs, d :: ds => if d.plain && d.char == c then unindented? cs ds else none
  | _ :: _, [] => none

/-- Whether a line holds nothing but blanks. -/
def isBlankLine (line : List Drawn) : Bool := line.all fun d => d.plain && isSpace d.char

/-- A line of a text of several lines. -/
def lineText? (indent : List Char) (line : List Drawn) : Option String :=
  if isBlankLine line then some ""
  else (unindented? indent line).map fun ds => String.ofList (ds.map Drawn.char)

/-- The text that some lines spell. The last one holds the indentation of all. -/
def linesText? (ds : List Drawn) : Option String :=
  match (drawnLines ds).reverse with
  | [] => none
  | last :: lines =>
    if isBlankLine last then
      (lines.reverse.mapM (lineText? (last.map Drawn.char))).map (Text.join "\n")
    else none

namespace Reading

/-- A text without quotes. -/
def bareWord : Reading String := do
  let cs ← many (satisfy isWordChar)
  if isBareWord cs then return String.ofList cs else failure

/-- A character by its number, after the opening brace. -/
def numberedChar : Reading Char := do
  let ds ← many (satisfy fun c => (Text.hexValue? c).isSome)
  word "\x7d"
  let n := ds.foldl (fun n c => 16 * n + (Text.hexValue? c).getD 0) 0
  if ds.isEmpty || 6 < ds.length || !n.isValidChar then failure else return Char.ofNat n

/-- An escape after its backslash. -/
def escaped : Reading Char := do
  match ← satisfy fun _ => true with
  | '"' => pure '"'
  | '\\' => pure '\\'
  | 'b' => pure '\x08'
  | 'f' => pure '\x0c'
  | 'n' => pure '\n'
  | 'r' => pure '\r'
  | 't' => pure '\t'
  | 's' => pure ' '
  | 'u' =>
    word "\x7b"
    numberedChar
  | _ => failure

/-- A backslash before blanks, which it takes out of the text. -/
def joined : Reading (List Drawn) := do
  word "\\"
  let first ← optionally (satisfy fun c => isSpace c || isNewline c)
  if first.isNone then failure
  let _ ← many (satisfy fun c => isSpace c || isNewline c)
  return []

/-- A character of a quoted text. The end of a line is one newline, however it is written. -/
def quotedChar : Reading (List Drawn) :=
  joined
    <|> (do
      word "\\"
      return [⟨← escaped, false⟩])
    <|> (do
      newline
      return [⟨'\n', true⟩])
    <|> (do
      let c ← satisfy fun c => !(c = '\\' || isForbidden c)
      return [⟨c, true⟩])

/-- A character of a raw text. -/
def rawChar : Reading (List Drawn) :=
  (do
    newline
    return [⟨'\n', true⟩])
    <|> (do
      let c ← satisfy fun c => !isForbidden c
      return [⟨c, true⟩])

/-- Characters up to a closing mark. -/
def upToClosing (char : Reading (List Drawn)) (closing : Reading Unit) : Reading (List Drawn) := do
  let pieces ← many (do
    notHere closing
    char)
  closing
  return pieces.flatten

/-- A text between quotes with some hash signs around them. -/
def between (char : Reading (List Drawn)) (hashes : List Char) : Reading String := do
  if ← accept (word "\"\"\"" *> newline) then
    let ds ← upToClosing char (word "\"\"\"" *> exactly hashes)
    match linesText? ds with
    | some s => return s
    | none => failure
  else
    word "\""
    let ds ← upToClosing char (word "\"" *> exactly hashes)
    if ds.any fun d => d.plain && isNewline d.char then failure
    return String.ofList (ds.map Drawn.char)

/-- A raw text. One that is a quote looks like one of several lines and is refused. -/
def raw : Reading String := do
  let hashes ← many (satisfy (· == '#'))
  if hashes.isEmpty then failure
  let s ← between rawChar hashes
  if s = "\"" then failure else return s

/-- A text. -/
def text : Reading String := (between quotedChar [] <|> raw <|> bareWord) <* wordEnd

end Reading

end ApiModels.Kdl
