import ApiModels.Kdl.Document
import ApiModels.Kdl.Text

/-!
# Reading KDL documents

Values, entries, nodes and documents. Numbers are checked and dropped: no configuration holds one.
-/

namespace ApiModels.Kdl

namespace Reading

/-- Digits of some base after a first one, with underscores among them. -/
def digits (isDigit : Char → Bool) : Reading (List Char) := do
  let first ← satisfy isDigit
  let more ← many (satisfy fun c => isDigit c || c == '_')
  return first :: more.filter (· ≠ '_')

/-- Whether a run of digits is within range: each has to fit a signed word of 128 bits, wherever it
stands in a number and whatever its sign. -/
def fitsWord (n : Nat) : Bool := n < Nat.pow 2 127

/-- A run of decimal digits. -/
def decimalRun : Reading Unit := do
  let ds ← digits Char.isDigit
  unless fitsWord (Text.digitsValue ds) do failure

/-- A whole number in some base after its mark. -/
def based (mark : String) (base : Nat) : Reading Unit := do
  word mark
  let ds ← digits fun c =>
    match Text.hexValue? c with
    | some v => v < base
    | none => false
  unless fitsWord (ds.foldl (fun n c => base * n + (Text.hexValue? c).getD 0) 0) do failure

/-- A sign. -/
def sign : Reading Unit := do
  let _ ← satisfy fun c => c == '+' || c == '-'

/-- A decimal number. -/
def decimal : Reading Unit := do
  decimalRun
  let _ ← accept (word "." *> decimalRun)
  let _ ← accept (do
    let _ ← satisfy fun c => c == 'e' || c == 'E'
    let _ ← accept sign
    decimalRun)

/-- A number. -/
def number : Reading Unit := do
  let _ ← accept sign
  based "0x" 16 <|> based "0o" 8 <|> based "0b" 2 <|> decimal
  wordEnd

/-- A value that a word after a hash sign names. -/
def keyword : Reading Value :=
  (word "#true" *> pure (.bool true)) <|> (word "#false" *> pure (.bool false))
    <|> (word "#null" *> pure .null)
    <|> ((word "#inf" <|> word "#-inf" <|> word "#nan") *> pure .number)

/-- A type annotation, which says nothing here. -/
def annotation : Reading Unit := do
  word "("
  gaps
  let _ ← text
  gaps
  word ")"

/-- A value. -/
def value : Reading Value := do
  let _ ← accept annotation
  gaps
  keyword <|> (number *> pure .number) <|> (do return .text (← text))

/-- A property or an argument. -/
def argument : Reading Entry :=
  (do
    let name ← text
    gaps
    word "="
    gaps
    return ⟨some name, ← value⟩)
    <|> (do return ⟨none, ← value⟩)

mutual

/-- An entry, behind gaps and entries that are commented out. The mark of a comment covers the next
entry together with what is commented out before it. -/
def entry : Nat → Reading Entry
  | 0 => failure
  | n + 1 => do
    gaps
    let _ ← accept (deadEntries n *> someGaps)
    argument

/-- Entries that are commented out. -/
def deadEntries : Nat → Reading Unit
  | 0 => failure
  | n + 1 => do
    let _ ← separated (slashdash *> entry n) someGaps

end

mutual

/-- What may stand before a node: blanks, ends of lines, and nodes that are commented out. -/
def beforeNode : Nat → Reading Unit
  | 0 => failure
  | n + 1 => do
    let _ ← many (lineGap <|> do
      slashdash
      let _ ← node n)

/-- The nodes of a block or of the text. What is commented out after the last one may follow it on
the same line. -/
def nodes : Nat → Reading (List Node)
  | 0 => failure
  | n + 1 => do
    beforeNode n
    let ns ← optionally (separated (beforeNode n *> node n) nodeEnd)
    let _ ← accept nodeEnd
    beforeNode n
    return ns.getD []

/-- A block of children. -/
def block : Nat → Reading (List Node)
  | 0 => failure
  | n + 1 => do
    word "\x7b"
    let children ← nodes n
    word "\x7d"
    return children

/-- Blocks that are commented out. -/
def deadBlocks : Nat → Reading Unit
  | 0 => failure
  | n + 1 => do
    gaps
    let _ ← separated (slashdash *> block n) someGaps

/-- What may stand between the entries of a node and its block. -/
def beforeBlock : Nat → Reading Unit
  | 0 => failure
  | n + 1 => do
    (someGaps *> deadEntries n *> someGaps *> deadBlocks n) <|> (someGaps *> deadEntries n)
      <|> (someGaps *> deadBlocks n) <|> gaps
    gaps

/-- A node, without what ends it. -/
def node : Nat → Reading Node
  | 0 => failure
  | n + 1 => do
    let _ ← accept annotation
    gaps
    let name ← text
    let entries ← many (peek someGaps *> entry n)
    let children ← optionally (beforeBlock n *> block n)
    if children.isSome then
      let _ ← accept (deadBlocks n)
      gaps
    else beforeBlock n
    return .mk name entries children

end

end Reading

/-- The nodes of a document. A byte order mark may stand before them. -/
def ofText? (s : String) : Option (List Node) := do
  let cs := match s.toList with
    | '\ufeff' :: cs => cs
    | cs => cs
  -- each step into a node or an entry takes a character, by way of a few levels that take none
  let (ns, rest) ← (Reading.nodes (4 * cs.length + 8)).run cs
  if rest.isEmpty then some ns else none

end ApiModels.Kdl
