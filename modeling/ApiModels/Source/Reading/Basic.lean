import ApiModels.Source.Reading.Ahead
import ApiModels.Source.Syntax

/-!
# Readers of tokens

A reader takes tokens from the front of a list, and refuses when they are not what it needs. It
looks ahead before it takes, so nothing is ever taken back. What stands in brackets is read by
itself, to its end.
-/

namespace ApiModels.Source

/-- A reader of tokens, which may refuse. -/
abbrev Reading := StateT (List Token) Option

namespace Reading

/-- Asks about the tokens to come. -/
def ahead (p : List Token → Bool) : Reading Bool := do return p (← get)

/-- Takes a token. -/
def take : Reading Token := do
  match ← get with
  | t :: rest => set rest; pure t
  | [] => failure

/-- Takes so many tokens. -/
def skip (n : Nat) : Reading Unit := modify (List.drop n)

/-- Takes a given word if it is next, and tells whether it was. -/
def hasWord (s : String) : Reading Bool := do
  if ← ahead (Ahead.isWord s) then
    skip 1
    pure true
  else pure false

/-- Takes a given word. -/
def word (s : String) : Reading Unit := do unless ← hasWord s do failure

/-- Takes a given mark if it is next, and tells whether it was. -/
def hasMark (m : String) : Reading Bool := do
  if ← ahead (Ahead.isMark m) then
    skip m.length
    pure true
  else pure false

/-- Takes a given mark. -/
def mark (m : String) : Reading Unit := do unless ← hasMark m do failure

/-- Takes those of some words that are next, in their order. -/
def wordsOf : List String → Reading (List String)
  | [] => pure []
  | s :: ss => do
    if ← hasWord s then return s :: (← wordsOf ss) else wordsOf ss

/-- Takes a word, a name or a keyword. -/
def anyWord : Reading Ident := do
  match ← take with
  | .word w => pure w
  | _ => failure

/-- Takes a word if it is a name or one of the given keywords. -/
def nameOr (words : List String) : Reading Ident := do
  if ← ahead fun ts => Ahead.isName ts || Ahead.isWordOf words ts then anyWord else failure

/-- Takes a name. -/
def name : Reading Ident := nameOr []

/-- Takes a lifetime. -/
def lifetime : Reading Ident := do
  match ← take with
  | .lifetime w => pure w
  | _ => failure

/-- Takes a lifetime if one is next. -/
def lifetime? : Reading (Option Ident) := do
  if ← ahead Ahead.isLifetime then some <$> lifetime else pure none

/-- Takes a literal, which may be a truth value or a number with a minus before it. -/
def literal : Reading Literal := do
  match ← get with
  | .literal l :: rest => set rest; pure l
  | .mark '-' _ :: .literal l :: rest =>
    if l.isNumber then
      set rest
      pure l.negated
    else failure
  | .word w :: rest =>
    if w = ⟨"true", false⟩ ∨ w = ⟨"false", false⟩ then
      set rest
      pure (.ofBool w.text)
    else failure
  | _ => failure

/-- Takes a text if one is next. -/
def text? : Reading (Option Literal) := do
  if ← ahead Ahead.isText then some <$> literal else pure none

/-- Takes brackets with their content. -/
def anyGroup : Reading (Delimiter × List Token) := do
  match ← take with
  | .group d content => pure (d, content)
  | _ => failure

/-- Reads tokens that are given, to the last one. -/
def allOf (content : List Token) (inner : Reading α) : Reading α := do
  let (a, rest) ← inner.run content
  if rest.isEmpty then pure a else failure

/-- Reads what stands in brackets. -/
def within (d : Delimiter) (inner : Reading α) : Reading α := do
  let (e, content) ← anyGroup
  if d = e then allOf content inner else failure

/-! ## Lists -/

/-- Elements one after another, as long as something holds of what comes. -/
def repeatedUpTo (more : List Token → Bool) (element : Reading α) : Nat → Reading (List α)
  | 0 => failure
  | n + 1 => do
    if ← ahead more then
      let a ← element
      return a :: (← repeatedUpTo more element n)
    else pure []

/-- Elements one after another, as long as something holds of what comes. Each takes a token. -/
def repeated (more : List Token → Bool) (element : Reading α) : Reading (List α) := do
  repeatedUpTo more element ((← get).length + 1)

/-- Elements to the end. -/
def all (element : Reading α) : Reading (List α) := repeated (fun ts => !ts.isEmpty) element

/-- Elements with a mark between them, and perhaps behind the last, as far as the tokens go that are
no end. -/
def listedUpTo (isEnd : List Token → Bool) (between : String) (element : Reading α) :
    Nat → Reading (List α)
  | 0 => failure
  | n + 1 => do
    if ← ahead isEnd then pure []
    else
      let a ← element
      if ← ahead isEnd then pure [a]
      else
        mark between
        return a :: (← listedUpTo isEnd between element n)

/-- Elements with a mark between them, and perhaps behind the last, up to an end. -/
def listed (isEnd : List Token → Bool) (between : String) (element : Reading α) :
    Reading (List α) := do
  listedUpTo isEnd between element ((← get).length + 1)

/-- Elements with commas to the end. -/
def commas (element : Reading α) : Reading (List α) := listed List.isEmpty "," element

/-- Elements with a mark between them, and perhaps behind the last. They go on as long as the mark
comes and no end comes behind it. -/
def joinedUpTo (isEnd : List Token → Bool) (between : String) (element : Reading α) :
    Nat → Reading (List α)
  | 0 => failure
  | n + 1 => do
    if ← ahead isEnd then pure []
    else
      let a ← element
      if ← hasMark between then return a :: (← joinedUpTo isEnd between element n)
      else pure [a]

/-- Elements with a mark between them, and perhaps behind the last, as long as the mark comes. -/
def joined (isEnd : List Token → Bool) (between : String) (element : Reading α) :
    Reading (List α) := do
  joinedUpTo isEnd between element ((← get).length + 1)

/-! ## Names with marks -/

/-- Names joined by `::`, as long as it comes. -/
def stepsUpTo : Nat → Reading (List Ident)
  | 0 => failure
  | n + 1 => do
    if ← ahead Ahead.isStep then
      let first ← anyWord
      if ← hasMark "::" then return first :: (← stepsUpTo n) else pure [first]
    else failure

/-- A path of plain names. -/
def plainPath : Reading PlainPath := do
  let rooted ← hasMark "::"
  return ⟨rooted, ← stepsUpTo ((← get).length + 1)⟩

/-- What a path hands to what it names, behind the path. -/
def invocation (path : PlainPath) : Reading Invocation := do
  mark "!"
  let (delimiter, content) ← anyGroup
  return { path, delimiter, content }

/-- From where a declaration can be reached. What looks like a restriction but goes on otherwise is
the type of a field. -/
def visibility : Reading Visibility := do
  if ← hasWord "pub" then
    match ← get with
    | .group .paren [.word w] :: rest =>
      if !w.raw && Ahead.roots.contains w.text then
        set rest
        pure (.within ⟨false, [w]⟩)
      else pure .everywhere
    | .group .paren (.word ⟨"in", false⟩ :: content) :: rest =>
      set rest
      return .within (← allOf content plainPath)
    | _ => pure .everywhere
  else pure .inherited

/-- The name of a calling convention, if one is given. -/
def convention? : Reading (Option (Option Literal)) := do
  if ← hasWord "extern" then some <$> text? else pure none

end Reading

/-- Readers of forms that other forms are made of. -/
structure Readers where
  /-- A type. Where a plus may stand, it may be a sum of bounds. -/
  type : (plus : Bool) → Reading Node
  /-- A bound of a type, which in some places may list what is captured. -/
  bound : (captures : Bool) → Reading Node
  /-- A pattern without alternatives. -/
  pattern : Reading Node
  /-- An expression. Where a brace opens a block, it is no record. -/
  expr : (records : Bool) → Reading Node
  /-- An expression that a closing brace can end. -/
  early : Reading Node
  /-- An expression without operators between its parts. -/
  operand : (records : Bool) → Reading Node
  /-- What operators that bind at least so tightly make of an expression that they follow. -/
  operators : (records : Bool) → (least : Nat) → Node → Reading Node
  /-- Statements to the end. -/
  statements : Reading (List Node)
  /-- An item behind its attributes. -/
  item : Reading Node

end ApiModels.Source
