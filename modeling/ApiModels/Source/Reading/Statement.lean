import ApiModels.Source.Reading.Expr

/-!
# Reading statements

What is an item, what binds and what is an expression shows in the first words of a statement. An
expression needs a semicolon before the next statement unless it ends by its own brace.
-/

namespace ApiModels.Source

open Ahead
open Reading

namespace Node

/-- A form of which the leftmost operand has more attributes. -/
def withLeading (attributes : List Node) : Node → Node
  | assignExpr left right => assignExpr (left.withLeading attributes) right
  | binaryExpr operator left right => binaryExpr operator (left.withLeading attributes) right
  | castExpr value type => castExpr (value.withLeading attributes) type
  | n => withAttributes attributes n

/-- Whether the arguments of the last segment of a path end in a brace. -/
def segmentsEndInBrace (inner : Node → Bool) : List Node → Bool
  | [segment _ (some (parenthesized _ (some result)))] => inner result
  | [] | [_] => false
  | _ :: more => segmentsEndInBrace inner more

/-- Whether the last of some bounds ends in a brace. -/
def boundsEndInBrace (inner : Node → Bool) : List Node → Bool
  | [traitBound _ _ _ (path _ _ _ segments)] => segmentsEndInBrace inner segments
  | [] | [_] => false
  | _ :: more => boundsEndInBrace inner more

/-- Whether an expression ends in a brace, told at most so many forms deep. -/
def endsInBrace : Nat → Node → Bool
  | 0, _ => false
  | n + 1, e =>
    match e.bare with
    | blockExpr .. | forExpr .. | ifExpr .. | loopExpr .. | matchExpr .. | recordExpr ..
    | whileExpr .. => true
    | assignExpr _ e | binaryExpr _ _ e | closureExpr _ _ _ _ e | letExpr _ e
    | rawAddressExpr _ e | referenceExpr _ e | unaryExpr _ e => endsInBrace n e
    | breakExpr _ (some e) | rangeExpr _ _ (some e) | returnExpr (some e) | yieldExpr (some e) =>
      endsInBrace n e
    | castExpr _ type => endsInBrace n type
    | invocationExpr i | invocationType i => i.delimiter == .brace
    | functionType _ _ _ _ _ (some result) => endsInBrace n result
    | implType bounds | objectType bounds => boundsEndInBrace (endsInBrace n) bounds
    | pathType (path _ _ _ segments) => segmentsEndInBrace (endsInBrace n) segments
    | pointerType _ inner | referenceType _ _ inner => endsInBrace n inner
    | _ => false

/-- Whether a semicolon stands between a statement and the next. -/
def needsSemicolon : Node → Bool
  | exprStmt value false => !value.endsStatement
  | n =>
    match n.bare with
    | invocationStmt i closed => !closed && i.delimiter != .brace
    | _ => false

end Node

/-- Whether an item is next. -/
def opensItem (ts : List Token) : Bool :=
  let next := ts.tail
  let third := next.tail
  let opensFunction := isWordOf ["unsafe", "extern", "fn"]
  let constant := isWord "const" ts
    && !(isGroup .brace next || isWordOf ["static", "move"] next || isMark "|" next
      || (isWord "async" next && !opensFunction third))
  isWordOf
      [ "pub", "extern", "use", "fn", "mod", "type", "struct", "enum", "trait", "impl", "macro" ] ts
    || (isWord "crate" ts && !isMark "::" next)
    || (isWord "static" ts && (isWord "mut" next || isName next))
    || constant
    || (isWord "unsafe" ts && !isGroup .brace next)
    || (isWord "async" ts && opensFunction next)
    || (isWord "union" ts && isName next)
    || (isWord "auto" ts && isWord "trait" next)
    || (isWord "default" ts && isWordOf ["unsafe", "impl"] next)

/-- A statement that binds, behind its keyword. -/
def letStatement (r : Readers) : Reading Node := do
  let bare ← r.pattern
  let pattern ←
    if ← hasMark ":" then
      let type ← r.type true
      pure (.typedPattern bare type)
    else pure bare
  if ← hasMark "=" then
    let room := (← get).length + 1
    let value ← r.expr true
    let refutable ← ahead (isWord "else")
    if refutable && !value.endsInBrace room then
      word "else"
      let otherwise ← body r false
      mark ";"
      return .letStmt pattern (some value) (some otherwise)
    else
      mark ";"
      return .letStmt pattern (some value) none
  else
    mark ";"
    return .letStmt pattern none none

/-- A statement that is an expression. -/
def exprStatement (r : Readers) (attributes : List Node) : Reading Node := do
  let value := (← r.early).withLeading attributes
  let closed ← hasMark ";"
  let plain : Node := .exprStmt value closed
  match value with
  | .invocationExpr i =>
    if closed || i.delimiter == .brace then return .invocationStmt i closed else return plain
  | .attributed attributes (.invocationExpr i) =>
    if closed || i.delimiter == .brace then
      return .attributed attributes (.invocationStmt i closed)
    else return plain
  | _ => return plain

/-- What a statement begins with, if it is a path that is handed tokens. -/
inductive Opening where
  /-- An item, since a name follows. -/
  | item
  /-- A statement of its own, since braces follow. -/
  | statement (path : PlainPath) (rest : List Token)
  | other

/-- What a statement begins with. -/
def opening (ts : List Token) : Opening :=
  match plainPath.run ts with
  | none => .other
  | some (path, rest) =>
    let next := rest.tail
    let third := next.tail
    if !isMark "!" rest then .other
    else if isName next || isWord "try" next then .item
    else if isGroup .brace next && !isDot third && !isMark "?" third then .statement path rest
    else .other

/-- A statement. -/
def statement (r : Readers) : Reading Node := do
  let attributes ← outerAttributes r
  let ts ← get
  match opening ts with
  | .statement path rest =>
    set rest
    let i ← invocation path
    return .withAttributes attributes (.invocationStmt i (← hasMark ";"))
  | .item => return .withAttributes attributes (← r.item)
  | .other =>
    if ← hasWord "let" then return .withAttributes attributes (← letStatement r)
    else if opensItem ts then return .withAttributes attributes (← r.item)
    else exprStatement r attributes

/-- Statements to the end. -/
def statementsUpTo (r : Readers) : Nat → Reading (List Node)
  | 0 => failure
  | n + 1 => do
    if ← hasMark ";" then return .emptyStmt :: (← statementsUpTo r n)
    else if ← ahead List.isEmpty then pure []
    else
      let s ← statement r
      let isLast ← ahead List.isEmpty
      if s.needsSemicolon && !isLast then failure
      return s :: (← statementsUpTo r n)

/-- Statements to the end. -/
def statementsForm (r : Readers) : Reading (List Node) := do
  statementsUpTo r ((← get).length + 1)

end ApiModels.Source
