import ApiModels.Source.Reading.Pattern

/-!
# Reading expressions

Operators bind by levels, and each takes to its right whatever binds more tightly. Comparisons do
not chain, and nothing but its own end follows a range. Where a statement or the value of an arm
begins with a form in braces, the form ends there, unless a dot or a question mark follows.
-/

namespace ApiModels.Source

open Ahead
open Reading

/-! ## Operators -/

/-- How tightly an assignment binds. -/
def assignmentLevel : Nat := 1

/-- How tightly a range binds. -/
def rangeLevel : Nat := 2

/-- How tightly a comparison binds. -/
def comparisonLevel : Nat := 6

/-- How tightly a change of type binds. -/
def castLevel : Nat := 13

/-- Operators with two sides and how tightly they bind. One that begins another comes later. -/
def binaryOperators : List (String × Nat) :=
  [ ("+=", 1), ("-=", 1), ("*=", 1), ("/=", 1), ("%=", 1), ("^=", 1), ("&=", 1), ("|=", 1),
    ("<<=", 1), (">>=", 1), ("&&", 4), ("||", 3), ("<<", 10), (">>", 10), ("==", 6), ("<=", 6),
    ("!=", 6), (">=", 6), ("+", 11), ("-", 11), ("*", 12), ("/", 12), ("%", 12), ("^", 8),
    ("&", 9), ("|", 7), ("<", 6), (">", 6) ]

/-- The operator that is next. -/
def operator? (ts : List Token) : Option (String × Nat) :=
  binaryOperators.find? fun o => isMark o.1 ts

/-- How tightly what is next binds. -/
def nextLevel (ts : List Token) : Nat :=
  match operator? ts with
  | some (_, level) => level
  | none =>
    if isAssignment ts then assignmentLevel
    else if isMark ".." ts then rangeLevel
    else if isWord "as" ts then castLevel
    else 0

namespace Node

/-- Whether an expression is a range. -/
def isRange (n : Node) : Bool :=
  match n.bare with
  | rangeExpr .. => true
  | _ => false

/-- Whether an expression is a comparison. -/
def isComparison (n : Node) : Bool :=
  match n.bare with
  | binaryExpr operator .. => binaryOperators.lookup operator == some comparisonLevel
  | _ => false

/-- Whether an expression can end a statement, or an arm, by its closing brace. -/
def endsStatement (n : Node) : Bool :=
  match n.bare with
  | blockExpr (.awaited _) .. => false
  | blockExpr .. | forExpr .. | ifExpr .. | loopExpr .. | matchExpr .. | whileExpr .. => true
  | _ => false

end Node

/-- Goes on with the right side of an operator, as long as what follows binds more tightly. -/
def rightSideUpTo (r : Readers) (records : Bool) (level : Nat) : Nat → Node → Reading Node
  | 0, _ => failure
  | n + 1, right => do
    let ts ← get
    let next := nextLevel ts
    if level < next || (next == level && level == assignmentLevel) then
      let right ← r.operators records next right
      if (← get).length == ts.length then pure right else rightSideUpTo r records level n right
    else pure right

/-- The right side of an operator. -/
def rightSide (r : Readers) (records : Bool) (level : Nat) : Reading Node := do
  let right ← r.operand records
  rightSideUpTo r records level ((← get).length + 1) right

/-- Whether an open range ends here. -/
def endsOpenRange (records : Bool) (ts : List Token) : Bool :=
  ts.isEmpty || isDot ts || isWord "as" ts || (!records && isGroup .brace ts)
    || isMarkOf
      [ ",", ";", "?", "=>", "=", "+", "/", "%", "^", ">", "<=", "!=", "-=", "*=", "&=", "|=",
        "<<=" ] ts

/-- The rest of a range, from the dots on. -/
def rangeRest (r : Readers) (records : Bool) (first : Option Node) : Reading Node := do
  let closed ← rangeDots false
  let isOpen ← ahead (endsOpenRange records)
  if !closed && isOpen then return .rangeExpr first closed none
  else return .rangeExpr first closed (some (← rightSide r records rangeLevel))

/-- What operators make of an expression that they follow. -/
def operatorsUpTo (r : Readers) (records : Bool) (least : Nat) : Nat → Node → Reading Node
  | 0, _ => failure
  | n + 1, left => do
    let ts ← get
    if left.isRange then pure left
    else
      match operator? ts with
      | some (operator, level) =>
        if level < least then pure left
        else if level == comparisonLevel && left.isComparison then failure
        else
          mark operator
          let right ← rightSide r records level
          operatorsUpTo r records least n (.binaryExpr operator left right)
      | none =>
        if least ≤ assignmentLevel && isAssignment ts then
          mark "="
          let right ← rightSide r records assignmentLevel
          operatorsUpTo r records least n (.assignExpr left right)
        else if least ≤ rangeLevel && isMark ".." ts then
          operatorsUpTo r records least n (← rangeRest r records (some left))
        else if least ≤ castLevel && isWord "as" ts then
          word "as"
          let type ← r.type false
          if ← ahead fun ts =>
            isDot ts || isMark "?" ts || isGroup .bracket ts || isGroup .paren ts then failure
          operatorsUpTo r records least n (.castExpr left type)
        else pure left

/-- What operators make of an expression that they follow, if they bind at least so tightly. -/
def operatorsForm (r : Readers) (records : Bool) (least : Nat) (left : Node) : Reading Node := do
  operatorsUpTo r records least ((← get).length + 1) left

/-! ## Accesses -/

/-- The fields that a number with a point names: one on each side of it. -/
def fieldsOf? (base : Node) (written : String) : Option Node :=
  ((Text.split '.' written).mapM fun s => (Literal.mk s .whole none).index?).map fun members =>
    members.foldl Node.fieldExpr base

/-- Arguments of a call. -/
def callArguments (r : Readers) : Reading (List Node) := within .paren (commas (r.expr true))

/-- What follows a dot, if it is not part of a number. -/
def member (r : Readers) (base : Node) : Reading Node := do
  if ← hasWord "await" then return .awaitExpr base
  else
    match ← get with
    | .literal l :: rest =>
      match l.index? with
      | some index =>
        set rest
        return .fieldExpr base index
      | none => failure
    | _ =>
      let name ← name
      let generics ← if ← hasMark "::" then some <$> angled r else pure none
      let called ← ahead (isGroup .paren)
      if generics.isSome || called then
        return .methodExpr base name (generics.getD []) (← callArguments r)
      else return .fieldExpr base name.written

/-- What follows a dot. -/
def access (r : Readers) (base : Node) : Reading Node := do
  match ← get with
  | .literal ⟨written, .real, _⟩ :: rest =>
    set rest
    match Text.dropEnd? "." written with
    | some written => member r (← fieldsOf? base written)
    | none => fieldsOf? base written
  | _ => member r base

/-- What calls and accesses make of an expression that they follow. -/
def accessesUpTo (r : Readers) : Nat → Node → Reading Node
  | 0, _ => failure
  | n + 1, e => do
    let ts ← get
    if isGroup .paren ts then accessesUpTo r n (.callExpr e (← callArguments r))
    else if isDot ts && !e.isRange then
      mark "."
      accessesUpTo r n (← access r e)
    else if isGroup .bracket ts then
      accessesUpTo r n (.indexExpr e (← within .bracket (r.expr true)))
    else if isMark "?" ts && !e.isRange then
      mark "?"
      accessesUpTo r n (.tryExpr e)
    else pure e

/-- What calls and accesses make of an expression that they follow. -/
def accesses (r : Readers) (e : Node) : Reading Node := do
  accessesUpTo r ((← get).length + 1) e

/-! ## Records, lists and closures -/

/-- A field of a record. -/
def fieldValue (r : Readers) : Reading Node := do
  match ← get with
  | .literal l :: rest =>
    match l.index? with
    | some index =>
      set rest
      mark ":"
      return .fieldValue index (some (← r.expr true))
    | none => failure
  | _ =>
    let member ← name
    if ← hasMark ":" then return .fieldValue member.written (some (← r.expr true))
    else return .fieldValue member.written none

/-- Fields of a record, and the record that the others are taken from. -/
def fieldValues (r : Readers) : Nat → Reading (List Node × Option Node)
  | 0 => failure
  | n + 1 => do
    if ← ahead List.isEmpty then pure ([], none)
    else if ← hasMark ".." then
      if ← ahead List.isEmpty then pure ([], none) else return ([], some (← r.expr true))
    else
      let attributes ← outerAttributes r
      let f := Node.withAttributes attributes (← fieldValue r)
      if ← ahead List.isEmpty then pure ([f], none)
      else
        mark ","
        let (fs, rest) ← fieldValues r n
        pure (f :: fs, rest)

/-- An expression that begins with a path. -/
def pathExpr (r : Readers) (records : Bool) : Reading Node := do
  let p ← path r true
  let ts ← get
  match if isBang ts then p.plain? else none with
  | some path => return .invocationExpr (← invocation path)
  | none =>
    if records && isGroup .brace ts then
      let (fields, rest) ← within .brace do fieldValues r ((← get).length + 1)
      return .recordExpr p fields rest
    else return .pathExpr p

/-- An expression in parentheses. -/
def parenExpr (r : Readers) : Reading Node :=
  within .paren do
    if ← ahead List.isEmpty then return .tupleExpr []
    else
      let first ← r.expr true
      if ← ahead List.isEmpty then return .parenExpr first
      else
        mark ","
        return .tupleExpr (first :: (← commas (r.expr true)))

/-- An expression in brackets. -/
def bracketExpr (r : Readers) : Reading Node :=
  within .bracket do
    if ← ahead List.isEmpty then return .arrayExpr []
    else
      let first ← r.expr true
      if ← hasMark ";" then return .repeatExpr first (← r.expr true)
      else if ← ahead List.isEmpty then return .arrayExpr [first]
      else
        mark ","
        return .arrayExpr (first :: (← commas (r.expr true)))

/-- A parameter of a closure. -/
def closureParam (r : Readers) : Reading Node := do
  let attributes ← outerAttributes r
  let pattern ← r.pattern
  if ← hasMark ":" then
    return .withAttributes attributes (.typedPattern pattern (← r.type true))
  else return .withAttributes attributes pattern

/-- A closure. -/
def closure (r : Readers) (records : Bool) : Reading Node := do
  let binder ← binder? r
  let words ← wordsOf ["const", "static", "async", "move"]
  mark "|"
  let inputs ← listed (isMark "|") "," (closureParam r)
  mark "|"
  match ← result? r true with
  | some type =>
    return .closureExpr binder words inputs (some type) (.blockExpr .plain none (← body r false))
  | none => return .closureExpr binder words inputs none (← r.expr records)

/-! ## Control -/

/-- An expression that decides, behind its keyword. -/
def ifExprUpTo (r : Readers) : Nat → Reading Node
  | 0 => failure
  | n + 1 => do
    let condition ← r.expr false
    let inner ← body r false
    if ← hasWord "else" then
      if ← hasWord "if" then return .ifExpr condition inner (some (← ifExprUpTo r n))
      else return .ifExpr condition inner (some (.blockExpr .plain none (← body r false)))
    else return .ifExpr condition inner none

/-- An arm. Where its value does not end by itself, a comma follows, unless it is the last. -/
def arm (r : Readers) : Reading Node := do
  let attributes ← outerAttributes r
  let pattern ← patternCases r
  let guard ← if ← hasWord "if" then some <$> r.expr true else pure none
  mark "=>"
  let value ← r.early
  let isLast ← ahead List.isEmpty
  if value.endsStatement || isLast then
    let _ ← hasMark ","
  else mark ","
  return .withAttributes attributes (.arm pattern guard value)

/-- An expression that chooses among patterns, behind its keyword. -/
def matchExpr (r : Readers) : Reading Node := do
  let subject ← r.expr false
  within .brace do
    let attributes ← innerAttributes r
    return .matchExpr subject attributes (← all (arm r))

/-- A loop or a block behind its label, if one is next. -/
def labelled? (r : Readers) (label : Option Ident) : Reading (Option Node) := do
  if ← hasWord "while" then
    let condition ← r.expr false
    return some (.whileExpr label condition (← body r true))
  else if ← hasWord "for" then
    let pattern ← patternCases r
    word "in"
    let subject ← r.expr false
    return some (.forExpr label pattern subject (← body r true))
  else if ← hasWord "loop" then return some (.loopExpr label (← body r true))
  else if ← ahead (isGroup .brace) then return some (.blockExpr .plain label (← body r true))
  else pure none

/-- A value that is handed to what is around, if one is next. -/
def handed? (r : Readers) : Reading (Option Node) := do
  if ← ahead opensExpr then some <$> r.expr true else pure none

/-- An expression that leaves a loop, behind its keyword. -/
def breakExpr (r : Readers) (records : Bool) : Reading Node := do
  let label ← lifetime?
  if ← ahead fun ts => label.isSome && isMark ":" ts then failure
  if ← ahead fun ts => !records && isGroup .brace ts then return .breakExpr label none
  else return .breakExpr label (← handed? r)

/-- An expression that tests whether a pattern fits, behind its keyword. -/
def letExpr (r : Readers) (records : Bool) : Reading Node := do
  let pattern ← patternCases r
  mark "="
  let left ← r.operand records
  return .letExpr pattern (← operatorsForm r records comparisonLevel left)

/-- Whether a closure is next. -/
def opensClosure (ts : List Token) : Bool :=
  isMark "|" ts || isWordOf ["move", "static"] ts || (isWord "for" ts && opensGenerics ts.tail)
    || (isWord "const" ts && !isGroup .brace ts.tail)
    || (isWord "async" ts && (isMark "|" ts.tail || isWord "move" ts.tail))

/-- Whether a block that is to be awaited is next. -/
def opensAwaited (ts : List Token) : Bool :=
  isWord "async" ts
    && (isGroup .brace ts.tail || (isWord "move" ts.tail && isGroup .brace ts.tail.tail))

/-- Whether an expression is next that begins with a path. -/
def opensPathExpr (ts : List Token) : Bool :=
  isStep ts || isMarkOf ["::", "<"] ts || (isWord "try" ts && isMarkOf ["!", "::"] ts.tail)

/-- An expression without operators, calls and accesses. -/
def atom (r : Readers) (records : Bool) : Reading Node := do
  let ts ← get
  if isLiteral ts then return .literalExpr (← literal)
  else if opensAwaited ts then
    word "async"
    let moving ← hasWord "move"
    return .blockExpr (.awaited moving) none (← body r false)
  else if isWord "try" ts && isGroup .brace ts.tail then
    word "try"
    return .blockExpr .fallible none (← body r false)
  else if opensClosure ts then closure r records
  else if isWord "builtin" ts && isMark "#" ts.tail then failure
  else if opensPathExpr ts then pathExpr r records
  else if isGroup .paren ts then parenExpr r
  else if isGroup .bracket ts then bracketExpr r
  else if isLifetime ts then
    let label ← lifetime
    mark ":"
    match ← labelled? r (some label) with
    | some e => pure e
    | none => failure
  else if isMark ".." ts then rangeRest r records none
  else if ← hasWord "break" then breakExpr r records
  else if ← hasWord "continue" then return .continueExpr (← lifetime?)
  else if ← hasWord "return" then return .returnExpr (← handed? r)
  else if ← hasWord "yield" then return .yieldExpr (← handed? r)
  else if ← hasWord "let" then letExpr r records
  else if ← hasWord "if" then ifExprUpTo r ((← get).length + 1)
  else if ← hasWord "match" then matchExpr r
  else if ← hasWord "unsafe" then return .blockExpr .unchecked none (← body r true)
  else if isWord "const" ts then constantBlock r
  else if ← hasWord "_" then pure .inferExpr
  else
    match ← labelled? r none with
    | some e => pure e
    | none => failure

/-- An expression behind marks of its own that stand before it, without operators between parts. -/
def operandForm (r : Readers) (records : Bool) : Reading Node := do
  let attributes ← outerAttributes r
  let ts ← get
  if isMark "&" ts then
    mark "&"
    if ← ahead fun ts => isWord "raw" ts && isWordOf ["mut", "const"] ts.tail then
      skip 1
      let mutable ← hasWord "mut"
      unless mutable do word "const"
      return .withAttributes attributes (.rawAddressExpr mutable (← r.operand records))
    else
      let mutable ← hasWord "mut"
      return .withAttributes attributes (.referenceExpr mutable (← r.operand records))
  else
    match ["*", "!", "-"].find? fun m => isMark m ts with
    | some m =>
      mark m
      return .withAttributes attributes (.unaryExpr m (← r.operand records))
    | none =>
      let e ← accesses r (← atom r records)
      if !attributes.isEmpty && e.isRange then failure
      return .withAttributes attributes e

/-- An expression that a closing brace can end: a form in braces at its beginning does, unless a dot
or a question mark follows. -/
def earlyForm (r : Readers) : Reading Node := do
  let attributes ← outerAttributes r
  let opensBlock (ts : List Token) : Bool :=
    isWordOf ["if", "while", "loop", "match", "unsafe"] ts || isGroup .brace ts || isLifetime ts
      || (isWord "for" ts && !opensGenerics ts.tail)
      || (isWordOf ["try", "const"] ts && isGroup .brace ts.tail)
  let e ← if ← ahead opensBlock then atom r true else operandForm r true
  let goesOn ← ahead fun ts => isDot ts || isMark "?" ts
  if !e.endsStatement then operatorsForm r true 0 (.withAttributes attributes e)
  else if goesOn then
    let e ← accesses r e
    operatorsForm r true 0 (.withAttributes attributes e)
  else return .withAttributes attributes e

/-- An expression. -/
def exprForm (r : Readers) (records : Bool) : Reading Node := do
  let left ← r.operand records
  operatorsForm r records 0 left

end ApiModels.Source
