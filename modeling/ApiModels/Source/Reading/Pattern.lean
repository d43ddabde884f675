import ApiModels.Source.Reading.Type

/-!
# Reading patterns

A pattern that begins with a path is a constant, a call, a record or the beginning of a range; a
name alone binds. Alternatives are read only where a pattern is not followed by something that a bar
may belong to.
-/

namespace ApiModels.Source

open Ahead
open Reading

/-- A pattern with alternatives. A bar may stand before the first. -/
def patternCases (r : Readers) : Reading Node := do
  let leading ← hasMark "|"
  let first ← r.pattern
  let more ← repeated isBar do
    mark "|"
    r.pattern
  if leading || !more.isEmpty then return .orPattern (first :: more) else pure first

/-- Whether a pattern for a range has no bound at its end. -/
def endsRange (ts : List Token) : Bool :=
  ts.isEmpty || isMarkOf ["|", "=", ",", ";"] ts || isColon ts || isWord "if" ts

/-- A constant block. -/
def constantBlock (r : Readers) : Reading Node := do
  word "const"
  return .blockExpr .constant none (← body r true)

/-- A bound of a range, if one is next. -/
def rangeBound? (r : Readers) : Reading (Option Node) := do
  if ← ahead endsRange then pure none
  else if ← ahead isLiteral then return some (.literalExpr (← literal))
  else if ← ahead fun ts => isStep ts || isMarkOf ["::", "<"] ts then
    return some (.pathExpr (← path r true))
  else if ← ahead (isWord "const") then return some (← constantBlock r)
  else failure

/-- The dots of a range: whether it is closed. Three dots are an old way of closing it. -/
def rangeDots (old : Bool) : Reading Bool := do
  if ← hasMark "..=" then pure true
  else if ← ahead (isMark "...") then
    unless old do failure
    mark "..."
    pure true
  else
    mark ".."
    pure false

/-- The rest of a pattern for a range, from the dots on. -/
def rangePattern (r : Readers) (first : Node) : Reading Node := do
  let closed ← rangeDots true
  let last ← rangeBound? r
  if closed && last.isNone then failure
  return .rangeExpr (some first) closed last

/-- A field of a pattern for a record. -/
def fieldPattern (r : Readers) : Reading Node := do
  let byReference ← hasWord "ref"
  let mutable ← hasWord "mut"
  if byReference || mutable then
    return .fieldPattern none (.identPattern byReference mutable (← name) none)
  else
    match ← get with
    | .literal l :: rest =>
      match l.index? with
      | some index =>
        set rest
        mark ":"
        return .fieldPattern (some index) (← patternCases r)
      | none => failure
    | _ =>
      let member ← name
      if ← hasMark ":" then return .fieldPattern (some member.written) (← patternCases r)
      else return .fieldPattern none (.identPattern false false member none)

/-- Fields of a pattern for a record, and the mark for the rest. -/
def fieldPatterns (r : Readers) : Nat → Reading (List Node × Option Node)
  | 0 => failure
  | n + 1 => do
    if ← ahead List.isEmpty then pure ([], none)
    else
      let attributes ← outerAttributes r
      if ← hasMark ".." then return ([], some (.withAttributes attributes .restPattern))
      else
        let f := Node.withAttributes attributes (← fieldPattern r)
        if ← ahead List.isEmpty then pure ([f], none)
        else
          mark ","
          let (fs, rest) ← fieldPatterns r n
          pure (f :: fs, rest)

/-- A pattern that begins with a path. -/
def pathPattern (r : Readers) : Reading Node := do
  let p ← path r true
  let ts ← get
  match if isBang ts then p.plain? else none with
  | some path => return .invocationExpr (← invocation path)
  | none =>
    if isGroup .brace ts then
      let (fields, rest) ← within .brace do fieldPatterns r ((← get).length + 1)
      return .recordPattern p fields rest
    else if isGroup .paren ts then
      return .callPattern p (← within .paren (commas (patternCases r)))
    else if isMark ".." ts then rangePattern r (.pathExpr p)
    else return .pathExpr p

/-- A pattern that begins with a literal or a constant. -/
def constantPattern (r : Readers) : Reading Node := do
  match ← rangeBound? r with
  | some first => if ← ahead (isMark "..") then rangePattern r first else pure first
  | none => failure

/-- A pattern that binds a name. -/
def identPattern (r : Readers) : Reading Node := do
  let byReference ← hasWord "ref"
  let mutable ← hasWord "mut"
  let name ← nameOr ["self"]
  let sub ← if ← hasMark "@" then some <$> r.pattern else pure none
  return .identPattern byReference mutable name sub

/-- A pattern in parentheses. One that is not followed by a comma only groups, unless it stands for
the rest. -/
def parenPattern (r : Readers) : Reading Node := do
  let (_, content) ← anyGroup
  let items ← allOf content (commas (patternCases r))
  let isComma : Token → Bool
    | .mark ',' _ => true
    | _ => false
  let closed := content.getLast?.any isComma
  match items with
  | [.restPattern] => return .tuplePattern items closed
  | [p] => if closed then return .tuplePattern items true else return .parenPattern p
  | _ => return .tuplePattern items closed

/-- A pattern that begins with dots. -/
def dottedPattern (r : Readers) : Reading Node := do
  let closed ← rangeDots false
  match ← rangeBound? r with
  | some last => return .rangeExpr none closed (some last)
  | none => if closed then failure else pure .restPattern

/-- Whether a pattern is a range that is open at an end. -/
def Node.isOpenRange : Node → Bool
  | .rangeExpr first _ last => first.isNone || last.isNone
  | _ => false

/-- A pattern in brackets. -/
def slicePattern (r : Readers) : Reading Node := do
  let items ← within .bracket (commas (patternCases r))
  if items.any Node.isOpenRange then failure else return .slicePattern items

/-- Whether a pattern is next that begins with a path. -/
def opensPath (ts : List Token) : Bool :=
  let goesOn :=
    isMarkOf ["::", "!", ".."] ts.tail || isGroup .brace ts.tail || isGroup .paren ts.tail
  (isName ts && goesOn) || (isWord "self" ts && isMark "::" ts.tail)
    || isMarkOf ["::", "<"] ts || isWordOf ["Self", "super", "crate"] ts

/-- A pattern without alternatives. -/
def patternForm (r : Readers) : Reading Node := do
  let ts ← get
  if opensPath ts then pathPattern r
  else if ← hasWord "_" then pure .wildPattern
  else if isMark "-" ts || isLiteral ts || isWord "const" ts then constantPattern r
  else if isName ts || isWordOf ["ref", "mut", "self"] ts then identPattern r
  else if ← hasMark "&" then
    let mutable ← hasWord "mut"
    return .referencePattern mutable (← r.pattern)
  else if isGroup .paren ts then parenPattern r
  else if isGroup .bracket ts then slicePattern r
  else if isMark ".." ts && !isMark "..." ts then dottedPattern r
  else failure

end ApiModels.Source
