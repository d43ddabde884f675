import ApiModels.Source.Reading.Basic

/-!
# Reading attributes and paths

An attribute ends in a list of tokens, which is kept as it is, or in a value. A path in an
expression needs `::` before its arguments in angles, since an angle alone compares; elsewhere it
does not.
-/

namespace ApiModels.Source

open Ahead
open Reading

/-! ## Attributes -/

/-- The value of an attribute. Only an expression that is nothing but a literal may be a negative
number. -/
def attributeValue (r : Readers) : Reading Node := do
  match literal.run (← get) with
  | some (l, []) =>
    set ([] : List Token)
    pure (.literalExpr l)
  | _ =>
    if ← ahead fun ts => isMark "#" ts && isGroup .bracket ts.tail then failure
    r.expr true

/-- What an attribute says. -/
def attributeContent (r : Readers) (inner : Bool) : Reading Node := do
  let path ← if ← hasWord "unsafe" then pure (PlainPath.of ["unsafe"]) else plainPath
  if ← ahead isAnyGroup then return .attr inner path (some (← anyGroup)) none
  else if ← ahead fun ts => isMark "=" ts && !isMarkOf ["==", "=>"] ts then
    mark "="
    return .attr inner path none (some (← attributeValue r))
  else return .attr inner path none none

/-- Attributes of what follows them. -/
def outerAttributes (r : Readers) : Reading (List Node) :=
  repeated (isMark "#") do
    mark "#"
    within .bracket (attributeContent r false)

/-- Attributes of what they stand in. -/
def innerAttributes (r : Readers) : Reading (List Node) :=
  repeated (fun ts => isMark "#" ts && isMark "!" ts.tail) do
    mark "#"
    mark "!"
    within .bracket (attributeContent r true)

/-! ## Bodies -/

/-- Statements in braces, which may begin with attributes of what they are the body of. -/
def body (r : Readers) (attributed : Bool) : Reading Node :=
  within .brace do
    let attributes ← if attributed then innerAttributes r else pure []
    return .block attributes (← r.statements)

/-! ## Arguments -/

/-- Whether a constant is next that is no name. -/
def isConstant (ts : List Token) : Bool := isLiteral ts || isGroup .brace ts

/-- A constant: a literal, a name or a block. -/
def constant (r : Readers) : Reading Node := do
  if ← ahead isLiteral then return .literalExpr (← literal)
  else if ← ahead isName then return .pathExpr (.ofName (← name))
  else return .blockExpr .plain none (← body r true)

/-- The arguments of a segment in angles, if they can be followed by what is given for the name. -/
def namedArguments? : Option Node → Option (List Node)
  | none => some []
  | some (.angled arguments) => some arguments
  | some _ => none

/-- What follows a type that is a single name, if it is the name of something that is given. -/
def given (r : Readers) (type : Node) (name : Ident) (arguments : List Node) : Reading Node := do
  if ← hasMark "=" then
    let value ← if ← ahead isConstant then constant r else r.type true
    return .binding name arguments value
  else if ← hasMark ":" then
    return .constraint name arguments (← joined (isMarkOf [",", ">"]) "+" (r.bound false))
  else pure type

/-- An argument in angles. -/
def argument (r : Readers) : Reading Node := do
  if ← ahead fun ts => isLifetime ts && !isMark "+" ts.tail then return .lifetime (← lifetime)
  else if ← ahead isConstant then return .constArgument (← constant r)
  else
    let type ← r.type true
    match type with
    | .pathType (.path none _ false [.segment name arguments]) =>
      match namedArguments? arguments with
      | some arguments => given r type name arguments
      | none => pure type
    | _ => pure type

/-- Arguments in angles. -/
def angled (r : Readers) : Reading (List Node) := do
  mark "<"
  let arguments ← listed (isMark ">") "," (argument r)
  mark ">"
  pure arguments

/-- What a function results in, if it is said. -/
def result? (r : Readers) (plus : Bool) : Reading (Option Node) := do
  if ← hasMark "->" then some <$> r.type plus else pure none

/-- Arguments in parentheses, with what they result in. -/
def parenthesized (r : Readers) : Reading Node := do
  let inputs ← within .paren (commas (r.type true))
  return .parenthesized inputs (← result? r false)

/-! ## Paths -/

/-- Whether arguments in angles are next. -/
def opensArguments (inExpr : Bool) (ts : List Token) : Bool :=
  (!inExpr && isMark "<" ts && !isMarkOf ["<=", "<<="] ts)
    || (isMark "::" ts && isMark "<" ts.tail.tail)

/-- A segment of a path. -/
def segment (r : Readers) (inExpr : Bool) : Reading Node := do
  if ← ahead (isWordOf ("try" :: roots)) then return .segment (← anyWord) none
  else
    let name ← nameOr ["Self"]
    if ← ahead (opensArguments inExpr) then
      let _ ← hasMark "::"
      return .segment name (some (.angled (← angled r)))
    else return .segment name none

/-- Segments behind those that have been read. -/
def moreSegments (r : Readers) (inExpr : Bool) : Reading (List Node) :=
  repeated (fun ts => isMark "::" ts && !isGroup .paren ts.tail.tail) do
    mark "::"
    segment r inExpr

/-- A path that begins with a name. -/
def namedPath (r : Readers) (inExpr : Bool) : Reading Node := do
  let rooted ← hasMark "::"
  let first ← segment r inExpr
  return .path none 0 rooted (first :: (← moreSegments r inExpr))

/-- Segments of what a type has. -/
def memberSegments (r : Readers) (inExpr : Bool) : Reading (List Node) := do
  mark "::"
  let first ← segment r inExpr
  let more ← repeated (isMark "::") do
    mark "::"
    segment r inExpr
  return first :: more

/-- A path, which may begin with a type in angles. -/
def path (r : Readers) (inExpr : Bool) : Reading Node := do
  if ← hasMark "<" then
    let self ← r.type true
    let ofTrait ← if ← hasWord "as" then some <$> namedPath r false else pure none
    mark ">"
    let members ← memberSegments r inExpr
    match ofTrait with
    | some (.path _ _ rooted segments) =>
      return .path (some self) segments.length rooted (segments ++ members)
    | _ => return .path (some self) 0 true members
  else namedPath r inExpr

end ApiModels.Source
