import ApiModels.Source.Reading.Path

/-!
# Reading types

Types, with the bounds and the generic parameters that they occur in. A type that begins with a path
or with parentheses may turn out to be the first of several bounds, where a plus is allowed.
-/

namespace ApiModels.Source

open Ahead
open Reading

/-! ## Generic parameters -/

/-- The bounds of a lifetime, if it has any. -/
def lifetimeBounds (isEnd : List Token → Bool) : Reading (List Ident) := do
  if ← hasMark ":" then joined isEnd "+" lifetime else pure []

/-- A parameter in angles behind its attributes. -/
def bareParam (r : Readers) : Reading Node := do
  if ← ahead isLifetime then
    let name ← lifetime
    return .lifetimeParam name (← lifetimeBounds fun ts => ts.isEmpty || isMarkOf [",", ">"] ts)
  else if ← hasWord "const" then
    let name ← name
    mark ":"
    let type ← r.type true
    let default ← if ← hasMark "=" then some <$> constant r else pure none
    return .constParam name type default
  else
    let name ← name
    let bounds ←
      if ← hasMark ":" then
        joined (fun ts => ts.isEmpty || isMarkOf [",", ">", "="] ts) "+" (r.bound false)
      else pure []
    let default ← if ← hasMark "=" then some <$> r.type true else pure none
    return .typeParam name bounds default

/-- A parameter in angles. -/
def genericParam (r : Readers) : Reading Node := do
  let attributes ← outerAttributes r
  return .withAttributes attributes (← bareParam r)

/-- A parameter of a declaration, which may go without a name. -/
def declaredParam (r : Readers) : Reading Node := do
  let attributes ← outerAttributes r
  if ← ahead (isWord "_") then
    return .withAttributes attributes (.typeParam (← anyWord) [] none)
  else return .withAttributes attributes (← bareParam r)

/-- The parameters of a declaration. -/
def params (r : Readers) : Reading (List Node) := do
  if ← hasMark "<" then
    let ps ← listed (isMark ">") "," (declaredParam r)
    mark ">"
    pure ps
  else pure []

/-- The parameters that a type or a bound binds. -/
def binder? (r : Readers) : Reading (Option Node) := do
  if ← hasWord "for" then
    mark "<"
    let ps ← listed (isMark ">") "," (genericParam r)
    mark ">"
    return some (.binder ps)
  else pure none

/-! ## Bounds -/

/-- Whether a segment has no arguments. -/
def lacksArguments : Option Node → Bool
  | none => true
  | some (.angled arguments) => arguments.isEmpty
  | some _ => false

/-- Whether parentheses are next, perhaps behind `::`. -/
def opensParens (ts : List Token) : Bool :=
  isGroup .paren ts || (isMark "::" ts && isGroup .paren ts.tail.tail)

/-- Whether a path may go on behind arguments in parentheses. -/
def goesOn : Node → Bool
  | .parenthesized _ none => true
  | .parenthesized _ (some (.parenType _)) => true
  | _ => false

/-- Gives the last segment its arguments in parentheses, if they are next. The segments come last
first. -/
def withParens (r : Readers) (more : Bool) : Nat → List Node → Reading (List Node)
  | 0, _ => failure
  | n + 1, .segment name arguments :: before => do
    if lacksArguments arguments && (← ahead opensParens) then
      let _ ← hasMark "::"
      let arguments ← parenthesized r
      let segments := .segment name (some arguments) :: before
      if more && goesOn arguments then
        withParens r more n ((← moreSegments r false).reverse ++ segments)
      else pure segments
    else pure (.segment name arguments :: before)
  | _ + 1, segments => pure segments

/-- A path that may have arguments in parentheses, in the middle if `more`. -/
def callable (r : Readers) (more : Bool) : Node → Reading Node
  | .path self position rooted segments => do
    let segments ← withParens r more ((← get).length + 1) segments.reverse
    return .path self position rooted segments.reverse
  | p => pure p

/-- A bound that is a trait. -/
def traitBound (r : Readers) (enclosed : Bool) : Reading Node := do
  let outer ← binder? r
  let maybe ← hasMark "?"
  let binder ← if outer.isNone && maybe then binder? r else pure outer
  let path ← namedPath r false
  return .traitBound enclosed maybe binder (← callable r false path)

/-- A name that is captured. -/
def captured : Reading String := do
  if ← ahead isLifetime then
    let l ← lifetime
    return "'" ++ l.written
  else return (← nameOr ["Self"]).written

/-- A bound of a type. -/
def bound (r : Readers) (captures : Bool) : Reading Node := do
  if ← ahead isLifetime then return .lifetime (← lifetime)
  else if ← hasWord "use" then
    unless captures do failure
    mark "<"
    let names ← listed (isMark ">") "," captured
    mark ">"
    return .captureBound names
  else if ← ahead (isGroup .paren) then within .paren (traitBound r true)
  else traitBound r false

/-- Bounds behind one that has been read, with a plus before each. -/
def moreBounds (r : Readers) : Reading (List Node) :=
  repeated (isMark "+") do
    mark "+"
    r.bound false

/-- Bounds behind the first one. The last plus may have nothing behind it. -/
def boundsAfter (r : Readers) (captures : Bool) : Nat → Reading (List Node)
  | 0 => failure
  | n + 1 => do
    if ← hasMark "+" then
      if ← ahead isBound then
        let b ← r.bound captures
        return b :: (← boundsAfter r captures n)
      else pure []
    else pure []

/-- Bounds of which one is a trait. -/
def bounds (r : Readers) (plus captures : Bool) : Reading (List Node) := do
  let first ← r.bound captures
  let more ← if plus then boundsAfter r captures ((← get).length + 1) else pure []
  let isTrait : Node → Bool
    | .traitBound .. => true
    | _ => false
  if (first :: more).any isTrait then return first :: more else failure

/-! ## Conditions -/

/-- Whether the bounds of a condition are over. -/
def endsPredicate (ts : List Token) : Bool :=
  ts.isEmpty || isGroup .brace ts || isMarkOf [",", ";", "="] ts || isColon ts

/-- A condition on a type or a lifetime. -/
def predicate (r : Readers) : Reading Node := do
  if ← ahead fun ts => isLifetime ts && isMark ":" ts.tail then
    let name ← lifetime
    return .lifetimePredicate name (← lifetimeBounds fun ts => endsPredicate ts || isMark ":" ts)
  else
    let binder ← binder? r
    let type ← r.type true
    mark ":"
    return .typePredicate binder type (← joined endsPredicate "+" (r.bound false))

/-- The conditions of a declaration. -/
def predicates (r : Readers) : Reading (List Node) := do
  if ← hasWord "where" then
    if ← ahead opensGenerics then failure
    joined endsPredicate "," (predicate r)
  else pure []

/-! ## Types -/

/-- A parameter of the type of a function. Only the first may be `self`. -/
def functionParam (r : Readers) (first : Bool) : Reading Node := do
  let isParamName (ts : List Token) : Bool := isNameOrBlank ts || (first && isWord "self" ts)
  let name ←
    if ← ahead fun ts => isParamName ts && isColon ts.tail then
      let name ← anyWord
      mark ":"
      pure (some name)
    else pure none
  return .bareParam name (some (← r.type true))

/-- Whether the open end of a list of parameters is next, perhaps behind a name. -/
def opensVariadic (ts : List Token) : Bool :=
  isMark "..." ts || (isNameOrBlank ts && isMark ":" ts.tail && isMark "..." ts.tail.tail)

/-- The open end of a list of parameters. -/
def functionVariadic : Reading Node := do
  let name ←
    if ← ahead isNameOrBlank then
      let name ← anyWord
      mark ":"
      pure (some name)
    else pure none
  mark "..."
  let _ ← hasMark ","
  return .bareParam name none

/-- The parameters of the type of a function, and their open end. -/
def functionParams (r : Readers) : Nat → (first : Bool) → Reading (List Node × Option Node)
  | 0, _ => failure
  | n + 1, first => do
    if ← ahead List.isEmpty then pure ([], none)
    else
      let attributes ← outerAttributes r
      if ← ahead opensVariadic then
        return ([], some (.withAttributes attributes (← functionVariadic)))
      else
        let p := Node.withAttributes attributes (← functionParam r first)
        if ← ahead List.isEmpty then pure ([p], none)
        else
          mark ","
          let (ps, variadic) ← functionParams r n false
          pure (p :: ps, variadic)

/-- The type of a function, behind what it binds. -/
def functionType (r : Readers) (binder : Option Node) : Reading Node := do
  let unchecked ← hasWord "unsafe"
  let abi ← convention?
  word "fn"
  let (params, variadic) ← within .paren do functionParams r ((← get).length + 1) true
  return .functionType binder unchecked abi params variadic (← result? r false)

/-- A type as a bound, if it is one that can stand in parentheses before others. -/
def Node.enclosedBound? (content : List Token) : Node → Option Node
  | .pathType (.path none position rooted segments) =>
    some (.traitBound true false none (.path none position rooted segments))
  | .objectType [b] =>
    let isPlus : Token → Bool
      | .mark '+' _ => true
      | _ => false
    if isWord "dyn" content || content.getLast?.any isPlus then none
    else
      match b with
      | .traitBound _ maybe names trait => some (.traitBound true maybe names trait)
      | b => some b
  | _ => none

/-- A type that begins with parentheses. -/
def parenType (r : Readers) (plus : Bool) : Reading Node := do
  let (_, content) ← anyGroup
  if content.isEmpty then return .tupleType []
  else if isLifetime content then
    return .parenType (.objectType (← allOf content (bounds r true false)))
  else if isMark "?" content then
    let first ← allOf content (traitBound r true)
    return .objectType (first :: (← moreBounds r))
  else
    let (first, rest) ← (r.type true).run content
    if isMark "," rest then return .tupleType (first :: (← allOf rest.tail (commas (r.type true))))
    else if !rest.isEmpty then failure
    else
      let sums ← ahead (isMark "+")
      match if plus && sums then first.enclosedBound? content else none with
      | some b => return .objectType (b :: (← moreBounds r))
      | none => return .parenType first

/-- A type that begins with a path, behind what it binds. -/
def pathType (r : Readers) (plus : Bool) (binder : Option Node) : Reading Node := do
  let p ← callable r true (← path r false)
  match p with
  | .path (some _) .. => return .pathType p
  | _ =>
    let bang ← ahead isBang
    match if bang then p.plain? else none with
    | some path => return .invocationType (← invocation path)
    | none =>
      let sums ← ahead (isMark "+")
      if binder.isSome || (plus && sums) then
        let more ← if plus then boundsAfter r false ((← get).length + 1) else pure []
        return .objectType (.traitBound false false binder p :: more)
      else return .pathType p

/-- A type in brackets. -/
def bracketType (r : Readers) : Reading Node :=
  within .bracket do
    let item ← r.type true
    if ← hasMark ";" then return .arrayType item (← r.expr true) else return .sliceType item

/-- A type behind an asterisk. -/
def pointerType (r : Readers) : Reading Node := do
  let mutable ← hasWord "mut"
  unless mutable do word "const"
  return .pointerType mutable (← r.type false)

/-- A type behind an ampersand. -/
def referenceType (r : Readers) : Reading Node := do
  let lifetime ← lifetime?
  let mutable ← hasWord "mut"
  return .referenceType lifetime mutable (← r.type false)

/-- A type. -/
def typeForm (r : Readers) (plus : Bool) : Reading Node := do
  let binder ← binder? r
  let ts ← get
  if isWordOf ["fn", "unsafe", "extern"] ts then functionType r binder
  else if isStep ts then pathType r plus binder
  else if binder.isSome then failure
  else if isMarkOf ["::", "<"] ts then pathType r plus none
  else if isGroup .paren ts then parenType r plus
  else if isGroup .bracket ts then bracketType r
  else if isLifetime ts then return .objectType (← bounds r true false)
  else if ← hasWord "dyn" then return .objectType (← bounds r plus false)
  else if ← hasMark "*" then pointerType r
  else if ← hasMark "&" then referenceType r
  else if ← hasMark "!" then pure .neverType
  else if ← hasWord "impl" then return .implType (← bounds r plus true)
  else if ← hasWord "_" then pure .inferType
  else failure

end ApiModels.Source
