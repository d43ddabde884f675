import ApiModels.Source.Reading.Statement

/-!
# Reading items

Items of a file, a module or a function, and the members of traits, implementations and blocks of
foreign declarations. Forms that only a compiler that is being developed knows are refused.
-/

namespace ApiModels.Source

open Ahead
open Reading

/-! ## Functions -/

/-- What a method is called on. -/
def receiver (r : Readers) : Reading Node := do
  let reference ← if ← hasMark "&" then some <$> lifetime? else pure none
  let mutable ← hasWord "mut"
  word "self"
  let typed ← if reference.isNone then hasMark ":" else pure false
  return .receiver reference mutable (← if typed then some <$> r.type true else pure none)

/-- A parameter of a function, and whether it is an open end. A type may stand alone if it begins
with a name and an angle. -/
def functionArgument (r : Readers) : Reading (Node × Bool) := do
  if ← ahead fun ts => isName ts && isMark "<" ts.tail then
    return (.typedPattern .wildPattern (← r.type true), false)
  else
    let pattern ← r.pattern
    mark ":"
    if ← hasMark "..." then return (.variadic (some pattern), true)
    else return (.typedPattern pattern (← r.type true), false)

/-- A parameter of a function or what it is called on, and whether it is an open end. Only the first
may be what it is called on. -/
def functionInput (r : Readers) (first : Bool) : Reading (Node × Bool) := do
  if ← hasMark "..." then return (.variadic none, true)
  else
    match (receiver r).run (← get) with
    | some (n, rest) =>
      unless first do failure
      set rest
      return (n, false)
    | none => functionArgument r

/-- The parameters of a function, and its open end. -/
def functionInputs (r : Readers) : Nat → (first : Bool) → Reading (List Node × Option Node)
  | 0, _ => failure
  | n + 1, first => do
    if ← ahead List.isEmpty then pure ([], none)
    else
      let attributes ← outerAttributes r
      let (input, isOpen) ← functionInput r first
      let input := Node.withAttributes attributes input
      if ← ahead List.isEmpty then pure (if isOpen then ([], some input) else ([input], none))
      else
        mark ","
        if isOpen then pure ([], some input)
        else
          let (inputs, variadic) ← functionInputs r n false
          pure (input :: inputs, variadic)

/-- The head of a function. -/
def signature (r : Readers) : Reading Node := do
  let words ← wordsOf ["const", "async", "unsafe"]
  let abi ← convention?
  word "fn"
  let name ← name
  let params ← params r
  let (inputs, variadic) ← within .paren do functionInputs r ((← get).length + 1) true
  let result ← result? r true
  return .signature words abi name (.generics params (← predicates r)) inputs variadic result

/-- Whether a function is next. -/
def isFunction (ts : List Token) : Bool := isWord "fn" ts || Ahead.opensFunction ts

/-- A function with a body. -/
def functionItem (r : Readers) (visibility : Visibility) (overridable : Bool) : Reading Node := do
  let head ← signature r
  return .functionItem visibility overridable head (some (← body r true))

/-! ## Data -/

/-- A field by name. -/
def namedField (r : Readers) : Reading Node := do
  let attributes ← outerAttributes r
  let visibility ← visibility
  let name ← nameOr ["_"]
  mark ":"
  return .withAttributes attributes (.field visibility (some name) (← r.type true))

/-- A field by position. -/
def placedField (r : Readers) : Reading Node := do
  let attributes ← outerAttributes r
  let visibility ← visibility
  return .withAttributes attributes (.field visibility none (← r.type true))

/-- Fields by name, in braces. -/
def namedFields (r : Readers) : Reading (List Node) := within .brace (commas (namedField r))

/-- Fields by position, in parentheses. -/
def placedFields (r : Readers) : Reading (List Node) := within .paren (commas (placedField r))

/-- A struct behind its keyword. Conditions stand before fields by name and behind those by
position. -/
def structItem (r : Readers) (visibility : Visibility) : Reading Node := do
  let name ← name
  let params ← params r
  if ← ahead (isGroup .paren) then
    let fields ← placedFields r
    let generics := Node.generics params (← predicates r)
    mark ";"
    return .structItem visibility name generics (.placedFields fields)
  else
    let generics := Node.generics params (← predicates r)
    if ← hasMark ";" then return .structItem visibility name generics .noFields
    else return .structItem visibility name generics (.namedFields (← namedFields r))

/-- A case of an enumeration. -/
def variant (r : Readers) : Reading Node := do
  let attributes ← outerAttributes r
  let _ ← visibility
  let name ← name
  let ts ← get
  let fields ←
    if isGroup .brace ts then Node.namedFields <$> namedFields r
    else if isGroup .paren ts then Node.placedFields <$> placedFields r
    else pure .noFields
  let value ← if ← hasMark "=" then some <$> r.expr true else pure none
  return .withAttributes attributes (.variant name fields value)

/-- An enumeration behind its keyword. -/
def enumItem (r : Readers) (visibility : Visibility) : Reading Node := do
  let name ← name
  let params ← params r
  let generics := Node.generics params (← predicates r)
  return .enumItem visibility name generics (← within .brace (commas (variant r)))

/-- A union behind its keyword. -/
def unionItem (r : Readers) (visibility : Visibility) : Reading Node := do
  let name ← name
  let params ← params r
  let generics := Node.generics params (← predicates r)
  return .unionItem visibility name generics (← namedFields r)

/-! ## Values and types -/

/-- A constant behind its keyword. In a trait it need not have a value. -/
def constItem (r : Readers) (visibility : Visibility) (overridable required : Bool) :
    Reading Node := do
  let name ← nameOr ["_"]
  mark ":"
  let type ← r.type true
  let value ← if ← hasMark "=" then some <$> r.expr true else pure none
  if required && value.isNone then failure
  mark ";"
  return .constItem visibility overridable name type value

/-- A static behind its keyword. A foreign one has no value. -/
def staticItem (r : Readers) (visibility : Visibility) (valued : Bool) : Reading Node := do
  let mutable ← hasWord "mut"
  let name ← name
  mark ":"
  let type ← r.type true
  let value ←
    if valued then
      mark "="
      some <$> r.expr true
    else pure none
  mark ";"
  return .staticItem visibility mutable name type value

/-- Whether the bounds of a declaration are over. -/
def endsBounds (ts : List Token) : Bool :=
  isWord "where" ts || isMarkOf ["=", ";"] ts || isGroup .brace ts

/-- The bounds of a declaration, if it has any. -/
def declaredBounds (r : Readers) : Reading (List Node) := do
  if ← hasMark ":" then listed endsBounds "+" (r.bound false) else pure []

/-- A name for a type behind its keyword. -/
def typeItem (r : Readers) (visibility : Visibility) : Reading Node := do
  let name ← name
  let params ← params r
  let generics := Node.generics params (← predicates r)
  mark "="
  let type ← r.type true
  mark ";"
  return .typeItem visibility name generics type

/-- A type of a trait, or of an implementation, behind its keyword. -/
def memberType (r : Readers) (visibility : Visibility) (overridable required : Bool) :
    Reading Node := do
  let name ← name
  let params ← params r
  let bounded ← ahead (isMark ":")
  if required && bounded then failure
  let bounds ← declaredBounds r
  let default ← if ← hasMark "=" then some <$> r.type true else pure none
  if required && default.isNone then failure
  let generics := Node.generics params (← predicates r)
  mark ";"
  return .memberType visibility overridable name generics bounds default

/-! ## Imports -/

/-- What an import brings in, in so many steps at most. -/
def useTree : Nat → Reading UseTree
  | 0 => failure
  | n + 1 => do
    if ← hasMark "*" then pure .all
    else if ← ahead (isGroup .brace) then return .group (← within .brace (commas (useTree n)))
    else
      let first ← nameOr ("try" :: roots)
      if ← hasMark "::" then return .step first (← useTree n)
      else if ← hasWord "as" then return .rename first (← nameOr ["_"])
      else pure (.name first)

/-- An import behind its keyword. -/
def useItem (visibility : Visibility) : Reading Node := do
  let rooted ← hasMark "::"
  let tree ← useTree (Token.sizeOfAll (← get) + 1)
  mark ";"
  return .useItem visibility rooted tree

/-- A library behind its keywords. -/
def libraryItem (visibility : Visibility) : Reading Node := do
  let name ← nameOr ["self"]
  let rename ← if ← hasWord "as" then some <$> nameOr ["_"] else pure none
  mark ";"
  return .libraryItem visibility name rename

/-! ## Invocations -/

/-- An invocation that is an item. A semicolon follows unless it ends in a brace. -/
def invocationItem (named : Bool) : Reading Node := do
  let path ← plainPath
  mark "!"
  let name ←
    if ← ahead fun ts => named && (isName ts || isWord "try" ts) then some <$> anyWord
    else pure none
  let (delimiter, content) ← anyGroup
  unless delimiter == .brace do mark ";"
  return .invocationItem name { path, delimiter, content }

/-! ## Members -/

/-- A function of a trait, which may have a body. -/
def traitFunction (r : Readers) : Reading Node := do
  let head ← signature r
  if ← hasMark ";" then return .functionItem .inherited false head none
  else return .functionItem .inherited false head (some (← body r true))

/-- A member of a trait behind its attributes. -/
def traitMember (r : Readers) : Reading Node := do
  let ts ← get
  if isWord "default" ts then failure
  else if isFunction ts then traitFunction r
  else if ← hasWord "const" then constItem r .inherited false false
  else if ← hasWord "type" then memberType r .inherited false false
  else if isInvoked ts then invocationItem false
  else failure

/-- A member of an implementation behind its attributes. -/
def implMember (r : Readers) : Reading Node := do
  let visibility ← visibility
  let overridable ← ahead fun ts => isWord "default" ts && !isMark "!" ts.tail
  if overridable then word "default"
  let ts ← get
  if isFunction ts then functionItem r visibility overridable
  else if ← hasWord "const" then constItem r visibility overridable true
  else if ← hasWord "type" then memberType r visibility overridable true
  else if visibility == .inherited && !overridable && isInvoked ts then invocationItem false
  else failure

/-- A foreign function, which has no body. -/
def foreignFunction (r : Readers) (visibility : Visibility) : Reading Node := do
  let head ← signature r
  mark ";"
  return .functionItem visibility false head none

/-- A foreign type behind its keyword. -/
def foreignType (r : Readers) (visibility : Visibility) : Reading Node := do
  let name ← name
  let params ← params r
  let generics := Node.generics params (← predicates r)
  mark ";"
  return .foreignType visibility name generics

/-- A foreign declaration behind its attributes. -/
def foreignMember (r : Readers) : Reading Node := do
  let visibility ← visibility
  let ts ← get
  if isFunction ts then foreignFunction r visibility
  else if ← hasWord "static" then staticItem r visibility false
  else if ← hasWord "type" then foreignType r visibility
  else if visibility == .inherited && isInvoked ts then invocationItem false
  else failure

/-- Something behind its attributes. -/
def behindAttributes (r : Readers) (form : Reading Node) : Reading Node := do
  let attributes ← outerAttributes r
  return .withAttributes attributes (← form)

/-- Members in braces, behind attributes of what they belong to. -/
def members (r : Readers) (member : Reading Node) : Reading (List Node × List Node) :=
  within .brace do
    let attributes ← innerAttributes r
    return (attributes, ← all (behindAttributes r member))

/-! ## Items -/

/-- Declarations of another language. -/
def foreignItem (r : Readers) (unchecked : Bool) : Reading Node := do
  word "extern"
  let abi ← text?
  let (attributes, items) ← members r (foreignMember r)
  return .foreignItem unchecked abi attributes items

/-- A trait behind its keyword. -/
def traitItem (r : Readers) (visibility : Visibility) (words : List String) : Reading Node := do
  let name ← name
  let params ← params r
  if ← ahead fun ts => words.isEmpty && isMark "=" ts then
    mark "="
    let bounds ← listed (fun ts => isWord "where" ts || isMark ";" ts) "+" (r.bound false)
    let generics := Node.generics params (← predicates r)
    mark ";"
    return .traitSynonym visibility name generics bounds
  else
    let bounds ← declaredBounds r
    let generics := Node.generics params (← predicates r)
    let (attributes, items) ← members r (traitMember r)
    return .traitItem visibility words name generics bounds attributes items

/-- An implementation. Where it is of a trait, that is a path. -/
def implItem (r : Readers) (overridable unchecked : Bool) : Reading Node := do
  word "impl"
  let params ← if ← ahead opensGenerics then params r else pure []
  let negative ← ahead fun ts => isMark "!" ts && !isGroup .brace ts.tail
  if negative then mark "!"
  let first ← r.type true
  let (ofTrait, target) ←
    if ← hasWord "for" then
      match first with
      | .pathType (.path none position rooted segments) =>
        let target ← r.type true
        pure (some (Node.path none position rooted segments), target)
      | _ => failure
    else if negative then failure
    else pure (none, first)
  let generics := Node.generics params (← predicates r)
  let (attributes, items) ← members r (implMember r)
  return .implItem overridable unchecked generics negative ofTrait target attributes items

/-- A module behind its keyword. -/
def moduleItem (r : Readers) (visibility : Visibility) (unchecked : Bool) : Reading Node := do
  let name ← nameOr ["try"]
  if ← hasMark ";" then return .moduleItem visibility unchecked name
  else
    let (attributes, items) ← members r r.item
    return .moduleBlock visibility unchecked name attributes items

/-- An item whose first word says that it is not checked. -/
def uncheckedItem (r : Readers) (visibility : Visibility) : Reading Node := do
  word "unsafe"
  let ts ← get
  if isWord "trait" ts || (isWord "auto" ts && isWord "trait" ts.tail) then
    let auto ← hasWord "auto"
    word "trait"
    traitItem r visibility (if auto then ["unsafe", "auto"] else ["unsafe"])
  else if ← hasWord "mod" then moduleItem r visibility true
  else if visibility ≠ .inherited then failure
  else if isWord "impl" ts then implItem r false true
  else if isWord "extern" ts then foreignItem r true
  else failure

/-- An item that anything can precede which says from where it can be reached. -/
def visibleItem? (r : Readers) (visibility : Visibility) : Reading (Option Node) := do
  let ts ← get
  if isFunction ts then some <$> functionItem r visibility false
  else if isWord "extern" ts && isWord "crate" ts.tail then
    skip 2
    some <$> libraryItem visibility
  else if ← hasWord "use" then some <$> useItem visibility
  else if ← hasWord "static" then some <$> staticItem r visibility true
  else if ← hasWord "const" then some <$> constItem r visibility false true
  else if isWord "unsafe" ts then some <$> uncheckedItem r visibility
  else if ← hasWord "mod" then some <$> moduleItem r visibility false
  else if ← hasWord "type" then some <$> typeItem r visibility
  else if ← hasWord "struct" then some <$> structItem r visibility
  else if ← hasWord "enum" then some <$> enumItem r visibility
  else if isWord "union" ts && isName ts.tail then
    word "union"
    some <$> unionItem r visibility
  else if ← hasWord "trait" then some <$> traitItem r visibility []
  else if isWord "auto" ts && isWord "trait" ts.tail then
    skip 2
    some <$> traitItem r visibility ["auto"]
  else pure none

/-- An item behind its attributes. -/
def itemForm (r : Readers) : Reading Node := do
  let visibility ← visibility
  match ← visibleItem? r visibility with
  | some item => pure item
  | none =>
    let ts ← get
    if visibility ≠ .inherited then failure
    else if isWord "extern" ts then foreignItem r false
    else if isWord "impl" ts || (isWord "default" ts && !isMark "!" ts.tail) then
      let overridable ← hasWord "default"
      let unchecked ← hasWord "unsafe"
      implItem r overridable unchecked
    else if isInvoked ts then invocationItem true
    else failure

end ApiModels.Source
