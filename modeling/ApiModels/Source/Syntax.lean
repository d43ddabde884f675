import ApiModels.Source.Token

/-!
# Syntax of Rust

The whole language that a file can be written in, as trees of one type. The forms come in families
(types, patterns, expressions and so on) under the headings below, and each family stands only where
readers put it. What is written in brackets behind a name and an exclamation mark, or in an
attribute, has no form of its own and stays a list of tokens.
-/

namespace ApiModels.Source

/-- Names joined by `::`, perhaps with one more of these before them. -/
structure PlainPath where
  rooted : Bool := false
  names : List Ident
deriving DecidableEq, Repr, Inhabited

/-- The path of plain names. -/
def PlainPath.of (names : List String) : PlainPath := ⟨false, names.map fun n => ⟨n, false⟩⟩

/-- A path as written. -/
def PlainPath.written (p : PlainPath) : String :=
  (if p.rooted then "::" else "") ++ Text.join "::" (p.names.map Ident.written)

/-- Whether a path is one given name. -/
def PlainPath.isName (p : PlainPath) (name : String) : Bool := p == PlainPath.of [name]

/-- Tokens handed to whatever a path names. -/
structure Invocation where
  path : PlainPath
  delimiter : Delimiter
  content : List Token
deriving Repr, Inhabited

/-- From where a declaration can be reached. -/
inductive Visibility where
  /-- From the module it stands in. -/
  | inherited
  | everywhere
  /-- From the module that a path leads to. -/
  | within (path : PlainPath)
deriving DecidableEq, Repr, Inhabited

/-- What an import brings in. -/
inductive UseTree where
  | step (first : Ident) (rest : UseTree)
  | name (name : Ident)
  | rename (name new : Ident)
  | all
  | group (items : List UseTree)
deriving Repr, Inhabited

/-- What a block in braces is for. -/
inductive BlockKind where
  | plain
  /-- To be awaited; `moving` if it takes what it uses. -/
  | awaited (moving : Bool)
  | constant
  | fallible
  | unchecked
deriving DecidableEq, Repr, Inhabited

/-- A form of the language. -/
inductive Node where
  /-- A form behind attributes. -/
  | attributed (attributes : List Node) (inner : Node)
  /-- An attribute of what follows it or, if it is inner, of what it stands in. It may have a list
  of tokens or a value. -/
  | attr (inner : Bool) (path : PlainPath) (list : Option (Delimiter × List Token))
      (value : Option Node)
  /-- Attributes and statements of a body. -/
  | block (attributes : List Node) (statements : List Node)
  /- Paths -/
  /-- A path. The first `position` segments may name a trait that another type stands for. -/
  | path (self : Option Node) (position : Nat) (rooted : Bool) (segments : List Node)
  | segment (name : Ident) (arguments : Option Node)
  | angled (arguments : List Node)
  | parenthesized (inputs : List Node) (output : Option Node)
  | lifetime (name : Ident)
  | constArgument (value : Node)
  /-- An argument by name, which is a type or a constant. -/
  | binding (name : Ident) (arguments : List Node) (value : Node)
  | constraint (name : Ident) (arguments : List Node) (bounds : List Node)
  /- Generic parameters -/
  | binder (params : List Node)
  | traitBound (enclosed maybe : Bool) (binder : Option Node) (path : Node)
  | captureBound (names : List String)
  | lifetimeParam (name : Ident) (bounds : List Ident)
  | typeParam (name : Ident) (bounds : List Node) (default : Option Node)
  | constParam (name : Ident) (type : Node) (default : Option Node)
  | lifetimePredicate (name : Ident) (bounds : List Ident)
  | typePredicate (binder : Option Node) (type : Node) (bounds : List Node)
  | generics (params : List Node) (predicates : List Node)
  /- Types -/
  | arrayType (item length : Node)
  | functionType (binder : Option Node) (unchecked : Bool) (abi : Option (Option Literal))
      (params : List Node) (variadic : Option Node) (result : Option Node)
  | bareParam (name : Option Ident) (type : Option Node)
  | implType (bounds : List Node)
  | inferType
  | neverType
  | invocationType (i : Invocation)
  | parenType (inner : Node)
  | pathType (path : Node)
  | pointerType (mutable : Bool) (inner : Node)
  | referenceType (lifetime : Option Ident) (mutable : Bool) (inner : Node)
  | sliceType (inner : Node)
  | objectType (bounds : List Node)
  | tupleType (items : List Node)
  /- Patterns, besides expressions that are patterns -/
  | identPattern (byReference mutable : Bool) (name : Ident) (sub : Option Node)
  | orPattern (cases : List Node)
  | parenPattern (inner : Node)
  | referencePattern (mutable : Bool) (inner : Node)
  | restPattern
  | slicePattern (items : List Node)
  | recordPattern (path : Node) (fields : List Node) (rest : Option Node)
  /-- A pattern for a field of a record, with its name unless the pattern gives it. -/
  | fieldPattern (member : Option String) (pattern : Node)
  /-- A tuple of patterns, perhaps with a comma behind the last. -/
  | tuplePattern (items : List Node) (closed : Bool)
  | callPattern (path : Node) (items : List Node)
  | typedPattern (pattern type : Node)
  | wildPattern
  /- Expressions -/
  | arrayExpr (items : List Node)
  | assignExpr (left right : Node)
  | awaitExpr (base : Node)
  | binaryExpr (operator : String) (left right : Node)
  | blockExpr (kind : BlockKind) (label : Option Ident) (body : Node)
  | breakExpr (label : Option Ident) (value : Option Node)
  | callExpr (function : Node) (arguments : List Node)
  | castExpr (value type : Node)
  | closureExpr (binder : Option Node) (words : List String) (inputs : List Node)
      (result : Option Node) (body : Node)
  | continueExpr (label : Option Ident)
  | fieldExpr (base : Node) (member : String)
  | forExpr (label : Option Ident) (pattern subject body : Node)
  | ifExpr (condition body : Node) (otherwise : Option Node)
  | indexExpr (base index : Node)
  | inferExpr
  | invocationExpr (i : Invocation)
  | letExpr (pattern value : Node)
  | literalExpr (l : Literal)
  | loopExpr (label : Option Ident) (body : Node)
  | matchExpr (subject : Node) (attributes : List Node) (arms : List Node)
  | arm (pattern : Node) (guard : Option Node) (body : Node)
  | methodExpr (base : Node) (name : Ident) (generics : List Node) (arguments : List Node)
  | parenExpr (inner : Node)
  | pathExpr (path : Node)
  | rangeExpr (first : Option Node) (closed : Bool) (last : Option Node)
  | rawAddressExpr (mutable : Bool) (inner : Node)
  | referenceExpr (mutable : Bool) (inner : Node)
  | repeatExpr (item length : Node)
  | returnExpr (value : Option Node)
  | recordExpr (path : Node) (fields : List Node) (rest : Option Node)
  /-- A field of a record, with its value unless that is a variable of the same name. -/
  | fieldValue (member : String) (value : Option Node)
  | tryExpr (inner : Node)
  | tupleExpr (items : List Node)
  | unaryExpr (operator : String) (inner : Node)
  | whileExpr (label : Option Ident) (condition body : Node)
  | yieldExpr (value : Option Node)
  /- Statements, besides items -/
  | letStmt (pattern : Node) (value otherwise : Option Node)
  | exprStmt (value : Node) (closed : Bool)
  | invocationStmt (i : Invocation) (closed : Bool)
  | emptyStmt
  /- Items -/
  | constItem (visibility : Visibility) (overridable : Bool) (name : Ident) (type : Node)
      (value : Option Node)
  | staticItem (visibility : Visibility) (mutable : Bool) (name : Ident) (type : Node)
      (value : Option Node)
  | enumItem (visibility : Visibility) (name : Ident) (generics : Node) (variants : List Node)
  | variant (name : Ident) (fields : Node) (value : Option Node)
  | noFields
  | namedFields (fields : List Node)
  | placedFields (fields : List Node)
  | field (visibility : Visibility) (name : Option Ident) (type : Node)
  | libraryItem (visibility : Visibility) (name : Ident) (rename : Option Ident)
  | functionItem (visibility : Visibility) (overridable : Bool) (signature : Node)
      (body : Option Node)
  | signature (words : List String) (abi : Option (Option Literal)) (name : Ident)
      (generics : Node) (params : List Node) (variadic : Option Node) (result : Option Node)
  | receiver (reference : Option (Option Ident)) (mutable : Bool) (type : Option Node)
  | variadic (pattern : Option Node)
  | foreignItem (unchecked : Bool) (abi : Option Literal) (attributes : List Node)
      (items : List Node)
  | implItem (overridable unchecked : Bool) (generics : Node) (negative : Bool)
      (ofTrait : Option Node) (target : Node) (attributes : List Node) (items : List Node)
  | invocationItem (name : Option Ident) (i : Invocation)
  | moduleItem (visibility : Visibility) (unchecked : Bool) (name : Ident)
  | moduleBlock (visibility : Visibility) (unchecked : Bool) (name : Ident)
      (attributes : List Node) (items : List Node)
  | structItem (visibility : Visibility) (name : Ident) (generics : Node) (fields : Node)
  | unionItem (visibility : Visibility) (name : Ident) (generics : Node) (fields : List Node)
  | traitItem (visibility : Visibility) (words : List String) (name : Ident) (generics : Node)
      (bounds : List Node) (attributes : List Node) (items : List Node)
  | traitSynonym (visibility : Visibility) (name : Ident) (generics : Node) (bounds : List Node)
  | typeItem (visibility : Visibility) (name : Ident) (generics : Node) (type : Node)
  /-- A type that belongs to a trait or to an implementation of one. -/
  | memberType (visibility : Visibility) (overridable : Bool) (name : Ident) (generics : Node)
      (bounds : List Node) (default : Option Node)
  | foreignType (visibility : Visibility) (name : Ident) (generics : Node)
  | useItem (visibility : Visibility) (rooted : Bool) (tree : UseTree)
deriving Inhabited

namespace Node

/-- A form behind attributes, if there are any. -/
def withAttributes (attributes : List Node) (n : Node) : Node :=
  if attributes.isEmpty then n
  else
    match n with
    | attributed more inner => attributed (attributes ++ more) inner
    | n => attributed attributes n

/-- A form without its attributes. -/
def bare : Node → Node
  | attributed _ inner => inner
  | n => n

/-- A path of one name. -/
def ofName (name : Ident) : Node := path none 0 false [segment name none]

/-- A documentation attribute. -/
def documentation (inner : Bool) (text : String) : Node :=
  attr inner (PlainPath.of ["doc"]) none (some (literalExpr (.ofText text)))

/-- The name that a path is, if it is one without arguments. -/
def name? : Node → Option Ident
  | path none _ false [segment name none] => some name
  | _ => none

/-- The names of a path without arguments. -/
def plain? : Node → Option PlainPath
  | path none _ rooted segments =>
    (segments.mapM fun
      | segment name none => some name
      | _ => none).map fun names => ⟨rooted, names⟩
  | _ => none

end Node

/-- A file: its own attributes, and its items. `size` is the number of its tokens, so it bounds how
deep the forms nest. -/
structure File where
  attributes : List Node
  items : List Node
  size : Nat
deriving Inhabited

end ApiModels.Source
