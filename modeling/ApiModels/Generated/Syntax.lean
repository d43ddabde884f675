import ApiModels.Source.Identifier

/-!
# Syntax of the generated code

The fragment of Rust that models are written in: modules, imports, constants, aliases, structs and
implementations, with bodies that call, access and assign. Code is generated as such a tree, so that
what it declares can be read off it, and is printed only at the end.
-/

namespace ApiModels.Generated

open Source (Ident)

/-- Names joined by `::`. -/
abbrev Path := List Ident

/-- The path of plain names. -/
def Path.of (names : List String) : Path := names.map fun n => ⟨n, false⟩

/-- A type. -/
inductive Ty where
  /-- A path whose last name may take arguments. -/
  | named (path : Path) (args : List Ty)
  | reference (lifetime : Option Ident) (mutable : Bool) (inner : Ty)
  | slice (inner : Ty)
deriving Repr, BEq, Inhabited

/-- A type given by plain names. -/
def Ty.plain (names : List String) : Ty := .named (Path.of names) []

/-- An entry of an attribute list: a path, or a path and a text. -/
structure MetaItem where
  path : Path
  value : Option String := none
deriving DecidableEq, Repr

/-- What an attribute says. -/
inductive AttributeForm where
  | value (text : String)
  | list (items : List MetaItem)
deriving DecidableEq, Repr

/-- An attribute of what follows it or, if it is inner, of what it stands in. -/
structure Attribute where
  inner : Bool
  path : Path
  form : AttributeForm
deriving DecidableEq, Repr

namespace Attribute

/-- A line of documentation. -/
def doc (s : String) : Attribute := ⟨false, Path.of ["doc"], .value s⟩

/-- A line of documentation for what it stands in. -/
def innerDoc (s : String) : Attribute := ⟨true, Path.of ["doc"], .value s⟩

/-- An attribute with a list. -/
def list (name : String) (items : List MetaItem) : Attribute :=
  ⟨false, Path.of [name], .list items⟩

end Attribute

/-- An expression. -/
inductive Expr where
  | path (path : Path)
  | text (s : String)
  | array (items : List Expr)
  | reference (mutable : Bool) (inner : Expr)
  | field (base : Expr) (name : Ident)
  | method (base : Expr) (name : Ident) (args : List Expr)
  /-- Returns early if there is no value. -/
  | orReturn (inner : Expr)
  | call (function : Expr) (args : List Expr)
  | record (path : Path) (fields : List (Ident × Expr))
deriving Repr, Inhabited

/-- An expression given by plain names. -/
def Expr.plain (names : List String) : Expr := .path (Path.of names)

/-- A statement. -/
inductive Stmt where
  | bind (mutable : Bool) (name : Ident) (value : Expr)
  | assign (left right : Expr)
deriving Repr

/-- Statements and the value they end with. -/
structure Block where
  statements : List Stmt := []
  result : Option Expr := none
deriving Repr

/-- From where a declaration can be reached. -/
inductive Visibility where
  /-- From the module it stands in. -/
  | inherited
  | everywhere
deriving DecidableEq, Repr, Inhabited

/-- A parameter of a function. -/
inductive Param where
  | receiver (mutable : Bool)
  | typed (name : Ident) (type : Ty)
deriving Repr

/-- The name of a parameter, if it has one of its own. -/
def Param.name? : Param → Option Ident
  | .receiver _ => none
  | .typed name _ => some name

/-- A function. -/
structure Function where
  attributes : List Attribute := []
  visibility : Visibility := .inherited
  name : Ident
  params : List Param
  result : Option Ty
  body : Block
deriving Repr

/-- A field of a struct. -/
structure Field where
  attributes : List Attribute
  visibility : Visibility
  name : Ident
  type : Ty
deriving Repr

/-- What an implementation provides. -/
inductive Member where
  | constant (name : Ident) (type : Ty) (value : Expr)
  | synonym (name : Ident) (type : Ty)
  | function (f : Function)
deriving Repr

/-- What an import brings in. -/
inductive UseTree where
  | step (first : Ident) (rest : UseTree)
  | name (name : Ident)
  | rename (name new : Ident)
  | all
  | group (items : List UseTree)
deriving Repr, Inhabited

/-- The import of a path. -/
def UseTree.under : List Ident → UseTree → UseTree
  | [], rest => rest
  | first :: more, rest => .step first (under more rest)

/-- An item of a module. -/
inductive Item where
  /-- A module, in a file of its own if it has no content. -/
  | module (attributes : List Attribute) (visibility : Visibility) (name : Ident)
      (content : Option (List Item))
  | use (attributes : List Attribute) (visibility : Visibility) (tree : UseTree)
  | constant (attributes : List Attribute) (visibility : Visibility) (name : Ident) (type : Ty)
      (value : Expr)
  | synonym (attributes : List Attribute) (visibility : Visibility) (name : Ident) (type : Ty)
  | struct (attributes : List Attribute) (visibility : Visibility) (name : Ident)
      (fields : List Field)
  | implementation (ofTrait : Option Path) (target : Ty) (members : List Member)
deriving Repr, Inhabited

/-- The name an item declares in its module. -/
def Item.name? : Item → Option Ident
  | .module _ _ name _ | .constant _ _ name _ _ | .synonym _ _ name _ | .struct _ _ name _ =>
    some name
  | .use .. | .implementation .. => none

/-- A file: its own attributes, and its items. -/
structure File where
  attributes : List Attribute := []
  items : List Item := []
deriving Repr, Inhabited

end ApiModels.Generated
