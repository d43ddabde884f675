import ApiModels.Generated.Token
import ApiModels.Source.Syntax

/-!
# Forms of the generated code

The generated code as a file of the whole language, which is how it is printed.
-/

namespace ApiModels.Generated

open Source (Ident Node Token)

/-! ## Paths and types -/

/-- Segments of a path, the last with arguments if there are any. -/
def segments (arguments : List Node) : Path → List Node
  | [] => []
  | [n] => [.segment n (if arguments.isEmpty then none else some (.angled arguments))]
  | n :: ns => .segment n none :: segments arguments ns

/-- A path with arguments for its last segment. -/
def pathForm (p : Path) (arguments : List Node) : Node := .path none 0 false (segments arguments p)

mutual

/-- The form of a type. -/
def Ty.form : Ty → Node
  | .named p args => .pathType (pathForm p (tyForms args))
  | .reference lifetime mutable inner =>
    .referenceType lifetime mutable inner.form
  | .slice inner => .sliceType inner.form

/-- The forms of types. -/
def tyForms : List Ty → List Node
  | [] => []
  | t :: ts => t.form :: tyForms ts

end

/-! ## Attributes -/

/-- The tokens of a path. -/
def stepTokens : Path → List Token
  | [] => []
  | [n] => [.word n]
  | n :: ns => [.word n, .mark ':' true, .mark ':' false] ++ stepTokens ns

/-- The tokens of entries of a list, with commas between them. -/
def entryTokens : List MetaItem → List Token
  | [] => []
  | m :: ms =>
    stepTokens m.path
      ++ (m.value.map fun s => [.alone '=', .literal (.ofText s)]).getD []
      ++ (if ms.isEmpty then [] else [.alone ',']) ++ entryTokens ms

/-- The form of an attribute. -/
def Attribute.attributeForm (a : Attribute) : Node :=
  match a.form with
  | .value s => .attr a.inner ⟨false, a.path⟩ none (some (.literalExpr (.ofText s)))
  | .list items => .attr a.inner ⟨false, a.path⟩ (some (.paren, entryTokens items)) none

/-- A form behind attributes. -/
def attributed (attributes : List Attribute) (n : Node) : Node :=
  .withAttributes (attributes.map Attribute.attributeForm) n

/-! ## Expressions and statements -/

mutual

/-- The form of an expression. -/
def Expr.form : Expr → Node
  | .path p => .pathExpr (pathForm p [])
  | .text s => .literalExpr (.ofText s)
  | .array items => .arrayExpr (exprForms items)
  | .reference mutable inner => .referenceExpr mutable inner.form
  | .field base name => .fieldExpr base.form name.written
  | .method base name args => .methodExpr base.form name [] (exprForms args)
  | .orReturn inner => .tryExpr inner.form
  | .call function args => .callExpr function.form (exprForms args)
  | .record p fields => .recordExpr (pathForm p []) (fieldForms fields) none

/-- The forms of expressions. -/
def exprForms : List Expr → List Node
  | [] => []
  | e :: es => e.form :: exprForms es

/-- The forms of fields with their values. -/
def fieldForms : List (Ident × Expr) → List Node
  | [] => []
  | (name, e) :: fields => .fieldValue name.written (some e.form) :: fieldForms fields

end

/-- The form of a statement. -/
def Stmt.form : Stmt → Node
  | .bind mutable name value =>
    .letStmt (.identPattern false mutable name none) (some value.form) none
  | .assign left right => .exprStmt (.assignExpr left.form right.form) true

/-- The form of a body. -/
def Block.form (b : Block) : Node :=
  .block [] (b.statements.map Stmt.form
    ++ (b.result.map fun e => Node.exprStmt e.form false).toList)

/-! ## Items -/

/-- The form of a visibility. -/
def Visibility.form : Visibility → Source.Visibility
  | .inherited => .inherited
  | .everywhere => .everywhere

/-- No parameters and no conditions. -/
def noGenerics : Node := .generics [] []

/-- The form of a parameter. -/
def Param.form : Param → Node
  | .receiver mutable => .receiver (some none) mutable none
  | .typed name type => .typedPattern (.identPattern false false name none) type.form

/-- The form of a function. -/
def Function.form (f : Function) : Node :=
  attributed f.attributes
    (.functionItem f.visibility.form false
      (.signature [] none f.name noGenerics (f.params.map Param.form) none (f.result.map Ty.form))
      (some f.body.form))

/-- The form of a field of a struct. -/
def Field.form (f : Field) : Node :=
  attributed f.attributes (.field f.visibility.form (some f.name) f.type.form)

/-- The form of a member of an implementation. -/
def Member.form : Member → Node
  | .constant name type value => .constItem .inherited false name type.form (some value.form)
  | .synonym name type => .memberType .inherited false name noGenerics [] (some type.form)
  | .function f => f.form

mutual

/-- The form of what is imported. -/
def UseTree.form : UseTree → Source.UseTree
  | .step first rest => .step first rest.form
  | .name name => .name name
  | .rename name new => .rename name new
  | .all => .all
  | .group items => .group (useForms items)

/-- The forms of imports. -/
def useForms : List UseTree → List Source.UseTree
  | [] => []
  | t :: ts => t.form :: useForms ts

end

mutual

/-- The form of an item. -/
def Item.form : Item → Node
  | .module attributes visibility name content =>
    attributed attributes <|
      match content with
      | none => .moduleItem visibility.form false name
      | some items => .moduleBlock visibility.form false name [] (itemForms items)
  | .use attributes visibility tree =>
    attributed attributes (.useItem visibility.form false tree.form)
  | .constant attributes visibility name type value =>
    attributed attributes
      (.constItem visibility.form false name type.form (some value.form))
  | .synonym attributes visibility name type =>
    attributed attributes (.typeItem visibility.form name noGenerics type.form)
  | .struct attributes visibility name fields =>
    attributed attributes
      (.structItem visibility.form name noGenerics (.namedFields (fields.map Field.form)))
  | .implementation ofTrait target members =>
    .implItem false false noGenerics false (ofTrait.map fun p => pathForm p []) target.form []
      (members.map Member.form)

/-- The forms of items. -/
def itemForms : List Item → List Node
  | [] => []
  | i :: is => i.form :: itemForms is

end

/-- The form of a file. -/
def File.form (f : File) : Source.File where
  attributes := f.attributes.map Attribute.attributeForm
  items := itemForms f.items
  size := f.tokens.length

end ApiModels.Generated
