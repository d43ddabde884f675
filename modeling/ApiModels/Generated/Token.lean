import ApiModels.Generated.Syntax
import ApiModels.Json.Print

/-!
# Tokens of the generated code

A file as the sequence of its tokens, cut into items. Two files with the same tokens are the same
code, whatever their layout.
-/

namespace ApiModels.Generated

open Source (Ident)

/-- Tokens with a separator after each group but the last. -/
def separated (sep : List String) : List (List String) → List String
  | [] => []
  | [ts] => ts
  | ts :: more => ts ++ sep ++ separated sep more

/-- The token of a name. -/
def nameTokens (i : Ident) : List String := [i.written]

/-- The token of a text, as JSON. -/
def textTokens (s : String) : List String := [(Json.string s).compact]

/-- Tokens of a path. -/
def pathTokens (p : Path) : List String := separated ["::"] (p.map nameTokens)

mutual

/-- Tokens of a type. -/
def Ty.tokens : Ty → List String
  | .named p [] => pathTokens p
  | .named p (a :: args) => pathTokens p ++ ["<"] ++ tyListTokens (a :: args) ++ [">"]
  | .reference lifetime mutable inner =>
    ["&"] ++ (lifetime.map fun l => "'" ++ l.written).toList
      ++ (if mutable then ["mut"] else []) ++ inner.tokens
  | .slice inner => ["["] ++ inner.tokens ++ ["]"]

/-- Tokens of types with commas between them. -/
def tyListTokens : List Ty → List String
  | [] => []
  | [t] => t.tokens
  | t :: u :: ts => t.tokens ++ [","] ++ tyListTokens (u :: ts)

end

/-- Tokens of an item in an attribute. -/
def MetaItem.tokens (m : MetaItem) : List String :=
  pathTokens m.path ++ (m.value.map fun s => "=" :: textTokens s).getD []

/-- Tokens of an attribute. Comments for readers are attributes too. -/
def Attribute.tokens (a : Attribute) : List String :=
  (if a.inner then ["#", "!"] else ["#"]) ++ ["["] ++ pathTokens a.path
    ++ (match a.form with
      | .value s => "=" :: textTokens s
      | .list items => ["("] ++ separated [","] (items.map MetaItem.tokens) ++ [")"])
    ++ ["]"]

mutual

/-- Tokens of an expression. -/
def Expr.tokens : Expr → List String
  | .path p => pathTokens p
  | .text s => textTokens s
  | .array items => ["["] ++ exprListTokens items ++ ["]"]
  | .reference mutable inner => ["&"] ++ (if mutable then ["mut"] else []) ++ inner.tokens
  | .field base name => base.tokens ++ ["."] ++ nameTokens name
  | .method base name args =>
    base.tokens ++ ["."] ++ nameTokens name ++ ["("] ++ exprListTokens args ++ [")"]
  | .orReturn inner => inner.tokens ++ ["?"]
  | .call function args => function.tokens ++ ["("] ++ exprListTokens args ++ [")"]
  | .record p fields => pathTokens p ++ ["\x7b"] ++ recordTokens fields ++ ["\x7d"]

/-- Tokens of expressions with commas between them. -/
def exprListTokens : List Expr → List String
  | [] => []
  | [e] => e.tokens
  | e :: f :: es => e.tokens ++ [","] ++ exprListTokens (f :: es)

/-- Tokens of fields with their values, each with a comma after it. -/
def recordTokens : List (Ident × Expr) → List String
  | [] => []
  | (name, e) :: fields => nameTokens name ++ [":"] ++ e.tokens ++ [","] ++ recordTokens fields

end

/-- Tokens of a statement. -/
def Stmt.tokens : Stmt → List String
  | .bind mutable name value =>
    ["let"] ++ (if mutable then ["mut"] else []) ++ nameTokens name ++ ["="] ++ value.tokens
      ++ [";"]
  | .assign left right => left.tokens ++ ["="] ++ right.tokens ++ [";"]

/-- Tokens of a block. -/
def Block.tokens (b : Block) : List String :=
  ["\x7b"] ++ b.statements.flatMap Stmt.tokens ++ (b.result.map Expr.tokens).getD [] ++ ["\x7d"]

/-- Tokens of a parameter. -/
def Param.tokens : Param → List String
  | .receiver mutable => ["&"] ++ (if mutable then ["mut"] else []) ++ ["self"]
  | .typed name type => nameTokens name ++ [":"] ++ type.tokens

/-- The tokens of a visibility. -/
def Visibility.tokens : Visibility → List String
  | .inherited => []
  | .everywhere => ["pub"]

/-- Tokens of a function. -/
def Function.tokens (f : Function) : List String :=
  f.attributes.flatMap Attribute.tokens ++ f.visibility.tokens ++ ["fn"] ++ nameTokens f.name
    ++ ["("] ++ separated [","] (f.params.map Param.tokens) ++ [")"]
    ++ (f.result.map fun t => "->" :: t.tokens).getD [] ++ f.body.tokens

/-- Tokens of a field of a struct, with the comma after it. -/
def Field.tokens (f : Field) : List String :=
  f.attributes.flatMap Attribute.tokens ++ f.visibility.tokens ++ nameTokens f.name ++ [":"]
    ++ f.type.tokens ++ [","]

/-- Tokens of a member of an implementation. -/
def Member.tokens : Member → List String
  | .constant name type value =>
    ["const"] ++ nameTokens name ++ [":"] ++ type.tokens ++ ["="] ++ value.tokens ++ [";"]
  | .synonym name type => ["type"] ++ nameTokens name ++ ["="] ++ type.tokens ++ [";"]
  | .function f => f.tokens

mutual

/-- Tokens of what is imported. -/
def UseTree.tokens : UseTree → List String
  | .step first rest => nameTokens first ++ ["::"] ++ rest.tokens
  | .name name => nameTokens name
  | .rename name new => nameTokens name ++ ["as"] ++ nameTokens new
  | .all => ["*"]
  | .group items => ["\x7b"] ++ useListTokens items ++ ["\x7d"]

/-- Tokens of imports with commas between them. -/
def useListTokens : List UseTree → List String
  | [] => []
  | [t] => t.tokens
  | t :: u :: ts => t.tokens ++ [","] ++ useListTokens (u :: ts)

end

mutual

/-- Tokens of an item. -/
def Item.tokens : Item → List String
  | .module attributes visibility name content =>
    attributes.flatMap Attribute.tokens ++ visibility.tokens ++ ["mod"] ++ nameTokens name
      ++ match content with
        | none => [";"]
        | some items => ["\x7b"] ++ itemListTokens items ++ ["\x7d"]
  | .use attributes visibility tree =>
    attributes.flatMap Attribute.tokens ++ visibility.tokens ++ ["use"] ++ tree.tokens ++ [";"]
  | .constant attributes visibility name type value =>
    attributes.flatMap Attribute.tokens ++ visibility.tokens
      ++ (Member.constant name type value).tokens
  | .synonym attributes visibility name type =>
    attributes.flatMap Attribute.tokens ++ visibility.tokens
      ++ (Member.synonym name type).tokens
  | .struct attributes visibility name fields =>
    attributes.flatMap Attribute.tokens ++ visibility.tokens ++ ["struct"] ++ nameTokens name
      ++ ["\x7b"] ++ fields.flatMap Field.tokens ++ ["\x7d"]
  | .implementation ofTrait target members =>
    ["impl"] ++ (ofTrait.map fun p => pathTokens p ++ ["for"]).getD [] ++ target.tokens
      ++ ["\x7b"] ++ members.flatMap Member.tokens ++ ["\x7d"]

/-- Tokens of items one after another. -/
def itemListTokens : List Item → List String
  | [] => []
  | i :: is => i.tokens ++ itemListTokens is

end

/-- The tokens of a file. -/
def File.tokens (f : File) : List String :=
  f.attributes.flatMap Attribute.tokens ++ f.items.flatMap Item.tokens

/-- How many groups are open after a token. -/
def depthAfter (depth : Nat) (token : String) : Nat :=
  if ["(", "[", "\x7b"].contains token then depth + 1
  else if [")", "]", "\x7d"].contains token then depth - 1
  else depth

/-- Cuts tokens into items: after a semicolon outside all groups, and after a closing brace that no
semicolon follows. The tokens of the item at hand are held backwards. -/
def cutItems (depth : Nat) (held : List String) : List String → List (List String)
  | [] => if held.isEmpty then [] else [held.reverse]
  | t :: ts =>
    let depth := depthAfter depth t
    let ends := depth = 0 ∧ (t = ";" ∨ (t = "\x7d" ∧ ts.head? ≠ some ";"))
    if ends then (t :: held).reverse :: cutItems depth [] ts else cutItems depth (t :: held) ts

/-- The items of a file, each as its tokens with blanks between them. -/
def File.itemTexts (f : File) : List String :=
  (cutItems 0 [] f.tokens).map (Text.join " ")

end ApiModels.Generated
