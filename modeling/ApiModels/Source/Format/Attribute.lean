import ApiModels.Source.Format.Token

/-!
# Layouts of attributes

Documentation and remarks are set as comments where a comment can say the same: on one line, or
between marks that nest. Any other attribute is set in brackets.
-/

namespace ApiModels.Source

open Doc (text blank newline)

/-! ## Comments -/

/-- Whether a text can stand between the marks of a block comment: every mark that it opens it also
closes. -/
def nestsWell : Nat → List Char → Bool
  | depth, '/' :: '*' :: cs => nestsWell (depth + 1) cs
  | depth, '*' :: '/' :: cs => depth != 0 && nestsWell (depth - 1) cs
  | depth, _ :: cs => nestsWell depth cs
  | depth, [] => depth == 0

/-- Whether a text can be a block comment. -/
def isBlockComment (cs : List Char) : Bool := nestsWell 0 cs && cs.getLast? != some '/'

/-- A line without the spaces that end it. -/
def withoutTrailing (s : String) : String :=
  String.ofList (s.toList.reverse.dropWhile (· = ' ')).reverse

/-- A text without the spaces that end its lines, but for the last. -/
def withoutInnerTrailing (s : String) : String :=
  match (Text.split '\n' s).reverse with
  | [] => s
  | last :: others => Text.join "\n" ((others.map withoutTrailing).reverse ++ [last])

/-- The marks of a kind of comment: of one on a line, and before and behind a block. A text that
begins with one of the given characters would be another kind. -/
structure CommentStyle where
  line : String
  opening : String
  notLine : List Char
  notBlock : List Char

/-- Documentation of what follows. -/
def CommentStyle.outer : CommentStyle := ⟨"///", "/**", ['/'], ['*', '/']⟩

/-- Documentation of what a comment stands in. -/
def CommentStyle.inner : CommentStyle := ⟨"//!", "/*!", [], []⟩

/-- A remark. -/
def CommentStyle.remark : CommentStyle := ⟨"//", "/*", [], ['*', '!']⟩

/-- The comment that says a text, if there is one. -/
def CommentStyle.comment? (style : CommentStyle) (s : String) : Option String :=
  let cs := s.toList
  let begins (opening : List Char) : Bool := cs.head?.any fun c => opening.contains c
  if !cs.contains '\n' && !begins style.notLine then some (style.line ++ withoutTrailing s)
  else if isBlockComment cs && !begins style.notBlock then
    some (style.opening ++ withoutInnerTrailing s ++ "*/")
  else none

/-- The comment that stands for an attribute, if there is one. -/
def Node.comment? : Node → Option String
  | .attr inner p none (some (.literalExpr l)) => do
    let s ← l.value
    if p.isName "doc" then
      (if inner then CommentStyle.inner else CommentStyle.outer).comment? s
    else if p.isName "comment" then CommentStyle.remark.comment? s
    else none
  | _ => none

/-! ## Attributes -/

/-- What an attribute says. -/
def attributeText (l : Layouts) : Node → Doc
  | .attr _ path list value =>
    text path.written
      ++ Doc.optional (fun p => (attributeToken .word true (.group p.1 p.2)).1) list
      ++ Doc.optional (fun v => text " = " ++ l.node v) value
  | _ => []

/-- Whether an attribute is of what it stands in. -/
def Node.isInner : Node → Bool
  | .attr inner .. => inner
  | _ => false

/-- An attribute, with the break behind it. -/
def attributeDoc (l : Layouts) (a : Node) : Doc :=
  match a.comment? with
  | some comment => text comment ++ newline
  | none =>
    text (if a.isInner then "#![" else "#[") ++ attributeText l a ++ text "]" ++ blank

/-- Attributes, with the breaks behind them. -/
def attributesDoc (l : Layouts) (attributes : List Node) : Doc :=
  attributes.flatMap (attributeDoc l)

/-- The attributes and the parts of a body, each of which ends with a break. -/
def bodyLines (l : Layouts) (attributes parts : List Node) : Doc :=
  Doc.lines [attributesDoc l attributes, parts.flatMap l.node]

end ApiModels.Source
