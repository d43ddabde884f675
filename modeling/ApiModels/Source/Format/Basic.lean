import ApiModels.Source.Layout
import ApiModels.Source.Syntax

/-!
# Layouts of forms

What the layouts of all forms share: the layouts of the forms inside them, names, and bodies in
braces.
-/

namespace ApiModels.Source

open Doc (text gap blank outdent newline newlineIfFilled together filled)

/-- Layouts of forms that other forms are made of. -/
structure Layouts where
  /-- A form by itself. -/
  node : Node → Doc
  /-- An expression that begins a line. -/
  start : Node → Doc
  /-- An expression as a link of a chain, whose group it shares; `first` if the chain begins a
  line. -/
  link : (first : Bool) → Node → Doc

namespace Doc

/-- Text if something holds. -/
def textIf (b : Bool) (s : String) : Doc := if b then text s else []

/-- The layout of something that may be absent. -/
def optional (f : α → Doc) : Option α → Doc
  | some a => f a
  | none => []

/-- A name. -/
def name (i : Ident) : Doc := text i.written

/-- A lifetime. -/
def lifetime (i : Ident) : Doc := text ("'" ++ i.written)

/-- A label before what it labels. -/
def label (i : Ident) : Doc := lifetime i ++ text ": "

/-- Layouts with a plus between them. -/
def sum (ds : List Doc) : Doc := separated (text " + ") ds

/-- Layouts with a plus between them, before which a line may end. -/
def brokenSum (ds : List Doc) : Doc := separated (blank ++ text "+ ") ds

/-- Content that takes lines of its own inside braces. Each part ends with a break. -/
def lines (ds : List Doc) : Doc := newlineIfFilled ++ ds.flatten ++ outdent

end Doc

/-- Where a form can be reached from, before the form. -/
def Visibility.doc : Visibility → Doc
  | .inherited => []
  | .everywhere => text "pub "
  | .within path =>
    let short := ["self", "super", "crate"].any path.isName
    text ("pub(" ++ (if short then "" else "in ") ++ path.written ++ ") ")

end ApiModels.Source
