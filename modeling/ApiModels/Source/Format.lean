import ApiModels.Source.Format.Item
import ApiModels.Source.Page

/-!
# Formatting

The layout of every form, and the text of a file. The layout of a form is made of those of the forms
inside it, which have less fuel; a file has enough for all of its forms, since each form that stands
for no token of its own stands in one that does.
-/

namespace ApiModels.Source

/-- The layout of a form that does not go on from what it begins with. -/
def formDoc (l : Layouts) (n : Node) : Doc :=
  (valueDoc? l n <|> controlDoc? l n <|> statementDoc? l n <|> typeDoc? l n <|> patternDoc? l n
    <|> itemDoc? l n <|> dataDoc? l n <|> namedDoc? l n <|> inputDoc? l n <|> argumentDoc? l n
    <|> paramDoc? l n <|> boundDoc? l n).getD []

/-- Layouts of forms that nest so deep at most. -/
def layouts : Nat → Layouts
  | 0 => { node := fun _ => [], start := fun _ => [], link := fun _ _ => [] }
  | n + 1 =>
    { node := fun e => (chainDoc? (layouts n) false e).getD (formDoc (layouts n) e)
      start := fun e => (chainDoc? (layouts n) true e).getD (formDoc (layouts n) e)
      link := fun first e => linkDoc (layouts n) first e }

/-- Levels of forms for each token. -/
def formsPerToken : Nat := 8

namespace File

/-- The layout of a file. -/
def doc (f : File) : Doc :=
  let l := layouts (formsPerToken * (f.size + 1))
  Doc.together 0 (attributesDoc l f.attributes ++ f.items.flatMap l.node)

/-- The text of a file. -/
def render (f : File) : String := f.doc.render

end File

end ApiModels.Source
