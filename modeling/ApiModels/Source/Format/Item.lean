import ApiModels.Source.Format.Expr

/-!
# Layouts of items

Items and members, each with the break behind it. What has a body takes lines of its own; what has
only fields by position stays on a line if it fits.
-/

namespace ApiModels.Source

open Doc

/-! ## Functions -/

/-- The head of a function. -/
def signatureDoc (l : Layouts) : Node → Doc
  | .signature words abi n generics params variadic result =>
    words.flatMap (fun w => text (w ++ " ")) ++ conventionDoc abi ++ text "fn " ++ name n
      ++ paramsDoc l generics ++ text "(" ++ seam ++ openListDoc l 0 params variadic ++ text ")"
      ++ together (-indentWidth) (resultDoc l result)
  | _ => []

/-- The conditions on the parameters of a function. -/
def Node.signatureGenerics : Node → Node
  | .signature _ _ _ g _ _ _ => g
  | n => n

/-- What something of its own lines holds, in braces. -/
def bracedItem (start : Doc) (content : Doc) : Doc :=
  together indentWidth (start ++ text "\x7b" ++ content) ++ text "\x7d" ++ newline

/-- A function. -/
def functionDoc (l : Layouts) (visibility : Visibility) (overridable : Bool) (head : Node)
    (body : Option Node) : Doc :=
  let start := visibility.doc ++ textIf overridable "default " ++ signatureDoc l head
  let generics := head.signatureGenerics
  match body with
  | some body => bracedItem (start ++ whereBody l generics) (bodyDoc l body)
  | none => together indentWidth (start ++ whereEnd l generics) ++ newline

/-- A parameter of a function that is no pattern with a type. -/
def inputDoc? (l : Layouts) : Node → Option Doc
  | .receiver reference mutable type =>
    let mark : Doc :=
      optional (fun n => text "&" ++ optional (fun n => Doc.lifetime n ++ text " ") n) reference
    some (mark ++ textIf mutable "mut " ++ text "self"
      ++ optional (fun t => text ": " ++ l.node t) type)
  | .variadic pattern =>
    some (optional (fun p => l.node p ++ text ": ") pattern ++ text "...")
  | _ => none

/-! ## Data -/

/-- Fields by position, without a group of their own. -/
def placedDoc (l : Layouts) (fields : List Node) : Doc :=
  text "(" ++ gap ++ listed lastComma (fields.map l.node) ++ outdent ++ text ")"

/-- Elements that have a line each. -/
def fieldLines (l : Layouts) (fields : List Node) : Doc :=
  Doc.lines (fields.map fun f => l.node f ++ text "," ++ newline)

/-- A struct. -/
def structDoc (l : Layouts) (start : Doc) (generics : Node) : Node → Doc
  | .namedFields fields => bracedItem (start ++ whereBody l generics) (fieldLines l fields)
  | .placedFields fields =>
    together indentWidth (start ++ placedDoc l fields ++ whereEnd l generics) ++ newline
  | _ => together indentWidth (start ++ whereEnd l generics) ++ newline

/-- The fields of a case. -/
def variantFields (l : Layouts) : Node → Doc
  | .namedFields fields =>
    text " \x7b"
      ++ together indentWidth (blank ++ listed lastCommaOrBlank (fields.map l.node) ++ outdent)
      ++ text "\x7d"
  | .placedFields fields => together indentWidth (placedDoc l fields)
  | _ => []

/-- Fields, cases and what declares them. -/
def dataDoc? (l : Layouts) : Node → Option Doc
  | .structItem visibility n generics fields =>
    let start := visibility.doc ++ text "struct " ++ name n ++ paramsDoc l generics
    some (structDoc l start generics fields)
  | .unionItem visibility n generics fields =>
    let start := visibility.doc ++ text "union " ++ name n ++ paramsDoc l generics
    some (bracedItem (start ++ whereBody l generics) (fieldLines l fields))
  | .enumItem visibility n generics variants =>
    let start := visibility.doc ++ text "enum " ++ name n ++ paramsDoc l generics
    some (bracedItem (start ++ whereBody l generics) (fieldLines l variants))
  | .variant n fields value =>
    some (name n ++ variantFields l fields
      ++ optional (fun e => text " = " ++ l.node e) value)
  | .field visibility n type =>
    some (visibility.doc ++ optional (fun n => name n ++ text ": ") n ++ l.node type)
  | _ => none

/-! ## Values and types -/

/-- A name with a type, and perhaps a value, behind words that declare it. -/
def valueItem (l : Layouts) (words : Doc) (n : Ident) (type : Node) (value : Option Node) : Doc :=
  together 0
      (words ++ name n ++ text ": " ++ l.node type
        ++ optional (fun e => text " = " ++ seam ++ l.node e) value ++ text ";")
    ++ newline

/-- The bounds of a type of a trait. -/
def memberBounds (l : Layouts) (bounds : List Node) : Doc :=
  if bounds.isEmpty then [] else text ": " ++ brokenSum (bounds.map l.node)

/-- A type behind an equals sign. -/
def definition (l : Layouts) (type : Node) : Doc :=
  text "= " ++ seam ++ filled (-indentWidth) (l.node type)

/-- Constants and types. -/
def namedDoc? (l : Layouts) : Node → Option Doc
  | .constItem visibility overridable n type value =>
    some (valueItem l (visibility.doc ++ textIf overridable "default " ++ text "const ") n type
      value)
  | .staticItem visibility mutable n type value =>
    some (valueItem l (visibility.doc ++ text "static " ++ textIf mutable "mut ") n type value)
  | .typeItem visibility n generics type =>
    some (together indentWidth
        (visibility.doc ++ text "type " ++ name n ++ paramsDoc l generics ++ whereLine l generics
          ++ definition l type ++ text ";")
      ++ newline)
  | .memberType visibility overridable n generics bounds default =>
    some (together indentWidth
        (visibility.doc ++ textIf overridable "default " ++ text "type " ++ name n
          ++ paramsDoc l generics ++ memberBounds l bounds
          ++ optional (fun t => text " " ++ definition l t) default ++ whereLineEnd l generics)
      ++ newline)
  | .foreignType visibility n generics =>
    some (together 0
        (visibility.doc ++ text "type " ++ name n ++ paramsDoc l generics ++ text ";")
      ++ newline)
  | _ => none

/-! ## Imports -/

namespace UseTree

/-- Whether an import ends with a group. -/
def endsWithGroup : UseTree → Bool
  | step _ rest => rest.endsWithGroup
  | group _ => true
  | _ => false

/-- Whether an import is of a name that keeps its braces when it is alone: that of the module
itself. -/
def keepsBraces : UseTree → Bool
  | name n | rename n _ => n == ⟨"self", false⟩
  | _ => false

mutual

/-- What an import brings in. Braces around a single import are left out, unless it stands for the
module itself. -/
def doc : UseTree → Doc
  | step first rest => text (first.written ++ "::") ++ rest.doc
  | name n => Doc.name n
  | rename n new => text (n.written ++ " as " ++ new.written)
  | all => text "*"
  | group [t] => if t.keepsBraces then text "\x7b" ++ t.doc ++ text "\x7d" else t.doc
  | group ts =>
    text "\x7b" ++ together indentWidth (gap ++ filled 0 (docs ts) ++ lastComma ++ outdent)
      ++ text "\x7d"

/-- Imports with commas between them. One that ends with a group also ends its line. -/
def docs : List UseTree → Doc
  | [] => []
  | [t] => t.doc
  | t :: u :: ts =>
    t.doc ++ text "," ++ (if t.endsWithGroup then newline else blank) ++ docs (u :: ts)

end

end UseTree

/-! ## Items -/

/-- A trait. -/
def traitDoc (l : Layouts) (start : Doc) (generics : Node) (bounds attributes items : List Node) :
    Doc :=
  let bounds := if bounds.isEmpty then [] else text ": " ++ sum (bounds.map l.node)
  bracedItem (start ++ bounds ++ whereBody l generics) (bodyLines l attributes items)

/-- An implementation. -/
def implDoc (l : Layouts) (words : Doc) (generics : Node) (negative : Bool)
    (ofTrait : Option Node) (target : Node) (attributes items : List Node) : Doc :=
  let traitPath (p : Node) := textIf negative "!" ++ pathDoc false l p ++ blank ++ text "for "
  let start := filled (-indentWidth)
    (together indentWidth (words ++ text "impl" ++ paramsDoc l generics) ++ text " "
      ++ optional traitPath ofTrait ++ l.node target)
  bracedItem (start ++ whereBody l generics) (bodyLines l attributes items)

/-- An item, or a member. -/
def itemDoc? (l : Layouts) : Node → Option Doc
  | .libraryItem visibility n rename =>
    some (visibility.doc ++ text "extern crate " ++ name n
      ++ optional (fun n => text " as " ++ name n) rename ++ text ";" ++ newline)
  | .functionItem visibility overridable head body =>
    some (functionDoc l visibility overridable head body)
  | .foreignItem unchecked abi attributes items =>
    some (bracedItem (textIf unchecked "unsafe " ++ conventionDoc (some abi))
      (bodyLines l attributes items))
  | .implItem overridable unchecked generics negative ofTrait target attributes items =>
    let words := textIf overridable "default " ++ textIf unchecked "unsafe "
    some (implDoc l words generics negative ofTrait target attributes items)
  | .invocationItem n i => some (i.doc n (i.delimiter != .brace) ++ newline)
  | .moduleItem visibility unchecked n =>
    some (together indentWidth
        (visibility.doc ++ textIf unchecked "unsafe " ++ text "mod " ++ name n ++ text ";")
      ++ newline)
  | .moduleBlock visibility unchecked n attributes items =>
    let start := visibility.doc ++ textIf unchecked "unsafe " ++ text "mod " ++ name n
    some (bracedItem (start ++ text " ")
      (bodyLines l attributes items))
  | .traitItem visibility words n generics bounds attributes items =>
    let start :=
      visibility.doc ++ words.flatMap (fun w => text (w ++ " ")) ++ text "trait " ++ name n
        ++ paramsDoc l generics
    some (traitDoc l start generics bounds attributes items)
  | .traitSynonym visibility n generics bounds =>
    some (together indentWidth
        (visibility.doc ++ text "trait " ++ name n ++ paramsDoc l generics ++ text " = " ++ seam
          ++ brokenSum (bounds.map l.node) ++ whereEnd l generics)
      ++ newline)
  | .useItem visibility rooted tree =>
    some (visibility.doc ++ text "use " ++ textIf rooted "::" ++ tree.doc ++ text ";" ++ newline)
  | _ => none

end ApiModels.Source
