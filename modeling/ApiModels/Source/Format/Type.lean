import ApiModels.Source.Format.Attribute

/-!
# Layouts of types

Paths with their arguments, types, generic parameters and the conditions on them. Lifetimes come
before all other arguments and parameters. A segment has no brackets for no arguments.
-/

namespace ApiModels.Source

open Doc

/-! ## Paths -/

/-- Elements of which lifetimes come first. -/
def lifetimesFirst (isLifetime : Node → Bool) (ns : List Node) : List Node :=
  ns.filter isLifetime ++ ns.filter fun n => !isLifetime n

/-- Whether an argument is a lifetime. -/
def Node.isLifetimeArgument : Node → Bool
  | .lifetime _ => true
  | _ => false

/-- Arguments in angles. In an expression `::` comes before them. -/
def angledDoc (inExpr : Bool) (l : Layouts) (arguments : List Node) : Doc :=
  if arguments.isEmpty then []
  else
    textIf inExpr "::" ++ text "<"
      ++ bracketed ((lifetimesFirst Node.isLifetimeArgument arguments).map l.node) ++ text ">"

/-- What a function results in. -/
def resultDoc (l : Layouts) (result : Option Node) : Doc :=
  optional (fun t => text " -> " ++ l.node t) result

/-- A segment of a path. -/
def segmentDoc (inExpr : Bool) (l : Layouts) : Node → Doc
  | .segment n (some (.angled arguments)) => name n ++ angledDoc inExpr l arguments
  | .segment n (some (.parenthesized inputs result)) =>
    name n ++ together indentWidth
      (text "(" ++ gap ++ listed lastComma (inputs.map l.node) ++ outdent ++ text ")"
        ++ resultDoc l result)
  | .segment n _ => name n
  | _ => []

/-- Segments with `::` between them. -/
def segmentsDoc (inExpr rooted : Bool) (l : Layouts) (segments : List Node) : Doc :=
  textIf rooted "::" ++ separated (text "::") (segments.map (segmentDoc inExpr l))

/-- A path. -/
def pathDoc (inExpr : Bool) (l : Layouts) : Node → Doc
  | .path none _ rooted segments => segmentsDoc inExpr rooted l segments
  | .path (some self) position rooted segments =>
    let ofTrait : Doc :=
      if position = 0 then []
      else text " as " ++ segmentsDoc false rooted l (segments.take position)
    text "<" ++ l.node self ++ ofTrait ++ text ">"
      ++ (segments.drop position).flatMap fun s => text "::" ++ segmentDoc inExpr l s
  | _ => []

/-- An argument in angles that is no type. -/
def argumentDoc? (l : Layouts) : Node → Option Doc
  | .lifetime n => some (Doc.lifetime n)
  | .constArgument value =>
    match value with
    | .literalExpr _ | .blockExpr .. => some (l.node value)
    | _ => some (text "\x7b" ++ l.node value ++ text "\x7d")
  | .binding n arguments value =>
    some (name n ++ angledDoc false l arguments ++ text " = " ++ l.node value)
  | .constraint n arguments bounds =>
    let bounds :=
      if bounds.isEmpty then [] else text ": " ++ brokenSum (bounds.map l.node)
    some (name n ++ angledDoc false l arguments ++ filled indentWidth bounds)
  | _ => none

/-! ## Generic parameters -/

/-- What a type or a bound binds, if anything. -/
def binderDoc (l : Layouts) : Option Node → Doc
  | some (.binder params) =>
    text "for<" ++ separated (text ", ") (params.map l.node) ++ text "> "
  | _ => []

/-- A bound. -/
def boundDoc? (l : Layouts) : Node → Option Doc
  | .traitBound enclosed maybe binder path =>
    some (textIf enclosed "(" ++ binderDoc l binder ++ textIf maybe "?" ++ pathDoc false l path
      ++ textIf enclosed ")")
  | .captureBound names => some (text ("use<" ++ Text.join ", " names ++ ">"))
  | _ => none

/-- A generic parameter. -/
def paramDoc? (l : Layouts) : Node → Option Doc
  | .lifetimeParam n bounds =>
    let bounds := if bounds.isEmpty then [] else text ": " ++ sum (bounds.map Doc.lifetime)
    some (Doc.lifetime n ++ bounds)
  | .typeParam n bounds default =>
    let bounds := if bounds.isEmpty then [] else text ": " ++ brokenSum (bounds.map l.node)
    some (name n ++ filled indentWidth
      (bounds ++ optional (fun t => blank ++ text "= " ++ l.node t) default))
  | .constParam n type default =>
    some (text "const " ++ name n ++ text ": " ++ l.node type
      ++ optional (fun v => text " = " ++ l.node v) default)
  | _ => none

/-- Whether a parameter is a lifetime. -/
def Node.isLifetimeParam (n : Node) : Bool :=
  match n.bare with
  | .lifetimeParam .. => true
  | _ => false

/-- The parameters of a declaration. -/
def paramsDoc (l : Layouts) : Node → Doc
  | .generics params _ =>
    if params.isEmpty then []
    else
      let params := lifetimesFirst Node.isLifetimeParam params
      text "<" ++ together 0 (gap ++ listed lastComma (params.map l.node) ++ outdent) ++ text ">"
  | _ => []

/-! ## Conditions -/

/-- A condition. -/
def predicateDoc (l : Layouts) : Node → Doc
  | .lifetimePredicate n bounds =>
    let bounds := if bounds.isEmpty then [] else text " " ++ brokenSum (bounds.map Doc.lifetime)
    Doc.lifetime n ++ text ":" ++ filled indentWidth bounds
  | .typePredicate binder type bounds =>
    let offset := if bounds.length = 1 then 0 else indentWidth
    let bounds := if bounds.isEmpty then [] else text " " ++ brokenSum (bounds.map l.node)
    binderDoc l binder ++ l.node type ++ text ":" ++ filled offset bounds
  | _ => []

/-- The conditions of a declaration, which are none if it has no clause for them. -/
def Node.predicates : Node → List Node
  | .generics _ predicates => predicates
  | _ => []

/-- Conditions before a body: each on a line of its own. -/
def whereBody (l : Layouts) (generics : Node) : Doc :=
  match generics.predicates with
  | [] => text " "
  | ps =>
    newline ++ outdent ++ text "where" ++ newline
      ++ ps.flatMap (fun p => predicateDoc l p ++ text "," ++ newline) ++ outdent

/-- Conditions and the semicolon behind them: each on a line of its own. -/
def whereEnd (l : Layouts) (generics : Node) : Doc :=
  match generics.predicates with
  | [] => text ";"
  | ps =>
    newline ++ outdent ++ text "where" ++ newline
      ++ separated (text "," ++ newline) (ps.map (predicateDoc l)) ++ text ";"

/-- Conditions before a definition, on one line if they fit. -/
def whereLine (l : Layouts) (generics : Node) : Doc :=
  match generics.predicates with
  | [] => text " "
  | ps =>
    blank ++ outdent ++ text "where" ++ blank ++ commas (ps.map (predicateDoc l))
      ++ lastCommaOrBlank ++ outdent

/-- Conditions and the semicolon behind them, on one line if they fit. -/
def whereLineEnd (l : Layouts) (generics : Node) : Doc :=
  match generics.predicates with
  | [] => text ";"
  | ps =>
    blank ++ outdent ++ text "where" ++ blank ++ commas (ps.map (predicateDoc l)) ++ text ";"

/-! ## Types -/

/-- The calling convention of a function. -/
def conventionDoc (abi : Option (Option Literal)) : Doc :=
  optional (fun named => text "extern " ++ optional (fun l => text (l.written ++ " ")) named) abi

/-- Elements in parentheses, of which there may be more at the end. -/
def openListDoc (l : Layouts) (offset : Int) (items : List Node) (variadic : Option Node) : Doc :=
  let content : Doc :=
    match variadic with
    | none => listed lastComma (items.map l.node)
    | some v => items.flatMap (fun i => l.node i ++ text "," ++ blank) ++ l.node v ++ gap
  together offset (gap ++ content ++ outdent)

/-- The type of a function. -/
def functionTypeDoc (l : Layouts) (binder : Option Node) (unchecked : Bool)
    (abi : Option (Option Literal)) (params : List Node) (variadic result : Option Node) : Doc :=
  binderDoc l binder ++ textIf unchecked "unsafe " ++ conventionDoc abi ++ text "fn("
    ++ openListDoc l indentWidth params variadic ++ text ")" ++ resultDoc l result

/-- A type. -/
def typeDoc? (l : Layouts) : Node → Option Doc
  | .arrayType item length =>
    some (text "[" ++ l.node item ++ text "; " ++ l.node length ++ text "]")
  | .functionType binder unchecked abi params variadic result =>
    some (functionTypeDoc l binder unchecked abi params variadic result)
  | .bareParam n type =>
    let type : Doc := match type with
      | some t => l.node t
      | none => text "..."
    some (optional (fun n => name n ++ text ": ") n ++ type)
  | .implType bounds => some (text "impl " ++ sum (bounds.map l.node))
  | .inferType => some (text "_")
  | .neverType => some (text "!")
  | .invocationType i => some (i.doc none false)
  | .parenType inner => some (text "(" ++ l.node inner ++ text ")")
  | .pathType path => some (pathDoc false l path)
  | .pointerType mutable inner =>
    some (text (if mutable then "*mut " else "*const ") ++ l.node inner)
  | .referenceType n mutable inner =>
    some (text "&" ++ optional (fun n => Doc.lifetime n ++ text " ") n ++ textIf mutable "mut "
      ++ l.node inner)
  | .sliceType inner => some (text "[" ++ l.node inner ++ text "]")
  | .objectType bounds => some (text "dyn " ++ sum (bounds.map l.node))
  | .tupleType items => some (text "(" ++ tupled (items.map l.node) ++ text ")")
  | _ => none

end ApiModels.Source
