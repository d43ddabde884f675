import ApiModels.Source.Format.Type

/-!
# Layouts of patterns

Patterns besides those that look like an expression.
-/

namespace ApiModels.Source

open Doc

/-- Whether a pattern is so short that several may share a line. -/
def Node.isTerse : Node → Bool
  | .literalExpr _ | .wildPattern => true
  | _ => false

/-- Elements in braces behind a path, with what stands for the others. -/
def recordLines (fields : List Doc) (rest : Option Doc) : Doc :=
  blankIfFilled ++ match rest with
    | none => listed lastCommaOrBlank fields
    | some r => fields.flatMap (· ++ text "," ++ blank) ++ r ++ blank

/-- A pattern. -/
def patternDoc? (l : Layouts) : Node → Option Doc
  | .identPattern byReference mutable n sub =>
    some (textIf byReference "ref " ++ textIf mutable "mut " ++ name n
      ++ optional (fun p => text " @ " ++ l.node p) sub)
  | .orPattern cases =>
    let content := separated (blank ++ text "| ") (cases.map l.node)
    some (if cases.all Node.isTerse then filled 0 content else together 0 content)
  | .parenPattern inner => some (text "(" ++ l.node inner ++ text ")")
  | .referencePattern mutable inner =>
    some (text "&" ++ textIf mutable "mut " ++ l.node inner)
  | .restPattern => some (text "..")
  | .slicePattern items => some (text "[" ++ listed lastComma (items.map l.node) ++ text "]")
  | .recordPattern path fields rest =>
    some (together indentWidth
        (pathDoc true l path ++ text " \x7b" ++ recordLines (fields.map l.node) (rest.map l.node)
          ++ outdent)
      ++ text "\x7d")
  | .fieldPattern member pattern =>
    some (optional (fun m => text (m ++ ": ")) member ++ l.node pattern)
  | .tuplePattern items closed =>
    let content : Doc :=
      match items with
      | [p] => together indentWidth (gap ++ l.node p ++ textIf closed "," ++ gap ++ outdent)
      | ps => bracketed (ps.map l.node)
    some (text "(" ++ content ++ text ")")
  | .callPattern path items =>
    some (pathDoc true l path ++ text "(" ++ bracketed (items.map l.node) ++ text ")")
  | .typedPattern pattern type => some (l.node pattern ++ text ": " ++ l.node type)
  | .wildPattern => some (text "_")
  | _ => none

end ApiModels.Source
