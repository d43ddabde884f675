import ApiModels.Source.Format.Pattern

/-!
# Layouts of expressions

A chain of accesses breaks before every dot, except behind a short name that begins a line. A list
that does not fit has an element on each line, and only plain literals fill lines. The value of an
arm or of a closure gets brackets when it takes lines of its own.
-/

namespace ApiModels.Source

open Doc

/-! ## Kinds of expressions -/

/-- Operators that change their left side. -/
def changingOperators : List String :=
  ["+=", "-=", "*=", "/=", "%=", "^=", "&=", "|=", "<<=", ">>="]

namespace Node

/-- Whether a chain may go on behind an expression that begins a line without a break: a name no
wider than a level of indentation. -/
def isShortName : Node → Bool
  | pathExpr p => p.name?.any fun i => (i.written.utf8ByteSize : Int) ≤ indentWidth
  | _ => false

/-- Whether an expression brings brackets that it can be broken at. -/
def isBracketed : Node → Bool
  | arrayExpr _ | blockExpr .. | closureExpr .. | recordExpr .. | tupleExpr _ => true
  | _ => false

/-- Whether the value of a closure stands by itself, without braces. -/
def standsAlone : Node → Bool
  | callExpr .. | matchExpr .. => true
  | n => n.isBracketed

/-- Whether an expression is a literal that is short by nature. -/
def isPlainLiteral : Node → Bool
  | literalExpr l => l.isPlain
  | _ => false

/-- Whether an expression ends an arm without a comma. -/
def endsArm (n : Node) : Bool :=
  match n.bare with
  | blockExpr (.awaited _) .. => false
  | blockExpr .. | forExpr .. | ifExpr .. | loopExpr .. | matchExpr .. | whileExpr .. => true
  | _ => false

/-- Whether an expression that ends a block gets a semicolon, since its value is of no use. -/
def getsSemicolon (n : Node) : Bool :=
  match n.bare with
  | assignExpr .. | breakExpr .. | continueExpr _ | returnExpr _ | yieldExpr _ => true
  | binaryExpr operator _ _ => changingOperators.contains operator
  | _ => false

/-- Whether an expression loses its semicolon, since it ends a statement without one. -/
def losesSemicolon : Node → Bool
  | attributed _ inner => inner.losesSemicolon
  | forExpr .. | whileExpr .. | ifExpr _ _ none => true
  | ifExpr _ _ (some otherwise) => otherwise.losesSemicolon
  | _ => false

/-- Whether an expression that is broken needs a new line before the brace that follows it. -/
def breaksBefore : Node → Bool
  | attributed _ inner => inner.breaksBefore
  | assignExpr .. | awaitExpr _ | binaryExpr .. | castExpr .. | fieldExpr .. | indexExpr ..
  | methodExpr .. => true
  | breakExpr _ (some e) | callExpr e _ | letExpr _ e | parenExpr e | rangeExpr _ _ (some e)
  | rawAddressExpr _ e | referenceExpr _ e | returnExpr (some e) | tryExpr e | unaryExpr _ e
  | yieldExpr (some e) => e.breaksBefore
  | _ => false

/-- Whether an expression means the same as a statement: one that begins with a form in braces would
end there. -/
def isStatement : Node → Bool
  | attributed _ inner => inner.isStatement
  | assignExpr e _ | awaitExpr e | fieldExpr e _ | methodExpr e _ _ _ | tryExpr e => e.isStatement
  | binaryExpr _ e _ | callExpr e _ | castExpr e _ | indexExpr e _ | rangeExpr (some e) _ _ =>
    !e.endsArm && e.isStatement
  | _ => true

end Node

/-! ## Blocks -/

/-- A block that may stay on a line with a single expression. -/
def blockDoc (l : Layouts) : Node → Doc
  | .block attributes statements =>
    let content : Doc :=
      match statements with
      | [.exprStmt e false] => filled 0 (l.start e) ++ blank
      | ss => ss.flatMap l.node
    if attributes.isEmpty && statements.isEmpty then text "\x7b\x7d"
    else
      text "\x7b" ++ blank ++ attributesDoc l attributes ++ content ++ outdent ++ text "\x7d"
  | _ => []

/-- The parts of a body that takes lines of its own. -/
def bodyDoc (l : Layouts) : Node → Doc
  | .block attributes statements => bodyLines l attributes statements
  | _ => []

/-- What stands before a block. -/
def BlockKind.doc : BlockKind → Doc
  | .plain => []
  | .awaited moving => text "async " ++ textIf moving "move "
  | .constant => text "const "
  | .fallible => text "try "
  | .unchecked => text "unsafe "

/-- A subject before a brace. -/
def subjectDoc (l : Layouts) (e : Node) : Doc :=
  together 0 (l.node e ++ if e.breaksBefore then blank else text " ")

/-- A subject and a body in braces. -/
def subjectBody (l : Layouts) (subject : Node) (content : Doc) : Doc :=
  subjectDoc l subject ++ text "\x7b" ++ seam ++ together indentWidth content ++ text "\x7d"

/-! ## Chains -/

/-- The break before a dot. -/
def dotBreak (first : Bool) (base : Node) : Doc := if first && base.isShortName then [] else gap

/-- Arguments of a call. One that is alone and brings brackets needs no group of its own. -/
def argumentsDoc (l : Layouts) (arguments : List Node) : Doc :=
  let inner :=
    match arguments with
    | [a] => if a.isBracketed then l.node a else bracketed [l.node a]
    | _ => bracketed (arguments.map l.node)
  text "(" ++ inner ++ text ")"

/-- A method with its arguments, which stand further out by an offset. -/
def methodDoc (l : Layouts) (offset : Int) (n : Ident) (generics arguments : List Node) : Doc :=
  text "." ++ name n ++ angledDoc true l generics ++ together offset (argumentsDoc l arguments)

/-- An expression as a link of a chain, whose group it shares. -/
def linkDoc (l : Layouts) (first : Bool) : Node → Doc
  | .awaitExpr base => l.link first base ++ dotBreak first base ++ text ".await"
  | .callExpr function arguments => l.link false function ++ argumentsDoc l arguments
  | .fieldExpr base member => l.link first base ++ dotBreak first base ++ text ("." ++ member)
  | .indexExpr base index => l.link first base ++ text "[" ++ l.node index ++ text "]"
  | .methodExpr base n generics arguments =>
    l.link first base ++ dotBreak first base ++ methodDoc l 0 n generics arguments
  | .tryExpr inner => l.link first inner ++ text "?"
  | n => together (-indentWidth) (l.node n)

/-- An expression that goes on from what it begins with. -/
def chainDoc? (l : Layouts) (first : Bool) : Node → Option Doc
  | .awaitExpr base =>
    some (together indentWidth (l.link first base ++ dotBreak first base ++ text ".await"))
  | .fieldExpr base member =>
    some (together indentWidth
      (l.link first base ++ dotBreak first base ++ text ("." ++ member)))
  | .indexExpr base index =>
    some ((if first then l.start base else l.node base) ++ text "[" ++ l.node index ++ text "]")
  | .methodExpr base n generics arguments =>
    let offset := if first && base.isShortName then -indentWidth else 0
    some (together indentWidth
      (l.link first base ++ dotBreak first base ++ methodDoc l offset n generics arguments))
  | .tryExpr inner => some ((if first then l.start inner else l.node inner) ++ text "?")
  | .attributed attributes inner =>
    some (attributesDoc l attributes ++ if first then l.start inner else l.node inner)
  | _ => none

/-! ## Lists, records and closures -/

/-- The items of an array. -/
def arrayDoc (l : Layouts) (items : List Node) : Doc :=
  if items.isEmpty then text "[]"
  else if items.all Node.isPlainLiteral then
    together indentWidth
      (text "[" ++ gap ++ filled 0 (commas (items.map l.node)) ++ lastComma ++ outdent ++ text "]")
  else text "[" ++ bracketed (items.map l.node) ++ text "]"

/-- The most columns that a record takes on one line. -/
def recordWidth : Int := 34

/-- A record. -/
def recordDoc (l : Layouts) (path : Node) (fields : List Node) (rest : Option Node) : Doc :=
  .opening indentWidth .all
    :: filled (-indentWidth) (pathDoc true l path) ++ text " \x7b"
    ++ recordLines (fields.map l.node) (rest.map fun e => text ".." ++ l.node e) ++ outdent
    ++ [.closingWithin recordWidth] ++ text "\x7d"

/-- A break that begins with a bracket when it is taken. -/
def openingBreak (bracket : String) : Doc := [.line { before := bracket }]

/-- A break that ends with a bracket when it is taken. What stands between them is a statement if it
means the same as one. -/
def closingBreak (e : Node) (bracket flat : String) : Doc :=
  let last := if e.isStatement && e.getsSemicolon then ";" else ""
  [.line { offset := -indentWidth, before := last, after := bracket, flat }]

/-- The value of a closure. -/
def closureValue (l : Layouts) (e : Node) : Doc :=
  if e.standsAlone then l.node e
  else
    let (opening, closing) := if e.isStatement then ("\x7b", "\x7d") else ("(", ")")
    together indentWidth (openingBreak opening ++ l.node e ++ closingBreak e closing "")

/-- A closure. -/
def closureDoc (l : Layouts) (binder : Option Node) (words : List String) (inputs : List Node)
    (result : Option Node) (body : Node) : Doc :=
  let start : Doc := if inputs.isEmpty then [] else gap
  let content : Doc :=
    match result with
    | none =>
      together indentWidth
          (text "|" ++ start ++ commas (inputs.map l.node) ++ text "|" ++ blank ++ outdent)
        ++ seam ++ closureValue l body
    | some type =>
      let last : Doc := if inputs.isEmpty then [] else lastComma ++ outdent
      together indentWidth (text "|" ++ start ++ commas (inputs.map l.node) ++ last ++ text "|")
        ++ text " -> " ++ l.node type ++ text " " ++ seam ++ l.node body
  filled 0 (binderDoc l binder ++ words.flatMap (fun w => text (w ++ " ")) ++ content)

/-! ## Control -/

/-- What is done otherwise. -/
def otherwiseDoc (l : Layouts) : Node → Doc
  | .ifExpr condition body otherwise =>
    text " else if " ++ together (-indentWidth) (subjectDoc l condition) ++ blockDoc l body
      ++ match otherwise with
        | some e => otherwiseDoc l e
        | none => []
  | .blockExpr _ _ body => text " else " ++ blockDoc l body
  | _ => []

/-- An expression that decides. -/
def ifDoc (l : Layouts) (condition body : Node) (otherwise : Option Node) : Doc :=
  let branches : Doc :=
    match otherwise, body with
    | some e, _ => blockDoc l body ++ otherwiseDoc l e
    | none, .block _ [] => text "\x7b\x7d"
    | none, .block _ statements =>
      text "\x7b" ++ newline ++ statements.flatMap l.node ++ outdent ++ text "\x7d"
    | none, _ => []
  together indentWidth
    (text "if " ++ together (-indentWidth) (subjectDoc l condition) ++ branches)

/-- The value of an arm without braces that only hold it. -/
def Node.unwrapped : Node → Node
  | .blockExpr .plain none (.block [] [.exprStmt inner false]) => inner.unwrapped
  | .tupleExpr [] => .blockExpr .plain none (.block [] [])
  | n => n

/-- The value of an arm. -/
def armValue (l : Layouts) (e : Node) : Doc :=
  match e.bare with
  | .blockExpr .plain label body =>
    optional Doc.label label ++ text "\x7b" ++ seam ++ together indentWidth (bodyDoc l body)
      ++ text "\x7d"
  | _ =>
    let (opening, closing) := if e.isStatement then ("\x7b", "\x7d") else ("(", "),")
    seam ++ together indentWidth
      (openingBreak opening ++ l.start e ++ closingBreak e closing (if e.endsArm then "" else ","))

/-- An arm. -/
def armDoc (l : Layouts) (pattern : Node) (guard : Option Node) (value : Node) : Doc :=
  filled 0
    (l.node pattern ++ optional (fun g => text " if " ++ l.node g) guard ++ text " => "
      ++ armValue l value.unwrapped)

/-- An expression that decides, repeats or leaves. -/
def controlDoc? (l : Layouts) : Node → Option Doc
  | .blockExpr kind label body =>
    some (optional Doc.label label ++ kind.doc ++ together indentWidth (blockDoc l body))
  | .breakExpr label value =>
    some (text "break" ++ optional (fun n => text " " ++ Doc.lifetime n) label
      ++ optional (fun e => text " " ++ l.node e) value)
  | .continueExpr label =>
    some (text "continue" ++ optional (fun n => text " " ++ Doc.lifetime n) label)
  | .forExpr label pattern subject body =>
    some (filled 0
      (optional Doc.label label ++ text "for " ++ l.node pattern ++ text " in " ++ seam
        ++ subjectBody l subject (bodyDoc l body)))
  | .ifExpr condition body otherwise => some (ifDoc l condition body otherwise)
  | .loopExpr label body =>
    some (optional Doc.label label ++ text "loop \x7b" ++ together indentWidth (bodyDoc l body)
      ++ text "\x7d")
  | .matchExpr subject attributes arms =>
    let lines := Doc.lines
      (attributesDoc l attributes :: arms.map fun a => l.node a ++ newline)
    some (filled 0 (text "match " ++ subjectBody l subject lines))
  | .arm pattern guard value => some (armDoc l pattern guard value)
  | .returnExpr value => some (text "return" ++ optional (fun e => text " " ++ l.node e) value)
  | .whileExpr label condition body =>
    some (optional Doc.label label ++ text "while "
      ++ subjectBody l condition (bodyDoc l body))
  | .yieldExpr value => some (text "yield" ++ optional (fun e => text " " ++ l.node e) value)
  | _ => none

/-! ## Expressions -/

/-- A left side that a line may end behind. -/
def leftDoc (l : Layouts) (left : Node) (right : Doc) : Doc :=
  filled indentWidth (filled (-indentWidth) (l.node left) ++ blank ++ right)

/-- An expression that neither decides nor repeats nor goes on from what it begins with. -/
def valueDoc? (l : Layouts) : Node → Option Doc
  | .arrayExpr items => some (arrayDoc l items)
  | .assignExpr left right =>
    some (filled 0 (l.node left ++ text " = " ++ seam ++ l.node right))
  | .binaryExpr operator left right =>
    some (leftDoc l left (text (operator ++ " ") ++ l.node right))
  | .callExpr function arguments => some (l.node function ++ argumentsDoc l arguments)
  | .castExpr value type => some (leftDoc l value (text "as " ++ l.node type))
  | .closureExpr binder words inputs result body =>
    some (closureDoc l binder words inputs result body)
  | .inferExpr => some (text "_")
  | .invocationExpr i => some (i.doc none false)
  | .letExpr pattern value =>
    some (filled 0
      (text "let " ++ filled 0 (l.node pattern) ++ text " = " ++ seam ++ l.node value))
  | .literalExpr v => some (text v.written)
  | .parenExpr inner => some (text "(" ++ l.node inner ++ text ")")
  | .pathExpr path => some (pathDoc true l path)
  | .rangeExpr first closed last =>
    some (optional l.node first ++ text (if closed then "..=" else "..") ++ optional l.node last)
  | .rawAddressExpr mutable inner =>
    some (text (if mutable then "&raw mut " else "&raw const ") ++ l.node inner)
  | .referenceExpr mutable inner => some (text "&" ++ textIf mutable "mut " ++ l.node inner)
  | .repeatExpr item length =>
    some (text "[" ++ l.node item ++ text "; " ++ l.node length ++ text "]")
  | .recordExpr path fields rest => some (recordDoc l path fields rest)
  | .fieldValue member value =>
    some (text member ++ optional (fun e => text ": " ++ filled 0 (l.node e)) value)
  | .tupleExpr items => some (text "(" ++ tupled (items.map l.node) ++ text ")")
  | .unaryExpr operator inner => some (text operator ++ l.node inner)
  | _ => none

/-! ## Statements -/

/-- A statement that binds. -/
def letDoc (l : Layouts) (pattern : Node) (value otherwise : Option Node) : Doc :=
  let start : Doc :=
    text "let " ++ l.node pattern ++ optional (fun e => text " = " ++ seam ++ l.node e) value
  let content : Doc :=
    match otherwise with
    | none => filled 0 start
    | some body =>
      filled 0 (start ++ blank ++ text "else ") ++ seam ++ together indentWidth (blockDoc l body)
  content ++ text ";" ++ newline

/-- A statement that is no item, with the break behind it. -/
def statementDoc? (l : Layouts) : Node → Option Doc
  | .letStmt pattern value otherwise => some (letDoc l pattern value otherwise)
  | .exprStmt value closed =>
    let ended := if closed then !value.losesSemicolon else value.getsSemicolon
    some (filled 0 (l.start value ++ textIf ended ";") ++ newline)
  | .invocationStmt i closed => some (i.doc none closed ++ newline)
  | .emptyStmt => some []
  | _ => none

end ApiModels.Source
