import ApiModels.Text.Pieces
import ApiModels.Text.Words

/-!
# Identifiers of the generated code

Every name a schema supplies has to become an identifier of Rust. What an identifier cannot hold
becomes an underscore; a keyword is written raw, with `r#` before it, except for the few that cannot
be raw, which get an underscore instead.
-/

namespace ApiModels.Source

/-- An identifier, and whether it is written raw. -/
structure Ident where
  text : String
  raw : Bool := false
deriving DecidableEq, Repr, Inhabited

/-- An identifier as it stands in the code. -/
def Ident.written (i : Ident) : String := if i.raw then "r#" ++ i.text else i.text

/-- Keywords that can be raw identifiers. -/
def keywords : List String :=
  [ "abstract", "as", "async", "await", "become", "box", "break", "const", "continue", "do", "dyn",
    "else", "enum", "extern", "false", "final", "fn", "for", "if", "impl", "in", "let", "loop",
    "macro", "match", "mod", "move", "mut", "override", "priv", "pub", "ref", "return", "static",
    "struct", "trait", "true", "try", "type", "typeof", "unsafe", "unsized", "use", "virtual",
    "where", "while", "yield" ]

/-- Names that are no identifiers, raw or not. -/
def unusable : List String := ["self", "Self", "super", "crate", "_"]

/-- Whether an identifier can hold a character. -/
def isIdentChar (c : Char) : Bool := c.isAlphanum || c = '_'

/-- The text with an underscore for everything that an identifier cannot hold. A leading digit gets
one before it, and an empty text is `unknown`. -/
def sanitize (s : String) : String :=
  match s.toList.map fun c => if isIdentChar c then c else '_' with
  | [] => "unknown"
  | c :: cs => if c.isDigit then String.ofList ('_' :: c :: cs) else String.ofList (c :: cs)

/-- The identifier of a name. -/
def Ident.ofName (s : String) : Ident :=
  let name := sanitize s
  if unusable.contains name then ⟨name ++ "_", false⟩ else ⟨name, keywords.contains name⟩

/-- The identifier of the module of a release or version, in lower case. -/
def Ident.ofModule (s : String) : Ident := .ofName s.toLower

/-- The stem of the file that holds the module of a release or version. -/
def fileStem (s : String) : String := (Ident.ofModule s).text

/-- The name of the field for a property. The references that schemas make to themselves have names
of their own; leading signs are dropped; extensions keep their opening, so that none meets an
ordinary property of the same ending. -/
def fieldName (wire : String) : String :=
  let snake :=
    if wire = "$ref" then "ref_path"
    else if wire = "$schema" then "schema"
    else
      let trimmed := Text.dropLeading ['-', '$'] wire
      match Text.dropStart? "x-kubernetes-" trimmed with
      | some rest => "x_kubernetes_" ++ Text.snakeCase rest
      | none => Text.snakeCase trimmed
  let name := sanitize snake
  if name = "unknown" || name.toList.all (· = '_') then "field" else name

/-- Drops underscores and raises the letter after each; `up` says whether the next letter rises. -/
def joinCapitals (up : Bool) : List Char → List Char
  | [] => []
  | c :: cs =>
    if c = '_' then joinCapitals true cs
    else (if up then c.toUpper else c) :: joinCapitals false cs

/-- The name on the wire that a field has unless it is renamed: underscores dropped, the letter
after each raised, the first one lowered. -/
def camelCase (field : String) : String :=
  match joinCapitals true field.toList with
  | [] => ""
  | c :: cs => String.ofList (c.toLower :: cs)

end ApiModels.Source
