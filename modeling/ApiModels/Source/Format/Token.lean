import ApiModels.Source.Format.Basic

/-!
# Layouts of tokens

Tokens that have no form of their own are set as they come: those of attributes, where a list may be
broken in parentheses, and those that an invocation hands over, where a line may end wherever a
blank stands.
-/

namespace ApiModels.Source

open Doc (text gap blank outdent newline newlineIfFilled seam together filled lastComma textIf)

/-! ## Attributes -/

/-- What stands before a token of an attribute. -/
inductive Before where
  | word
  | mark
  | lastComma
deriving DecidableEq, Repr

/-- A mark, and what it is to what follows. `isLast` if nothing does. -/
def attributeMark (before : Before) (isLast : Bool) (c : Char) : Doc × Before :=
  if c = ',' ∧ isLast then (lastComma, .lastComma)
  else
    let around : Doc := if c = '=' then text " " else if c = ',' then blank else []
    (textIf (before = .word && c = '=') " " ++ text (String.ofList [c]) ++ around, .mark)

mutual

/-- A token of an attribute, and what it is to what follows. -/
def attributeToken (before : Before) (isLast : Bool) : Token → Doc × Before
  | .word w => ((if before = .word then blank else []) ++ Doc.name w, .word)
  | .literal l => ((if before = .word then blank else []) ++ text l.written, .word)
  | .lifetime w => (Doc.lifetime w, .word)
  | .mark c _ => attributeMark before isLast c
  | .group .paren content =>
    let (inner, after) := attributeTokens .mark content
    let end' := if after = .lastComma then [] else gap
    (text "(" ++ together indentWidth (gap ++ inner ++ end' ++ outdent) ++ text ")", .mark)
  | .group d content =>
    (text d.opening ++ (attributeTokens .mark content).1 ++ text d.closing, .mark)

/-- Tokens of an attribute, and what they are to what follows. -/
def attributeTokens (before : Before) : List Token → Doc × Before
  | [] => ([], before)
  | t :: ts =>
    let (first, after) := attributeToken before ts.isEmpty t
    let (rest, last) := attributeTokens after ts
    (first ++ rest, last)

end

/-! ## Invocations -/

/-- What has been read before a token of an invocation, as far as it matters for a blank. -/
inductive Context where
  | start
  | dollar
  | dollarName
  | dollarNameColon
  | dollarParen
  | dollarSeparator
  | hash
  | hashBang
  | dot
  | colon
  | colons
  | name
  | nameBang
  | group
  | other
deriving DecidableEq, Repr

/-- Keywords that keep their distance from brackets. -/
def distantKeywords : List String :=
  [ "as", "async", "await", "box", "break", "const", "continue", "crate", "dyn", "else", "enum",
    "extern", "fn", "for", "if", "impl", "in", "let", "loop", "macro", "match", "mod", "move",
    "mut", "pub", "ref", "return", "static", "struct", "trait", "type", "unsafe", "use", "where",
    "while", "yield" ]

/-- Whether a word keeps its distance from brackets. -/
def Ident.isDistant (i : Ident) : Bool := !i.raw && distantKeywords.contains i.text

/-- What a word is to what follows, and whether a blank belongs before it. -/
def wordContext (pattern : Bool) (w : Ident) : Context → Bool × Context
  | .dollar => (false, if pattern then .dollarName else .other)
  | .dollarNameColon => (false, .other)
  | .dollarParen => (false, .dollarSeparator)
  | c => if w.isDistant then (true, .other) else (c ≠ .dot && c ≠ .colons, .name)

/-- What brackets are to what follows, and whether a blank belongs before them. -/
def groupContext : Delimiter → Context → Bool × Context
  | .brace, _ => (true, .other)
  | .paren, .dollar => (false, .dollarParen)
  | .bracket, .hash | .bracket, .hashBang => (false, .other)
  | _, .name => (false, .group)
  | _, .nameBang => (false, .other)
  | _, _ => (true, .group)

/-- What a mark is to what follows, and whether a blank belongs before it, whatever stands there. -/
def plainMarkContext (pattern : Bool) (m : Char) (joint : Bool) (c : Context) : Bool × Context :=
  if m = ',' ∨ m = ';' then (false, .other)
  else if m = '.' ∧ !pattern then (c ≠ .name && c ≠ .group, .dot)
  else if m = ':' ∧ joint then (c ≠ .name, .colon)
  else if m = '$' then (true, .dollar)
  else if m = '#' then (true, .hash)
  else (true, .other)

/-- What a mark is to what follows, and whether a blank belongs before it. -/
def markContext (pattern : Bool) (m : Char) (joint : Bool) (c : Context) : Bool × Context :=
  let repeats := ['+', '*', '?'].contains m
  match c with
  | .dollarName =>
    if m = ':' ∧ !joint then (false, .dollarNameColon) else plainMarkContext pattern m joint c
  | .dollarParen =>
    if joint then (false, .dollarParen)
    else if repeats then (false, .other)
    else (false, .dollarSeparator)
  | .dollarSeparator =>
    if m = '+' ∨ m = '*' then (false, .other) else plainMarkContext pattern m joint c
  | .hash => if m = '!' then (false, .hashBang) else plainMarkContext pattern m joint c
  | .name =>
    if m = '!' ∧ !joint then (false, .nameBang) else plainMarkContext pattern m joint c
  | .colon => if m = ':' then (false, .colons) else plainMarkContext pattern m joint c
  | c => plainMarkContext pattern m joint c

/-- What a token is to what follows, and whether a blank belongs before it. A lifetime is a mark and
a word. -/
def Token.context (pattern : Bool) (c : Context) : Token → Bool × Context
  | .word w => wordContext pattern w c
  | .lifetime w =>
    let (distant, c) := markContext pattern '\'' true c
    (distant, (wordContext pattern w c).2)
  | .mark m joint => markContext pattern m joint c
  | .literal _ => if c = .dollarParen then (false, .dollarSeparator) else (c ≠ .dot, .name)
  | .group d _ => groupContext d c

/-- Whether the next token follows without a blank in any case. -/
def Token.isJoint : Token → Bool
  | .mark c joint => joint || c = '$'
  | _ => false

/-- The break before a token. -/
def Token.breakBefore (distant : Bool) : Token → Doc
  | .mark '.' _ => if distant then blank else gap
  | _ => if distant then blank else []

mutual

/-- A token that is handed over. -/
def macroToken (pattern : Bool) : Token → Doc
  | .word w => Doc.name w
  | .lifetime w => Doc.lifetime w
  | .mark c _ => text (String.ofList [c])
  | .literal l => text l.written
  | .group d content =>
    let around := if d = .brace ∧ !content.isEmpty then blank else []
    text d.opening ++ around ++ macroTokens pattern .start true content ++ around ++ text d.closing

/-- Tokens that are handed over, in the context of what stands before them; `joint` if the first
follows without a blank in any case. -/
def macroTokens (pattern : Bool) (c : Context) (joint : Bool) : List Token → Doc
  | [] => []
  | t :: ts =>
    let (distant, next) := t.context pattern c
    let before := if joint then [] else t.breakBefore distant
    before ++ macroToken pattern t ++ macroTokens pattern next t.isJoint ts

end

/-- Tokens that are handed over, from the first on. -/
def handedTokens (pattern : Bool) (ts : List Token) : Doc := macroTokens pattern .start true ts

/-- Tokens in brackets, on lines of their own if they do not fit. -/
def bracedTokens (line : Doc) (pattern : Bool) (ts : List Token) : Doc :=
  if ts.isEmpty then []
  else together indentWidth (line ++ filled 0 (handedTokens pattern ts) ++ line ++ outdent)

/-- The pattern of a rule. -/
def rulePattern (d : Delimiter) (content : List Token) : Doc :=
  text d.opening ++ bracedTokens gap true content ++ text d.closing

/-- The rules of an invocation that defines some. -/
def ruleLines : List Token → Doc
  | .group d p :: .mark '=' _ :: .mark '>' _ :: .group _ content :: rest =>
    rulePattern d p ++ text " =>" ++ text " \x7b" ++ seam ++ bracedTokens newline false content
      ++ text "\x7d;" ++ newline
      ++ match rest with
        | .mark ';' _ :: rest => ruleLines rest
        | _ => []
  | [.group d p, .mark '=' _, .mark '>' _] => rulePattern d p ++ text " =>" ++ newline
  | [.group d p, .mark '=' _] => rulePattern d p ++ text " =" ++ newline
  | [.group d p] => rulePattern d p ++ newline
  | _ => []

/-- An invocation. It may define rules under a name. -/
def Invocation.doc (i : Invocation) (name : Option Ident) (closed : Bool) : Doc :=
  match if i.path.isName "macro_rules" then name else none with
  | some name =>
    text "macro_rules! " ++ Doc.name name ++ text " \x7b"
      ++ together indentWidth (newlineIfFilled ++ ruleLines i.content ++ outdent) ++ text "\x7d"
  | none =>
    let line := if i.delimiter = .brace then newline else gap
    text (i.path.written ++ "!") ++ Doc.optional (fun n => text " " ++ Doc.name n) name
      ++ textIf (i.delimiter = .brace) " " ++ text i.delimiter.opening
      ++ bracedTokens line false i.content ++ text i.delimiter.closing ++ textIf closed ";"

end ApiModels.Source
