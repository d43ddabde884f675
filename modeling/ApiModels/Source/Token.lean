import ApiModels.Source.Identifier
import ApiModels.Text.Hexadecimal
import ApiModels.Text.Quoted

/-!
# Tokens of source text

Words, lifetimes, marks and literals, with whatever stands between two brackets as one token. A
mark knows whether another one follows it at once, since together they can mean something else.
-/

namespace ApiModels.Source

/-- What a literal stands for. -/
inductive LiteralKind where
  | text
  /-- Text that is not of characters: bytes, or text of another library's kind. -/
  | rawText
  | char
  | byte
  | whole
  | real
  | bool
deriving DecidableEq, Repr, Inhabited

/-- A literal as written, with its value if it is a text. -/
structure Literal where
  written : String
  kind : LiteralKind
  value : Option String := none
deriving DecidableEq, Repr, Inhabited

/-- The escape of a NUL. The short one would run into an octal digit that follows. -/
def writtenNul : List Char → List Char
  | c :: _ => if '0' ≤ c ∧ c ≤ '7' then ['\\', 'x', '0', '0'] else ['\\', '0']
  | [] => ['\\', '0']

/-- Characters of a text literal. -/
def literalChars : List Char → List Char
  | [] => []
  | c :: cs => (if c = '\x00' then writtenNul cs else Text.quotedChar c) ++ literalChars cs

namespace Literal

/-- The literal of a text. -/
def ofText (s : String) : Literal :=
  ⟨String.ofList ('"' :: literalChars s.toList ++ ['"']), .text, some s⟩

/-- A literal that is a truth value. -/
def ofBool (word : String) : Literal := ⟨word, .bool, none⟩

/-- Whether a literal is short by nature: a number without a point, a character or a truth value. -/
def isPlain (l : Literal) : Bool :=
  match l.kind with
  | .char | .byte | .whole | .bool => true
  | .text | .rawText | .real => false

/-- Whether a literal is a number. -/
def isNumber (l : Literal) : Bool := l.kind == .whole || l.kind == .real

/-- A number with a minus before it. -/
def negated (l : Literal) : Literal := { l with written := "-" ++ l.written }

/-- The base of a whole number, and its digits with whatever stands between and behind them. -/
def digits (l : Literal) : Nat × List Char :=
  match l.written.toList with
  | '0' :: 'x' :: cs => (16, cs)
  | '0' :: 'o' :: cs => (8, cs)
  | '0' :: 'b' :: cs => (2, cs)
  | cs => (10, cs)

/-- A digit added to a number. -/
def withDigit (base : Nat) (value : Option Nat) (c : Char) : Option Nat := do
  let n ← value
  let d ← Text.hexValue? c
  if d < base then some (n * base + d) else none

/-- Numbers of fields are below this. -/
def fieldLimit : Nat := 0x100000000

/-- The number of a field, if a literal is one: a whole number without a suffix. -/
def index? (l : Literal) : Option String := do
  let (base, cs) := l.digits
  let n ← (cs.filter (· ≠ '_')).foldl (withDigit base) (some 0)
  if l.kind = .whole ∧ n < fieldLimit then some (toString n) else none

end Literal

/-- A pair of brackets. -/
inductive Delimiter where
  | paren
  | brace
  | bracket
deriving DecidableEq, Repr, Inhabited

namespace Delimiter

/-- The opening bracket. -/
def opening : Delimiter → String
  | paren => "("
  | brace => "\x7b"
  | bracket => "["

/-- The closing bracket. -/
def closing : Delimiter → String
  | paren => ")"
  | brace => "\x7d"
  | bracket => "]"

/-- The pair that a character opens. -/
def ofOpening? : Char → Option Delimiter
  | '(' => some paren
  | '\x7b' => some brace
  | '[' => some bracket
  | _ => none

/-- The pair that a character closes. -/
def ofClosing? : Char → Option Delimiter
  | ')' => some paren
  | '\x7d' => some brace
  | ']' => some bracket
  | _ => none

end Delimiter

/-- A token. -/
inductive Token where
  | word (name : Ident)
  | lifetime (name : Ident)
  /-- A mark, and whether another one follows it at once. -/
  | mark (c : Char) (joint : Bool)
  | literal (l : Literal)
  | group (d : Delimiter) (content : List Token)
deriving Repr, Inhabited

namespace Token

/-- A plain word. -/
def plain (text : String) : Token := .word ⟨text, false⟩

/-- A mark that stands alone. -/
def alone (c : Char) : Token := .mark c false

/-- The tokens of a documentation comment: the attribute it abbreviates. -/
def ofComment (inner : Bool) (text : String) : List Token :=
  (if inner then [alone '#', alone '!'] else [alone '#'])
    ++ [.group .bracket [plain "doc", alone '=', .literal (.ofText text)]]

mutual

/-- Number of tokens, those between brackets included. -/
def size : Token → Nat
  | .group _ content => sizeOfAll content + 1
  | .word _ | .lifetime _ | .mark _ _ | .literal _ => 1

/-- Number of tokens in a list. -/
def sizeOfAll : List Token → Nat
  | [] => 0
  | t :: ts => t.size + sizeOfAll ts

end

end Token

end ApiModels.Source
