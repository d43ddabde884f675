import ApiModels.Source.Token

/-!
# Looking ahead

What the next tokens are. A mark of several characters is next if they follow each other at once;
what comes behind its last one does not matter, so that the mark `=` is next where `==` is.
-/

namespace ApiModels.Source.Ahead

/-- Whether some marks in a row are next. -/
def areMarks : List Char → List Token → Bool
  | [], _ => true
  | [c], .mark d _ :: _ => c == d
  | c :: cs, .mark d joint :: ts => c == d && joint && areMarks cs ts
  | _ :: _, _ => false

/-- Whether a mark is next. -/
def isMark (m : String) (ts : List Token) : Bool := areMarks m.toList ts

/-- Whether one of several marks is next. -/
def isMarkOf (ms : List String) (ts : List Token) : Bool := ms.any fun m => isMark m ts

/-- Whether a colon is next that does not begin the mark of a path. -/
def isColon (ts : List Token) : Bool := isMark ":" ts && !isMark "::" ts

/-- Whether a dot is next that does not begin a range. -/
def isDot (ts : List Token) : Bool := isMark "." ts && !isMark ".." ts

/-- Whether an exclamation mark is next that is not half of a comparison. -/
def isBang (ts : List Token) : Bool := isMark "!" ts && !isMark "!=" ts

/-- Whether a bar is next that separates patterns. -/
def isBar (ts : List Token) : Bool := isMark "|" ts && !isMarkOf ["||", "|="] ts

/-- Whether an equals sign is next that assigns. -/
def isAssignment (ts : List Token) : Bool := isMark "=" ts && !isMark "=>" ts

/-- Whether a word is next, a name or a keyword. -/
def isAnyWord : List Token → Bool
  | .word _ :: _ => true
  | _ => false

/-- Whether a given word is next. -/
def isWord (s : String) : List Token → Bool
  | .word w :: _ => !w.raw && w.text == s
  | _ => false

/-- Whether one of several words is next. -/
def isWordOf (words : List String) (ts : List Token) : Bool := words.any fun s => isWord s ts

/-- Whether a word is next that is no keyword. -/
def isName : List Token → Bool
  | .word w :: _ => w.raw || !(keywords.contains w.text || unusable.contains w.text)
  | _ => false

/-- Whether a name is next, or the word that stands for none. -/
def isNameOrBlank (ts : List Token) : Bool := isName ts || isWord "_" ts

/-- Words that lead to a module. -/
def roots : List String := ["super", "self", "crate"]

/-- Whether something is next that a path of modules goes through. -/
def isStep (ts : List Token) : Bool := isName ts || isWordOf ("Self" :: roots) ts

/-- Whether the path of an item that is an invocation is next. -/
def isInvoked (ts : List Token) : Bool := isName ts || isWordOf roots ts || isMark "::" ts

/-- Whether a lifetime is next. -/
def isLifetime : List Token → Bool
  | .lifetime _ :: _ => true
  | _ => false

/-- Whether a literal is next. It may be a truth value or a number with a minus before it. -/
def isLiteral : List Token → Bool
  | .literal _ :: _ => true
  | .mark '-' _ :: .literal l :: _ => l.isNumber
  | ts => isWordOf ["true", "false"] ts

/-- Whether a text is next. -/
def isText : List Token → Bool
  | .literal l :: _ => l.kind == .text
  | _ => false

/-- Whether brackets are next. -/
def isGroup (d : Delimiter) : List Token → Bool
  | .group e _ :: _ => d == e
  | _ => false

/-- Whether brackets of any kind are next. -/
def isAnyGroup : List Token → Bool
  | .group .. :: _ => true
  | _ => false

/-- Whether another bound is next, behind a plus. -/
def isBound (ts : List Token) : Bool :=
  isAnyWord ts || isMarkOf ["::", "?"] ts || isLifetime ts || isGroup .paren ts

/-- Whether what follows an angle opens generic parameters and not a type. -/
def opensGenerics (ts : List Token) : Bool :=
  let ts₂ := ts.tail
  let ts₃ := ts₂.tail
  isMark "<" ts
    && (isMarkOf [">", "#"] ts₂ || isWord "const" ts₂
      || ((isLifetime ts₂ || isName ts₂) && (isMarkOf [">", ",", "="] ts₃ || isColon ts₃)))

/-- Whether the head of a function is next. -/
def opensFunction (ts : List Token) : Bool :=
  let skip (s : String) (ts : List Token) : List Token := if isWord s ts then ts.tail else ts
  let ts := skip "unsafe" (skip "async" (skip "const" ts))
  let ts := if isWord "extern" ts then (if isText ts.tail then ts.tail.tail else ts.tail) else ts
  isWord "fn" ts

/-- Whether an expression is next. -/
def opensExpr (ts : List Token) : Bool :=
  isAnyWord ts || isAnyGroup ts || isLiteral ts || isLifetime ts || isBang ts
    || (isMark "-" ts && !isMarkOf ["-=", "->"] ts)
    || (isMark "*" ts && !isMark "*=" ts)
    || (isMark "|" ts && !isMark "|=" ts)
    || (isMark "&" ts && !isMark "&=" ts)
    || (isMark "<" ts && !isMarkOf ["<=", "<<="] ts)
    || isMarkOf ["..", "::", "#"] ts

end ApiModels.Source.Ahead
