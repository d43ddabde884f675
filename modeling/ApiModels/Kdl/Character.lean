/-!
# Character classes of KDL

What ends a line, what is blank within one, what may not stand in a document as it is, and what
words are made of.
-/

namespace ApiModels.Kdl

/-- Whether a character ends a line. -/
def isNewline (c : Char) : Bool :=
  ['\r', '\n', '\x0b', '\x0c', '\u0085', '\u2028', '\u2029'].contains c

/-- Whether a character is a blank within a line. -/
def isSpace (c : Char) : Bool :=
  ['\t', ' ', '\u00a0', '\u1680', '\u202f', '\u205f', '\u3000'].contains c
    || ('\u2000' ≤ c && c ≤ '\u200a')

/-- Whether a character may stand in a document only as an escape. -/
def isForbidden (c : Char) : Bool :=
  c ≤ '\x08' || ('\x0e' ≤ c && c ≤ '\x1f') || ('\u200e' ≤ c && c ≤ '\u200f')
    || ('\u202a' ≤ c && c ≤ '\u202e') || ('\u2066' ≤ c && c ≤ '\u2069') || c = '\ufeff'

/-- Whether a character can stand in a word. -/
def isWordChar (c : Char) : Bool :=
  !(isSpace c || isNewline c || isForbidden c || "\\/()\x7b\x7d;[]\"#=".toList.contains c)

end ApiModels.Kdl
