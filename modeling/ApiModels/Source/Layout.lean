/-!
# Layouts

Text that may be broken into lines, as a list of commands: write this, the line may end here, a
group begins, the group ends. A group that fits into what is left of its line is written flat, each
break as its blanks. In one that does not fit, either every break is taken, or each break only when
the text up to the next one would not fit.
-/

namespace ApiModels.Source

/-- Columns of a line. -/
def lineWidth : Int := 89

/-- Columns that a line has at least, however deep it is indented. -/
def leastWidth : Int := 60

/-- Columns of a level of indentation. -/
def indentWidth : Int := 4

/-- A width that no line has. A break this wide is always taken. -/
def forcedWidth : Nat := 0xffff

/-- Which breaks of a group are taken when it does not fit. -/
inductive BreakStyle where
  | all
  | asNeeded
deriving DecidableEq, Repr, Inhabited

/-- A place where a line may end. -/
structure Break where
  /-- Blanks that stand for it when it is not taken. -/
  blanks : Nat := 0
  /-- Columns by which the next line departs from the indentation of the group. -/
  offset : Int := 0
  /-- What ends the line when it is taken. -/
  before : String := ""
  /-- What begins the next line when it is taken. -/
  after : String := ""
  /-- What stands for it when it is not taken, besides the blanks. -/
  flat : String := ""
  /-- Whether it vanishes at the end of a group. -/
  ifFilled : Bool := false
  /-- Whether it only separates and is never taken. -/
  never : Bool := false
deriving DecidableEq, Repr, Inhabited

/-- A step of writing. -/
inductive Command where
  | text (s : String)
  | line (b : Break)
  /-- Begins a group, whose lines are indented by an offset. -/
  | opening (offset : Int) (style : BreakStyle)
  | closing
  /-- Ends a group. One that is wider than so many columns does not fit. -/
  | closingWithin (most : Int)
  /-- Moves the line after the last break. -/
  | shift (offset : Int)
deriving DecidableEq, Repr, Inhabited

/-- A layout. -/
abbrev Doc := List Command

namespace Doc

/-- Text without a break. -/
def text (s : String) : Doc := if s.isEmpty then [] else [.text s]

/-- A break that writes a blank when it is not taken. -/
def blank : Doc := [.line { blanks := 1 }]

/-- A break that writes nothing when it is not taken. -/
def gap : Doc := [.line {}]

/-- A break that is never taken. -/
def seam : Doc := [.line { never := true }]

/-- A break that is always taken. -/
def newline : Doc := [.line { blanks := forcedWidth }]

/-- A break that is taken unless it would end an empty group. -/
def newlineIfFilled : Doc := [.line { blanks := forcedWidth, ifFilled := true }]

/-- A blank, unless it would end an empty group. -/
def blankIfFilled : Doc := [.line { blanks := 1, ifFilled := true }]

/-- A break behind the last element of a list: a comma stands at the end of a line only. -/
def lastComma : Doc := [.line { before := "," }]

/-- A break behind the last element of a list whose brackets have blanks inside. -/
def lastCommaOrBlank : Doc := [.line { blanks := 1, before := "," }]

/-- Moves the line after the last break out by a level. -/
def outdent : Doc := [.shift (-indentWidth)]

/-- A group whose breaks are taken together. -/
def together (offset : Int) (d : Doc) : Doc := .opening offset .all :: d ++ [.closing]

/-- A group whose breaks are taken one by one. -/
def filled (offset : Int) (d : Doc) : Doc := .opening offset .asNeeded :: d ++ [.closing]

/-- Layouts with something between them. -/
def separated (between : Doc) : List Doc → Doc
  | [] => []
  | [d] => d
  | d :: ds => d ++ between ++ separated between ds

/-- Layouts with commas and breaks between them. -/
def commas (ds : List Doc) : Doc := separated (text "," ++ blank) ds

/-- Layouts with commas between them and a break behind the last. -/
def listed (last : Doc) (ds : List Doc) : Doc := if ds.isEmpty then [] else commas ds ++ last

/-- What stands between two brackets, one element a line if they do not fit on one. -/
def bracketed (ds : List Doc) : Doc :=
  together indentWidth (gap ++ listed lastComma ds ++ outdent)

/-- The same for a tuple, whose only element has a comma behind it. -/
def tupled : List Doc → Doc
  | [d] => together indentWidth (gap ++ d ++ text "," ++ gap ++ outdent)
  | ds => bracketed ds

end Doc

end ApiModels.Source
