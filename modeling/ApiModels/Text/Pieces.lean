import ApiModels.Text.Alphanumeric

/-!
# Cutting and joining text

The few ways in which names, paths and documents are taken apart: at a separator, before an
optional opening, before an optional ending. Each works on characters and has a form on strings,
so that a proof can follow the list and a caller need not see it.
-/

namespace ApiModels.Text

/-- The texts between separators; a text without one is a single piece. -/
def pieces (sep : Char) : List Char → List (List Char)
  | [] => [[]]
  | c :: rest =>
    if c = sep then [] :: pieces sep rest
    else match pieces sep rest with
      | [] => [[c]]
      | p :: ps => (c :: p) :: ps

/-- `pieces` on strings. -/
def split (sep : Char) (s : String) : List String :=
  (pieces sep s.toList).map String.ofList

/-- What follows `start`, if the text opens with it. -/
def afterStart? : (start text : List Char) → Option (List Char)
  | [], text => some text
  | _ :: _, [] => none
  | s :: start, c :: text => if s = c then afterStart? start text else none

/-- `afterStart?` on strings. -/
def dropStart? (start text : String) : Option String :=
  (afterStart? start.toList text.toList).map String.ofList

/-- What comes before `ending`, if the text closes with it. -/
def dropEnd? (ending text : String) : Option String :=
  (afterStart? ending.toList.reverse text.toList.reverse).map fun cs => String.ofList cs.reverse

/-- What follows `start`, or the whole text if it does not open with it. -/
def dropStart (start text : String) : String :=
  (dropStart? start text).getD text

/-- The text without the characters it opens with that are among `cs`. -/
def dropLeading (cs : List Char) (text : String) : String :=
  String.ofList (text.toList.dropWhile cs.contains)

/-- The parts before and after the last separator. -/
def splitLast? (sep : Char) (text : String) : Option (String × String) :=
  match (pieces sep text.toList).reverse with
  | last :: (p :: ps) =>
    some (String.ofList ([sep].intercalate (p :: ps).reverse), String.ofList last)
  | _ => none

/-- The parts before and after the first separator. -/
def splitFirst? (sep : Char) (text : String) : Option (String × String) :=
  match text.toList.dropWhile (· ≠ sep) with
  | [] => none
  | _ :: after => some (String.ofList (text.toList.takeWhile (· ≠ sep)), String.ofList after)

/-- Every occurrence of `old`, found from the left without overlap, becomes `new`. An empty `old`
occurs nowhere. -/
def replaceAux (old new : List Char) : Nat → List Char → List Char
  | _, [] => []
  | 0, text => text
  | fuel + 1, c :: text =>
    match old with
    | [] => c :: text
    | _ :: _ =>
      match afterStart? old (c :: text) with
      | some rest => new ++ replaceAux old new fuel rest
      | none => c :: replaceAux old new fuel text

/-- Every occurrence of `old` becomes `new`. -/
def replace (old new text : String) : String :=
  String.ofList (replaceAux old.toList new.toList text.length text.toList)

/-- Whether `part` occurs in the text. -/
def occurs (part : List Char) : List Char → Bool
  | [] => part.isEmpty
  | c :: text => (afterStart? part (c :: text)).isSome || occurs part text

/-- Whether `part` occurs in the text. -/
def contains (part text : String) : Bool := occurs part.toList text.toList

/-- The text without blanks at either end. -/
def trim (s : String) : String :=
  String.ofList ((s.toList.dropWhile isBlank).reverse.dropWhile isBlank).reverse

/-- A line without the carriage return that may end it. -/
def dropReturn (line : List Char) : List Char :=
  if line.getLast? = some '\r' then line.dropLast else line

/-- The lines of a text. A line ends with a newline, before which a carriage return may stand, or
with the text; nothing after a last newline is no line. -/
def lines (s : String) : List String :=
  let ps := pieces '\n' s.toList
  let ended := ps.dropLast.map dropReturn
  let all := match ps.getLast? with
    | none | some [] => ended
    | some last => ended ++ [last]
  all.map String.ofList

/-- Value of a run of decimal digits. -/
def digitsValue (cs : List Char) : Nat :=
  cs.foldl (fun n c => 10 * n + (c.toNat - '0'.toNat)) 0

/-- The texts joined with a separator between neighbours. -/
def join (sep : String) (parts : List String) : String := sep.intercalate parts

end ApiModels.Text
