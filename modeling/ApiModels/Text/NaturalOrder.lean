import ApiModels.Text.Pieces

/-!
# Natural order of labels

Labels such as `rel_1_9` and `rel_1_10` compare run by run: a run of digits by its value, any
other run by its characters. A run of digits too long for a 64-bit word has no value and compares
by its characters as well. If one label is an opening of the other, the shorter comes first.
-/

namespace ApiModels.Text

/-- Maximal runs of digits and of characters that are no digits. -/
def digitRuns (s : List Char) : List (List Char) :=
  s.splitBy fun a b => a.isDigit == b.isDigit

/-- Value of a run of digits, if it has one. -/
def runValue? (run : List Char) : Option Nat :=
  if !run.isEmpty && run.all Char.isDigit && digitsValue run < UInt64.size then
    some (digitsValue run)
  else none

/-- Order of two runs. -/
def compareRuns (a b : List Char) : Ordering :=
  match runValue? a, runValue? b with
  | some m, some n => compare m n
  | _, _ => compare (String.ofList a) (String.ofList b)

/-- Order of two lists of runs: the first difference decides, then the number of runs. -/
def compareRunLists : List (List Char) → List (List Char) → Ordering
  | [], [] => .eq
  | [], _ :: _ => .lt
  | _ :: _, [] => .gt
  | a :: as, b :: bs => (compareRuns a b).then (compareRunLists as bs)

/-- Order of two labels. -/
def naturalOrder (a b : String) : Ordering :=
  compareRunLists (digitRuns a.toList) (digitRuns b.toList)

/-- Puts a label into a list kept largest first, before the first label it does not precede. -/
def insertNatural (label : String) : List String → List String
  | [] => [label]
  | l :: ls =>
    if naturalOrder label l = .lt then l :: insertNatural label ls else label :: l :: ls

/-- Labels in natural order, by insertion from the end; equal ones keep their places. -/
def naturalSort (labels : List String) : List String :=
  (labels.foldl (fun sorted label => insertNatural label sorted) []).reverse

/-- The last of the labels that no other exceeds. -/
def naturalMax? : List String → Option String
  | [] => none
  | label :: labels =>
    some (labels.foldl (fun best l => if naturalOrder best l = .gt then best else l) label)

end ApiModels.Text
