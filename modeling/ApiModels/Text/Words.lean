import ApiModels.Text.Alphanumeric
import ApiModels.Text.LetterCase

/-!
# Words of a name

A name is cut into words so that it can be written in another style: `hostIPC`, `host-ipc` and
`Host IPC` all hold the words *host* and *ipc*. Everything that is neither letter nor digit
separates words. Inside a run of letters and digits a word ends where a lower-case letter meets an
upper-case one, and before the last letter of a run of capitals that a lower-case letter follows
(`IPCMode` is *IPC*, *Mode*). Digits and letters without case go with what precedes them.
-/

namespace ApiModels.Text

/-- The last cased letter met in the current word. -/
inductive LetterMode where
  | start
  | lower
  | upper
deriving DecidableEq, Repr

/-- The mode after a character, if no word ends there. -/
def LetterMode.next (mode : LetterMode) (c : Char) : LetterMode :=
  if isLowercase c then .lower else if isUppercase c then .upper else mode

/-- Maximal runs of letters and digits. -/
def runs : List Char → List (List Char)
  | [] => []
  | c :: rest =>
    if isAlphanumeric c then
      match rest, runs rest with
      | d :: _, r :: rs => if isAlphanumeric d then (c :: r) :: rs else [c] :: r :: rs
      | _, rs => [c] :: rs
    else runs rest

/-- Cuts one run into words. `word` holds the current word backwards. -/
def cutRun : LetterMode → (word : List Char) → List Char → List (List Char)
  | _, _, [] => []
  | _, word, [c] => [(c :: word).reverse]
  | mode, word, c :: d :: rest =>
    if mode.next c = .lower ∧ isUppercase d then
      (c :: word).reverse :: cutRun .start [] (d :: rest)
    else if mode = .upper ∧ isUppercase c ∧ isLowercase d then
      word.reverse :: cutRun .start [c] (d :: rest)
    else cutRun (mode.next c) (c :: word) (d :: rest)

/-- The words of a name. -/
def words (s : List Char) : List (List Char) :=
  (runs s).flatMap (cutRun .start [])

/-- Lower case throughout. A sigma that ends the word takes its final form. -/
def lowerWord : List Char → List Char
  | [] => []
  | [c] => if c = 'Σ' then ['ς'] else lowerChar c
  | c :: rest => lowerChar c ++ lowerWord rest

/-- First letter in upper case, the rest in lower case. -/
def capitalWord : List Char → List Char
  | [] => []
  | c :: rest => upperChar c ++ lowerWord rest

/-- Lower-case words joined by underscores. -/
def snakeCase (s : String) : String :=
  String.ofList (['_'].intercalate ((words s.toList).map lowerWord))

/-- Capitalized words without separator. -/
def pascalCase (s : String) : String :=
  String.ofList ((words s.toList).flatMap capitalWord)

end ApiModels.Text
