import ApiModels.Source.Reading.Item
import ApiModels.Source.Scan

/-!
# Reading source text

The file that a text holds. Each form is read with readers for the forms inside it, which have less
fuel. A form takes a token before it reads another one of its own kind, so the number of tokens
bounds how deep forms nest; the few forms that hand all of their tokens on to another count twice.
-/

namespace ApiModels.Source

/-- Readers of forms that nest so deep at most. -/
def readers : Nat → Readers
  | 0 =>
    { type := fun _ => failure, bound := fun _ => failure, pattern := failure,
      expr := fun _ => failure, early := failure, operand := fun _ => failure,
      operators := fun _ _ _ => failure, statements := failure, item := failure }
  | n + 1 =>
    { type := fun plus => typeForm (readers n) plus
      bound := fun captures => bound (readers n) captures
      pattern := fun ts => patternForm (readers n) ts
      expr := fun records => exprForm (readers n) records
      early := fun ts => earlyForm (readers n) ts
      operand := fun records => operandForm (readers n) records
      operators := fun records least left => operatorsForm (readers n) records least left
      statements := fun ts => statementsForm (readers n) ts
      item := fun ts => itemForm (readers n) ts }

/-- Levels of forms for each token. -/
def levelsPerToken : Nat := 4

/-- The attributes and the items of a file. -/
def fileContent (r : Readers) : Reading (List Node × List Node) := do
  let attributes ← innerAttributes r
  return (attributes, ← Reading.all (behindAttributes r r.item))

/-- The file that some tokens make up. -/
def File.ofTokens? (ts : List Token) : Option File := do
  let size := Token.sizeOfAll ts + 1
  let ((attributes, items), _) ← (fileContent (readers (levelsPerToken * size))).run ts
  some { attributes, items, size }

/-- The file that a text holds. -/
def File.ofText? (s : String) : Option File := (Scan.tokens? s).bind File.ofTokens?

end ApiModels.Source
