/-!
# Numbered names

Where a name is taken, a numbered one steps in: `name`, `name_2`, `name_3`, and so on to the first
that is free. Among more candidates than there are taken names one must be free, so the search is
bounded.
-/

namespace ApiModels.Text

/-- The candidates for a name, in order. -/
def numbered (base : String) : Nat → String
  | 0 => base
  | n + 1 => base ++ "_" ++ toString (n + 2)

/-- The first of the candidates that is not taken, among the first `bound + 1`. -/
def firstFree (taken : α → Bool) (candidate : Nat → α) (bound : Nat) : α :=
  candidate (((List.range (bound + 1)).find? fun i => !taken (candidate i)).getD (bound + 1))

end ApiModels.Text
