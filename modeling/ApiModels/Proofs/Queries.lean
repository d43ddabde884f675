import ApiModels.Proofs.PercentDecoding

/-!
# Queries of calls

A query is filled in step by step, for a value that may be absent or for several values at once, and
written behind the path when the call is sent. Whoever reads the target of the request has the path
before the first question mark, and the pairs behind it as they were put in.
-/

namespace ApiModels.Call

open Text

/-- A step that adds to a query. -/
inductive QueryStep where
  /-- A pair if there is a value. -/
  | one (name : String) (value : Option String)
  /-- A pair for each value. -/
  | all (name : String) (values : List String)

/-- A call after a step. -/
def QueryStep.apply (c : Call) : QueryStep → Call
  | one name value => c.queryParam name value
  | all name values => c.queryAll name values

/-- The pairs that a step adds. -/
def QueryStep.pairs : QueryStep → List (String × String)
  | one _ none => []
  | one name (some value) => [(name, value)]
  | all name values => values.map fun v => (name, v)

/-- The path of a target and the pairs of its query: what comes before the first question mark, and
what is read behind it. A target without a question mark has no pairs. -/
def readTarget? (target : String) : Option (String × List (String × String)) :=
  match splitFirst? '?' target with
  | some (path, query) => do return (path, ← pairsDecode? query)
  | none => some (target, [])

/-! ## Filling in -/

variable {c : Call}

/-- A step adds its pairs. -/
theorem query_apply (c : Call) (step : QueryStep) :
    (step.apply c).query = c.query ++ step.pairs := by
  cases step with
  | one name value => cases value <;> rfl
  | all name values => rfl

theorem path_apply (c : Call) (step : QueryStep) : (step.apply c).path = c.path := by
  cases step <;> rfl

/-- The pairs of each step stand behind those of the steps before it. -/
theorem query_foldl (c : Call) (steps : List QueryStep) :
    (steps.foldl QueryStep.apply c).query = c.query ++ steps.flatMap QueryStep.pairs := by
  induction steps generalizing c with
  | nil => exact (List.append_nil _).symm
  | cons step steps ih =>
    rw [List.foldl_cons, ih, query_apply, List.flatMap_cons, List.append_assoc]

theorem path_foldl (c : Call) (steps : List QueryStep) :
    (steps.foldl QueryStep.apply c).path = c.path := by
  induction steps generalizing c with
  | nil => rfl
  | cons step steps ih => rw [List.foldl_cons, ih, path_apply]

/-! ## Reading -/

theorem pathAndQuery_of_query (h : c.query = []) : c.pathAndQuery = c.path := by
  unfold pathAndQuery
  rw [h]
  rfl

theorem pathAndQuery_of_ne (h : c.query ≠ []) :
    c.pathAndQuery = c.path ++ String.singleton '?' ++ encodePairs c.query := by
  unfold pathAndQuery
  rw [if_neg (by simpa using h)]
  rfl

/-- The target of a call is read back. A question mark in a name or a value is behind the one that
is looked for. -/
theorem readTarget?_pathAndQuery (h : '?' ∉ c.path.toList) :
    readTarget? c.pathAndQuery = some (c.path, c.query) := by
  unfold readTarget?
  by_cases hquery : c.query = []
  · rw [pathAndQuery_of_query hquery, splitFirst?_eq_none h, hquery]
  · rw [pathAndQuery_of_ne hquery, splitFirst?_append h]
    dsimp only
    rw [pairsDecode?_encodePairs hquery]
    rfl

/--
**What was put into a query is what is read.**

Whatever the names and the values are, the target of a call whose path has no question mark is read
as that path and exactly the pairs that were put in, in their order: a value that is absent adds
none, and a name that is repeated stays as often as it was. Without pairs the target is the path
alone, and with pairs it has a question mark behind the path.
-/
theorem readTarget?_of_steps (c : Call) (steps : List QueryStep) (hpath : '?' ∉ c.path.toList) :
    let sent := steps.foldl QueryStep.apply c
    let pairs := c.query ++ steps.flatMap QueryStep.pairs
    readTarget? sent.pathAndQuery = some (c.path, pairs)
      ∧ (pairs = [] → sent.pathAndQuery = c.path)
      ∧ (pairs ≠ [] → ∃ query, splitFirst? '?' sent.pathAndQuery = some (c.path, query)
        ∧ pairsDecode? query = some pairs) := by
  intro sent pairs
  have hsent : sent.path = c.path := path_foldl c steps
  have hquery : sent.query = pairs := query_foldl c steps
  rw [← hsent] at hpath ⊢
  rw [← hquery]
  refine ⟨readTarget?_pathAndQuery hpath, pathAndQuery_of_query, fun hne => ?_⟩
  refine ⟨encodePairs sent.query, ?_, pairsDecode?_encodePairs hne⟩
  rw [pathAndQuery_of_ne hne]
  exact splitFirst?_append hpath _

/-- Marks of the query inside of names and values, an absent value, an empty pair, and a name that
comes twice. -/
theorem readTarget?_of_steps_pods :
    let c := Call.new .get "/api/v1/pods"
    let steps : List QueryStep :=
      [.one "labelSelector" (some "app=web&x"), .one "limit" none, .all "" [""],
        .all "field+name" ["50%", "¿qué? #1"]]
    '?' ∉ c.path.toList
      ∧ readTarget? (steps.foldl QueryStep.apply c).pathAndQuery
        = some ("/api/v1/pods", [("labelSelector", "app=web&x"), ("", ""), ("field+name", "50%"),
          ("field+name", "¿qué? #1")]) := by
  intro c steps
  have hpath : '?' ∉ c.path.toList := by decide
  exact ⟨hpath, (readTarget?_of_steps c steps hpath).1⟩

end ApiModels.Call
