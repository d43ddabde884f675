import ApiModels.Json.Reader
import ApiModels.Table

/-!
# Tables in JSON

A table is written as an object with its keys in order. Reading takes any object; of several fields
with one name the last counts.
-/

namespace ApiModels.Json

/-- A table as an object. -/
def ofTable (f : α → Json) (t : Table α) : Json := .object (t.entries.map fun e => (e.1, f e.2))

/-- Reads an object as a table. -/
def Reader.table (r : Reader α) : Reader (Table α) := fun levels d =>
  Table.ofList <$> Reader.pairs r levels d

end ApiModels.Json
