import ApiModels.Json.Reader

/-!
# Integers or texts

A value that may be given either as an integer or as a text, such as a port or a percentage.
-/

namespace ApiModels

/-- An integer of 64 bits or a text. -/
inductive IntOrString where
  | int (i : Int)
  | string (s : String)
deriving DecidableEq, Repr

namespace IntOrString

/-- The value in words. -/
def text : IntOrString → String
  | int i => toString i
  | string s => s

/-- The value in JSON. -/
def toJson : IntOrString → Json
  | int i => .number (.int i)
  | string s => .string s

/-- Reads an integer, or else a text. -/
def reader : Json.Reader IntOrString :=
  Json.Reader.firstOf
    [ fun levels d => int <$> Json.Reader.int64 levels d,
      fun levels d => string <$> Json.Reader.text levels d ]

end IntOrString

end ApiModels
