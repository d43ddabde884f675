import ApiModels.Json.Value
import ApiModels.Text.Quoted

/-!
# Printing JSON

Two layouts of one value: compact, without any blank, and indented by two spaces a level with one
item a line. Text is written raw except for quotes, backslashes and controls.
-/

namespace ApiModels.Json

/-- One character of a string. -/
def stringChar (c : Char) : List Char :=
  if c = '"' then ['\\', '"']
  else if c = '\\' then ['\\', '\\']
  else if c = '\n' then ['\\', 'n']
  else if c = '\r' then ['\\', 'r']
  else if c = '\t' then ['\\', 't']
  else if c = '\x08' then ['\\', 'b']
  else if c = '\x0c' then ['\\', 'f']
  else if c.toNat < 32 then
    let ds := Text.hexDigits c.toNat
    ['\\', 'u'] ++ List.replicate (4 - ds.length) '0' ++ ds
  else [c]

/-- A string between its quotes. -/
def stringChars (s : String) : List Char := '"' :: s.toList.flatMap stringChar ++ ['"']

/-- A number. -/
def Number.chars : Number → List Char
  | .int i => (toString i).toList
  | .real bits => ApiModels.Number.text bits

mutual

/-- The compact text of a value. -/
def chars : Json → List Char
  | .null => "null".toList
  | .bool true => "true".toList
  | .bool false => "false".toList
  | .number n => n.chars
  | .string s => stringChars s
  | .array items => '[' :: (itemChars items ++ [']'])
  | .object fields => '\x7b' :: (fieldChars fields ++ ['\x7d'])

/-- Items with commas between them. -/
def itemChars : List Json → List Char
  | [] => []
  | [v] => chars v
  | v :: w :: items => chars v ++ ',' :: itemChars (w :: items)

/-- Fields with commas between them. -/
def fieldChars : List (String × Json) → List Char
  | [] => []
  | [(name, v)] => stringChars name ++ ':' :: chars v
  | (name, v) :: f :: fields =>
    stringChars name ++ ':' :: (chars v ++ ',' :: fieldChars (f :: fields))

end

/-- The compact text of a value. -/
def compact (v : Json) : String := String.ofList v.chars

/-- A new line at a level of nesting. -/
def newLine (level : Nat) : List Char := '\n' :: List.replicate (2 * level) ' '

mutual

/-- The indented text of a value that stands at a level of nesting. -/
def prettyChars (level : Nat) : Json → List Char
  | .null => "null".toList
  | .bool true => "true".toList
  | .bool false => "false".toList
  | .number n => n.chars
  | .string s => stringChars s
  | .array [] => "[]".toList
  | .array (v :: items) =>
    '[' :: (newLine (level + 1) ++ prettyItems (level + 1) (v :: items) ++ newLine level ++ [']'])
  | .object [] => ['\x7b', '\x7d']
  | .object (f :: fields) =>
    '\x7b' :: (newLine (level + 1) ++ prettyFields (level + 1) (f :: fields) ++ newLine level
      ++ ['\x7d'])

/-- Items on lines of their own. -/
def prettyItems (level : Nat) : List Json → List Char
  | [] => []
  | [v] => prettyChars level v
  | v :: w :: items =>
    prettyChars level v ++ ',' :: (newLine level ++ prettyItems level (w :: items))

/-- Fields on lines of their own. -/
def prettyFields (level : Nat) : List (String × Json) → List Char
  | [] => []
  | [(name, v)] => stringChars name ++ ':' :: ' ' :: prettyChars level v
  | (name, v) :: f :: fields =>
    stringChars name ++ ':' :: ' ' :: (prettyChars level v ++ ',' :: (newLine level
      ++ prettyFields level (f :: fields)))

end

/-- The indented text of a value. -/
def pretty (v : Json) : String := String.ofList (v.prettyChars 0)

end ApiModels.Json
