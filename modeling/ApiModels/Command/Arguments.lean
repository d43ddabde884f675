import ApiModels.Text.Pieces

/-!
# Arguments

A command is given options and operands. An option is written by its name (`--name value`,
`--name=value`) or by its letter (`-n value`, `-nvalue`, `-n=value`); letters of options without a
value can share a dash. After `--` there are only operands. Arguments are read from left to right
until the first that is wrong, or that asks for help or the version.
-/

namespace ApiModels.Command

/-- What follows an option. -/
inductive Expects where
  | nothing
  | text
  /-- A text that is not empty. -/
  | path
deriving DecidableEq, Repr

/-- An option of a command. -/
structure Choice where
  name : String
  letter : Option Char := none
  expects : Expects := .nothing
  repeatable : Bool := false
deriving DecidableEq, Repr

/-- What a command can be given. -/
structure Usage where
  choices : List Choice
  /-- Names of the operands. All are paths, and all are needed. -/
  operands : List String := []
deriving DecidableEq, Repr

/-- What a command has been given. -/
structure Given where
  /-- Names of options with their values; one without a value has an empty one. -/
  options : List (String × String) := []
  operands : List String := []
deriving DecidableEq, Repr

/-- What is wrong with arguments. -/
inductive Misuse where
  | unknownOption (name : String)
  | missingValue (name : String)
  | needlessValue (name : String)
  | repeated (name : String)
  | emptyPath (name : String)
  | surplusOperand (operand : String)
  | missingOperand (name : String)
deriving DecidableEq, Repr

/-- What is wrong, in words. -/
def Misuse.text : Misuse → String
  | unknownOption name => "unexpected argument " ++ name
  | missingValue name => "--" ++ name ++ " needs a value"
  | needlessValue name => "--" ++ name ++ " takes no value"
  | repeated name => "--" ++ name ++ " is given more than once"
  | emptyPath name => "the path of " ++ name ++ " is empty"
  | surplusOperand operand => "unexpected argument " ++ operand
  | missingOperand name => name ++ " is missing"

/-- Why a command does not go on with its arguments. -/
inductive Stop where
  | help
  | version
  | misuse (e : Misuse)
deriving DecidableEq, Repr

namespace Given

/-- Whether an option is among those given. -/
def has (g : Given) (name : String) : Bool := g.options.any fun o => o.1 = name

/-- Values given for an option. -/
def valuesOf (g : Given) (name : String) : List String :=
  (g.options.filter fun o => o.1 = name).map Prod.snd

/-- An operand by its position. None is missing once the arguments have been read. -/
def operand (g : Given) (i : Nat) : String := (g.operands[i]?).getD ""

end Given

/-- How far arguments have been read. -/
structure Progress where
  given : Given := {}
  /-- The option whose value comes next. -/
  awaited : Option Choice := none
  /-- Whether only operands are left. -/
  operandsOnly : Bool := false
deriving DecidableEq, Repr

namespace Progress

/-- Adds an option with its value. -/
def add (p : Progress) (c : Choice) (value : String) : Except Stop Progress :=
  if !c.repeatable && p.given.has c.name then .error (.misuse (.repeated c.name))
  else if c.expects = .path && value.isEmpty then .error (.misuse (.emptyPath c.name))
  else
    .ok { p with
      given := { p.given with options := p.given.options ++ [(c.name, value)] }, awaited := none }

/-- Adds an option without a value, or ends with what it asks for. -/
def addFlag (p : Progress) (c : Choice) : Except Stop Progress :=
  match c.name with
  | "help" => .error .help
  | "version" => .error .version
  | _ => p.add c ""

end Progress

namespace Usage

/-- Every option, those that all commands have included. -/
def allChoices (u : Usage) : List Choice := u.choices ++ [⟨"help", 'h', .nothing, false⟩,
  ⟨"version", 'V', .nothing, false⟩]

/-- Takes an operand. -/
def takeOperand (u : Usage) (p : Progress) (operand : String) : Except Stop Progress :=
  match u.operands[p.given.operands.length]? with
  | none => .error (.misuse (.surplusOperand operand))
  | some name =>
    if operand.isEmpty then .error (.misuse (.emptyPath name))
    else .ok { p with given := { p.given with operands := p.given.operands ++ [operand] } }

/-- Takes what follows two dashes. -/
def takeName (u : Usage) (p : Progress) (written : String) : Except Stop Progress :=
  let (name, value) := match Text.splitFirst? '=' written with
    | some (name, value) => (name, some value)
    | none => (written, none)
  match u.allChoices.find? fun c => c.name = name with
  | none => .error (.misuse (.unknownOption ("--" ++ name)))
  | some c =>
    match c.expects, value with
    | .nothing, none => p.addFlag c
    | .nothing, some _ => .error (.misuse (.needlessValue name))
    | _, none => .ok { p with awaited := some c }
    | _, some value => p.add c value

/-- Takes the letters that follow a dash. -/
def takeLetters (u : Usage) (p : Progress) : List Char → Except Stop Progress
  | [] => .ok p
  | letter :: rest =>
    match u.allChoices.find? fun c => c.letter = some letter with
    | none => .error (.misuse (.unknownOption (String.ofList ['-', letter])))
    | some c =>
      match c.expects, rest with
      | .nothing, rest => (p.addFlag c).bind fun p => u.takeLetters p rest
      | _, [] => .ok { p with awaited := some c }
      | _, '=' :: value => p.add c (String.ofList value)
      | _, value => p.add c (String.ofList value)

/-- Takes an argument. A value cannot be told from an option if it begins with a dash, unless it is
just that. -/
def take (u : Usage) (p : Progress) (arg : String) : Except Stop Progress :=
  if p.operandsOnly then u.takeOperand p arg
  else
    match p.awaited, arg.toList with
    | some c, '-' :: _ :: _ => .error (.misuse (.missingValue c.name))
    | some c, _ => p.add c arg
    | none, ['-', '-'] => .ok { p with operandsOnly := true }
    | none, '-' :: '-' :: written => u.takeName p (String.ofList written)
    | none, '-' :: letter :: rest => u.takeLetters p (letter :: rest)
    | none, _ => u.takeOperand p arg

/-- Reads arguments. -/
def read (u : Usage) (args : List String) : Except Stop Given := do
  let p ← args.foldlM u.take {}
  match p.awaited, u.operands[p.given.operands.length]? with
  | some c, _ => .error (.misuse (.missingValue c.name))
  | none, some name => .error (.misuse (.missingOperand name))
  | none, none => return p.given

end Usage

end ApiModels.Command
