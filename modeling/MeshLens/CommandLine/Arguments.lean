import MeshLens.Text.Basic

/-!
# Arguments

Arguments are options and operands. An option is spelled `--name`, and its value follows as the
next argument or after an equals sign. Two dashes alone end the options. Main statement: arguments
behind them are operands whatever they look like.
-/

namespace MeshLens.CommandLine

/-- Whether an option takes a value. -/
inductive Arity
  | flag | value
  deriving DecidableEq, Repr

/-- The options that are known, by their spellings. -/
abbrev OptionTable := List (Text × Arity)

/-- Arguments, read. -/
structure Arguments where
  /-- The options in the order in which they are given; the value of a flag is empty. -/
  options : List (Text × Text) := []
  operands : List Text := []
  deriving DecidableEq, Repr

/-- What is wrong with arguments. -/
inductive ArgumentError
  | unknownOption (name : Text)
  | missingValue (option : Text)
  | needlessValue (option : Text)
  deriving DecidableEq, Repr

namespace Arguments

/-- Puts an option in front. -/
def withOption (name value : Text) (a : Arguments) : Arguments :=
  { a with options := (name, value) :: a.options }

/-- Puts an operand in front. -/
def withOperand (operand : Text) (a : Arguments) : Arguments :=
  { a with operands := operand :: a.operands }

/-- Whether an argument is an option: a dash alone is none. -/
def isOption (argument : Text) : Bool :=
  argument.head? == some '-' && argument ≠ "-"

/-- An option apart from the value after its equals sign. -/
def cutValue (argument : Text) : Text × Option Text :=
  match Text.breakOn ['='] argument with
  | some (name, value) => (name, some value)
  | none => (argument, none)

/-- Reads arguments. Unless options may stand between operands, all that follows the first operand
is left unread. -/
def read (known : OptionTable) (mixed : Bool) : List Text → Except ArgumentError Arguments
  | [] => .ok {}
  | argument :: rest =>
    if argument = "--" then .ok { operands := rest }
    else if isOption argument then
      let (name, value) := cutValue argument
      match known.lookup name, value with
      | none, _ => .error (.unknownOption name)
      | some .flag, none => (read known mixed rest).map (withOption name [])
      | some .flag, some _ => .error (.needlessValue name)
      | some .value, some value => (read known mixed rest).map (withOption name value)
      | some .value, none =>
        match rest with
        | [] => .error (.missingValue name)
        | value :: rest => (read known mixed rest).map (withOption name value)
    else if mixed then (read known mixed rest).map (withOperand argument)
    else .ok { operands := argument :: rest }

/-- The value of an option that is given last. -/
def last? (a : Arguments) (option : Text) : Option Text :=
  a.options.reverse.lookup option

/-- Whether an option is given. -/
def has (a : Arguments) (option : Text) : Bool :=
  (a.last? option).isSome

/-- Some options in the order in which they are first given, followed by those that are not. -/
def inOrder (a : Arguments) (options : List Text) : List Text :=
  ((a.options.map (·.1)).filter (· ∈ options)).eraseDups ++ options.filter fun o => !a.has o

end Arguments

end MeshLens.CommandLine
