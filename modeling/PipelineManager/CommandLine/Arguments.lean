import PipelineManager.Number.Decimal

/-!
# Arguments

A command line is a sequence of arguments: names of commands, options and operands. A `Form` says
what a command understands, and `parse` reads arguments by a form. An option has its value behind
an equals sign or as the next argument; behind two dashes everything is an operand.
-/

namespace PipelineManager.CommandLine

/-- What the value of an option may be. A switch has no value, and a path is not empty. -/
inductive ValueKind where
  | switch
  | text
  | path
  | integer
deriving DecidableEq, Repr

/-- Whether a value is of a kind. -/
def ValueKind.admits : ValueKind → String → Bool
  | switch, _ => false
  | text, _ => true
  | path, value => !value.isEmpty
  | integer, value => (Decimal.readInteger? value).isSome

/-- An option of a command. -/
structure OptionForm where
  name : String
  kind : ValueKind
  required : Bool := false
deriving DecidableEq, Repr

/-- What a command understands: its options, whether it has a path as an operand, and the commands
below it, one of which has to follow. -/
inductive Form where
  | mk (options : List OptionForm) (hasOperand : Bool) (commands : List (String × Form))

namespace Form

/-- The options of a command. -/
def options : Form → List OptionForm
  | mk options _ _ => options

/-- Whether a command has an operand. -/
def hasOperand : Form → Bool
  | mk _ hasOperand _ => hasOperand

/-- The commands below a command. -/
def commands : Form → List (String × Form)
  | mk _ _ commands => commands

/-- The option of a name. -/
def option? (f : Form) (name : String) : Option OptionForm := f.options.find? fun o => o.name = name

/-- The command of a name below a command. -/
def command? (f : Form) (name : String) : Option Form := f.commands.lookup name

end Form

/-- Why no command is carried out. -/
inductive Stop where
  | help
  | version
  | refused
deriving DecidableEq, Repr

/-- What arguments say: the names of the commands, the values of options for the last of them and
for those above it, and the operand. -/
structure Arguments where
  names : List String := []
  outer : List (String × String) := []
  values : List (String × String) := []
  operand : Option String := none
deriving DecidableEq, Repr, Inhabited

namespace Arguments

/-- The value of an option, that for the last command first. -/
def value? (a : Arguments) (name : String) : Option String := (a.values ++ a.outer).lookup name

/-- Whether an option was given for the last command. -/
def isGiven (a : Arguments) (name : String) : Bool := (a.values.lookup name).isSome

/-- The value of an option as an integer. -/
def integer? (a : Arguments) (name : String) : Option Int :=
  (a.value? name).bind Decimal.readInteger?

/-- Goes on to a command below the last one. -/
def enter (a : Arguments) (name : String) : Arguments :=
  { names := a.names ++ [name], outer := a.values ++ a.outer }

/-- Takes the value of an option, which is given once for each command. -/
def takeValue (a : Arguments) (o : OptionForm) (value : String) : Except Stop Arguments :=
  if a.isGiven o.name || !o.kind.admits value then .error .refused
  else .ok { a with values := a.values ++ [(o.name, value)] }

/-- Takes a switch, which is given once for each command. -/
def takeSwitch (a : Arguments) (o : OptionForm) : Except Stop Arguments :=
  if a.isGiven o.name then .error .refused else .ok { a with values := a.values ++ [(o.name, "")] }

/-- Takes an operand, if the command has one and it is not yet given. -/
def takeOperand (a : Arguments) (f : Form) (value : String) : Except Stop Arguments :=
  if !f.hasOperand || a.operand.isSome || value.isEmpty then .error .refused
  else .ok { a with operand := some value }

/-- Refuses arguments that lack something the command needs. -/
def finish (a : Arguments) (f : Form) : Except Stop Arguments :=
  if !f.commands.isEmpty || (f.hasOperand && a.operand.isNone) ||
      f.options.any (fun o => o.required && !a.isGiven o.name) then .error .refused
  else .ok a

/-- Takes operands up to the end. -/
def takeOperands (a : Arguments) (f : Form) : List String → Except Stop Arguments
  | [] => a.finish f
  | arg :: rest => do (← a.takeOperand f arg).takeOperands f rest

end Arguments

/-- The name of an option and the value behind its equals sign. -/
def optionOf? (arg : String) : Option (String × Option String) :=
  match arg.toList with
  | '-' :: '-' :: cs =>
    let name := String.ofList (cs.takeWhile (· ≠ '='))
    match cs.dropWhile (· ≠ '=') with
    | _ :: value => some (name, some (String.ofList value))
    | [] => some (name, none)
  | _ => none

/-- Whether an argument starts like an option. A single dash does not. -/
def isDashed (arg : String) : Bool :=
  match arg.toList with
  | '-' :: _ :: _ => true
  | _ => false

/-- What an option that no form lists leads to. -/
def unlisted (isTop : Bool) (name : String) (value : Option String) : Stop :=
  if value.isSome then .refused
  else if name = "help" then .help
  else if isTop && name = "version" then .version
  else .refused

/-- What an argument of a dash and letters leads to. -/
def letters (isTop : Bool) (arg : String) : Stop :=
  match arg.toList with
  | _ :: 'h' :: _ => .help
  | _ :: 'V' :: _ => if isTop then .version else .refused
  | _ => .refused

/-- What a request for help about a command leads to. -/
def helpOn (f : Form) : List String → Stop
  | [] => .help
  | name :: rest =>
    match f.command? name with
    | some f => helpOn f rest
    | none => if name = "help" && !f.commands.isEmpty then .help else .refused

/-- Reads arguments by the form of the last command. -/
def parse (f : Form) (a : Arguments) : List String → Except Stop Arguments
  | [] => a.finish f
  | "--" :: rest => a.takeOperands f rest
  | arg :: rest =>
    match optionOf? arg with
    | some (name, value) =>
      match f.option? name, value, rest with
      | none, value, _ => .error (unlisted a.names.isEmpty name value)
      | some o, some value, rest => do parse f (← a.takeValue o value) rest
      | some o, none, rest =>
        if o.kind = .switch then do parse f (← a.takeSwitch o) rest
        else match rest with
          | [] => .error .refused
          | value :: rest =>
            if isDashed value then .error .refused else do parse f (← a.takeValue o value) rest
    | none =>
      if isDashed arg then .error (letters a.names.isEmpty arg)
      else match f.command? arg with
        | some below => parse below (a.enter arg) rest
        | none =>
          if arg = "help" && !f.commands.isEmpty then .error (helpOn f rest)
          else do parse f (← a.takeOperand f arg) rest

end PipelineManager.CommandLine
