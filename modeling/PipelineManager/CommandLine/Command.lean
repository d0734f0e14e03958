import PipelineManager.CommandLine.Arguments

/-!
# Commands

What the command line can be asked to do. `Invocation.read` reads a command and the path of the
configuration from arguments.
-/

namespace PipelineManager.CommandLine

/-- A command with its options. -/
inductive Command where
  | serve (bind : Option String)
  | validate (descriptor : String) (asJson : Bool)
  | render (descriptor : String) (runId : Int) (output : Option String)
  | importCatalogue (testbeds tests : Option String)
  | addAgent (testbedId url username password : String)
  | listAgents (testbedId : String)
  | status (runId : Option Int)
deriving DecidableEq, Repr

/-- A command and the configuration that was named for it. -/
structure Invocation where
  config : Option String
  command : Command
deriving DecidableEq, Repr

/-! ## Forms -/

/-- The option that every command has. -/
def configOption : OptionForm := ⟨"config", .path, false⟩

/-- An option with a text that has to be given. -/
def requiredText (name : String) : OptionForm := ⟨name, .text, true⟩

/-- A command without commands below it. -/
def leaf (options : List OptionForm) (hasOperand : Bool) : Form :=
  .mk (configOption :: options) hasOperand []

/-- A command that needs a command below it. -/
def branch (commands : List (String × Form)) : Form := .mk [configOption] false commands

/-- All commands. -/
def topForm : Form :=
  branch [
    ("serve", leaf [⟨"bind", .text, false⟩] false),
    ("validate", leaf [⟨"json", .switch, false⟩] true),
    ("render", leaf [⟨"test-id", .integer, false⟩, ⟨"output", .path, false⟩] true),
    ("catalogue", branch [
      ("import", leaf [⟨"testbeds", .path, false⟩, ⟨"tests", .path, false⟩] false)]),
    ("agents", branch [
      ("add", leaf (["testbed", "url", "username", "password"].map requiredText) false),
      ("list", leaf [requiredText "testbed"] false)]),
    ("status", leaf [⟨"run-id", .integer, false⟩] false)]

/-- The command that arguments name. -/
def Command.ofArguments? (a : Arguments) : Option Command :=
  match a.names with
  | ["serve"] => some (.serve (a.value? "bind"))
  | ["validate"] => return .validate (← a.operand) (a.isGiven "json")
  | ["render"] => return .render (← a.operand) ((a.integer? "test-id").getD 0) (a.value? "output")
  | ["catalogue", "import"] => some (.importCatalogue (a.value? "testbeds") (a.value? "tests"))
  | ["agents", "add"] =>
    return .addAgent (← a.value? "testbed") (← a.value? "url") (← a.value? "username")
      (← a.value? "password")
  | ["agents", "list"] => return .listAgents (← a.value? "testbed")
  | ["status"] => some (.status (a.integer? "run-id"))
  | _ => none

/-- Reads a command from arguments. -/
def Invocation.read (args : List String) : Except Stop Invocation := do
  let a ← parse topForm {} args
  match Command.ofArguments? a with
  | some command => return { config := a.value? "config", command }
  | none => throw .refused

end PipelineManager.CommandLine
