import PipelineManager.Catalogue.Import
import PipelineManager.CommandLine.Command
import PipelineManager.CommandLine.Listing
import PipelineManager.Config.File
import PipelineManager.Descriptor.Form
import PipelineManager.Document.Json.Indented
import PipelineManager.Files.Access
import PipelineManager.Http.SocketAddress
import PipelineManager.Pipeline.Script
import PipelineManager.Store.Document
import PipelineManager.Validation.Semantics

/-!
# Running the command line

`run` reads a command from arguments, carries it out with access to files and says what is printed
and how it ends. The store is read from its file when a command opens it and written back after
every change, also when the command fails later on.
-/

namespace PipelineManager.CommandLine

/-- Why a command fails. -/
inductive Fault where
  | configUnreadable (path : String)
  | configMalformed (path : String)
  | descriptorUnreadable (path : String)
  | descriptorMalformed (errors : Nat)
  | descriptorInvalid (testbedId : String)
  | testsUnreadable (path : String)
  | testsMalformed
  | contractUnreadable (path : String)
  | contractMalformed (path : String)
  | templateUnreadable (path : String)
  | templateInvalid (path : String)
  | builtinTemplate (e : TemplateError)
  | render (e : RenderError)
  | notWritten (path : String)
  | databaseDirectory (path : String)
  | databaseMalformed
  | catalogueImport (e : ImportFault)
  | storeRefusal (e : StoreFault)
  | seeding
  | bindAddress (address : String)
  | noListener (address : String)
deriving DecidableEq, Repr

/-- The wording of a failure. -/
def Fault.message : Fault → String
  | configUnreadable path => "failed to read config file: " ++ path
  | configMalformed path => "failed to parse config file: " ++ path
  | descriptorUnreadable path => "failed to read descriptor " ++ path
  | descriptorMalformed errors => "descriptor is malformed (" ++ Nat.repr errors ++ " errors)"
  | descriptorInvalid testbedId => "descriptor is not valid for testbed " ++ testbedId
  | testsUnreadable path => "failed to read tests catalogue " ++ path
  | testsMalformed => malformedTestsMessage
  | contractUnreadable path => "failed to read metrics contract: " ++ path
  | contractMalformed path => "failed to parse metrics contract: " ++ path
  | templateUnreadable path => "failed to read pipeline template: " ++ path
  | templateInvalid path => "invalid pipeline template: " ++ path
  | builtinTemplate e => e.message
  | render e => e.message
  | notWritten path => "failed to write " ++ path
  | databaseDirectory path => "failed to create database directory " ++ path
  | databaseMalformed => "malformed database"
  | catalogueImport e => e.message
  | storeRefusal e => e.message
  | seeding => "failed to import the testbed catalogue"
  | bindAddress address => "invalid bind address " ++ address
  | noListener address => "no listener is built in for " ++ address

/-- What was printed so far. -/
structure Transcript where
  out : String := ""
  complaints : String := ""
deriving DecidableEq, Repr, Inhabited

/-- What a run of the command line prints and its exit code. -/
structure Outcome where
  code : Nat
  out : String
  complaints : String
deriving DecidableEq, Repr, Inhabited

/-- A command under way: it prints, and it may fail. -/
abbrev Shell (m : Type → Type) (α : Type) := ExceptT Fault (StateT Transcript m) α

variable {m : Type → Type} [Monad m] {α : Type}

/-- Uses the files. -/
def onFiles (action : m α) : Shell m α := ExceptT.lift (StateT.lift action)

/-- Prints a text. -/
def say (text : String) : Shell m Unit := modify fun t => { t with out := t.out ++ text }

/-- Prints lines. -/
def sayLines (lines : List String) : Shell m Unit := say (unlines lines)

/-- Prints a line of a complaint. -/
def complain (line : String) : Shell m Unit :=
  modify fun t => { t with complaints := t.complaints ++ line ++ "\n" }

/-- Goes on with a value that is there. -/
def orFail (value : Option α) (fault : Fault) : Shell m α :=
  match value with
  | some a => return a
  | none => throw fault

/-! ## Reading files -/

/-- The text of a file. -/
def readText (files : FileAccess m) (path : String) (fault : Fault) : Shell m String := do
  orFail (← onFiles (files.read path)) fault

/-- The configuration of a file. -/
def readConfig (files : FileAccess m) (path : String) : Shell m Config := do
  orFail (Config.ofToml? (← readText files path (.configUnreadable path))) (.configMalformed path)

/-- The configuration of a file, if there is one that can be read. -/
def tryConfig (files : FileAccess m) (path : String) : m (Option Config) := do
  return (← files.read path).bind Config.ofToml?

/-- Where the configuration of the system is. -/
def systemConfigPath : String := "/etc/cicd-manager/config.toml"

/-- The configuration when none is named: that of the environment, else that of the system, else
the defaults. One that cannot be read counts for nothing. -/
def defaultConfig (files : FileAccess m) (fromEnvironment : Option String) : m Config := do
  let own ← match fromEnvironment with
    | some path => tryConfig files path
    | none => pure none
  match own with
  | some config => return config
  | none => return (← tryConfig files systemConfigPath).getD {}

/-- The descriptor of a file. Its errors are printed. -/
def readDescriptor (files : FileAccess m) (path : String) : Shell m Descriptor := do
  match Descriptor.parseYaml (← readText files path (.descriptorUnreadable path)) with
  | .ok d => return d
  | .error violations =>
    violations.forM fun v => complain ("  " ++ v.message)
    throw (.descriptorMalformed violations.length)

/-- The configured tests of a testbed. -/
def readTests (files : FileAccess m) (config : Config) (testbedId : String) :
    Shell m (List CatalogueEntry) := do
  let text ← readText files config.testsPath (.testsUnreadable config.testsPath)
  let entries ← orFail (CatalogueEntry.ofYaml? text) .testsMalformed
  return entries.filter fun e => e.testbedId = testbedId

/-- The configured contract of the metrics bundle. -/
def readContract (files : FileAccess m) (config : Config) : Shell m MetricsContract := do
  let path := config.contractPath
  orFail (MetricsContract.ofYaml? (← readText files path (.contractUnreadable path)))
    (.contractMalformed path)

/-- The configured template, or the built-in one. -/
def readTemplate (files : FileAccess m) (config : Config) : Shell m Template := do
  match config.templatePath with
  | none =>
    match Template.builtin with
    | .ok t => return t
    | .error e => throw (.builtinTemplate e)
  | some path =>
    match Template.parse (← readText files path (.templateUnreadable path)) with
    | .ok t => return t
    | .error _ => throw (.templateInvalid path)

/-! ## The store -/

/-- Opens the configured store. The directories to its file are made. -/
def openStore (files : FileAccess m) (config : Config) : Shell m Store := do
  let path := config.databasePath
  let directory := parentPath path
  unless directory.isEmpty do
    unless ← onFiles (files.makeDirectories directory) do throw (.databaseDirectory directory)
  match ← onFiles (files.read path) with
  | some text => orFail (Store.ofText? text) .databaseMalformed
  | none => return {}

/-- Keeps the store in its file. -/
def keepStore (files : FileAccess m) (config : Config) (s : Store) : Shell m Unit := do
  unless ← onFiles (files.write config.databasePath s.toText) do
    throw (.notWritten config.databasePath)

/-- A catalogue file with its text. -/
def sourceFile (files : FileAccess m) (path : String) : Shell m SourceFile := do
  return { path, text := ← onFiles (files.read path) }

/-- Imports catalogue files into the store and keeps what was imported, also when the import stops
halfway. -/
def importFiles (files : FileAccess m) (config : Config) (testbeds tests : String) :
    Shell m (Except ImportFault (Nat × Nat)) := do
  let s ← openStore files config
  let (s, imported) := s.importCatalogue (← sourceFile files testbeds) (← sourceFile files tests)
  keepStore files config s
  return imported

/-! ## Commands -/

/-- The tree of what is wrong with a descriptor. -/
def reportTree (testbedId : String) (errors : List SemanticError) (suppliesMetrics : Bool) :
    Value :=
  .dict [
    ("errors", .list (errors.map SemanticError.toValue)),
    ("metrics_collection_valid", .bool suppliesMetrics),
    ("testbed_id", .str testbedId)]

/-- What is wrong with a descriptor, line by line. -/
def reportLines (errors : List SemanticError) (suppliesMetrics : Bool) : List String :=
  (errors.map fun e => "  " ++ e.message) ++
    if suppliesMetrics then []
      else ["  Badly defined parameters for the metrics collection process"]

/-- Judges a descriptor by the catalogue files. -/
def validate (files : FileAccess m) (config : Config) (path : String) (asJson : Bool) :
    Shell m Unit := do
  let d ← readDescriptor files path
  let testbedId := d.info.testbedId
  let errors := semanticErrors d (← readTests files config testbedId)
  let suppliesMetrics := d.suppliesMetrics (← readContract files config)
  if asJson then say (Json.indented (reportTree testbedId errors suppliesMetrics) ++ "\n")
  else sayLines (reportLines errors suppliesMetrics)
  unless errors.isEmpty && suppliesMetrics do throw (.descriptorInvalid testbedId)
  unless asJson do sayLines ["Descriptor is valid for testbed " ++ testbedId ++ "."]

/-- Renders the script of a descriptor. -/
def render (files : FileAccess m) (config : Config) (path : String) (runId : Int)
    (output : Option String) :
    Shell m Unit := do
  let d ← readDescriptor files path
  let testbedId := d.info.testbedId
  let catalogue ← readTests files config testbedId
  let contract ← readContract files config
  let template ← readTemplate files config
  let request : ScriptRequest :=
    { tests := d.executedTests, catalogue, metrics := d.metricsBlocks, contract, runId, testbedId }
  match renderScript template (.ofConfig config) request with
  | .error e => throw (.render e)
  | .ok script =>
    match output with
    | none => say script
    | some target =>
      unless ← onFiles (files.write target script) do throw (.notWritten target)
      sayLines ["Pipeline script written to " ++ target]

/-- Imports the catalogue files, those that are named instead of the configured ones. -/
def importCatalogue (files : FileAccess m) (config : Config) (testbeds tests : Option String) :
    Shell m Unit := do
  match ← importFiles files config (testbeds.getD config.testbedsPath)
    (tests.getD config.testsPath) with
  | .ok (a, b) =>
    sayLines ["Imported " ++ Nat.repr a ++ " testbeds and " ++ Nat.repr b ++ " tests."]
  | .error e => throw (.catalogueImport e)

/-- Registers an agent. -/
def addAgent (files : FileAccess m) (config : Config) (testbedId url username password : String) :
    Shell m Unit := do
  let s ← openStore files config
  match s.addAgent testbedId url username password with
  | .ok (s, id) =>
    keepStore files config s
    sayLines ["Agent " ++ Json.intText id ++ " registered for testbed '" ++ testbedId ++ "'."]
  | .error e => throw (.storeRefusal e)

/-- Gets ready to serve: the catalogue is imported when both of its files are there, and the
template and the contract are read. -/
def prepare (files : FileAccess m) (config : Config) : Shell m Unit := do
  let _ ← openStore files config
  if (← onFiles (files.holds config.testbedsPath)) then
    if (← onFiles (files.holds config.testsPath)) then
      match ← importFiles files config config.testbedsPath config.testsPath with
      | .ok _ => pure ()
      | .error _ => throw .seeding
  let _ ← readTemplate files config
  let _ ← readContract files config

/-- Gets ready to serve the programming interface at an address. The interface itself is
`Manager.respond`; connections are not accepted here. -/
def serve (files : FileAccess m) (config : Config) (bind : Option String) : Shell m Unit := do
  let address := bind.getD config.bind
  prepare files config
  unless Http.isSocketAddress address do throw (.bindAddress address)
  throw (.noListener address)

/-- Carries out a command. -/
def carryOut (files : FileAccess m) (config : Config) : Command → Shell m Unit
  | .serve bind => serve files config bind
  | .validate descriptor asJson => validate files config descriptor asJson
  | .render descriptor runId output => render files config descriptor runId output
  | .importCatalogue testbeds tests => importCatalogue files config testbeds tests
  | .addAgent testbedId url username password =>
    addAgent files config testbedId url username password
  | .listAgents testbedId => do
    sayLines (agentsListing testbedId ((← openStore files config).agentsOf testbedId))
  | .status (some runId) => do
    match (← openStore files config).statusLog runId with
    | .ok log => sayLines (statusListing runId log)
    | .error e => throw (.storeRefusal e)
  | .status none => do sayLines (runsListing (← openStore files config).runs)

/-! ## The whole command line -/

/-- The version of the program. -/
def version : String := "cicd-manager 0.1.0\n"

/-- How the program is used. -/
def usage : String :=
  unlines ["Usage: cicd-manager [--config FILE] COMMAND",
    "Commands: serve, validate, render, catalogue import, agents add, agents list, status"]

/-- What is printed instead of carrying out a command. -/
def Stop.outcome : Stop → Outcome
  | help => { code := 0, out := usage, complaints := "" }
  | version => { code := 0, out := CommandLine.version, complaints := "" }
  | refused => { code := 2, out := "", complaints := usage }

/-- Carries out a command with its configuration. -/
def invoke (files : FileAccess m) (fromEnvironment : Option String) (i : Invocation) :
    Shell m Unit := do
  let config ← match i.config with
    | some path => readConfig files path
    | none => onFiles (defaultConfig files fromEnvironment)
  carryOut files config i.command

/-- Runs the command line. -/
def run (files : FileAccess m) (fromEnvironment : Option String) (args : List String) :
    m Outcome := do
  match Invocation.read args with
  | .error stop => return stop.outcome
  | .ok i =>
    let (ended, t) ← (invoke files fromEnvironment i).run.run {}
    match ended with
    | .ok () => return { code := 0, out := t.out, complaints := t.complaints }
    | .error fault =>

      return {
        code := 1, out := t.out,
        complaints := t.complaints ++ "Error: " ++ fault.message ++ "\n" }

end PipelineManager.CommandLine
