import PipelineManager.Pipeline.Builtin
import PipelineManager.Pipeline.Command
import PipelineManager.Text.Quoted

/-!
# Pipeline scripts

A script is a template filled with the commands of a run: its tests in order, its metrics blocks
and the fixed commands around them. `renderScript` gives the whole script or says why there is none.
-/

namespace PipelineManager

/-- A test chosen for execution, with the name that is its own within a run. -/
structure ExecutedTest where
  testcase : Testcase
  fullName : String
deriving Repr, Inhabited

/-- The name of a test within a run: its kind, name and id. -/
def Testcase.fullName (t : Testcase) : String :=
  (match t.kind with
    | .predefined => ""
    | .developerDefined => "dev-defined-") ++ t.name ++ "-test-id-" ++ Json.intText t.id

/-- The test under its name within a run. -/
def ExecutedTest.ofTestcase (t : Testcase) : ExecutedTest := ⟨t, t.fullName⟩

/-- Whether the developer brings the test. -/
def ExecutedTest.isDeveloperDefined (t : ExecutedTest) : Bool := t.testcase.kind = .developerDefined

/-- The executed tests of a descriptor, in declaration order. -/
def Descriptor.executedTests (d : Descriptor) : List ExecutedTest := d.executed.map .ofTestcase

/-- Why there is no script. -/
inductive RenderError where
  | unfilledSlot (slot : Slot)
  | unresolvedPlaceholder (name : String)
  | unknownTest (test testbed : String)
  | invalidTestName (name : String)
deriving DecidableEq, Repr

/-- The wording of a render error. -/
def RenderError.message : RenderError → String
  | unfilledSlot slot => "no commands for block " ++ slot.marker
  | unresolvedPlaceholder name => "placeholder <" ++ name ++ "> survived rendering"
  | unknownTest test testbed => "test " ++ test ++ " is not registered for testbed " ++ testbed
  | invalidTestName name => "test name " ++ Text.quoted name ++ " is not usable in a pipeline"

/-- The render error that a fill error is. -/
def RenderError.ofFillError : FillError → RenderError
  | .emptySlot slot => unfilledSlot slot
  | .missingValue name => unresolvedPlaceholder name

/-- The name of the agent's credential that holds the communication token of a run. Each run has
its own. -/
def tokenCredential (runId : Int) : String := "communication_token_" ++ Json.intText runId

/-- What a script is made for. -/
structure ScriptRequest where
  tests : List ExecutedTest
  catalogue : List CatalogueEntry
  metrics : List MetricsBlock
  contract : MetricsContract
  runId : Int
  testbedId : String
deriving Repr, Inhabited

/-- How a test is obtained and where it is run. -/
structure TestPlan where
  obtain : List String
  workDir : String
  target : String
deriving DecidableEq, Repr, Inhabited

/-- The catalogue entry of a testbed's test by name. -/
def entryAt? (catalogue : List CatalogueEntry) (testbedId name : String) : Option CatalogueEntry :=
  catalogue.find? fun e => e.testbedId = testbedId ∧ e.name = name

/-- The plan of a test: an archive of the developer's or the location of the catalogue entry. -/
def planTest (s : ScriptSettings) (r : ScriptRequest) (t : ExecutedTest) :
    Except RenderError TestPlan :=
  let name := t.testcase.name
  if !isTestName name.toList then .error (.invalidTestName name)
  else match t.testcase.kind with
    | .developerDefined =>
      let dir := Command.developerDir ++ "/" ++ t.fullName
      .ok ⟨Command.download s.managerUrl r.runId name t.fullName, dir, dir⟩
    | .predefined =>
      match entryAt? r.catalogue r.testbedId name with
      | none => .error (.unknownTest name r.testbedId)
      | some e =>
        let workDir := Command.joinPath Command.repositoryDir e.location
        .ok ⟨[Command.fetch e.location], workDir, Command.joinPath workDir e.filename⟩

/-- Adds the commands that obtain a test. A fetch that is already there is not repeated. -/
def addObtain (obtain : List String) (kind : TestKind) (commands : List String) : List String :=
  match kind with
  | .developerDefined => obtain ++ commands
  | .predefined => obtain ++ commands.filter fun c => !obtain.contains c

/-- The commands that obtain and perform tests, added to those of the tests before them. -/
def testBlocksFrom (s : ScriptSettings) (r : ScriptRequest) :
    List String → List String → List ExecutedTest → Except RenderError (List String × List String)
  | obtain, perform, [] => .ok (obtain, perform)
  | obtain, perform, t :: rest =>
    match planTest s r t with
    | .error e => .error e
    | .ok plan =>
      testBlocksFrom s r (addObtain obtain t.testcase.kind plan.obtain)
        (perform ++
          [Command.runTest s t.testcase.name t.testcase.parameters plan.workDir plan.target
            t.fullName])
        rest

/-- The commands that obtain and perform the tests of a request. -/
def testBlocks (s : ScriptSettings) (r : ScriptRequest) :
    Except RenderError (List String × List String) :=
  testBlocksFrom s r [Command.sh ("mkdir -p " ++ Command.developerDir)]
    [Command.installTestModules s] r.tests

/-- The commands of every slot. -/
def scriptBlocks (s : ScriptSettings) (r : ScriptRequest) (obtain perform : List String) :
    Slot → List String
  | .setupEnvironment => Command.setupEnvironment
  | .obtainMetricsEnvironment => Command.testbedCredentials
  | .obtainMetricsFiles => Command.obtainMetricsFiles r.contract
  | .startMetrics => Command.metrics s r.contract r.metrics .start
  | .obtainTestsEnvironment => Command.testbedCredentials
  | .obtainTests => obtain
  | .performTests => perform
  | .endMetrics => Command.metrics s r.contract r.metrics .stop
  | .publishEnvironment => Command.publishEnvironment
  | .publishResults => Command.publishResults
  | .cleanupEnvironment => Command.cleanupEnvironment

/-- The value of every placeholder. -/
def scriptValues (s : ScriptSettings) (runId : Int) : Placeholder → Option String
  | .testId => some (Json.intText runId)
  | .tokenCredential => some (tokenCredential runId)
  | .statusUrl => some s.statusUrl
  | .publishUrl => some s.publishUrl

/-- The script of a request. -/
def renderScript (template : Template) (s : ScriptSettings) (r : ScriptRequest) :
    Except RenderError String :=
  match testBlocks s r with
  | .error e => .error e
  | .ok (obtain, perform) =>
    match template.fill (scriptBlocks s r obtain perform) (scriptValues s r.runId) with
    | .ok script => .ok script
    | .error e => .error (.ofFillError e)

end PipelineManager
