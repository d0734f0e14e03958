import PipelineManager.Agent.Basic
import PipelineManager.Catalogue.Row
import PipelineManager.Document.Table
import PipelineManager.Run.State
import PipelineManager.Text.Blank

/-!
# The store

What the manager keeps: testbeds, the catalogue of their tests, agents, runs, the tests of runs
and the status log. Rows are never deleted, so the rows of a table are numbered from 1 on in the
order of their creation.
-/

namespace PipelineManager

/-- A point of time as it is recorded. -/
abbrev Timestamp := String

/-- What is known of a run when it is created. -/
structure NewRun where
  netappId : String
  networkServiceId : String
  testbedId : String
  accessToken : String
deriving DecidableEq, Repr, Inhabited

/-- A run of a descriptor. The access token is the submitter's, the communication token that of
the agent. -/
structure Run where
  id : Int
  netappId : String
  networkServiceId : String
  testbedId : String
  agentId : Option Int
  accessToken : String
  communicationToken : Option String
  jobName : Option String
  buildNumber : Option Nat
  logLocation : Option String
  resultsLocation : Option String
  createdAt : Timestamp
deriving DecidableEq, Repr, Inhabited

/-- What is known of a test of a run when it is registered. -/
structure NewRunTest where
  fullName : String
  description : Option String
  developerDefined : Bool
  artifactPath : Option String
deriving DecidableEq, Repr, Inhabited

/-- A test of a run. It has a verdict once its results are published. -/
structure RunTest where
  id : Int
  runId : Int
  fullName : String
  description : Option String
  developerDefined : Bool
  artifactPath : Option String
  startedAt : Option String
  endedAt : Option String
  success : Option Bool
deriving DecidableEq, Repr, Inhabited

/-- A row of the status log. The state is kept by its name. -/
structure StatusRow where
  runId : Int
  seq : Nat
  state : String
  success : Bool
  recordedAt : Timestamp
deriving DecidableEq, Repr, Inhabited

/-- The tables. Testbeds and tests are kept in the order of their keys, all other rows in the
order of their creation. -/
structure Store where
  testbeds : List Testbed := []
  tests : List CatalogueRow := []
  agents : List Agent := []
  runs : List Run := []
  statuses : List StatusRow := []
  runTests : List RunTest := []
deriving DecidableEq, Repr, Inhabited

/-- Why the store refuses a row, or cannot read one. -/
inductive StoreFault where
  | testNotStored (testId testbedId : String)
  | corruptVariables (testId : String)
  | agentNotRegistered (url testbedId : String)
  | runNotCreated
  | runTestNotRegistered (fullName : String) (runId : Int)
  | unknownAgent
  | unknownState (name : String)
  | missingLatestStatus
deriving DecidableEq, Repr

/-- The wording of a refusal. -/
def StoreFault.message : StoreFault → String
  | testNotStored testId testbedId =>
    "failed to store test " ++ testId ++ " of testbed " ++ testbedId
  | corruptVariables testId => "corrupt variables for test " ++ testId
  | agentNotRegistered url testbedId =>
    "failed to register agent " ++ url ++ " for testbed " ++ testbedId
  | runNotCreated => "failed to create run"
  | runTestNotRegistered fullName runId =>
    "failed to register test " ++ fullName ++ " for run " ++ Json.intText runId
  | unknownAgent => "FOREIGN KEY constraint failed"
  | unknownState name => RunState.unknownMessage name
  | missingLatestStatus => "missing latest status"

namespace Store

/-- The number of the next row of a table. -/
def nextId {α : Type} (rows : List α) : Int := rows.length + 1

/-! ## Testbeds and tests -/

/-- The testbed of an identifier. -/
def testbed? (s : Store) (id : String) : Option Testbed := s.testbeds.find? fun t => t.id = id

/-- Whether a testbed is known. -/
def hasTestbed (s : Store) (id : String) : Bool := (s.testbed? id).isSome

/-- Stores a testbed, or renews the one with its identifier. -/
def putTestbed (s : Store) (t : Testbed) : Store :=
  { s with
    testbeds :=
      Table.upsert (fun a b => a.id = b.id) (fun a b => a.id < b.id) .renewed t s.testbeds }

/-- Stores a test of a known testbed, or renews the one with its key. -/
def putTest (s : Store) (e : CatalogueEntry) : Except StoreFault Store :=
  if s.hasTestbed e.testbedId then
    .ok { s with
      tests := Table.upsert CatalogueRow.sameKey CatalogueRow.before .renewed e.toRow s.tests }
  else .error (.testNotStored e.testId e.testbedId)

/-- The rows of the tests of a testbed, in the order of their keys. -/
def testRows (s : Store) (testbedId : String) : List CatalogueRow :=
  s.tests.filter fun r => r.testbedId = testbedId

/-- Reads the tests of a testbed, in the order of their keys. -/
def readTests (s : Store) (testbedId : String) : Except StoreFault (List CatalogueEntry) :=
  (s.testRows testbedId).mapM fun r =>
    match r.entry? with
    | some e => .ok e
    | none => .error (.corruptVariables r.testId)

/-- The tests of a testbed. What was stored can be read, so there is always an answer. -/
def testsOf (s : Store) (testbedId : String) : List CatalogueEntry :=
  (s.readTests testbedId).toOption.getD []

/-! ## Agents -/

/-- The agent of an identifier. -/
def agent? (s : Store) (id : Int) : Option Agent := s.agents.find? fun a => a.id = id

/-- The agents of a testbed, in the order of their identifiers. -/
def agentsOf (s : Store) (testbedId : String) : List Agent :=
  s.agents.filter fun a => a.testbedId = testbedId

/-- Registers an agent of a known testbed. The address is kept without slashes at its end; an
agent that is registered there gets the new credentials and keeps its identifier. -/
def addAgent (s : Store) (testbedId url username password : String) :
    Except StoreFault (Store × Int) :=
  let address := Text.dropEndSlashes url
  match s.agents.find? fun a => a.testbedId = testbedId ∧ a.url = address with
  | some known =>
    let update (a : Agent) : Agent := if a.id = known.id then { a with username, password } else a
    .ok ({ s with agents := s.agents.map update }, known.id)
  | none =>
    if s.hasTestbed testbedId then
      let id := nextId s.agents
      .ok ({ s with
        agents := s.agents ++ [{ id, testbedId, url := address, username, password }] }, id)
    else .error (.agentNotRegistered url testbedId)

/-! ## Runs -/

/-- The run of an identifier. -/
def run? (s : Store) (id : Int) : Option Run := s.runs.find? fun r => r.id = id

/-- Changes the run of an identifier. There may be none. -/
def updateRun (s : Store) (id : Int) (change : Run → Run) : Store :=
  { s with runs := s.runs.map fun r => if r.id = id then change r else r }

/-- Creates a run on a known testbed. Its access token must be new. -/
def createRun (s : Store) (new : NewRun) (now : Timestamp) : Except StoreFault (Store × Run) :=
  if s.hasTestbed new.testbedId && s.runs.all fun r => r.accessToken ≠ new.accessToken then
    let r : Run := {
      id := nextId s.runs
      netappId := new.netappId
      networkServiceId := new.networkServiceId
      testbedId := new.testbedId
      agentId := none
      accessToken := new.accessToken
      communicationToken := none
      jobName := none
      buildNumber := none
      logLocation := none
      resultsLocation := none
      createdAt := now }
    .ok ({ s with runs := s.runs ++ [r] }, r)
  else .error .runNotCreated

/-- Records the agent of a run. A run can only have a registered agent. -/
def setRunAgent (s : Store) (id agentId : Int) : Except StoreFault Store :=
  if (s.run? id).isNone || (s.agent? agentId).isSome then
    .ok (s.updateRun id fun r => { r with agentId := some agentId })
  else .error .unknownAgent

/-- Records the communication token of a run. -/
def setCommunicationToken (s : Store) (id : Int) (token : String) : Store :=
  s.updateRun id fun r => { r with communicationToken := some token }

/-- Records the job of a run and its build. -/
def setJob (s : Store) (id : Int) (jobName : String) (buildNumber : Option Nat) : Store :=
  s.updateRun id fun r => { r with jobName := some jobName, buildNumber }

/-- Records where the log and the results of a run are. -/
def setResultLocations (s : Store) (id : Int) (logLocation resultsLocation : String) : Store :=
  s.updateRun id fun r =>
    { r with logLocation := some logLocation, resultsLocation := some resultsLocation }

/-! ## Tests of runs -/

/-- The tests of a run, in the order of their registration. -/
def testsOfRun (s : Store) (runId : Int) : List RunTest :=
  s.runTests.filter fun t => t.runId = runId

/-- Registers a test of a known run. Its name must be new in the run. -/
def addRunTest (s : Store) (runId : Int) (new : NewRunTest) : Except StoreFault (Store × RunTest) :=
  if (s.run? runId).isSome && (s.testsOfRun runId).all fun t => t.fullName ≠ new.fullName then
    let t : RunTest := {
      id := nextId s.runTests
      runId
      fullName := new.fullName
      description := new.description
      developerDefined := new.developerDefined
      artifactPath := new.artifactPath
      startedAt := none
      endedAt := none
      success := none }
    .ok ({ s with runTests := s.runTests ++ [t] }, t)
  else .error (.runTestNotRegistered new.fullName runId)

/-- Records the verdict on a test. There may be no such test. -/
def recordTestResult (s : Store) (id : Int) (success : Bool) (startedAt endedAt : Option String) :
    Store :=
  { s with runTests := s.runTests.map fun t =>
      if t.id = id then { t with success := some success, startedAt, endedAt } else t }

end Store
end PipelineManager
