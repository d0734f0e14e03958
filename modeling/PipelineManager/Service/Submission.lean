import PipelineManager.Descriptor.Form
import PipelineManager.Service.Error

/-!
# Submissions

A descriptor that passes `check` becomes a run: an agent is chosen, a communication token is
given to it, the script is rendered and submitted as a job. Every stage is recorded in the status
log, a stage that fails as failed, so that the log shows where a run stopped.
-/

namespace PipelineManager

/-- What a manager works with: the template of its scripts, their settings and the contract of the
metrics bundle. -/
structure Manager where
  template : Template
  settings : ScriptSettings
  contract : MetricsContract

/-- What the submitter of a descriptor gets. -/
structure Receipt where
  runId : Int
  testbedId : String
  jobName : String
  buildNumber : Nat
  accessToken : String
deriving DecidableEq, Repr, Inhabited

/-- A run as it was created, the agent chosen for it and its script. -/
structure PreparedRun where
  run : Run
  agent : Agent
  script : String

/-- Records a stage as failed and gives up. -/
def failStage {α : Type} (runId : Int) (state : RunState) (e : ServiceError) : Service α := do
  let _ ← Service.ask (.appendStatus runId state false)
  throw e

/-- Records a stage as reached. -/
def markStage (runId : Int) (state : RunState) : Service Unit := do
  match ← Service.ask (.appendStatus runId state true) with
  | .ok _ => return ()
  | .error e => failStage runId state (.status e)

/-- Goes on with a result, or records the stage as failed. -/
def stage {α : Type} (runId : Int) (state : RunState) (r : Except ServiceError α) : Service α :=
  match r with
  | .ok a => return a
  | .error e => failStage runId state e

/-- The description of the credential of a run. -/
def credentialDescription (runId : Int) : String :=
  "Communication token for test run " ++ Json.intText runId

/-- The name of the job of a run. -/
def jobName (info : TestInfo) (runId : Int) : String :=
  info.netappId ++ "-" ++ info.networkServiceId ++ "-" ++ Json.intText runId

/-- Whether the archives of all developer-defined tests are there. -/
def requireArchives (netappId : String) : List ExecutedTest → Service Unit
  | [] => return ()
  | t :: rest => do
    if t.isDeveloperDefined then
      let found ← Service.stored (← Service.ask (.holds (archivePath netappId t.testcase.name)))
      Service.require found (.missingArtifact t.testcase.name)
    requireArchives netappId rest

/-- What a run needs of a test. -/
def NewRunTest.ofExecuted (netappId : String) (t : ExecutedTest) : NewRunTest where
  fullName := t.fullName
  description := t.testcase.description
  developerDefined := t.isDeveloperDefined
  artifactPath := if t.isDeveloperDefined then some (archivePath netappId t.testcase.name) else none

/-- Registers the tests of a run in order. -/
def registerTests (netappId : String) (runId : Int) : List ExecutedTest → Service Unit
  | [] => return ()
  | t :: rest => do
    let _ ← Service.stored (← Service.ask (.addRunTest runId (.ofExecuted netappId t)))
    registerTests netappId runId rest

/-- Probes agents in order. -/
def probeAll : List Agent → Service (List (Agent × Option Probe))
  | [] => return []
  | a :: rest => do
    let answer ← Service.ask (.probe a)
    return (a, answer) :: (← probeAll rest)

namespace Manager

/-- The checks of a descriptor that need no run: its testbed, its tests, its metrics blocks and the
archives of its developer-defined tests. -/
def check (m : Manager) (d : Descriptor) : Service (List ExecutedTest) := do
  let testbedId := d.info.testbedId
  Service.require (← Service.ask (.testbed testbedId)).isSome (.testbedNotFound testbedId)
  let errors := semanticErrors d (← Service.ask (.tests testbedId))
  Service.require errors.isEmpty (.semantic errors)
  Service.require (d.suppliesMetrics m.contract) .metricsContract
  requireArchives d.info.netappId d.executedTests
  return d.executedTests

/-- The agent of a run: the least busy one that can be reached. -/
def chooseAgent (info : TestInfo) (runId : Int) : Service Agent := do
  let state := RunState.authenticatedOnAgent
  let agents ← stage runId state ((← Service.ask (.agentsOf info.testbedId)).mapError .storage)
  match selectAgent (← probeAll agents) with
  | none => failStage runId state (.noAgentAvailable info.testbedId)
  | some (agent, _) =>
    stage runId state ((← Service.ask (.setRunAgent runId agent.id)).mapError .storage)
    markStage runId state
    return agent

/-- Gives the agent the communication token of a run. -/
def provideToken (agent : Agent) (runId : Int) : Service Unit := do
  let state := RunState.createdCommunicationToken
  let token ← Service.ask (.newCommunicationToken runId)
  let created ← Service.ask
    (.createCredential agent (tokenCredential runId) token (credentialDescription runId))
  stage runId state (created.mapError .credentialProvisioning)
  stage runId state ((← Service.ask (.setCommunicationToken runId token)).mapError .storage)
  markStage runId state

/-- The request by which the script of a run is rendered. -/
def scriptRequest (m : Manager) (d : Descriptor) (catalogue : List CatalogueEntry)
    (tests : List ExecutedTest) (runId : Int) : ScriptRequest where
  tests := tests
  catalogue := catalogue
  metrics := d.metricsBlocks
  contract := m.contract
  runId := runId
  testbedId := d.info.testbedId

/-- Registers the tests of a run and renders its script. -/
def prepareScript (m : Manager) (d : Descriptor) (tests : List ExecutedTest) (runId : Int) :
    Service String := do
  registerTests d.info.netappId runId tests
  let catalogue ← Service.ask (.tests d.info.testbedId)
  match renderScript m.template m.settings (m.scriptRequest d catalogue tests runId) with
  | .ok script => return script
  | .error e => throw (.render e)

/-- The script of a run. -/
def createScript (m : Manager) (d : Descriptor) (tests : List ExecutedTest) (runId : Int) :
    Service String := do
  let state := RunState.createdPipelineScript
  let script ← stage runId state (← Service.result (m.prepareScript d tests runId))
  markStage runId state
  return script

/-- Submits a job and starts it. -/
def launch (agent : Agent) (name script : String) : Service (Except Fault Nat) := do
  match ← Service.ask (.submitJob agent name script) with
  | .error e => return .error e
  | .ok () => Service.ask (.startJob agent name)

/-- Starts the job of a run. The answer is its build number. -/
def startRun (agent : Agent) (runId : Int) (name script : String) : Service Nat := do
  let state := RunState.submittedPipelineScript
  let build ← stage runId state ((← launch agent name script).mapError .pipelineSubmission)
  stage runId state ((← Service.ask (.setJob runId name (some build))).mapError .storage)
  markStage runId state
  return build

/-- Creates the run of a checked descriptor, and all that its job needs. -/
def prepare (m : Manager) (d : Descriptor) (tests : List ExecutedTest) : Service PreparedRun := do
  let info := d.info
  let accessToken ← Service.ask .newAccessToken
  let run ← Service.stored (← Service.ask (.createRun
    { netappId := info.netappId
      networkServiceId := info.networkServiceId
      testbedId := info.testbedId
      accessToken }))
  markStage run.id .submittedToManager
  let agent ← chooseAgent info run.id
  provideToken agent run.id
  let script ← m.createScript d tests run.id
  return { run, agent, script }

/-- Starts the job of a prepared run. -/
def startPrepared (info : TestInfo) (prepared : PreparedRun) : Service Receipt := do
  let run := prepared.run
  let name := PipelineManager.jobName info run.id
  let buildNumber ← startRun prepared.agent run.id name prepared.script
  return {
    runId := run.id
    testbedId := info.testbedId
    jobName := name
    buildNumber
    accessToken := run.accessToken }

/-- Turns a checked descriptor into a run. -/
def dispatch (m : Manager) (d : Descriptor) (tests : List ExecutedTest) : Service Receipt := do
  startPrepared d.info (← m.prepare d tests)

/-- Checks a descriptor and turns it into a run. -/
def submitDescriptor (m : Manager) (d : Descriptor) : Service Receipt := do
  m.dispatch d (← m.check d)

/-- A parsed descriptor, or the error that there is none. -/
def parsed (r : Except (List Schema.Violation) Descriptor) : Service Descriptor :=
  match r with
  | .ok d => return d
  | .error vs => throw (.structural vs)

/-- Submits the text of a descriptor. -/
def submitText (m : Manager) (text : String) : Service Receipt := do
  m.submitDescriptor (← parsed (Descriptor.parseYaml text))

/-- Submits the tree of a descriptor. -/
def submitValue (m : Manager) (v : Value) : Service Receipt := do
  m.submitDescriptor (← parsed (Descriptor.parse v))

end Manager
end PipelineManager
