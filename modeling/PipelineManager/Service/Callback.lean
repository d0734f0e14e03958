import PipelineManager.Results.Report
import PipelineManager.Service.Submission
import PipelineManager.Text.Utf8

/-!
# Callbacks and queries

What running pipelines ask of the manager, each with the communication token of its run: to
record a state, to collect results and to hand out an archive. And what anyone else asks: the
log and the report of a run, the tests of a testbed, and to keep an archive.
-/

namespace PipelineManager

/-- Everything known about a run. -/
structure RunReport where
  run : Run
  status : List StatusEntry
  tests : List RunTest
deriving DecidableEq, Repr, Inhabited

namespace Manager

/-- The run of an identifier. -/
def existingRun (runId : Int) : Service Run := do
  match ← Service.stored (← Service.ask (.run runId)) with
  | some r => return r
  | none => throw (.runNotFound runId)

/-- The run of an identifier, for the holder of its communication token. -/
def authorizedRun (runId : Int) (token : String) : Service Run := do
  let r ← existingRun runId
  Service.require (r.communicationToken = some token) (.unauthorized runId)
  return r

/-- Records a state that a running pipeline reports. -/
def recordStatus (runId : Int) (token : String) (state : RunState) (success : Bool) :
    Service StatusEntry := do
  let _ ← authorizedRun runId token
  Service.require state.isAgentReported (.status (.notAgentReported state))
  match ← Service.ask (.appendStatus runId state success) with
  | .ok entry => return entry
  | .error e => throw (.status e)

/-- Where the report of a test lies in a directory of results. -/
def reportPath (resultsDir fullName : String) : String :=
  resultsDir ++ "/" ++ fullName ++ "/output.xml"

/-- Where the log of a build lies in a directory of results. -/
def logPath (resultsDir : String) : String := resultsDir ++ "/console_log.log"

/-- The report that a file holds, if it can be read. -/
def reportOf? (contents : Except Fault ByteArray) : Option Report :=
  match contents with
  | .ok bytes => Report.read? (Text.Utf8.lossy bytes.toList)
  | .error _ => none

/-- Records the verdict on a test. A test without a report has failed. -/
def recordVerdict (resultsDir : String) (t : RunTest) : Service Unit := do
  let report := reportOf? (← Service.ask (.download (reportPath resultsDir t.fullName)))
  let verdict := report.any (·.success)
  let startedAt := (report.bind (·.startedAt)).map (·.text)
  let endedAt := (report.bind (·.endedAt)).map (·.text)
  Service.stored (← Service.ask (.recordTestResult t.id verdict startedAt endedAt))

/-- Records the verdicts on tests in order. -/
def recordVerdicts (resultsDir : String) : List RunTest → Service Unit
  | [] => return ()
  | t :: rest => do
    recordVerdict resultsDir t
    recordVerdicts resultsDir rest

/-- The answer to a call on an agent, a failure being one of the log. -/
def logged {α : Type} (r : Except Fault α) : Service α :=
  match r with
  | .ok a => return a
  | .error e => throw (.logRetrieval e)

/-- What is given, a failure being one of the log. -/
def given {α : Type} (a : Option α) (e : Fault) : Service α := logged (a.elim (.error e) .ok)

/-- The log of the build of a run. A run without a build number has the latest build. -/
def buildLog (r : Run) : Service String := do
  let agentId ← given r.agentId (.runWithoutAgent r.id)
  let agent ← given (← logged (← Service.ask (.agent agentId))) (.agentGone agentId)
  let job ← given r.jobName (.runWithoutJob r.id)
  let build ← match r.buildNumber with
    | some build => pure build
    | none => do logged (← Service.ask (.lastBuildNumber agent job))
  logged (← Service.ask (.fetchLog agent job build))

/-- Collects the results of every test of a run from a directory of the warehouse, and keeps the
log of the build beside them. -/
def publishResults (runId : Int) (token directory : String) : Service (List RunTest) := do
  let r ← authorizedRun runId token
  let resultsDir := Text.dropEndSlashes directory
  recordVerdicts resultsDir (← Service.stored (← Service.ask (.runTests runId)))
  let log ← buildLog r
  Service.stored (← Service.ask (.upload (logPath resultsDir) log.toUTF8))
  Service.stored (← Service.ask (.setResultLocations runId (logPath resultsDir) resultsDir))
  Service.stored (← Service.ask (.runTests runId))

/-- The archive of a developer-defined test of a run. -/
def developerArchive (runId : Int) (token fullName : String) : Service ByteArray := do
  let _ ← authorizedRun runId token
  let tests ← Service.stored (← Service.ask (.runTests runId))
  match (tests.find? fun t => t.developerDefined ∧ t.fullName = fullName).bind (·.artifactPath) with
  | some path => do Service.stored (← Service.ask (.download path))
  | none => throw (.missingArtifact fullName)

/-- Keeps the archive of a developer-defined test for later submissions. The answer is where. -/
def keepArchive (netappId name : String) (archive : ByteArray) : Service String := do
  Service.require (isTestName name.toList) (.invalidTestName name)
  Service.stored (← Service.ask (.upload (archivePath netappId name) archive))
  return archivePath netappId name

/-- The log of a run. -/
def statusLog (runId : Int) : Service (List StatusEntry) := do
  let _ ← existingRun runId
  Service.stored (← Service.ask (.statusLog runId))

/-- The report of a run, for the holder of its access token. -/
def report (runId : Int) (token : String) : Service RunReport := do
  let run ← existingRun runId
  Service.require (run.accessToken = token) (.unauthorized runId)
  let status ← Service.stored (← Service.ask (.statusLog runId))
  return { run, status, tests := ← Service.stored (← Service.ask (.runTests runId)) }

/-- The tests of a testbed. -/
def testbedTests (testbedId : String) : Service (List CatalogueEntry) := do
  Service.require (← Service.ask (.testbed testbedId)).isSome (.testbedNotFound testbedId)
  Service.ask (.tests testbedId)

end Manager
end PipelineManager
