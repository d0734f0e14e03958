import PipelineManager.Pipeline.Template
import PipelineManager.Run.State

/-!
# The built-in pipeline template

The pipeline passes through eight stages, each of which fills a slot and reports a state with its
outcome, and ends with a stage that reports the end of the run and asks for its results to be
published.
-/

namespace PipelineManager

/-- A stage of the pipeline: its title, a slot for its environment, the slot for its steps and the
state that it reports. -/
structure Stage where
  title : String
  environment : Option Slot
  steps : Slot
  state : RunState
deriving DecidableEq, Repr

namespace Stage

/-- The stages, in the order in which they run. -/
def all : List Stage := [
  ⟨"Setup environment", none, .setupEnvironment, .environmentSetup⟩,
  ⟨"Obtain metrics collection files", some .obtainMetricsEnvironment, .obtainMetricsFiles,
    .obtainedMetricsFiles⟩,
  ⟨"Start monitoring", none, .startMetrics, .startedMonitoring⟩,
  ⟨"Obtain Tests", some .obtainTestsEnvironment, .obtainTests, .obtainedTests⟩,
  ⟨"Perform Tests", none, .performTests, .performedTests⟩,
  ⟨"End monitoring", none, .endMetrics, .endedMonitoring⟩,
  ⟨"Publish Results", some .publishEnvironment, .publishResults, .publishedResults⟩,
  ⟨"Cleanup environment", none, .cleanupEnvironment, .cleanedEnvironment⟩]

/-- A request to the manager with a body of the token, the run and further fields. -/
def request (fields : String) (url : Placeholder) : String :=
  "sh 'curl --retry 5 --header \"Content-Type: application/json\" --request POST --data " ++
  "\\'\x7b\"communication_token\":\"\\'\"$comm_token\"\\'\",\"test_id\":\\'\"$test_id\"\\'," ++
  fields ++ "\x7d\\' " ++ url.marker ++ "'"

/-- The command that reports a state. -/
def report (state : RunState) (success : Bool) : String :=
  request ("\"success\":" ++ (if success then "true" else "false") ++ ",\"state\":\"" ++
    state.name ++ "\"")
    .statusUrl

/-- The command that asks for the results to be published. -/
def publish : String := request "\"ftp_results_directory\":\"\\'\"$JOB_NAME\"\\'\"" .publishUrl

/-- The lines that open a stage and bind its environment. -/
def opening (title : String) (environment : Option Slot) : List String :=
  ["        stage('" ++ title ++ "') \x7b",
   "            environment \x7b"] ++
  (match environment with
    | some slot => ["                " ++ slot.marker]
    | none => []) ++
  ["                comm_token = credentials('" ++ Placeholder.tokenCredential.marker ++ "')",
   "                test_id = " ++ Placeholder.testId.marker,
   "            \x7d"]

/-- The lines of a stage. -/
def lines (s : Stage) : List String :=
  opening s.title s.environment ++
  ["            steps \x7b",
   "                catchError(buildResult: 'SUCCESS', stageResult: 'FAILURE') \x7b",
   "                    " ++ s.steps.marker,
   "                \x7d",
   "            \x7d",
   "            post \x7b",
   "                failure \x7b",
   "                    " ++ report s.state false,
   "                \x7d",
   "                success \x7b",
   "                    " ++ report s.state true,
   "                \x7d",
   "            \x7d",
   "        \x7d"]

/-- The lines of the last stage. -/
def lastLines : List String :=
  opening "End Testing Process" none ++
  ["            steps \x7b",
   "                " ++ report .testEnded true,
   "                " ++ publish,
   "            \x7d",
   "        \x7d"]

end Stage

namespace Template

/-- The lines of the built-in template. -/
def builtinLines : List String :=
  ["pipeline \x7b", "    agent any", "    stages \x7b"] ++ Stage.all.flatMap Stage.lines ++
  Stage.lastLines ++ ["    \x7d", "\x7d"]

/-- The text of the built-in template. -/
def builtinText : String := String.join (builtinLines.map (· ++ "\n"))

/-- The built-in template. -/
def builtin : Except TemplateError Template := parse builtinText

end Template
end PipelineManager
