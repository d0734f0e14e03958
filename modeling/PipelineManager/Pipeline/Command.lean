import PipelineManager.Catalogue.Basic
import PipelineManager.Descriptor.Basic
import PipelineManager.Config.Basic
import PipelineManager.Pipeline.ShellWord
import PipelineManager.Text.Blank

/-!
# Commands of the pipeline

The commands that fill the slots of a template. Secrets are named by environment variables that
the stage binds, and never written out.
-/

namespace PipelineManager

/-- What is fixed for every script of a manager. -/
structure ScriptSettings where
  managerUrl : String
  metricsLocation : String
  metricsDatabase : String
  robotVersion : String
  testModules : List String
  metricsModules : List String
deriving DecidableEq, Repr, Inhabited

namespace ScriptSettings

/-- The settings of a configuration. -/
def ofConfig (c : Config) : ScriptSettings where
  managerUrl := Text.dropEndSlashes c.managerUrl
  metricsLocation := c.metricsLocation
  metricsDatabase := c.metricsDatabase
  robotVersion := c.robotVersion
  testModules := c.testModules
  metricsModules := c.metricsModules

/-- Where states are reported. -/
def statusUrl (s : ScriptSettings) : String := s.managerUrl ++ "/tests/test-status"

/-- Where the publication of results is asked for. -/
def publishUrl (s : ScriptSettings) : String := s.managerUrl ++ "/tests/publish-test-results"

end ScriptSettings

namespace Command

/-- The agent's directory of fetched tests. -/
def repositoryDir : String := "~/test_repository/\"$JOB_NAME\""

/-- The agent's directory of artifacts. -/
def artifactsDir : String := "~/test_artifacts/\"$JOB_NAME\""

/-- The agent's directory of results. -/
def resultsDir : String := "~/test_results/\"$JOB_NAME\""

/-- The agent's directory of logs. -/
def logsDir : String := "~/test_logs/\"$JOB_NAME\""

/-- The agent's directory of developer-defined tests. -/
def developerDir : String := "~/test_repository/\"$JOB_NAME\"/developer-defined-tests"

/-- A shell step. -/
def sh (command : String) : String := "sh '" ++ command ++ "'"

/-- The export of a variable. -/
def exportOf (name value : String) : String :=
  "export " ++ name ++ "=" ++ String.ofList (shellWord value.toList)

/-- The variable that a parameter is exported under. -/
def parameterVariable (scope key : String) : String := variableName (scope ++ "_" ++ key)

/-- The export of every parameter, in order. -/
def exportParameters (scope : String) (parameters : List Parameter) : List String :=
  parameters.map fun p => exportOf (parameterVariable scope p.key) p.text

/-- A path below a base; slashes at both ends of it do not count. -/
def joinPath (base rest : String) : String :=
  let rest := Text.trimSlashes rest
  if rest.isEmpty then base else base ++ "/" ++ rest

/-- Fetches a directory from the testbed's file server. -/
def fetch (dir : String) : String :=
  sh ("wget -r -l 0 --tries=5 -P " ++ repositoryDir ++
    " -nH ftp://$ltr_user:$ltr_password@$ltr_location/" ++ Text.trimSlashes dir)

/-- Binds a credential of the agent to a variable of the same name. -/
def bindCredential (name : String) : String := name ++ " = credentials('" ++ name ++ "')"

/-- Binds the credentials of the testbed's file server. -/
def testbedCredentials : List String :=
  ["ltr_user", "ltr_password", "ltr_location"].map bindCredential

/-- Binds the credentials of both file servers. -/
def publishEnvironment : List String :=
  testbedCredentials ++
    ["results_ftp_location", "results_ftp_user", "results_ftp_password"].map bindCredential

/-- Creates the agent's directories. -/
def setupEnvironment : List String :=
  [repositoryDir, artifactsDir, resultsDir, logsDir].map fun dir => sh ("mkdir -p " ++ dir)

/-- Fetches the metrics bundle. -/
def obtainMetricsFiles (c : MetricsContract) : List String := [fetch c.location]

/-- Which end of the monitoring a metrics block runs for. -/
inductive MetricsAction where
  | start
  | stop
deriving DecidableEq, Repr

/-- The name of an action. -/
def MetricsAction.name : MetricsAction → String
  | start => "start"
  | stop => "stop"

/-- What is said when there is nothing to do. -/
def MetricsAction.nothing : MetricsAction → String
  | start => "No metrics to collect"
  | stop => "No metrics collected"

/-- Installs modules. -/
def install (modules : List String) : String :=
  sh ("python3 -m pip install " ++ String.intercalate " " modules)

/-- The exports of a metrics block, its parameters first. -/
def metricsExports (s : ScriptSettings) (action : MetricsAction) (m : MetricsBlock) : List String :=
  exportParameters "metrics_collection" m.parameters ++
    ["export metrics_collection_action=" ++ action.name,
     exportOf "INFLUX_DB_URL" s.metricsLocation,
     exportOf "INFLUX_DB_NAME" s.metricsDatabase]

/-- Runs the metrics bundle for a block. -/
def runMetrics (s : ScriptSettings) (c : MetricsContract) (action : MetricsAction)
    (m : MetricsBlock) : String :=
  sh (String.intercalate " ; " (metricsExports s action m) ++ " ; python3 -m robot.run -d " ++
    resultsDir ++ "/metrics_collection_" ++ Json.intText m.id ++ "_" ++ action.name ++ " " ++
    joinPath (joinPath repositoryDir c.location) c.filename)

/-- The commands that start or stop the collection of metrics. -/
def metrics (s : ScriptSettings) (c : MetricsContract) (blocks : List MetricsBlock)
    (action : MetricsAction) : List String :=
  if blocks.isEmpty then [sh ("echo \"" ++ action.nothing ++ "\"")]
  else install s.metricsModules :: blocks.map (runMetrics s c action)

/-- Downloads and unpacks the archive of a developer-defined test. -/
def download (managerUrl : String) (runId : Int) (name fullName : String) : List String :=
  [sh ("curl --location --request GET " ++ managerUrl ++ "/tests/download-developer-defined " ++
      "--header \"Content-Type: application/json\" " ++
      "--data-raw \\'\x7b\"communication_token\": \"\\'\"$comm_token\"\\'\", " ++
      "\"test_instance_id\": " ++ Json.intText runId ++ ", " ++
      "\"developer_defined_test_name\": \"" ++ fullName ++ "\"\x7d\\' " ++
      "--output " ++ developerDir ++ "/" ++ name ++ ".tar.gz"),
   sh ("cd " ++ developerDir ++ "/ ; tar -xvf " ++ name ++ ".tar.gz ; mv " ++ name ++ " " ++
     fullName)]

/-- The exports in front of a test, each followed by a separator. -/
def exportsText (scope : String) (parameters : List Parameter) : String :=
  let exports := String.intercalate " ; " (exportParameters scope parameters)
  if exports.isEmpty then "" else exports ++ " ; "

/-- Runs a test in an environment of its own. A failure does not end the stage, so that later
tests still run. -/
def runTest (s : ScriptSettings) (scope : String) (parameters : List Parameter)
    (workDir target fullName : String) : String :=
  sh (exportsText scope parameters ++ "cd " ++ workDir ++
    "; python3 -m venv venv; . venv/bin/activate; pip install --upgrade pip; " ++
    "pip install -r requirements.txt || pip install robotframework==" ++ s.robotVersion ++
    " ; python -m robot.run -d " ++ resultsDir ++ "/" ++ fullName ++ " " ++ target ++ " || true")

/-- Installs the modules of the tests. -/
def installTestModules (s : ScriptSettings) : String := install s.testModules

/-- Sends all results to the file server. -/
def publishResults : List String :=
  ["sh '''\n    cd " ++ resultsDir ++ "/\n    find . -type f -exec curl -u " ++
    "$results_ftp_user:$results_ftp_password --ftp-create-dirs -T \x7b\x7d " ++
    "ftp://$results_ftp_location/\"$JOB_NAME\"/\x7b\x7d \\\\;\n'''"]

/-- Removes the agent's directories, its logs apart. -/
def cleanupEnvironment : List String :=
  [repositoryDir, artifactsDir, resultsDir].map fun dir => sh ("rm -rf " ++ dir)

end Command
end PipelineManager
