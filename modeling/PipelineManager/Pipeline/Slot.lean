/-!
# Slots and placeholders of a pipeline template

A template leaves eleven blocks of commands open, each named by a marker such as
`<perform_tests>`, and mentions four values by placeholders such as `<test_id>`.
-/

namespace PipelineManager

/-- The blocks of commands that a template leaves open. -/
inductive Slot where
  | setupEnvironment
  | obtainMetricsEnvironment
  | obtainMetricsFiles
  | startMetrics
  | obtainTestsEnvironment
  | obtainTests
  | performTests
  | endMetrics
  | publishEnvironment
  | publishResults
  | cleanupEnvironment
deriving DecidableEq, Repr, Inhabited

namespace Slot

/-- All slots in order. -/
def all : List Slot :=
  [setupEnvironment, obtainMetricsEnvironment, obtainMetricsFiles, startMetrics,
    obtainTestsEnvironment, obtainTests, performTests, endMetrics, publishEnvironment,
    publishResults, cleanupEnvironment]

/-- The name of a slot in its marker. -/
def name : Slot → String
  | setupEnvironment => "setup_environment"
  | obtainMetricsEnvironment => "obtain_metrics_environment"
  | obtainMetricsFiles => "obtain_metrics_collection_files"
  | startMetrics => "start_metrics_collection"
  | obtainTestsEnvironment => "obtain_tests_environment"
  | obtainTests => "obtain_tests"
  | performTests => "perform_tests"
  | endMetrics => "end_metrics_collection"
  | publishEnvironment => "publish_results_environment"
  | publishResults => "publish_results"
  | cleanupEnvironment => "cleanup_environment"

/-- The slot of a name. -/
def ofName? (name : String) : Option Slot := all.find? fun s => s.name = name

/-- The marker of a slot. -/
def marker (s : Slot) : String := "<" ++ s.name ++ ">"

end Slot

/-- The values that a template mentions. -/
inductive Placeholder where
  | testId
  | tokenCredential
  | statusUrl
  | publishUrl
deriving DecidableEq, Repr, Inhabited

namespace Placeholder

/-- All placeholders. -/
def all : List Placeholder := [testId, tokenCredential, statusUrl, publishUrl]

/-- The name of a placeholder in its marker. -/
def name : Placeholder → String
  | testId => "test_id"
  | tokenCredential => "communication_token_credential"
  | statusUrl => "ci_cd_manager_url_test_status_url"
  | publishUrl => "ci_cd_manager_url_publish_test_results"

/-- The placeholder of a name. -/
def ofName? (name : String) : Option Placeholder := all.find? fun p => p.name = name

/-- The marker of a placeholder. -/
def marker (p : Placeholder) : String := "<" ++ p.name ++ ">"

end Placeholder
end PipelineManager
