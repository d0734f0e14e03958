import PipelineManager.Service.Callback

/-!
# Payloads

The trees in which runs, their tests and their logs are answered. Tokens are never part of the
tree of a run.
-/

namespace PipelineManager

/-- The tree of an entry of a status log. -/
def StatusEntry.toValue (e : StatusEntry) : Value :=
  .dict [
    ("recorded_at", .str e.recordedAt),
    ("run_id", .int e.runId),
    ("seq", .int e.seq),
    ("state", .str e.state.name),
    ("success", .bool e.success)]

/-- The tree of a run. -/
def Run.toValue (r : Run) : Value :=
  .dict [
    ("agent_id", (r.agentId.map Value.int).getD .null),
    ("build_number", (r.buildNumber.map fun n => Value.int n).getD .null),
    ("created_at", .str r.createdAt),
    ("id", .int r.id),
    ("job_name", .textOrNull r.jobName),
    ("log_location", .textOrNull r.logLocation),
    ("netapp_id", .str r.netappId),
    ("network_service_id", .str r.networkServiceId),
    ("results_location", .textOrNull r.resultsLocation),
    ("testbed_id", .str r.testbedId)]

/-- The tree of a test of a run. -/
def RunTest.toValue (t : RunTest) : Value :=
  .dict [
    ("artifact_path", .textOrNull t.artifactPath),
    ("description", .textOrNull t.description),
    ("developer_defined", .bool t.developerDefined),
    ("ended_at", .textOrNull t.endedAt),
    ("full_name", .str t.fullName),
    ("id", .int t.id),
    ("run_id", .int t.runId),
    ("started_at", .textOrNull t.startedAt),
    ("success", (t.success.map Value.bool).getD .null)]

/-- The tree of a receipt. -/
def Receipt.toValue (r : Receipt) : Value :=
  .dict [
    ("access_token", .str r.accessToken),
    ("build_number", .int r.buildNumber),
    ("job_name", .str r.jobName),
    ("run_id", .int r.runId),
    ("testbed_id", .str r.testbedId)]

/-- The tree of everything known about a run. -/
def RunReport.toValue (r : RunReport) : Value :=
  .dict [
    ("run", r.run.toValue),
    ("status", .list (r.status.map StatusEntry.toValue)),
    ("tests", .list (r.tests.map RunTest.toValue))]

end PipelineManager
