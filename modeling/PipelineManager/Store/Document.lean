import PipelineManager.Document.Json.Reader
import PipelineManager.Store.Basic

/-!
# The store as a document

The document in which the store is kept between two uses, with every table as a list of records.
Nothing of a row is left out, tokens and passwords included.
-/

namespace PipelineManager

/-- An optional integer. -/
private def intOrNull (n : Option Int) : Value := (n.map Value.int).getD .null

/-- The record of an agent. -/
def Agent.toRecord (a : Agent) : Value :=
  .dict [
    ("id", .int a.id),
    ("password", .str a.password),
    ("testbed_id", .str a.testbedId),
    ("url", .str a.url),
    ("username", .str a.username)]

/-- Reads the record of an agent. -/
def Agent.ofRecord? (v : Value) : Option Agent := do
  return {
    id := ← v.require "id" Value.id?
    testbedId := ← v.require "testbed_id" Value.text?
    url := ← v.require "url" Value.text?
    username := ← v.require "username" Value.text?
    password := ← v.require "password" Value.text? }

/-- The record of a run. -/
def Run.toRecord (r : Run) : Value :=
  .dict [
    ("access_token", .str r.accessToken),
    ("agent_id", intOrNull r.agentId),
    ("build_number", intOrNull (r.buildNumber.map Int.ofNat)),
    ("communication_token", .textOrNull r.communicationToken),
    ("created_at", .str r.createdAt),
    ("id", .int r.id),
    ("job_name", .textOrNull r.jobName),
    ("log_location", .textOrNull r.logLocation),
    ("netapp_id", .str r.netappId),
    ("network_service_id", .str r.networkServiceId),
    ("results_location", .textOrNull r.resultsLocation),
    ("testbed_id", .str r.testbedId)]

/-- Reads the record of a run. -/
def Run.ofRecord? (v : Value) : Option Run := do
  return {
    id := ← v.require "id" Value.id?
    netappId := ← v.require "netapp_id" Value.text?
    networkServiceId := ← v.require "network_service_id" Value.text?
    testbedId := ← v.require "testbed_id" Value.text?
    agentId := ← v.optional? "agent_id" Value.id?
    accessToken := ← v.require "access_token" Value.text?
    communicationToken := ← v.optional? "communication_token" Value.text?
    jobName := ← v.optional? "job_name" Value.text?
    buildNumber := ← v.optional? "build_number" Value.nat?
    logLocation := ← v.optional? "log_location" Value.text?
    resultsLocation := ← v.optional? "results_location" Value.text?
    createdAt := ← v.require "created_at" Value.text? }

/-- The record of a row of a status log. -/
def StatusRow.toRecord (r : StatusRow) : Value :=
  .dict [
    ("recorded_at", .str r.recordedAt),
    ("run_id", .int r.runId),
    ("seq", .int r.seq),
    ("state", .str r.state),
    ("success", .bool r.success)]

/-- Reads the record of a row of a status log. -/
def StatusRow.ofRecord? (v : Value) : Option StatusRow := do
  return {
    runId := ← v.require "run_id" Value.id?
    seq := ← v.require "seq" Value.nat?
    state := ← v.require "state" Value.text?
    success := ← v.require "success" Value.bool?
    recordedAt := ← v.require "recorded_at" Value.text? }

/-- The record of a test of a run. -/
def RunTest.toRecord (t : RunTest) : Value :=
  .dict [
    ("artifact_path", .textOrNull t.artifactPath),
    ("description", .textOrNull t.description),
    ("developer_defined", .bool t.developerDefined),
    ("ended_at", .textOrNull t.endedAt),
    ("full_name", .str t.fullName),
    ("id", .int t.id),
    ("run_id", .int t.runId),
    ("started_at", .textOrNull t.startedAt),
    ("success", (t.success.map Value.bool).getD .null)]

/-- Reads the record of a test of a run. -/
def RunTest.ofRecord? (v : Value) : Option RunTest := do
  return {
    id := ← v.require "id" Value.id?
    runId := ← v.require "run_id" Value.id?
    fullName := ← v.require "full_name" Value.text?
    description := ← v.optional? "description" Value.text?
    developerDefined := ← v.require "developer_defined" Value.bool?
    artifactPath := ← v.optional? "artifact_path" Value.text?
    startedAt := ← v.optional? "started_at" Value.text?
    endedAt := ← v.optional? "ended_at" Value.text?
    success := ← v.optional? "success" Value.bool? }

namespace Store

/-- The tables as a document. -/
def toValue (s : Store) : Value :=
  .dict [
    ("agents", .list (s.agents.map Agent.toRecord)),
    ("run_tests", .list (s.runTests.map RunTest.toRecord)),
    ("runs", .list (s.runs.map Run.toRecord)),
    ("statuses", .list (s.statuses.map StatusRow.toRecord)),
    ("testbeds", .list (s.testbeds.map Testbed.toValue)),
    ("tests", .list (s.tests.map CatalogueRow.toRecord))]

/-- Reads the tables of a document. -/
def ofValue? (v : Value) : Option Store := do
  return {
    testbeds := ← v.require "testbeds" (Value.itemsBy? Testbed.ofValue?)
    tests := ← v.require "tests" (Value.itemsBy? CatalogueRow.ofRecord?)
    agents := ← v.require "agents" (Value.itemsBy? Agent.ofRecord?)
    runs := ← v.require "runs" (Value.itemsBy? Run.ofRecord?)
    statuses := ← v.require "statuses" (Value.itemsBy? StatusRow.ofRecord?)
    runTests := ← v.require "run_tests" (Value.itemsBy? RunTest.ofRecord?) }

/-- The text in which the store is kept. -/
def toText (s : Store) : String := Json.text s.toValue

/-- Reads the text in which a store is kept. A new store has no text yet. -/
def ofText? (text : String) : Option Store :=
  if text.isEmpty then some {} else (Json.read? text).bind ofValue?

end Store
end PipelineManager
