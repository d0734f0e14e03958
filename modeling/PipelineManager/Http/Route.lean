import PipelineManager.Http.Exchange
import PipelineManager.Http.Form
import PipelineManager.Http.MediaType
import PipelineManager.Http.Payload
import PipelineManager.Http.Record
import PipelineManager.Number.Decimal
import PipelineManager.Text.Parts
import PipelineManager.Text.Search

/-!
# The programming interface

Each path has one route, and each route answers the requests of its methods by the service.
`Manager.respond` is the whole interface: from a request to a response.
-/

namespace PipelineManager.Http

/-- The routes. The names in the path of an archive are percent-coded. -/
inductive Route where
  | health
  | newTest
  | testStatus
  | testReport
  | publishResults
  | downloadArchive
  | testsPerTestbed
  | uploadArchive (netappId name : List Char)
deriving DecidableEq, Repr

/-- The path in front of the names of an archive. -/
def archivePrefix : List Char := "/tests/developer-defined/".toList

/-- The route of a path. -/
def Route.ofPath? (path : List Char) : Option Route :=
  if path = "/health".toList then some .health
  else if path = "/tests/new".toList then some .newTest
  else if path = "/tests/test-status".toList then some .testStatus
  else if path = "/tests/test-report".toList then some .testReport
  else if path = "/tests/publish-test-results".toList then some .publishResults
  else if path = "/tests/download-developer-defined".toList then some .downloadArchive
  else if path = "/tests/per-testbed".toList then some .testsPerTestbed
  else match Text.behind? archivePrefix path with
    | none => none
    | some rest =>
      match Text.parts '/' rest with
      | [netappId, name] =>
        if netappId.isEmpty || name.isEmpty then none else some (.uploadArchive netappId name)
      | _ => none

/-- The bytes of a text. -/
def bytesOf (cs : List Char) : List UInt8 := (String.ofList cs).toUTF8.toList

/-- The text that a part of a path stands for. -/
def pathText? (part : List Char) : Option String := Text.Utf8.strict? (percentDecode (bytesOf part))

/-- The values of fields in a query. Each must be given once. -/
def queryFields? (names : List String) (query : List Char) : Option (List String) :=
  let pairs := formPairs (bytesOf query)
  names.mapM fun name =>
    match pairs.filter fun p => p.1 = name with
    | [p] => some p.2
    | _ => none

/-- The greatest body of most requests in bytes. -/
def maxBody : Nat := 2 * 1024 * 1024

/-- The greatest archive in bytes. -/
def maxArchive : Nat := 64 * 1024 * 1024

/-- The record in the body of a request. -/
def recordOf (type : RecordType) (r : Request) : Except BodyFault (List Value) :=
  if !r.contentType.any isJson then .error .mediaType
  else if maxBody < r.body.size then .error .tooLarge
  else readBody type r.body.toList

/-- The status that a body is refused with. -/
def BodyFault.status : BodyFault → Nat
  | mediaType => 415
  | tooLarge => 413
  | notJson => 400
  | notRecord => 422

/-- The fields of a report of a state. -/
def statusRecord : RecordType := [
  { name := "communication_token", read := readText },
  { name := "test_id", read := readInteger },
  { name := "success", read := readTruth },
  { name := "state", read := readText }]

/-- The fields of a request to publish results. -/
def publishRecord : RecordType := [
  { name := "communication_token", read := readText },
  { name := "test_id", read := readInteger },
  { name := "ftp_results_directory", read := readText }]

/-- The fields of a request for an archive. -/
def downloadRecord : RecordType := [
  { name := "communication_token", read := readText },
  { name := "test_instance_id", read := readInteger },
  { name := "developer_defined_test_name", read := readText }]

end Http

/-! ## Responses of the service -/

open Http

/-- The response to a request that fails. Failures of storage are not explained. -/
def ServiceError.response (e : ServiceError) : Response :=
  match e with
  | .structural vs =>
    .envelope 400 "Error on validating the testing descriptor" .null (vs.map (·.message))
  | .semantic es => .envelope 400 "Error on validating test parameters" .null (es.map (·.message))
  | .metricsContract =>
    .envelope 400 "Badly defined parameters for the metrics collection process" .null [e.message]
  | .testbedNotFound _ | .invalidTestName _ | .missingArtifact _ | .noAgentAvailable _
      | .render _ =>
    .failure 400 e.message
  | .status (.unknownRun _) | .runNotFound _ => .failure 404 e.message
  | .status (.storage _) | .storage _ => .failure 500 "internal error"
  | .status _ => .failure 409 e.message
  | .unauthorized _ => .failure 401 e.message
  | .credentialProvisioning _ | .pipelineSubmission _ | .logRetrieval _ => .failure 502 e.message

/-- The response of a service. -/
def Service.respond {α : Type} (s : Service α) (out : α → Response) : Program Response := do
  match ← s.run with
  | .ok a => return out a
  | .error e => return e.response

/-- The response of a service that answers a document. -/
def Service.document {α : Type} (s : Service α) (out : α → Value) : Program Response :=
  s.respond fun a => .ok "" (out a)

/-- The version of the manager. -/
def version : String := "0.1.0"

/-- The media type of archives. -/
def archiveType : String := "application/tar+gzip"

/-- Passes the record of a body on, or refuses the body. -/
def withRecord (type : RecordType) (r : Request) (handle : List Value → Program Response) :
    Program Response :=
  match recordOf type r with
  | .ok vs => handle vs
  | .error e => return .refusal e.status

namespace Manager

/-- A sign of life. -/
def health (now : Timestamp) : Response :=
  .ok "" (.dict [("status", .str "ok"), ("timestamp", .str now), ("version", .str version)])

/-- Submits the descriptor in a body. -/
def postDescriptor (m : Manager) (r : Request) : Program Response :=
  if maxBody < r.body.size then return .refusal 413
  else match Text.Utf8.strict? r.body.toList with
    | none => return .refusal 400
    | some text =>
      (m.submitText text).respond fun receipt => .ok "A new build job was created" receipt.toValue

/-- Answers the log of the run in a query. -/
def getStatus (r : Request) : Program Response :=
  match (queryFields? ["run_id"] r.query).map fun vs => vs.map Decimal.readInteger? with
  | some [some runId] => (statusLog runId).document fun es => .list (es.map StatusEntry.toValue)
  | _ => return .refusal 400

/-- Records the state in a body. -/
def postStatus (r : Request) : Program Response :=
  withRecord statusRecord r fun
    | [.str token, .int runId, .bool success, .str name] =>
      match RunState.ofName? name with
      | none => return .failure 400 (RunState.unknownMessage name)
      | some state => (recordStatus runId token state success).document StatusEntry.toValue
    | _ => return .refusal BodyFault.notRecord.status

/-- Answers the report of the run in a query. -/
def getReport (r : Request) : Program Response :=
  match queryFields? ["test_id", "access_token"] r.query with
  | some [id, token] =>
    match Decimal.readInteger? id with
    | some runId => (report runId token).document RunReport.toValue
    | none => return .refusal 400
  | _ => return .refusal 400

/-- Publishes the results in a body. -/
def postResults (r : Request) : Program Response :=
  withRecord publishRecord r fun
    | [.str token, .int runId, .str directory] =>
      (publishResults runId token directory).document fun ts => .list (ts.map RunTest.toValue)
    | _ => return .refusal BodyFault.notRecord.status

/-- Answers the archive in a body. -/
def getArchive (r : Request) : Program Response :=
  withRecord downloadRecord r fun
    | [.str token, .int runId, .str fullName] =>
      (developerArchive runId token fullName).respond fun contents => .file archiveType contents
    | _ => return .refusal BodyFault.notRecord.status

/-- Answers the tests of the testbed in a query. -/
def getTests (r : Request) : Program Response :=
  match queryFields? ["testbed"] r.query with
  | some [testbedId] =>
    (testbedTests testbedId).document fun es => .list (es.map CatalogueEntry.toValue)
  | _ => return .refusal 400

/-- Keeps the archive in a body. -/
def putArchive (netappId name : List Char) (r : Request) : Program Response :=
  match pathText? netappId, pathText? name with
  | some netappId, some name =>
    if maxArchive < r.body.size then return .refusal 413
    else if r.body.isEmpty then return .failure 400 "empty archive"
    else (keepArchive netappId name r.body).respond fun path =>
      .ok "Stored developer-defined test" (.dict [("path", .str path)])
  | _, _ => return .refusal 400

/-- The response of a route to a method, which is not `HEAD`. -/
def respondAt (m : Manager) (now : Timestamp) (r : Request) (method : String) :
    Route → Program Response
  | .health => if method = "GET" then return health now else return .refusal 405
  | .newTest => if method = "POST" then m.postDescriptor r else return .refusal 405
  | .testStatus =>
    if method = "GET" then getStatus r
    else if method = "POST" then postStatus r
    else return .refusal 405
  | .testReport => if method = "GET" then getReport r else return .refusal 405
  | .publishResults => if method = "POST" then postResults r else return .refusal 405
  | .downloadArchive => if method = "GET" then getArchive r else return .refusal 405
  | .testsPerTestbed => if method = "GET" then getTests r else return .refusal 405
  | .uploadArchive netappId name =>
    if method = "PUT" then putArchive netappId name r else return .refusal 405

/-- The response to a request. A `HEAD` request is answered as `GET` without content, and the
options of any path are open to everyone. -/
def respond (m : Manager) (now : Timestamp) (r : Request) : Program Response := do
  if r.method = "OPTIONS" then return .refusal 200
  let method := if r.method = "HEAD" then "GET" else r.method
  let response ← match Route.ofPath? r.path with
    | some route => m.respondAt now r method route
    | none => pure (.envelope 404 "not found" .null [])
  return if r.method = "HEAD" then response.withoutContent else response

end Manager
end PipelineManager
