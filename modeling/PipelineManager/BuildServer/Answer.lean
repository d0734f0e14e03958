import PipelineManager.BuildServer.Dialogue
import PipelineManager.Document.Field
import PipelineManager.Http.Record

/-!
# Answers of a build server

Why an operation on a build server fails, and the documents with which a server answers. A document
is the record in the body of an answer. It may have more fields than are read; one that lacks a
field, gives it twice or with another type, is none of its kind.
-/

namespace PipelineManager.BuildServer

/-- The operations that a server answers, and the making of the addresses for them. -/
inductive Operation where
  | buildUrl
  | whoAmI
  | listJobs
  | crumb
  | createJob
  | jobInfo
  | buildJob
  | consoleText
  | generateToken
  | deleteCredential
  | createCredential
  | revokeToken
deriving DecidableEq, Repr, Inhabited

/-- The name of an operation. -/
def Operation.name : Operation → String
  | buildUrl => "build url"
  | whoAmI => "whoami"
  | listJobs => "list jobs"
  | crumb => "crumb"
  | createJob => "create job"
  | jobInfo => "job info"
  | buildJob => "build job"
  | consoleText => "console text"
  | generateToken => "generate token"
  | deleteCredential => "delete credential"
  | createCredential => "create credential"
  | revokeToken => "revoke token"

/-- What may be wrong with an answer, or with the address of a server. -/
inductive AnswerFault where
  | noHost (address : String)
  | unreadable
  | noNextBuild
  | noBuilds (job : String)
deriving DecidableEq, Repr

/-- Why an operation fails. -/
inductive Fault where
  | notConnected
  | status (o : Operation) (code : Nat)
  | noAnswer (o : Operation)
  | answer (o : Operation) (fault : AnswerFault)
deriving DecidableEq, Repr

/-- The wording of what is wrong with an answer. -/
def AnswerFault.detail : AnswerFault → String
  | noHost address => address ++ ": empty host"
  | unreadable => "unreadable document"
  | noNextBuild => "missing nextBuildNumber"
  | noBuilds job => "job " ++ job ++ " has no builds"

/-- The wording of a failure. -/
def Fault.message : Fault → String
  | notConnected => "not connected to a Jenkins server"
  | status o code => o.name ++ " failed with HTTP " ++ Nat.repr code
  | noAnswer o => "transport error during " ++ o.name
  | answer o fault => "unexpected response to " ++ o.name ++ ": " ++ fault.detail

/-- Whether a status is one of success. -/
def isSuccess (code : Nat) : Bool := 200 ≤ code && code < 300

/-! ## Documents -/

/-- A kind of document: the fields of its record, and what is made of their values. -/
structure Document (α : Type) where
  fields : Http.RecordType
  make : List Value → Option α

/-- Reads a body as a document. -/
def Document.read? {α : Type} (d : Document α) (body : ByteArray) : Option α :=
  match Http.readBody d.fields body.toList with
  | .ok vs => d.make vs
  | .error _ => none

/-- What is made of a value that may be null. -/
def orNull? {α : Type} (make : Value → Option α) : Value → Option (Option α)
  | .null => some none
  | v => (make v).map some

/-- The user whom the server knows by the credentials. -/
def userDocument : Document String where
  fields := [{ name := "id", read := Http.readText }]
  make
    | [.str id] => some id
    | _ => none

/-- A header that every change of the server's state has to carry. -/
structure Crumb where
  field : String
  value : String
deriving DecidableEq, Repr, Inhabited

/-- The header of a crumb. -/
def Crumb.header (c : Crumb) : String × String := (c.field, c.value)

/-- The document with a crumb. -/
def crumbDocument : Document Crumb where
  fields := [
    { name := "crumb", read := Http.readText },
    { name := "crumbRequestField", read := Http.readText }]
  make
    | [.str value, .str field] => some { field, value }
    | _ => none

/-- The fields of a job in a list of jobs. -/
def jobFields : Http.RecordType :=
  [{ name := "color", read := Http.readOptional Http.readText, default? := some .null }]

/-- The document with the colours of the jobs, where they have one. -/
def jobsDocument : Document (List (Option String)) where
  fields := [{
    name := "jobs"
    read := Http.readList (Http.readPart jobFields)
    default? := some (.list []) }]
  make
    | [.list jobs] => jobs.mapM fun
      | .list [colour] => orNull? Value.text? colour
      | _ => none
    | _ => none

/-- The end of the colour of a job with a build in progress. -/
def inProgress : List Char := "_anime".toList

/-- Whether a job of a colour has a build in progress. -/
def isInProgress (colour : Option String) : Bool :=
  match colour with
  | some c => inProgress.isSuffixOf c.toList
  | none => false

/-- The numbers of the next build of a job and of its last one. -/
structure BuildNumbers where
  next : Option Nat
  last : Option Nat
deriving DecidableEq, Repr, Inhabited

/-- The document with the numbers of builds. -/
def buildsDocument : Document BuildNumbers where
  fields := [
    {
      name := "nextBuildNumber"
      read := Http.readOptional Http.readNatural
      default? := some .null },
    {
      name := "lastBuild"
      read := Http.readOptional (Http.readPart [{ name := "number", read := Http.readNatural }])
      default? := some .null }]
  make
    | [next, last] => do
      return {
        next := ← orNull? Value.nat? next
        last := ← orNull? (fun
          | .list [number] => number.nat?
          | _ => none) last }
    | _ => none

/-- A token that stands for the password until it is revoked. -/
structure ApiToken where
  uuid : String
  value : String
deriving DecidableEq, Repr, Inhabited

/-- The fields of a token. -/
def tokenFields : Http.RecordType := [
  { name := "tokenUuid", read := Http.readText },
  { name := "tokenValue", read := Http.readText }]

/-- The document with a new token. -/
def tokenDocument : Document ApiToken where
  fields := [{ name := "data", read := Http.readPart tokenFields }]
  make
    | [.list [.str uuid, .str value]] => some { uuid, value }
    | _ => none

end PipelineManager.BuildServer
