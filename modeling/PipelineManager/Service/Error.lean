import PipelineManager.Pipeline.Script
import PipelineManager.Schema.Check
import PipelineManager.Service.Call
import PipelineManager.Validation.Semantics

/-!
# Errors of the service

Why a request to the manager fails, and the service as programs that may fail.
-/

namespace PipelineManager

/-- Why a request fails. -/
inductive ServiceError where
  | structural (violations : List Schema.Violation)
  | semantic (errors : List SemanticError)
  | metricsContract
  | testbedNotFound (id : String)
  | invalidTestName (name : String)
  | missingArtifact (test : String)
  | noAgentAvailable (testbedId : String)
  | credentialProvisioning (cause : Fault)
  | render (e : RenderError)
  | pipelineSubmission (cause : Fault)
  | logRetrieval (cause : Fault)
  | status (e : StatusError)
  | unauthorized (runId : Int)
  | runNotFound (runId : Int)
  | storage (cause : Fault)
deriving Repr

namespace ServiceError

/-- How many errors there are, in words. -/
def countText (n : Nat) : String := "(" ++ Json.intText n ++ " errors)"

/-- The wording of an error. -/
def message : ServiceError → String
  | structural vs => "descriptor is malformed " ++ countText vs.length
  | semantic es => "descriptor does not match the testbed " ++ countText es.length
  | metricsContract => "metrics collection parameters do not satisfy the metrics contract"
  | testbedNotFound id => "testbed " ++ id ++ " does not exist"
  | invalidTestName name =>
    "test name " ++ Text.quoted name ++ " may only contain letters, digits, '_', '.' and '-'"
  | missingArtifact test => "developer-defined test " ++ test ++ " has no uploaded artifact"
  | noAgentAvailable testbedId => "no CI/CD agent of testbed " ++ testbedId ++ " is available"
  | credentialProvisioning cause => "failed to provision the communication token: " ++ cause.message
  | render e => "failed to render the pipeline script: " ++ e.message
  | pipelineSubmission cause => "failed to submit the pipeline: " ++ cause.message
  | logRetrieval cause => "failed to retrieve the build log: " ++ cause.message
  | status e => e.message
  | unauthorized runId => "invalid token for run " ++ Json.intText runId
  | runNotFound runId => unknownRunMessage runId
  | storage cause => cause.message

end ServiceError

/-- A program that may fail. -/
abbrev Service := ExceptT ServiceError Program

namespace Service

variable {α : Type}

/-- A single call. -/
def ask (c : Call) : Service c.Answer := ExceptT.lift (Program.ask c)

/-- The answer to a call, a failure being one of storage. -/
def stored (r : Except Fault α) : Service α :=
  match r with
  | .ok a => return a
  | .error e => throw (.storage e)

/-- Goes on when something holds, and fails otherwise. -/
def require (holds : Bool) (e : ServiceError) : Service Unit := if holds then return () else throw e

/-- The result of a part of a service, whether it fails or not. -/
def result (s : Service α) : Service (Except ServiceError α) := ExceptT.lift s.run

end Service
end PipelineManager
