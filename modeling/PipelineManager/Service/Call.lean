import PipelineManager.Agent.Fleet
import PipelineManager.Store.StatusLog
import PipelineManager.Warehouse.Basic

/-!
# Calls and programs

What the manager does is a sequence of calls on what surrounds it: the store, the warehouse and
the agents. A `Program` is such a sequence, each call depending on the answers to those before.
It can be carried out with any answers, so that failures and other programs in between can be
reasoned about.
-/

namespace PipelineManager

/-- The calls on the store that concern runs. -/
inductive RunCall where
  | createRun
  | getRun
  | setRunAgent
  | setCommunicationToken
  | setJob
  | setResultLocations
  | addRunTest
  | listRunTests
  | recordTestResult
deriving DecidableEq, Repr, Inhabited

namespace RunCall

/-- All calls that concern runs. -/
def all : List RunCall :=
  [createRun, getRun, setRunAgent, setCommunicationToken, setJob, setResultLocations, addRunTest,
    listRunTests, recordTestResult]

/-- The name of a call. -/
def name : RunCall → String
  | createRun => "create_run"
  | getRun => "get_run"
  | setRunAgent => "set_run_agent"
  | setCommunicationToken => "set_communication_token"
  | setJob => "set_job"
  | setResultLocations => "set_result_locations"
  | addRunTest => "add_run_test"
  | listRunTests => "list_run_tests"
  | recordTestResult => "record_test_result"

/-- The call of a name. -/
def ofName? (name : String) : Option RunCall := all.find? fun c => c.name = name

end RunCall

/-- Why a call fails. -/
inductive Fault where
  | store (e : StoreFault)
  | warehouse (e : WarehouseFault)
  | broken (call : RunCall)
  | refused (call : AgentCall)
  | runWithoutAgent (runId : Int)
  | agentGone (agentId : Int)
  | runWithoutJob (runId : Int)
deriving DecidableEq, Repr

/-- The wording of a failure. -/
def Fault.message : Fault → String
  | store e => e.message
  | warehouse e => e.message
  | broken call => call.name ++ " broken"
  | refused call => call.name ++ " refused"
  | runWithoutAgent runId => "run " ++ Json.intText runId ++ " has no agent"
  | agentGone agentId => "agent " ++ Json.intText agentId ++ " is no longer registered"
  | runWithoutJob runId => "run " ++ Json.intText runId ++ " has no job"

/-- A call on what surrounds the manager. -/
inductive Call where
  | testbed (id : String)
  | tests (testbedId : String)
  | appendStatus (runId : Int) (state : RunState) (success : Bool)
  | statusLog (runId : Int)
  | createRun (new : NewRun)
  | run (id : Int)
  | setRunAgent (id agentId : Int)
  | setCommunicationToken (id : Int) (token : String)
  | setJob (id : Int) (jobName : String) (buildNumber : Option Nat)
  | setResultLocations (id : Int) (logLocation resultsLocation : String)
  | addRunTest (runId : Int) (new : NewRunTest)
  | runTests (runId : Int)
  | recordTestResult (id : Int) (success : Bool) (startedAt endedAt : Option String)
  | agentsOf (testbedId : String)
  | agent (id : Int)
  | probe (agent : Agent)
  | createCredential (agent : Agent) (name value description : String)
  | submitJob (agent : Agent) (name script : String)
  | startJob (agent : Agent) (name : String)
  | lastBuildNumber (agent : Agent) (name : String)
  | fetchLog (agent : Agent) (name : String) (build : Nat)
  | upload (path : String) (contents : ByteArray)
  | download (path : String)
  | holds (path : String)
  | newAccessToken
  | newCommunicationToken (runId : Int)

/-- The type of the answer to a call. -/
@[reducible] def Call.Answer : Call → Type
  | testbed _ => Option Testbed
  | tests _ => List CatalogueEntry
  | appendStatus _ _ _ => Except StatusError StatusEntry
  | statusLog _ => Except Fault (List StatusEntry)
  | createRun _ => Except Fault Run
  | run _ => Except Fault (Option Run)
  | setRunAgent _ _ => Except Fault Unit
  | setCommunicationToken _ _ => Except Fault Unit
  | setJob _ _ _ => Except Fault Unit
  | setResultLocations _ _ _ => Except Fault Unit
  | addRunTest _ _ => Except Fault RunTest
  | runTests _ => Except Fault (List RunTest)
  | recordTestResult _ _ _ _ => Except Fault Unit
  | agentsOf _ => Except Fault (List Agent)
  | agent _ => Except Fault (Option Agent)
  | probe _ => Option Probe
  | createCredential _ _ _ _ => Except Fault Unit
  | submitJob _ _ _ => Except Fault Unit
  | startJob _ _ => Except Fault Nat
  | lastBuildNumber _ _ => Except Fault Nat
  | fetchLog _ _ _ => Except Fault String
  | upload _ _ => Except Fault Unit
  | download _ => Except Fault ByteArray
  | holds _ => Except Fault Bool
  | newAccessToken => String
  | newCommunicationToken _ => String

/-- A sequence of calls that ends with a result. -/
inductive Program (α : Type) where
  | done (a : α)
  | call (c : Call) (next : c.Answer → Program α)

namespace Program

variable {α β σ : Type}

/-- One program after the other. -/
def bind : Program α → (α → Program β) → Program β
  | done a, next => next a
  | call c answered, next => call c fun r => (answered r).bind next

instance : Monad Program where
  pure := done
  bind := bind

/-- A single call. -/
def ask (c : Call) : Program c.Answer := call c done

/-- Carries out a program where every call is answered by `answer`. -/
def run (answer : (c : Call) → σ → c.Answer × σ) : Program α → σ → α × σ
  | done a, s => (a, s)
  | call c next, s => (next (answer c s).1).run answer (answer c s).2

/-- A program that is done leaves the state. -/
@[simp] theorem run_done (answer : (c : Call) → σ → c.Answer × σ) (a : α) (s : σ) :
    (done a).run answer s = (a, s) := rfl

/-- A program that makes a call goes on with the answer. -/
@[simp] theorem run_call (answer : (c : Call) → σ → c.Answer × σ) (c : Call)
    (next : c.Answer → Program α) (s : σ) :
    (call c next).run answer s = (next (answer c s).1).run answer (answer c s).2 := rfl

/-- A sequence of programs runs them one after the other. -/
theorem run_bind (answer : (c : Call) → σ → c.Answer × σ) (p : Program α) (next : α → Program β)
    (s : σ) :
    (p.bind next).run answer s = (next (p.run answer s).1).run answer (p.run answer s).2 := by
  induction p generalizing s with
  | done a => rfl
  | call c answered ih => exact ih _ _

end Program
end PipelineManager
