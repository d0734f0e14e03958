/-!
# Agents

The agents of a testbed carry out pipelines. `selectAgent` takes the one that is least busy.
-/

namespace PipelineManager

/-- A registered agent. -/
structure Agent where
  id : Int
  testbedId : String
  url : String
  username : String
  password : String
deriving DecidableEq, Repr, Inhabited

/-- What an agent says when it is probed. -/
structure Probe where
  reachable : Bool
  activeJobs : Nat
deriving DecidableEq, Repr, Inhabited

/-- What is assumed of an agent that does not answer. -/
def Probe.unreachable : Probe := ⟨false, 0⟩

/-- The less busy of two agents, the first of equals. -/
def lessBusy (a b : Agent × Probe) : Agent × Probe :=
  if b.2.activeJobs < a.2.activeJobs then b else a

/-- The first of the least busy agents. -/
def leastBusy? : List (Agent × Probe) → Option (Agent × Probe)
  | [] => none
  | a :: rest => some (rest.foldl lessBusy a)

/-- Of agents with the answers to their probes, the reachable one with the fewest active jobs, and
of equals the one with the least id. An agent whose probe is not answered in time is not
reachable. -/
def selectAgent (probed : List (Agent × Option Probe)) : Option (Agent × Probe) :=
  let byId := probed.mergeSort fun a b => a.1.id ≤ b.1.id
  leastBusy? ((byId.map fun a => (a.1, a.2.getD .unreachable)).filter fun a => a.2.reachable)

end PipelineManager
