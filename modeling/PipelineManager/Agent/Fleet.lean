import PipelineManager.Agent.Basic

/-!
# A fleet of agents

The agents that the manager gives work to, as it sees them: they answer calls and remember what
they were asked to do. A fleet may refuse any kind of call; a refused call leaves no trace.
-/

namespace PipelineManager

/-- The kinds of calls to a fleet. -/
inductive AgentCall where
  | listAgents
  | agent
  | submit
  | start
  | lastBuildNumber
  | fetchLog
  | createCredential
deriving DecidableEq, Repr, Inhabited

namespace AgentCall

/-- All kinds of calls. -/
def all : List AgentCall :=
  [listAgents, agent, submit, start, lastBuildNumber, fetchLog, createCredential]

/-- The name of a kind of call. -/
def name : AgentCall → String
  | listAgents => "list_agents"
  | agent => "agent"
  | submit => "submit"
  | start => "start"
  | lastBuildNumber => "last_build_number"
  | fetchLog => "fetch_log"
  | createCredential => "create_credential"

/-- The kind of call of a name. -/
def ofName? (name : String) : Option AgentCall := all.find? fun c => c.name = name

end AgentCall

/-- An agent of the fleet and the answer to its probe, none when it never answers. -/
structure FleetAgent where
  agent : Agent
  probe : Option Probe
deriving DecidableEq, Repr, Inhabited

/-- A secret text that an agent keeps. -/
structure Credential where
  agentId : Int
  name : String
  value : String
  description : String
deriving DecidableEq, Repr, Inhabited

/-- A job on an agent. -/
structure Job where
  agentId : Int
  name : String
  script : String
deriving DecidableEq, Repr, Inhabited

/-- A request for the log of a build. -/
structure LogRequest where
  agentId : Int
  jobName : String
  build : Nat
deriving DecidableEq, Repr, Inhabited

/-- The agents, the kinds of calls that they refuse, what they answer, and what they were asked to
do, in order. -/
structure Fleet where
  agents : List FleetAgent := []
  refusing : List AgentCall := []
  buildNumber : Nat := 0
  lastBuild : Nat := 0
  log : String := ""
  credentials : List Credential := []
  jobs : List Job := []
  logRequests : List LogRequest := []
deriving DecidableEq, Repr, Inhabited

namespace Fleet

/-- The fleet without an agent. -/
def remove (f : Fleet) (id : Int) : Fleet :=
  { f with agents := f.agents.filter fun a => a.agent.id ≠ id }

/-- Puts an agent behind the others, instead of one with its identifier. -/
def put (f : Fleet) (a : FleetAgent) : Fleet :=
  let f := f.remove a.agent.id
  { f with agents := f.agents ++ [a] }

/-- The agents of a testbed. -/
def agentsOf (f : Fleet) (testbedId : String) : List Agent :=
  (f.agents.map (·.agent)).filter fun a => a.testbedId = testbedId

/-- The agent of an identifier. -/
def agent? (f : Fleet) (id : Int) : Option Agent :=
  (f.agents.map (·.agent)).find? fun a => a.id = id

/-- The answer to the probe of an agent. -/
def probe (f : Fleet) (id : Int) : Option Probe :=
  (f.agents.find? fun a => a.agent.id = id).bind (·.probe)

end Fleet
end PipelineManager
