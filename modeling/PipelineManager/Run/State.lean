/-!
# The lifecycle of a run

A run passes through fourteen states in a fixed order. `Transition.check` says whether a report
may follow the latest one: only a later state is recorded, and an exact repeat changes nothing.
-/

namespace PipelineManager

/-- The states of a run, in the only order in which they may be recorded. -/
inductive RunState where
  | submittedToManager
  | authenticatedOnAgent
  | createdCommunicationToken
  | createdPipelineScript
  | submittedPipelineScript
  | environmentSetup
  | obtainedMetricsFiles
  | startedMonitoring
  | obtainedTests
  | performedTests
  | endedMonitoring
  | publishedResults
  | cleanedEnvironment
  | testEnded
deriving DecidableEq, Repr, Inhabited

namespace RunState

/-- All states in order. -/
def all : List RunState :=
  [submittedToManager, authenticatedOnAgent, createdCommunicationToken, createdPipelineScript,
    submittedPipelineScript, environmentSetup, obtainedMetricsFiles, startedMonitoring,
    obtainedTests, performedTests, endedMonitoring, publishedResults, cleanedEnvironment, testEnded]

/-- The name of a state in reports. -/
def name : RunState → String
  | submittedToManager => "SUBMITTED_TO_CI_CD_MANAGER"
  | authenticatedOnAgent => "AUTHENTICATED_ON_CI_CD_AGENT"
  | createdCommunicationToken => "CREATED_COMMUNICATION_TOKEN_ON_CI_CD_AGENT"
  | createdPipelineScript => "CREATED_PIPELINE_SCRIPT"
  | submittedPipelineScript => "SUBMITTED_PIPELINE_SCRIPT"
  | environmentSetup => "ENVIRONMENT_SETUP_CI_CD_AGENT"
  | obtainedMetricsFiles => "OBTAINED_METRICS_COLLECTION_FILES"
  | startedMonitoring => "STARTED_MONITORING"
  | obtainedTests => "OBTAINED_TESTS_ON_CI_CD_AGENT"
  | performedTests => "PERFORMED_TESTS_ON_CI_CD_AGENT"
  | endedMonitoring => "ENDED_MONITORING"
  | publishedResults => "PUBLISHED_TEST_RESULTS"
  | cleanedEnvironment => "CLEANED_TEST_ENVIRONMENT"
  | testEnded => "TEST_ENDED"

/-- The state of a name. -/
def ofName? (name : String) : Option RunState := all.find? fun s => s.name = name

/-- The place of a state in the lifecycle, from 0 on. -/
def ordinal : RunState → Nat
  | submittedToManager => 0
  | authenticatedOnAgent => 1
  | createdCommunicationToken => 2
  | createdPipelineScript => 3
  | submittedPipelineScript => 4
  | environmentSetup => 5
  | obtainedMetricsFiles => 6
  | startedMonitoring => 7
  | obtainedTests => 8
  | performedTests => 9
  | endedMonitoring => 10
  | publishedResults => 11
  | cleanedEnvironment => 12
  | testEnded => 13

/-- Whether a running pipeline reports the state: those after the submission of its script. -/
def isAgentReported (s : RunState) : Bool := decide (submittedPipelineScript.ordinal < s.ordinal)

/-- The name of a state is read back as that state. -/
@[simp] theorem ofName?_name (s : RunState) : ofName? s.name = some s := by cases s <;> rfl

/-- The wording for a name that is no state. -/
def unknownMessage (name : String) : String := "unknown test state: " ++ name

end RunState

/-- A state is reported after a later or equal one. -/
structure NotForward where
  latest : RunState
  requested : RunState
deriving DecidableEq, Repr

/-- The wording of a report that comes too late. -/
def NotForward.message (e : NotForward) : String :=
  e.requested.name ++ " cannot be recorded after " ++ e.latest.name

/-- What becomes of an admissible report. -/
inductive Transition where
  | append
  | repeat
deriving DecidableEq, Repr

/-- Whether a report may follow the latest one. -/
def Transition.check (latest : Option (RunState × Bool)) (state : RunState) (success : Bool) :
    Except NotForward Transition :=
  match latest with
  | none => .ok .append
  | some (l, s) =>
    if l = state ∧ s = success then .ok .repeat
    else if l.ordinal < state.ordinal then .ok .append
    else .error ⟨l, state⟩

/-- A later state is recorded, whatever the outcomes. -/
theorem Transition.check_of_lt {l state : RunState} (h : l.ordinal < state.ordinal)
    (s success : Bool) :
    Transition.check (some (l, s)) state success = .ok .append := by
  have hne : l ≠ state := fun heq => by subst heq; omega
  simp [Transition.check, hne, h]

/-- A state that is not later is an exact repeat or refused. -/
theorem Transition.check_of_le {l state : RunState} (h : state.ordinal ≤ l.ordinal)
    (s success : Bool) :
    Transition.check (some (l, s)) state success =
      if l = state ∧ s = success then .ok .repeat else .error ⟨l, state⟩ := by
  have hnot : ¬ l.ordinal < state.ordinal := by omega
  simp only [Transition.check, if_neg hnot]

end PipelineManager
