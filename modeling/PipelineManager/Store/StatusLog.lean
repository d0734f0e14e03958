import PipelineManager.Store.Basic

/-!
# The status log

Each run has a log of its states. A report is recorded when its state is later than that of the
latest entry; an exact repeat of the latest entry changes nothing. States are kept by their names
and read back from them.
-/

namespace PipelineManager

/-- An entry of the status log of a run. -/
structure StatusEntry where
  runId : Int
  seq : Nat
  state : RunState
  success : Bool
  recordedAt : Timestamp
deriving DecidableEq, Repr, Inhabited

/-- The row in which an entry is kept. -/
def StatusEntry.toRow (e : StatusEntry) : StatusRow where
  runId := e.runId
  seq := e.seq
  state := e.state.name
  success := e.success
  recordedAt := e.recordedAt

/-- The entry of a row. -/
def StatusRow.entry (r : StatusRow) : Except StoreFault StatusEntry :=
  match RunState.ofName? r.state with
  | some state =>
    .ok { runId := r.runId, seq := r.seq, state, success := r.success, recordedAt := r.recordedAt }
  | none => .error (.unknownState r.state)

/-- Why a report is refused. -/
inductive StatusError where
  | unknownRun (runId : Int)
  | notForward (e : NotForward)
  | notAgentReported (state : RunState)
  | storage (e : StoreFault)
deriving DecidableEq, Repr

/-- The wording for a run that does not exist. -/
def unknownRunMessage (runId : Int) : String := "run " ++ Json.intText runId ++ " does not exist"

/-- The wording of a refusal. -/
def StatusError.message : StatusError → String
  | unknownRun runId => unknownRunMessage runId
  | notForward e => e.message
  | notAgentReported state => state.name ++ " is not reported by agents"
  | storage e => e.message

namespace Store

/-- The rows of the log of a run, oldest first. -/
def statusRows (s : Store) (runId : Int) : List StatusRow :=
  s.statuses.filter fun r => r.runId = runId

/-- The log of a run, oldest entry first. -/
def statusLog (s : Store) (runId : Int) : Except StoreFault (List StatusEntry) :=
  (s.statusRows runId).mapM StatusRow.entry

/-- The latest entry of the log of a run. -/
def latestStatus? (s : Store) (runId : Int) : Except StoreFault (Option StatusEntry) :=
  match (s.statusRows runId).getLast? with
  | none => .ok none
  | some r => r.entry.map some

/-- Adds an entry behind the latest one of its run. -/
def pushStatus (s : Store) (latest : Option StatusEntry) (runId : Int) (state : RunState)
    (success : Bool) (now : Timestamp) : Store × StatusEntry :=
  let seq := match latest with
    | some e => e.seq + 1
    | none => 0
  let entry : StatusEntry := { runId, seq, state, success, recordedAt := now }
  ({ s with statuses := s.statuses ++ [entry.toRow] }, entry)

/-- Records a report on a run. The answer is the latest entry afterwards. -/
def appendStatus (s : Store) (runId : Int) (state : RunState) (success : Bool) (now : Timestamp) :
    Except StatusError (Store × StatusEntry) :=
  if (s.run? runId).isNone then .error (.unknownRun runId)
  else
    match s.latestStatus? runId with
    | .error e => .error (.storage e)
    | .ok latest =>
      match Transition.check (latest.map fun e => (e.state, e.success)) state success with
      | .error e => .error (.notForward e)
      | .ok .repeat =>
        match latest with
        | some e => .ok (s, e)
        | none => .error (.storage .missingLatestStatus)
      | .ok .append => .ok (s.pushStatus latest runId state success now)

end Store
end PipelineManager
