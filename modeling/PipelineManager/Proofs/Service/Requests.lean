import PipelineManager.Proofs.Service.Session

/-!
# What requests ask for

A submission makes a run, and all other requests come after it: they look runs up, ask agents for
what they know of builds, keep files and record what became of a run. None of them makes anything
that a submission makes, and only a status report of a run adds to its log.
-/

namespace PipelineManager

namespace Call

/-- Whether a call asks an agent for what it knows of builds. -/
def IsInquiry : Call → Prop
  | agent _ | lastBuildNumber _ _ | fetchLog _ _ _ => True
  | _ => False

/-- Whether a call is one by which the log of a build is fetched and kept. -/
def KeepsLog : Call → Prop
  | upload _ _ | setResultLocations _ _ _ | runTests _ => True
  | c => c.IsInquiry

/-- Whether a call only reads, apart from what agents remember. -/
def IsReading : Call → Prop
  | run _ | runTests _ | download _ | agent _ | lastBuildNumber _ _ | fetchLog _ _ _ => True
  | _ => False

/-- Whether a call makes nothing of what submissions make: no run, no token, no registered test, no
credential and no job. -/
def IsFollowUp : Call → Prop
  | createRun _ | setRunAgent _ _ | setCommunicationToken _ _ | setJob _ _ _ | addRunTest _ _ =>
    False
  | createCredential _ _ _ _ | submitJob _ _ _ | startJob _ _ => False
  | _ => True

/-- Whether a call makes nothing of what submissions make, and reports on no run but `reported`. -/
def FollowsUp (reported : Option Int) : Call → Prop
  | appendStatus runId _ _ => reported = some runId
  | c => c.IsFollowUp

/-- An inquiry only reads. -/
theorem IsInquiry.isReading {c : Call} (h : c.IsInquiry) : c.IsReading := by
  cases c <;> trivial

/-- An inquiry is a part of fetching a log. -/
theorem IsInquiry.keepsLog {c : Call} (h : c.IsInquiry) : c.KeepsLog := by
  cases c <;> trivial

/-- To fetch and keep a log makes nothing of what submissions make. -/
theorem KeepsLog.followsUp {c : Call} (h : c.KeepsLog) (reported : Option Int) :
    c.FollowsUp reported := by
  cases c <;> trivial

/-- A call that only reads makes nothing of what submissions make. -/
theorem IsReading.followsUp {c : Call} (h : c.IsReading) (reported : Option Int) :
    c.FollowsUp reported := by
  cases c <;> trivial

/-- A call that reports on one run at most makes nothing of what submissions make. -/
theorem FollowsUp.isFollowUp {reported : Option Int} {c : Call} (h : c.FollowsUp reported) :
    c.IsFollowUp := by
  cases c <;> trivial

end Call

open Service

/-- To look up a run, calls only read. -/
theorem asks_existingRun (runId : Int) : Asks Call.IsReading (Manager.existingRun runId) := by
  refine asks_bind (asks_ask trivial) fun r => asks_bind (asks_stored r) fun found => ?_
  cases found with
  | none => exact asks_throw _
  | some r => exact asks_pure r

/-- To authorize a callback, calls only read. -/
theorem asks_authorizedRun (runId : Int) (token : String) :
    Asks Call.IsReading (Manager.authorizedRun runId token) :=
  asks_bind (asks_existingRun runId) fun r => asks_bind (asks_require _ _) fun _ => asks_pure r

/-- To require that something is there, nothing is asked. -/
theorem asks_given {α : Type} (P : Call → Prop) (a : Option α) (e : Fault) :
    Asks P (Manager.given a e) := by
  cases a with
  | none => exact asks_throw _
  | some a => exact asks_pure a

/-- To look at what the agents have answered about a log, nothing is asked. -/
theorem asks_logged {α : Type} (P : Call → Prop) (r : Except Fault α) :
    Asks P (Manager.logged r) := by
  cases r with
  | error e => exact asks_throw _
  | ok a => exact asks_pure a

/-- To fetch a log, only agents are asked. -/
theorem asks_buildLog (r : Run) : Asks Call.IsInquiry (Manager.buildLog r) := by
  refine asks_bind (asks_given _ _ _) fun agentId => asks_bind (asks_ask trivial) fun found => ?_
  refine asks_bind (asks_logged _ found) fun known =>
    asks_bind (asks_given _ known _) fun agent => ?_
  refine asks_bind (asks_given _ _ _) fun job => ?_
  have hfetch : ∀ build, Asks Call.IsInquiry (do
      Manager.logged (← Service.ask (.fetchLog agent job build))) := fun build =>
    asks_bind (asks_ask trivial) fun log => asks_logged _ log
  cases r.buildNumber with
  | some build => exact hfetch build
  | none =>
    exact asks_bind (asks_ask trivial) fun number => asks_bind (asks_logged _ number) fun build =>
      hfetch build

/-- To hand out an archive, calls only read. -/
theorem asks_developerArchive (runId : Int) (token fullName : String) :
    Asks Call.IsReading (Manager.developerArchive runId token fullName) := by
  refine asks_bind (asks_authorizedRun runId token) fun _ =>
    asks_bind (asks_ask trivial) fun r => ?_
  refine asks_bind (asks_stored r) fun tests => ?_
  cases (tests.find? fun t => t.developerDefined ∧ t.fullName = fullName).bind (·.artifactPath) with
  | none => exact asks_throw _
  | some path => exact asks_bind (asks_ask trivial) fun contents => asks_stored contents

/-- A report of a state is about its own run. -/
theorem asks_recordStatus (runId : Int) (token : String) (state : RunState) (success : Bool) :
    Asks (Call.FollowsUp (some runId)) (Manager.recordStatus runId token state success) := by
  have hauthorized : Asks (Call.FollowsUp (some runId)) (Manager.authorizedRun runId token) :=
    (asks_authorizedRun runId token).mono fun _ h => h.followsUp _
  refine asks_bind hauthorized fun r => asks_bind (asks_require _ _) fun _ => ?_
  refine asks_bind (asks_ask rfl) fun result => ?_
  cases result with
  | ok entry => exact asks_pure entry
  | error e => exact asks_throw _

/-- To record verdicts makes nothing of what submissions make. -/
theorem asks_recordVerdicts (resultsDir : String) (ts : List RunTest) :
    Asks (Call.FollowsUp none) (Manager.recordVerdicts resultsDir ts) := by
  induction ts with
  | nil => exact asks_pure ()
  | cons t rest ih =>
    have hverdict : Asks (Call.FollowsUp none) (Manager.recordVerdict resultsDir t) :=
      asks_bind (asks_ask trivial) fun contents => asks_bind (asks_ask trivial) fun result =>
        asks_stored result
    exact asks_bind hverdict fun _ => ih

/-! ## Publications of results -/

/-- What is left of the collection of results when the log is stored. -/
def Manager.locateResults (runId : Int) (resultsDir : String) : Service (List RunTest) := do
  Service.stored (← Service.ask (.setResultLocations runId (logPath resultsDir) resultsDir))
  Service.stored (← Service.ask (.runTests runId))

/-- What is left of the collection of results when the log is there. -/
def Manager.storeLog (runId : Int) (resultsDir log : String) : Service (List RunTest) := do
  Service.stored (← Service.ask (.upload (logPath resultsDir) log.toUTF8))
  locateResults runId resultsDir

/-- What is left of the collection of results when the verdicts are recorded. -/
def Manager.keepLog (r : Run) (runId : Int) (resultsDir : String) : Service (List RunTest) := do
  let log ← buildLog r
  storeLog runId resultsDir log

/-- What is left of the collection of results when the run is let in. -/
def Manager.collectResults (r : Run) (runId : Int) (resultsDir : String) :
    Service (List RunTest) := do
  let ts ← Service.stored (← Service.ask (.runTests runId))
  recordVerdicts resultsDir ts
  keepLog r runId resultsDir

/-- A publication is authorized, and then collects the results. -/
theorem Manager.publishResults_eq (runId : Int) (token directory : String) :
    publishResults runId token directory = (do
      let r ← authorizedRun runId token
      collectResults r runId (Text.dropEndSlashes directory)) := rfl

/-- To keep a log, calls fetch it, store it and tell where it is. -/
theorem asks_keepLog (r : Run) (runId : Int) (resultsDir : String) :
    Asks Call.KeepsLog (Manager.keepLog r runId resultsDir) := by
  refine asks_bind ((asks_buildLog r).mono fun _ => Call.IsInquiry.keepsLog) fun log => ?_
  refine asks_bind (asks_ask trivial) fun uploaded => asks_bind (asks_stored uploaded) fun _ => ?_
  refine asks_bind (asks_ask trivial) fun located => asks_bind (asks_stored located) fun _ => ?_
  exact asks_bind (asks_ask trivial) fun listed => asks_stored listed

/-- A publication makes nothing of what submissions make. -/
theorem asks_publishResults (runId : Int) (token directory : String) :
    Asks (Call.FollowsUp none) (Manager.publishResults runId token directory) := by
  have hauthorized : Asks (Call.FollowsUp none) (Manager.authorizedRun runId token) :=
    (asks_authorizedRun runId token).mono fun _ h => h.followsUp _
  have hlog (r : Run) :
      Asks (Call.FollowsUp none) (Manager.keepLog r runId (Text.dropEndSlashes directory)) :=
    (asks_keepLog r runId _).mono fun _ h => h.followsUp _
  rw [Manager.publishResults_eq]
  refine asks_bind hauthorized fun r => asks_bind (asks_ask trivial) fun found => ?_
  refine asks_bind (asks_stored found) fun ts => ?_
  exact asks_bind (asks_recordVerdicts _ ts) fun _ => hlog r

/-! ## Requests -/

/-- The run that a callback reports on. -/
def Callback.reported? (runId : Int) : Callback → Option Int
  | recordStatus _ _ => some runId
  | _ => none

/-- The run that a request reports on, if it is no submission. -/
def ServiceRequest.reported? : ServiceRequest → Option Int
  | callback runId _ c => c.reported? runId
  | _ => none

/-- A callback makes nothing of what submissions make, and reports on its own run at most. -/
theorem Callback.asks_service (c : Callback) (runId : Int) (token : String) :
    Asks (Call.FollowsUp (c.reported? runId)) (c.service runId token) := by
  cases c with
  | recordStatus state success => exact asks_recordStatus runId token state success
  | publishResults directory => exact asks_publishResults runId token directory
  | developerArchive fullName =>
    exact (asks_developerArchive runId token fullName).mono fun _ h => h.followsUp _

/-- Only a submission makes what submissions make, and only a status report is recorded. -/
theorem ServiceRequest.asks_service (q : ServiceRequest) (hq : ∀ m d, q ≠ .submit m d) :
    Asks (Call.FollowsUp q.reported?) q.service := by
  cases q with
  | submit m d => exact absurd rfl (hq m d)
  | callback runId token c => exact c.asks_service runId token
  | report runId token =>
    have hexisting : Asks (Call.FollowsUp none) (Manager.existingRun runId) :=
      (asks_existingRun runId).mono fun _ h => h.followsUp _
    refine asks_bind hexisting fun run => asks_bind (asks_require _ _) fun _ => ?_
    refine asks_bind (asks_ask trivial) fun log => ?_
    refine asks_bind (asks_stored log) fun status => asks_bind (asks_ask trivial) fun listed => ?_
    exact asks_bind (asks_stored listed) fun tests => asks_pure _
  | keepArchive netappId name archive =>
    refine asks_bind (asks_require _ _) fun _ => asks_bind (asks_ask trivial) fun uploaded => ?_
    exact asks_bind (asks_stored uploaded) fun _ => asks_pure _

end PipelineManager
