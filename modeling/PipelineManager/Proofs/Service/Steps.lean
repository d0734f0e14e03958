import PipelineManager.Proofs.Service.Trial

/-!
# The steps of a submission

Once its run is created, a submission only asks for what concerns that run: reports on it, changes
of it, its tests, its credential and its job. `Manager.completeRun` is this rest of a submission.
-/

namespace PipelineManager

namespace Call

/-- Whether a call is one that a submission makes for its run before the job is submitted. -/
def Prepares (runId : Int) : Call → Prop
  | appendStatus id _ _ | setRunAgent id _ | setCommunicationToken id _ | addRunTest id _ =>
    id = runId
  | createCredential _ name _ _ => name = tokenCredential runId
  | tests _ | agentsOf _ | probe _ | newCommunicationToken _ => True
  | _ => False

/-- Whether a call is one that a submission makes for its run. -/
def Completes (runId : Int) : Call → Prop
  | setJob id _ _ => id = runId
  | submitJob _ _ _ | startJob _ _ => True
  | c => c.Prepares runId

/-- A call that prepares a run completes it. -/
theorem Prepares.completes {runId : Int} {c : Call} (h : c.Prepares runId) : c.Completes runId := by
  cases c <;> first
    | exact h
    | exact absurd h id

/-- Whether a call registers a test only if it is one of some. -/
def RegistersOnly (news : List NewRunTest) : Call → Prop
  | addRunTest _ new => new ∈ news
  | _ => True

/-- Whether a call is one that a submission makes for its run before the job is submitted, when it
registers some tests. -/
def PreparesWith (news : List NewRunTest) (runId : Int) (c : Call) : Prop :=
  c.Prepares runId ∧ c.RegistersOnly news

/-- Whether a call is one that a submission makes for its run when it registers some tests. -/
def CompletesWith (news : List NewRunTest) (runId : Int) (c : Call) : Prop :=
  c.Completes runId ∧ c.RegistersOnly news

/-- A call that prepares a run with tests completes it with them. -/
theorem PreparesWith.completesWith {news : List NewRunTest} {runId : Int} {c : Call}
    (h : c.PreparesWith news runId) :
    c.CompletesWith news runId := ⟨h.1.completes, h.2⟩

end Call

open Service

variable {α : Type} {news : List NewRunTest}

/-- A failed stage asks only what prepares the run. -/
theorem asks_failStage (runId : Int) (state : RunState) (e : ServiceError) :
    Asks (Call.PreparesWith news runId) (failStage runId state e : Service α) :=
  asks_bind (asks_ask ⟨rfl, trivial⟩) fun _ => asks_throw e

/-- A stage asks only what prepares the run. -/
theorem asks_stage (runId : Int) (state : RunState) (r : Except ServiceError α) :
    Asks (Call.PreparesWith news runId) (stage runId state r) := by
  cases r with
  | ok a => exact asks_pure a
  | error e => exact asks_failStage runId state e

/-- A mark asks only what prepares the run. -/
theorem asks_markStage (runId : Int) (state : RunState) :
    Asks (Call.PreparesWith news runId) (markStage runId state) := by
  refine asks_bind (asks_ask ⟨rfl, trivial⟩) fun r => ?_
  cases r with
  | ok entry => exact asks_pure ()
  | error e => exact asks_failStage runId state _

/-- Probes ask only what prepares the run. -/
theorem asks_probeAll (runId : Int) (agents : List Agent) :
    Asks (Call.PreparesWith news runId) (probeAll agents) := by
  induction agents with
  | nil => exact asks_pure []
  | cons a rest ih =>
    exact asks_bind (asks_ask ⟨trivial, trivial⟩) fun _ => asks_bind ih fun _ => asks_pure _

/-- The registration of tests asks for these tests only. -/
theorem asks_registerTests {netappId : String} {tests : List ExecutedTest}
    (hnews : tests.map (.ofExecuted netappId) ⊆ news) (runId : Int) :
    Asks (Call.PreparesWith news runId) (registerTests netappId runId tests) := by
  induction tests with
  | nil => exact asks_pure ()
  | cons t rest ih =>
    obtain ⟨hnew, hrest⟩ := List.cons_subset.mp hnews
    exact asks_bind (asks_ask ⟨rfl, hnew⟩) fun _ => asks_bind (asks_stored _) fun _ => ih hrest

namespace Manager

/-- The choice of an agent asks only what prepares the run. -/
theorem asks_chooseAgent (info : TestInfo) (runId : Int) :
    Asks (Call.PreparesWith news runId) (chooseAgent info runId) := by
  refine asks_bind (asks_ask ⟨trivial, trivial⟩) fun _ =>
    asks_bind (asks_stage _ _ _) fun agents => ?_
  refine asks_bind (asks_probeAll runId agents) fun probed => ?_
  split
  · exact asks_failStage _ _ _
  · refine asks_bind (asks_ask ⟨rfl, trivial⟩) fun _ => asks_bind (asks_stage _ _ _) fun _ => ?_
    exact asks_bind (asks_markStage _ _) fun _ => asks_pure _

/-- Token provisioning asks only what prepares the run. -/
theorem asks_provideToken (agent : Agent) (runId : Int) :
    Asks (Call.PreparesWith news runId) (provideToken agent runId) := by
  refine asks_bind (asks_ask ⟨trivial, trivial⟩) fun _ =>
    asks_bind (asks_ask ⟨rfl, trivial⟩) fun _ => ?_
  refine asks_bind (asks_stage _ _ _) fun _ => asks_bind (asks_ask ⟨rfl, trivial⟩) fun _ => ?_
  exact asks_bind (asks_stage _ _ _) fun _ => asks_markStage _ _

/-- The creation of the script asks only what prepares the run with the tests executed. -/
theorem asks_createScript (m : Manager) (d : Descriptor) (tests : List ExecutedTest) (runId : Int) :
    Asks (Call.PreparesWith (tests.map (.ofExecuted d.info.netappId)) runId)
      (m.createScript d tests runId) := by
  have hprepared :
      Asks (Call.PreparesWith (tests.map (.ofExecuted d.info.netappId)) runId)
          (m.prepareScript d tests runId) := by
    refine asks_bind (asks_registerTests (List.Subset.refl _) _) fun _ => ?_
    refine asks_bind (asks_ask ⟨trivial, trivial⟩) fun _ => ?_
    split
    · exact asks_pure _
    · exact asks_throw _
  refine asks_bind (asks_result hprepared) fun _ => asks_bind (asks_stage _ _ _) fun _ => ?_
  exact asks_bind (asks_markStage _ _) fun _ => asks_pure _

/-- The start of a prepared run asks only what completes it. -/
theorem asks_startPrepared (info : TestInfo) (prepared : PreparedRun) :
    Asks (Call.CompletesWith news prepared.run.id) (startPrepared info prepared) := by
  have hlaunch (name : String) :
      Asks (Call.CompletesWith news prepared.run.id)
          (launch prepared.agent name prepared.script) := by
    refine asks_bind (asks_ask ⟨trivial, trivial⟩) fun submitted => ?_
    cases submitted with
    | error e => exact asks_pure _
    | ok _ => exact asks_ask ⟨trivial, trivial⟩
  have hcompletes {β : Type} {p : Service β} (h : Asks (Call.PreparesWith news prepared.run.id) p) :
      Asks (Call.CompletesWith news prepared.run.id) p :=
    h.mono fun _ => Call.PreparesWith.completesWith
  have hstart (name : String) : Asks (Call.CompletesWith news prepared.run.id)
      (startRun prepared.agent prepared.run.id name prepared.script) := by
    refine asks_bind (hlaunch name) fun launched =>
      asks_bind (hcompletes (asks_stage _ _ _)) fun build => ?_
    refine asks_bind (asks_ask ⟨rfl, trivial⟩) fun _ =>
      asks_bind (hcompletes (asks_stage _ _ _)) fun _ => ?_
    exact asks_bind (hcompletes (asks_markStage _ _)) fun _ => asks_pure _
  exact asks_bind (hstart _) fun _ => asks_pure _

/-! ## The rest of a submission -/

/-- What is left of a submission when its run is created. -/
def completeRun (m : Manager) (d : Descriptor) (tests : List ExecutedTest) (run : Run) :
    Service Receipt := do
  markStage run.id .submittedToManager
  let agent ← chooseAgent d.info run.id
  provideToken agent run.id
  let script ← m.createScript d tests run.id
  startPrepared d.info { run, agent, script }

/-- A dispatch creates the run and completes it. -/
theorem dispatch_eq (m : Manager) (d : Descriptor) (tests : List ExecutedTest) :
    m.dispatch d tests = (do
      let accessToken ← Service.ask .newAccessToken
      let run ← Service.stored (← Service.ask (.createRun
        { netappId := d.info.netappId
          networkServiceId := d.info.networkServiceId
          testbedId := d.info.testbedId
          accessToken }))
      m.completeRun d tests run) := by
  simp only [dispatch, prepare, completeRun, bind_assoc, pure_bind]

/-- Of tests a submission registers those of its descriptor only. -/
theorem asks_completeRun_with (m : Manager) (d : Descriptor) (tests : List ExecutedTest)
    (run : Run) :
    Asks (Call.CompletesWith (tests.map (.ofExecuted d.info.netappId)) run.id)
      (m.completeRun d tests run) := by
  have hcompletes {β : Type} {p : Service β}
      (h : Asks (Call.PreparesWith (tests.map (.ofExecuted d.info.netappId)) run.id) p) :
      Asks (Call.CompletesWith (tests.map (.ofExecuted d.info.netappId)) run.id) p :=
    h.mono fun _ => Call.PreparesWith.completesWith
  refine asks_bind (hcompletes (asks_markStage _ _)) fun _ => ?_
  refine asks_bind (hcompletes (asks_chooseAgent _ _)) fun agent => ?_
  refine asks_bind (hcompletes (asks_provideToken _ _)) fun _ => ?_
  refine asks_bind (hcompletes (m.asks_createScript _ _ _)) fun script => ?_
  exact asks_startPrepared d.info { run, agent, script }

/-- The completion of a run asks only what completes it. -/
theorem asks_completeRun (m : Manager) (d : Descriptor) (tests : List ExecutedTest) (run : Run) :
    Asks (Call.Completes run.id) (m.completeRun d tests run) :=
  (m.asks_completeRun_with d tests run).mono fun _ h => h.1

end Manager
end PipelineManager
