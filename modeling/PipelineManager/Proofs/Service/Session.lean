import PipelineManager.Proofs.Service.Underway
import PipelineManager.Proofs.Store.Catalogue
import PipelineManager.Service.Callback

/-!
# Sessions

A session is a sequence of events: requests to the manager, changes of the catalogue and of the
agents that are registered, and whatever changes around the manager in the meantime. Each request
is carried out while calls go wrong by a plan of its own. The worlds of a session have a store that
operations lead to.
-/

namespace PipelineManager

/-! ## Requests -/

/-- What a running pipeline asks for, its run and token apart. -/
inductive Callback where
  | recordStatus (state : RunState) (success : Bool)
  | publishResults (directory : String)
  | developerArchive (fullName : String)

namespace Callback

/-- The type of the answer to a callback. -/
@[reducible] def Answer : Callback → Type
  | recordStatus _ _ => StatusEntry
  | publishResults _ => List RunTest
  | developerArchive _ => ByteArray

/-- What a callback does for a run and a token. -/
def service (runId : Int) (token : String) : (c : Callback) → Service c.Answer
  | recordStatus state success => Manager.recordStatus runId token state success
  | publishResults directory => Manager.publishResults runId token directory
  | developerArchive fullName => Manager.developerArchive runId token fullName

end Callback

/-- What the manager is asked for. Managers that share a store may differ in their templates and
settings. -/
inductive ServiceRequest where
  | submit (m : Manager) (d : Descriptor)
  | callback (runId : Int) (token : String) (c : Callback)
  | report (runId : Int) (token : String)
  | keepArchive (netappId name : String) (archive : ByteArray)

namespace ServiceRequest

/-- The type of the answer to a request. -/
@[reducible] def Answer : ServiceRequest → Type
  | submit _ _ => Receipt
  | callback _ _ c => c.Answer
  | report _ _ => RunReport
  | keepArchive _ _ _ => String

/-- What a request does. -/
def service : (q : ServiceRequest) → Service q.Answer
  | submit m d => m.submitDescriptor d
  | callback runId token c => c.service runId token
  | report runId token => Manager.report runId token
  | keepArchive netappId name archive => Manager.keepArchive netappId name archive

end ServiceRequest

/-- What a call asks the store to do, if it may change it. -/
def Call.operation? (now : Timestamp) : Call → Option Store.Operation
  | appendStatus runId state success => some (.appendStatus ⟨runId, state, success, now⟩)
  | createRun new => some (.createRun new now)
  | setRunAgent id agentId => some (.setRunAgent id agentId)
  | setCommunicationToken id token => some (.setCommunicationToken id token)
  | setJob id jobName buildNumber => some (.setJob id jobName buildNumber)
  | setResultLocations id logLocation resultsLocation =>
    some (.setResultLocations id logLocation resultsLocation)
  | addRunTest runId new => some (.addRunTest runId new)
  | recordTestResult id success startedAt endedAt =>
    some (.recordTestResult id success startedAt endedAt)
  | _ => none

/-! ## Events -/

/-- What lies around the manager and may change between two events: the agents and what they
answer, the calls that fail, the tokens that are made next, and the time. -/
structure Surroundings where
  agents : List FleetAgent
  refusing : List AgentCall
  buildNumber : Nat
  lastBuild : Nat
  log : String
  broken : List RunCall
  secrets : Secrets
  now : Timestamp

/-- What happens to a world. -/
inductive Event where
  | request (q : ServiceRequest) (plan : Nat → Option Mishap)
  | importCatalogue (testbeds tests : SourceFile)
  | addAgent (testbedId url username password : String)
  | meanwhile (x : Surroundings)

namespace World

/-- The world in other surroundings. What the agents were asked to do stays. -/
def amid (w : World) (x : Surroundings) : World :=
  { w with
    fleet := { w.fleet with
      agents := x.agents, refusing := x.refusing, buildNumber := x.buildNumber
      lastBuild := x.lastBuild, log := x.log }
    broken := x.broken
    secrets := x.secrets
    now := x.now }

/-- Carries out a service while calls go wrong by a plan. -/
def attempt {α : Type} (w : World) (plan : Nat → Option Mishap) (p : Service α) :
    Except ServiceError α × World :=
  let r := Service.exec (Trial.answer plan) p { world := w }
  (r.1, r.2.world)

/-- The world after an event. -/
def perform (w : World) : Event → World
  | .request q plan => (w.attempt plan q.service).2
  | .importCatalogue testbeds tests =>
    { w with store := (w.store.importCatalogue testbeds tests).1 }
  | .addAgent testbedId url username password =>
    { w with store := w.store.perform (.addAgent testbedId url username password) }
  | .meanwhile x => w.amid x

/-- The world after a session. -/
def after (w : World) (events : List Event) : World := events.foldl perform w

/-- The worlds of sessions that begin before anything was submitted: with a store that has a
catalogue at most, and agents that were given nothing. -/
inductive Reachable : World → Prop
  | start {w : World} (hstore : w.store.Reachable) (hruns : w.store.runs = [])
      (htests : w.store.runTests = [])
      (hcredentials : w.fleet.credentials = []) (hjobs : w.fleet.jobs = []) : Reachable w
  | perform {w : World} (h : Reachable w) (e : Event) : Reachable (w.perform e)

/-- What is reached from a reachable world is reachable. -/
theorem Reachable.after {w : World} (h : Reachable w) (events : List Event) :
    Reachable (w.after events) := by
  induction events generalizing w with
  | nil => exact h
  | cons e rest ih => exact ih (h.perform e)

/-- When nothing goes wrong, an attempt is what the world makes of the service. -/
theorem attempt_undisturbed {α : Type} (w : World) (p : Service α) :
    w.attempt (fun _ => none) p = w.carryOut p.run := by
  obtain ⟨hresult, hworld⟩ := Trial.exec_undisturbed p { world := w }
  exact Prod.ext hresult hworld

/-- What every call keeps, an attempt keeps. -/
theorem attempt_invariant {α : Type} {P : Call → Prop} {p : Service α} (hp : Service.Asks P p)
    {holds : World → Prop} (hstep : ∀ c mishap w, P c → holds w → holds (w.answerWith mishap c).2)
    {w : World} (hw : holds w) (plan : Nat → Option Mishap) : holds (w.attempt plan p).2 := by
  have htrial : ∀ c (t : Trial), P c → holds t.world → holds (Trial.answer plan c t).2.world :=
    fun c t hc ht => hstep c _ t.world hc ht
  exact hp.run_invariant htrial hw

/-! ## The store of a session -/

/-- A call on the store does what an operation does, or nothing. -/
theorem store_ofStore {α : Type} (w : World) (call : RunCall) {r : Except StoreFault (Store × α)}
    (op : Store.Operation) (hop : w.store.perform op = w.store.kept r) :
    (w.ofStore call r).2.store = w.store ∨ (w.ofStore call r).2.store = w.store.perform op := by
  rcases w.ofStore_cases call r with ⟨e, h⟩ | ⟨store, a, hr, h⟩ <;> rw [h]
  · exact .inl rfl
  · exact .inr (by rw [hop, hr]; rfl)

/-- What is only read from the store leaves the world as it is. -/
theorem ofStore_read {α : Type} (w : World) (call : RunCall) (a : α) :
    w.ofStore call (.ok (w.store, a)) =
      (if w.broken.contains call then .error (.broken call) else .ok a, w) := by
  unfold ofStore
  split <;> rfl

/-- The answer to the look-up of a run. -/
theorem answer_run (w : World) (id : Int) :
    answer (.run id) w =
      (if w.broken.contains .getRun then .error (.broken .getRun) else .ok (w.store.run? id), w) :=
  w.ofStore_read .getRun (w.store.run? id)

/-- The answer to the look-up of the tests of a run. -/
theorem answer_runTests (w : World) (runId : Int) :
    answer (.runTests runId) w =
      (if w.broken.contains .listRunTests then .error (.broken .listRunTests)
        else .ok (w.store.testsOfRun runId), w) :=
  w.ofStore_read .listRunTests (w.store.testsOfRun runId)

/-- A call to an agent leaves the store. -/
theorem store_ofFleet {α : Type} (w : World) (call : AgentCall) (r : α × Fleet) :
    (w.ofFleet call r).2.store = w.store := by
  rcases w.ofFleet_cases call r with ⟨e, h⟩ | h <;> rw [h]

/-- A call changes the store by its operation, or not at all. -/
theorem store_answer (c : Call) (w : World) :
    (w.answer c).2.store = w.store ∨
      ∃ op, c.operation? w.now = some op ∧ (w.answer c).2.store = w.store.perform op := by
  have hstore (op : Store.Operation) (hop : c.operation? w.now = some op)
      (h : (w.answer c).2.store = w.store ∨ (w.answer c).2.store = w.store.perform op) :
      (w.answer c).2.store = w.store ∨
        ∃ op, c.operation? w.now = some op ∧ (w.answer c).2.store = w.store.perform op :=
    h.imp_right fun h => ⟨op, hop, h⟩
  cases c with
  | appendStatus runId state success =>
    rw [answer_appendStatus rfl]
    exact .inr ⟨.appendStatus ⟨runId, state, success, w.now⟩, rfl, rfl⟩
  | createRun new => exact hstore _ rfl (w.store_ofStore .createRun (.createRun new w.now) rfl)
  | run id => exact .inl (by rw [answer_run])
  | setRunAgent id agentId =>
    exact hstore _ rfl (w.store_ofStore .setRunAgent (.setRunAgent id agentId) rfl)
  | setCommunicationToken id token =>
    exact hstore _
      rfl (w.store_ofStore .setCommunicationToken (.setCommunicationToken id token) rfl)
  | setJob id jobName build =>
    exact hstore _ rfl (w.store_ofStore .setJob (.setJob id jobName build) rfl)
  | setResultLocations id log results =>
    exact hstore _
      rfl (w.store_ofStore .setResultLocations (.setResultLocations id log results) rfl)
  | addRunTest runId new =>
    exact hstore _ rfl (w.store_ofStore .addRunTest (.addRunTest runId new) rfl)
  | runTests runId => exact .inl (by rw [answer_runTests])
  | recordTestResult id success startedAt endedAt =>
    exact hstore _
      rfl (w.store_ofStore .recordTestResult (.recordTestResult id success startedAt endedAt) rfl)
  | agentsOf _ | agent _ | createCredential _ _ _ _ | submitJob _ _ _ | startJob _ _
    | lastBuildNumber _ _
  | fetchLog _ _ _ => exact .inl (w.store_ofFleet _ _)
  | _ => exact .inl rfl

/-- A call that may go wrong does what it does otherwise, or nothing. -/
theorem answerWith_cases (mishap : Option Mishap) (c : Call) (w : World) :
    w.answerWith mishap c = w.answer c ∨ ∃ cause failed, c.failing? cause = some failed ∧
      (w.answerWith mishap c = (failed, w) ∨ w.answerWith mishap c = (failed, (w.answer c).2)) := by
  cases mishap with
  | none => exact .inl rfl
  | some x =>
    simp only [answerWith]
    cases hfailing : c.failing? x.cause with
    | none => exact .inl rfl
    | some failed =>
      refine .inr ⟨x.cause, failed, hfailing, ?_⟩
      by_cases hlate : x.late && c.canFailLate
      · exact .inr (by simp [hlate])
      · exact .inl (by simp [hlate])

/-- A call that can go wrong leaves the world or acts as without a mishap. -/
theorem answerWith_snd_cases (mishap : Option Mishap) (c : Call) (w : World) :
    (w.answerWith mishap c).2 = w ∨ (w.answerWith mishap c).2 = (w.answer c).2 := by
  rcases w.answerWith_cases mishap c with h | ⟨cause, failed, -, h | h⟩ <;> rw [h]
  · exact .inr rfl
  · exact .inl rfl
  · exact .inr rfl

/-- A call leads from reachable stores to reachable ones, also when it goes wrong. -/
theorem reachable_answerWith {w : World} (h : w.store.Reachable) (mishap : Option Mishap)
    (c : Call) :
    (w.answerWith mishap c).2.store.Reachable := by
  rcases w.answerWith_snd_cases mishap c with hw | hw <;> rw [hw]
  · exact h
  · rcases store_answer c w with hstore | ⟨op, -, hstore⟩ <;> rw [hstore]
    · exact h
    · exact h.perform op

end World

/-- A session leads to a store that operations lead to. -/
theorem World.Reachable.store {w : World} (h : w.Reachable) : w.store.Reachable := by
  induction h with
  | start hstore _ _ _ _ => exact hstore
  | @perform w _ e ih =>
    cases e with
    | request q plan =>
      have hstep : ∀ c mishap (w : World),
          True → w.store.Reachable → (w.answerWith mishap c).2.store.Reachable :=
        fun c mishap w _ hw => World.reachable_answerWith hw mishap c
      exact World.attempt_invariant (Program.asks_true q.service.run) hstep ih plan
    | importCatalogue testbeds tests => exact ih.importCatalogue testbeds tests
    | addAgent testbedId url username password =>
      exact ih.perform (.addAgent testbedId url username password)
    | meanwhile x => exact ih

end PipelineManager
