import PipelineManager.Service.Call

/-!
# The world of the manager

The store, the warehouse and the fleet together answer the calls of the manager. `World.answer`
says what each call gives and how it changes the world, and `World.carryOut` carries out a whole
program.
-/

namespace PipelineManager

/-- The tokens that are made for runs, by the identifier of the run. -/
structure Secrets where
  access : Int → String
  communication : Int → String

/-- What surrounds the manager. The calls in `broken` fail. -/
structure World where
  store : Store := {}
  warehouse : Warehouse
  fleet : Fleet := {}
  broken : List RunCall := []
  secrets : Secrets
  now : Timestamp

namespace World

/-- The answer to a call on the store that concerns runs, unless such calls fail. -/
def ofStore {α : Type} (w : World) (call : RunCall) (r : Except StoreFault (Store × α)) :
    Except Fault α × World :=
  if w.broken.contains call then (.error (.broken call), w)
  else match r with
    | .ok (store, a) => (.ok a, { w with store })
    | .error e => (.error (.store e), w)

/-- The answer to a call on the fleet, unless such calls are refused. -/
def ofFleet {α : Type} (w : World) (call : AgentCall) (r : α × Fleet) : Except Fault α × World :=
  if w.fleet.refusing.contains call then (.error (.refused call), w)
  else (.ok r.1, { w with fleet := r.2 })

/-- The answer to an upload. -/
def ofUpload (w : World) (r : Warehouse × Except WarehouseFault Unit) : Except Fault Unit × World :=
  (r.2.mapError .warehouse, { w with warehouse := r.1 })

/-- What a call gives, and the world after it. -/
def answer : (c : Call) → World → c.Answer × World
  | .testbed id, w => (w.store.testbed? id, w)
  | .tests testbedId, w => (w.store.testsOf testbedId, w)
  | .appendStatus runId state success, w =>
    match w.store.appendStatus runId state success w.now with
    | .ok (store, entry) => (.ok entry, { w with store })
    | .error e => (.error e, w)
  | .statusLog runId, w => ((w.store.statusLog runId).mapError .store, w)
  | .createRun new, w => w.ofStore .createRun (w.store.createRun new w.now)
  | .run id, w => w.ofStore .getRun (.ok (w.store, w.store.run? id))
  | .setRunAgent id agentId, w =>
    w.ofStore .setRunAgent ((w.store.setRunAgent id agentId).map fun s => (s, ()))
  | .setCommunicationToken id token, w =>
    w.ofStore .setCommunicationToken (.ok (w.store.setCommunicationToken id token, ()))
  | .setJob id jobName buildNumber, w =>
    w.ofStore .setJob (.ok (w.store.setJob id jobName buildNumber, ()))
  | .setResultLocations id logLocation resultsLocation, w =>
    w.ofStore .setResultLocations
      (.ok (w.store.setResultLocations id logLocation resultsLocation, ()))
  | .addRunTest runId new, w => w.ofStore .addRunTest (w.store.addRunTest runId new)
  | .runTests runId, w => w.ofStore .listRunTests (.ok (w.store, w.store.testsOfRun runId))
  | .recordTestResult id success startedAt endedAt, w =>
    w.ofStore .recordTestResult (.ok (w.store.recordTestResult id success startedAt endedAt, ()))
  | .agentsOf testbedId, w => w.ofFleet .listAgents (w.fleet.agentsOf testbedId, w.fleet)
  | .agent id, w => w.ofFleet .agent (w.fleet.agent? id, w.fleet)
  | .probe agent, w => (w.fleet.probe agent.id, w)
  | .createCredential agent name value description, w =>
    let credential : Credential := { agentId := agent.id, name, value, description }
    w.ofFleet .createCredential
      ((), { w.fleet with credentials := w.fleet.credentials ++ [credential] })
  | .submitJob agent name script, w =>
    let job : Job := { agentId := agent.id, name, script }
    w.ofFleet .submit ((), { w.fleet with jobs := w.fleet.jobs ++ [job] })
  | .startJob _ _, w => w.ofFleet .start (w.fleet.buildNumber, w.fleet)
  | .lastBuildNumber _ _, w => w.ofFleet .lastBuildNumber (w.fleet.lastBuild, w.fleet)
  | .fetchLog agent jobName build, w =>
    let request : LogRequest := { agentId := agent.id, jobName, build }
    w.ofFleet .fetchLog
      (w.fleet.log, { w.fleet with logRequests := w.fleet.logRequests ++ [request] })
  | .upload path contents, w => w.ofUpload (w.warehouse.upload path contents)
  | .download path, w => ((w.warehouse.download path).mapError .warehouse, w)
  | .holds path, w => ((w.warehouse.holds path).mapError .warehouse, w)
  | .newAccessToken, w => (w.secrets.access (Store.nextId w.store.runs), w)
  | .newCommunicationToken runId, w => (w.secrets.communication runId, w)

/-- Carries out a program. -/
def carryOut {α : Type} (p : Program α) (w : World) : α × World := p.run answer w

end World
end PipelineManager
