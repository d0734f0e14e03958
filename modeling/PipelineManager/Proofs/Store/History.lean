import PipelineManager.Store.StatusLog

/-!
# Histories of a store

A store changes by operations, each of which may be refused and then changes nothing. A store is
reachable when some history of operations leads to it from the empty store. Identifiers of
runs count them from 1 on, so the next run has an identifier that nothing in the store mentions.
-/

namespace PipelineManager

/-- A report on a run that the store is asked to record. -/
structure StatusRequest where
  runId : Int
  state : RunState
  success : Bool
  now : Timestamp
deriving DecidableEq, Repr

namespace Store

/-- What a store is asked to do. -/
inductive Operation where
  | putTestbed (t : Testbed)
  | putTest (e : CatalogueEntry)
  | addAgent (testbedId url username password : String)
  | createRun (new : NewRun) (now : Timestamp)
  | setRunAgent (id agentId : Int)
  | setCommunicationToken (id : Int) (token : String)
  | setJob (id : Int) (jobName : String) (buildNumber : Option Nat)
  | setResultLocations (id : Int) (logLocation resultsLocation : String)
  | appendStatus (q : StatusRequest)
  | addRunTest (runId : Int) (new : NewRunTest)
  | recordTestResult (id : Int) (success : Bool) (startedAt endedAt : Option String)

variable {ε α : Type}

/-- The store after an operation with a result. A refused one leaves it as it is. -/
def kept (s : Store) : Except ε (Store × α) → Store
  | .ok (s', _) => s'
  | .error _ => s

/-- The answer to a report, and the store after it. -/
def request (s : Store) (q : StatusRequest) : Except StatusError StatusEntry × Store :=
  match s.appendStatus q.runId q.state q.success q.now with
  | .ok (s', entry) => (.ok entry, s')
  | .error e => (.error e, s)

/-- The store after an operation. -/
def perform (s : Store) : Operation → Store
  | .putTestbed t => s.putTestbed t
  | .putTest e => s.kept ((s.putTest e).map fun s' => (s', ()))
  | .addAgent testbedId url username password => s.kept (s.addAgent testbedId url username password)
  | .createRun new now => s.kept (s.createRun new now)
  | .setRunAgent id agentId => s.kept ((s.setRunAgent id agentId).map fun s' => (s', ()))
  | .setCommunicationToken id token => s.setCommunicationToken id token
  | .setJob id jobName buildNumber => s.setJob id jobName buildNumber
  | .setResultLocations id logLocation resultsLocation =>
    s.setResultLocations id logLocation resultsLocation
  | .appendStatus q => (s.request q).2
  | .addRunTest runId new => s.kept (s.addRunTest runId new)
  | .recordTestResult id success startedAt endedAt =>
    s.recordTestResult id success startedAt endedAt

/-- The store after a history. -/
def after (s : Store) (ops : List Operation) : Store := ops.foldl perform s

/-- The stores that a history leads to from the empty one. -/
inductive Reachable : Store → Prop
  | empty : Reachable {}
  | perform {s : Store} (h : Reachable s) (op : Operation) : Reachable (s.perform op)

/-- What is reached from a reachable store is reachable. -/
theorem Reachable.after {s : Store} (h : Reachable s) (ops : List Operation) :
    Reachable (s.after ops) := by
  induction ops generalizing s with
  | nil => exact h
  | cons op rest ih => exact ih (h.perform op)

/-! ## What an operation changes -/

/-- A report changes nothing, or adds one row of its run, which then exists. -/
theorem request_store (s : Store) (q : StatusRequest) :
    (s.request q).2 = s ∨ (s.run? q.runId).isSome ∧
      ∃ row : StatusRow, row.runId = q.runId ∧
        (s.request q).2 = { s with statuses := s.statuses ++ [row] } := by
  unfold request appendStatus
  cases hrun : s.run? q.runId with
  | none => left; simp
  | some r =>
    cases hlatest : s.latestStatus? q.runId with
    | error e => left; simp
    | ok latest =>
      cases hcheck :
        Transition.check (latest.map fun e => (e.state, e.success)) q.state q.success with
      | error e => left; simp [hcheck]
      | ok transition =>
        cases transition with
        | append =>
          right
          simp only [hcheck, Option.isSome_some, Option.isNone_some, Bool.false_eq_true, if_false,
            true_and]
          exact ⟨_, rfl, rfl⟩
        | _ =>
          left
          simp only [hcheck, Option.isNone_some, Bool.false_eq_true, if_false]
          cases latest <;> rfl

/-- Only reports change the status log. -/
theorem statuses_perform (s : Store) (op : Operation) (hop : ∀ q, op ≠ .appendStatus q) :
    (s.perform op).statuses = s.statuses := by
  cases op with
  | appendStatus q => exact absurd rfl (hop q)
  | putTest e => simp only [perform, putTest]; split <;> rfl
  | addAgent testbedId url username password =>
    simp only [perform, addAgent]
    split
    · rfl
    · split <;> rfl
  | createRun new now => simp only [perform, createRun]; split <;> rfl
  | setRunAgent id agentId => simp only [perform, setRunAgent]; split <;> rfl
  | addRunTest runId new => simp only [perform, addRunTest]; split <;> rfl
  | _ => rfl

/-- An update that keeps the id of a run keeps the ids. -/
theorem map_id_updateRun (s : Store) (id : Int) {change : Run → Run}
    (hid : ∀ r, (change r).id = r.id) :
    (s.updateRun id change).runs.map (·.id) = s.runs.map (·.id) := by
  simp only [updateRun, List.map_map]
  refine List.map_congr_left fun r _ => ?_
  simp only [Function.comp]
  split
  · exact hid r
  · rfl

/-- An update changes the run with the id and no other. -/
theorem run?_updateRun (s : Store) (id : Int) {change : Run → Run} (hid : ∀ r, (change r).id = r.id)
    (runId : Int) :
    (s.updateRun id change).run? runId = (s.run? runId).map fun r => if r.id = id then change r
      else r := by
  have hkey : ((fun r : Run => decide (r.id = runId)) ∘ fun r =>
    if r.id = id then change r else r) =
      fun r => decide (r.id = runId) := by
    funext r
    by_cases h : r.id = id <;> simp [h, hid]
  rw [run?, updateRun, List.find?_map, hkey, run?]

/-- Runs keep their identifiers, and a new run has the next one. -/
theorem runIds_perform (s : Store) (op : Operation) :
    (s.perform op).runs.map (·.id) = s.runs.map (·.id) ∨
      (s.perform op).runs.map (·.id) = s.runs.map (·.id) ++ [nextId s.runs] := by
  cases op with
  | createRun new now =>
    simp only [perform, createRun]
    split
    · right; simp [kept]
    · left; rfl
  | appendStatus q =>
    left
    rcases s.request_store q with h | ⟨_, row, _, h⟩ <;> simp only [perform, h]
  | putTest e => left; simp only [perform, putTest]; split <;> rfl
  | addAgent testbedId url username password =>
    left
    simp only [perform, addAgent]
    split
    · rfl
    · split <;> rfl
  | setRunAgent id agentId =>
    left
    simp only [perform, setRunAgent]
    split
    · exact s.map_id_updateRun id fun _ => rfl
    · rfl
  | addRunTest runId new => left; simp only [perform, addRunTest]; split <;> rfl
  | setCommunicationToken id token => exact .inl (s.map_id_updateRun id fun _ => rfl)
  | setJob id jobName buildNumber => exact .inl (s.map_id_updateRun id fun _ => rfl)
  | setResultLocations id logLocation resultsLocation =>
    exact .inl (s.map_id_updateRun id fun _ => rfl)
  | _ => left; rfl

/-! ## Identifiers of runs -/

/-- Runs are counted from 1 on, and the status log speaks of existing runs only. -/
structure Consistent (s : Store) : Prop where
  runIds : s.runs.map (·.id) = (List.range s.runs.length).map fun (i : Nat) => (i : Int) + 1
  statusRuns : ∀ row ∈ s.statuses, row.runId ∈ s.runs.map (·.id)

/-- A run is found iff its id is among those of the runs. -/
theorem isSome_run?_iff (s : Store) (id : Int) : (s.run? id).isSome ↔ id ∈ s.runs.map (·.id) := by
  simp [run?, List.find?_isSome]

/-- Every operation keeps a store consistent. -/
theorem Consistent.perform {s : Store} (h : s.Consistent) (op : Operation) :
    (s.perform op).Consistent := by
  have hkept : ∀ id ∈ s.runs.map (·.id), id ∈ (s.perform op).runs.map (·.id) := by
    intro id hid
    rcases s.runIds_perform op with heq | heq <;> simp only [heq]
    · exact hid
    · exact List.mem_append_left _ hid
  constructor
  · have hlength : ∀ t : Store, t.runs.length = (t.runs.map (·.id)).length := by simp
    rcases s.runIds_perform op with heq | heq
    · rw [hlength, heq, ← hlength]
      exact h.runIds
    · rw [hlength, heq, List.length_append, ← hlength, List.length_singleton, List.range_succ,
        List.map_append, ← h.runIds]
      rfl
  · by_cases hop : ∃ q, op = .appendStatus q
    · obtain ⟨q, rfl⟩ := hop
      intro row hrow
      apply hkept
      rcases s.request_store q with hstore | ⟨hrun, new, hnew, hstore⟩
      · exact h.statusRuns row (by simpa only [Store.perform, hstore] using hrow)
      · simp only [Store.perform, hstore, List.mem_append, List.mem_singleton] at hrow
        rcases hrow with hold | rfl
        · exact h.statusRuns row hold
        · rw [hnew]
          exact (s.isSome_run?_iff q.runId).mp hrun
    · intro row hrow
      rw [s.statuses_perform op fun q hq => hop ⟨q, hq⟩] at hrow
      exact hkept _ (h.statusRuns row hrow)

/-- Reachable stores are consistent. -/
theorem Reachable.consistent {s : Store} (h : Reachable s) : s.Consistent := by
  induction h with
  | empty => exact ⟨rfl, by simp⟩
  | perform _ op ih => exact ih.perform op

/-- No run has the next identifier yet. -/
theorem Consistent.nextId_notMem {s : Store} (h : s.Consistent) :
    nextId s.runs ∉ s.runs.map (·.id) := by
  rw [h.runIds]
  intro hmem
  obtain ⟨i, hi, heq⟩ := List.mem_map.mp hmem
  have hlt := List.mem_range.mp hi
  simp only [nextId] at heq
  omega

end Store
end PipelineManager
