import PipelineManager.Store.StatusLog

/-!
# The store without its secrets

A store keeps the tokens of runs and the passwords of agents next to what it shows of them. Masking
blanks them out. All that the store does but handing out the rows themselves is done alike by a
store and by its masked one, and two stores that are the same when masked differ in secrets at most.
-/

namespace PipelineManager

/-- Whether two results are failures for the same reason, or successes with related values. -/
inductive ResultsAgree {ε α β : Type} (R : α → β → Prop) : Except ε α → Except ε β → Prop
  | ok {a : α} {b : β} (h : R a b) : ResultsAgree R (.ok a) (.ok b)
  | error (e : ε) : ResultsAgree R (.error e) (.error e)

/-- Results that agree do so in any weaker relation. -/
theorem ResultsAgree.mono {ε α β : Type} {R S : α → β → Prop} {r : Except ε α} {r' : Except ε β}
    (h : ResultsAgree R r r') (hRS : ∀ a b, R a b → S a b) : ResultsAgree S r r' := by
  cases h with
  | ok hab => exact .ok (hRS _ _ hab)
  | error e => exact .error e

/-- Results that agree do so with their errors changed in one way. -/
theorem ResultsAgree.mapError {ε ε' α β : Type} {R : α → β → Prop} {r : Except ε α}
    {r' : Except ε β} (h : ResultsAgree R r r') (f : ε → ε') :
    ResultsAgree R (r.mapError f) (r'.mapError f) := by
  cases h with
  | ok hab => exact .ok hab
  | error e => exact .error (f e)

/-- A result agrees with itself. -/
theorem resultsAgree_eq {ε α : Type} (r : Except ε α) : ResultsAgree Eq r r := by
  cases r with
  | ok a => exact .ok rfl
  | error e => exact .error e

/-- An agent without its password. -/
def Agent.masked (a : Agent) : Agent := { a with password := "" }

/-- A run without its tokens. -/
def Run.masked (r : Run) : Run := { r with accessToken := "", communicationToken := none }

namespace Store

/-- A store without secrets. -/
def masked (s : Store) : Store :=
  { s with agents := s.agents.map Agent.masked, runs := s.runs.map Run.masked }

variable (s : Store)

/-! ## What is looked up -/

/-- The next id does not depend on secrets. -/
@[simp] theorem nextId_masked : nextId s.masked.runs = nextId s.runs := by simp [masked, nextId]

/-- A run is found in a masked store with its secrets masked. -/
@[simp] theorem run?_masked (id : Int) : s.masked.run? id = (s.run? id).map Run.masked :=
  List.find?_map

/-- An agent is found in a masked store with its secrets masked. -/
@[simp] theorem agent?_masked (id : Int) : s.masked.agent? id = (s.agent? id).map Agent.masked :=
  List.find?_map

/-- The agents of a testbed are those of the store with their secrets masked. -/
@[simp] theorem agentsOf_masked (testbedId : String) :
    s.masked.agentsOf testbedId = (s.agentsOf testbedId).map Agent.masked := List.filter_map

/-! ## What is changed -/

/-- An update commutes with masking if the change of the run does. -/
theorem updateRun_masked (id : Int) {change change' : Run → Run}
    (h : ∀ r, (change r).masked = change' r.masked) :
    s.masked.updateRun id change' = (s.updateRun id change).masked := by
  have hrow (r : Run) : (if r.masked.id = id then change' r.masked else r.masked) =
      (if r.id = id then change r else r).masked := by
    by_cases hid : r.id = id
    · rw [if_pos hid, if_pos (show r.masked.id = id from hid), h]
    · rw [if_neg hid, if_neg (show ¬ r.masked.id = id from hid)]
  simp only [masked, updateRun, List.map_map]
  exact congrArg (fun runs => { s with agents := s.agents.map Agent.masked, runs })
    (List.map_congr_left fun r _ => hrow r)

/-- Recording a job commutes with masking. -/
@[simp] theorem setJob_masked (id : Int) (jobName : String) (buildNumber : Option Nat) :
    s.masked.setJob id jobName buildNumber = (s.setJob id jobName buildNumber).masked :=
  s.updateRun_masked id fun _ => rfl

/-- Recording locations commutes with masking. -/
@[simp] theorem setResultLocations_masked (id : Int) (logLocation resultsLocation : String) :
    s.masked.setResultLocations id logLocation resultsLocation =
      (s.setResultLocations id logLocation resultsLocation).masked :=
  s.updateRun_masked id fun _ => rfl

/-- A communication token is nothing but a secret. -/
theorem masked_setCommunicationToken (id : Int) (token : String) :
    (s.setCommunicationToken id token).masked = s.masked := by
  have hsame : s.masked.updateRun id (fun r => r) = (s.setCommunicationToken id token).masked :=
    s.updateRun_masked id fun _ => rfl
  rw [← hsame]
  simp [updateRun]

/-- Recording the agent of a run commutes with masking. -/
@[simp] theorem setRunAgent_masked (id agentId : Int) :
    s.masked.setRunAgent id agentId = (s.setRunAgent id agentId).map masked := by
  simp only [setRunAgent, run?_masked, agent?_masked, Option.isNone_map, Option.isSome_map]
  split
  · exact congrArg Except.ok (s.updateRun_masked id fun _ => rfl)
  · rfl

/-- Adding a test to a run commutes with masking. -/
@[simp] theorem addRunTest_masked (runId : Int) (new : NewRunTest) :
    s.masked.addRunTest runId new = (s.addRunTest runId new).map (Prod.map masked id) := by
  have htests : s.masked.testsOfRun runId = s.testsOfRun runId := rfl
  simp only [addRunTest, run?_masked, Option.isSome_map, htests]
  split <;> rfl

/-- Appending a status commutes with masking. -/
@[simp] theorem appendStatus_masked (runId : Int) (state : RunState) (success : Bool)
    (now : Timestamp) :
    s.masked.appendStatus runId state success now =
      (s.appendStatus runId state success now).map (Prod.map masked id) := by
  have hlatest : s.masked.latestStatus? runId = s.latestStatus? runId := rfl
  simp only [appendStatus, run?_masked, Option.isNone_map, hlatest]
  split
  · rfl
  rcases s.latestStatus? runId with e | latest
  · rfl
  dsimp only
  generalize Transition.check (latest.map fun e => (e.state, e.success)) state success = checked
  rcases checked with e | _ | _
  · rfl
  · rfl
  · cases latest <;> rfl

/-! ## Stores that differ in secrets at most -/

/-- Whether a run has an access token. -/
def HasAccessToken (token : String) : Prop := ∃ r ∈ s.runs, r.accessToken = token

/-- A run with an access token that is new to both stores, or to none, is created in both
or in none. -/
theorem createRun_of_masked_eq {s s' : Store} (h : s.masked = s'.masked) {new : NewRun}
    (now : Timestamp)
    (hnew : s.HasAccessToken new.accessToken ↔ s'.HasAccessToken new.accessToken) :
    ResultsAgree (fun a b => a.1.masked = b.1.masked ∧ a.2 = b.2) (s.createRun new now)
      (s'.createRun new now) := by
  have htestbed : s.hasTestbed new.testbedId = s'.hasTestbed new.testbedId :=
    congrArg (fun s => s.hasTestbed new.testbedId) h
  have hid : nextId s.runs = nextId s'.runs := by rw [← nextId_masked, h, nextId_masked]
  have hunused : (s.runs.all fun r => r.accessToken ≠ new.accessToken) =
      s'.runs.all fun r => r.accessToken ≠ new.accessToken := by
    rw [Bool.eq_iff_iff]
    simpa [HasAccessToken] using not_congr hnew
  have hcreated (s : Store) (r : Run) : masked { s with runs := s.runs ++ [r] } =
      { s.masked with runs := s.masked.runs ++ [r.masked] } := by
    simp [masked]
  unfold createRun
  rw [htestbed, hunused, hid]
  split
  · exact .ok ⟨by rw [hcreated, hcreated, h], rfl⟩
  · exact .error _

end Store
end PipelineManager
