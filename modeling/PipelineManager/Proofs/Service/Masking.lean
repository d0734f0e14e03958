import PipelineManager.Proofs.Service.Trial
import PipelineManager.Proofs.Store.Masking

/-!
# Worlds without their secrets

Besides the store, the agents hold secrets: their passwords, and the communication tokens that they
were given as credentials. Two worlds are alike when they are the same without any of these. Most
calls are answered without looking at a secret, so that worlds that are alike answer them alike.
Each of the others is answered alike up to the secrets in its answer.
-/

namespace PipelineManager

/-- A credential without its value. -/
def Credential.masked (c : Credential) : Credential := { c with value := "" }

/-- An agent of the fleet without its password. -/
def FleetAgent.masked (a : FleetAgent) : FleetAgent := { a with agent := a.agent.masked }

namespace Fleet

/-- A fleet without secrets. -/
def masked (f : Fleet) : Fleet :=
  { f with
    agents := f.agents.map FleetAgent.masked, credentials := f.credentials.map Credential.masked }

variable (f : Fleet)

/-- The agents of a masked fleet are the masked agents. -/
theorem map_agent_masked :
    f.masked.agents.map (·.agent) = (f.agents.map (·.agent)).map Agent.masked := by
  simp [masked, FleetAgent.masked, Function.comp_def]

/-- An agent of a masked fleet is found masked. -/
@[simp] theorem agent?_masked (id : Int) : f.masked.agent? id = (f.agent? id).map Agent.masked := by
  rw [agent?, map_agent_masked, List.find?_map]
  rfl

/-- The agents of a testbed are listed masked. -/
@[simp] theorem agentsOf_masked (testbedId : String) :
    f.masked.agentsOf testbedId = (f.agentsOf testbedId).map Agent.masked := by
  rw [agentsOf, map_agent_masked, List.filter_map]
  rfl

/-- What a probe is answered tells of no secret. -/
@[simp] theorem probe_masked (id : Int) : f.masked.probe id = f.probe id := by
  have hfind : f.masked.agents.find? (fun a => a.agent.id = id) =
      (f.agents.find? fun a => a.agent.id = id).map FleetAgent.masked := List.find?_map
  rw [probe, probe, hfind, Option.bind_map]
  rfl

end Fleet

/-- Whether a call is answered without looking at a secret, and leaves none behind. -/
def Call.IsOpen : Call → Prop
  | run _ | createRun _ | setCommunicationToken _ _ | agentsOf _ | agent _
    | createCredential _ _ _ _
  | newAccessToken | newCommunicationToken _ => False
  | _ => True

namespace World

/-- A world without secrets. -/
def masked (w : World) : World :=
  { w with store := w.store.masked, fleet := w.fleet.masked, secrets := ⟨fun _ => "", fun _ => ""⟩ }

/-- Whether two worlds differ in tokens and passwords at most: those of the runs and the agents,
those that agents were given, and those that are made next. -/
def Alike (w w' : World) : Prop := w.masked = w'.masked

section Masked

variable (w : World)

/-- A call on the store is answered in the masked world as the masked store answers. -/
theorem ofStore_masked {α : Type} {call : RunCall} {r r' : Except StoreFault (Store × α)}
    (h : r' = r.map (Prod.map Store.masked id)) :
    w.masked.ofStore call r' = Prod.map id masked (w.ofStore call r) := by
  have hbroken : w.masked.broken = w.broken := rfl
  unfold ofStore
  rw [hbroken, h]
  split
  · rfl
  · cases r <;> rfl

/-- A call on the fleet is answered in the masked world as the masked fleet answers. -/
theorem ofFleet_masked {α : Type} {call : AgentCall} {a : α} {f f' : Fleet} (h : f' = f.masked) :
    w.masked.ofFleet call (a, f') = Prod.map id masked (w.ofFleet call (a, f)) := by
  have hrefusing : w.masked.fleet.refusing = w.fleet.refusing := rfl
  unfold ofFleet
  rw [hrefusing, h]
  split <;> rfl

/-- An open call is answered as if there were no secrets. -/
theorem answer_masked {c : Call} (hc : c.IsOpen) :
    w.masked.answer c = Prod.map id masked (w.answer c) := by
  have hkept {call : RunCall} {s s' : Store} (h : s' = s.masked) :
      w.masked.ofStore call (.ok (s', ())) = Prod.map id masked (w.ofStore call (.ok (s, ()))) :=
    w.ofStore_masked (congrArg (fun s => Except.ok (s, ())) h)
  cases c with
  | testbed _ | tests _ | statusLog _ | upload _ _ | download _ | holds _ => rfl
  | probe agent => exact congrArg (·, w.masked) (w.fleet.probe_masked agent.id)
  | appendStatus runId state success =>
    have hstore := w.store.appendStatus_masked runId state success w.now
    have hmasked : w.masked.store.appendStatus runId state success w.masked.now = _ := hstore
    rw [answer, answer, hmasked]
    cases w.store.appendStatus runId state success w.now <;> rfl
  | setRunAgent id agentId =>
    refine w.ofStore_masked ?_
    have hset : w.masked.store.setRunAgent id agentId = _ := w.store.setRunAgent_masked id agentId
    rw [hset]
    cases w.store.setRunAgent id agentId <;> rfl
  | setJob id jobName build => exact hkept (w.store.setJob_masked id jobName build)
  | setResultLocations id log results =>
    exact hkept (w.store.setResultLocations_masked id log results)
  | addRunTest runId new => exact w.ofStore_masked (w.store.addRunTest_masked runId new)
  | runTests runId => exact w.ofStore_masked (r := .ok (w.store, w.store.testsOfRun runId)) rfl
  | recordTestResult id success startedAt endedAt => exact hkept rfl
  | submitJob _ _ _ | startJob _ _ | lastBuildNumber _ _ | fetchLog _ _ _ =>
    exact w.ofFleet_masked rfl
  | _ => exact hc.elim

end Masked

/-! ## Worlds that are alike -/

namespace Alike

variable {w w' : World}

/-- What masking keeps is the same in both. -/
theorem eq_of_masked {β : Type} (h : w.Alike w') {f : World → β} (hf : ∀ w, f w.masked = f w) :
    f w = f w' := by
  rw [← hf w, ← hf w', show w.masked = w'.masked from h]

/-- Worlds that differ in secrets alone have stores that do. -/
theorem store (h : w.Alike w') : w.store.masked = w'.store.masked := congrArg World.store h

/-- Worlds that differ in secrets alone have fleets that do. -/
theorem fleet (h : w.Alike w') : w.fleet.masked = w'.fleet.masked := congrArg World.fleet h

/-- In worlds that differ in secrets alone the same calls on the store fail. -/
theorem broken (h : w.Alike w') : w.broken = w'.broken := h.eq_of_masked fun _ => rfl

/-- In worlds that differ in secrets alone the agents refuse the same. -/
theorem refusing (h : w.Alike w') : w.fleet.refusing = w'.fleet.refusing :=
  h.eq_of_masked (f := (·.fleet.refusing)) fun _ => rfl

/-- In worlds that differ in secrets alone it is the same time. -/
theorem now (h : w.Alike w') : w.now = w'.now := h.eq_of_masked fun _ => rfl

/-- Stores that differ in secrets alone may take the place of those of the worlds. -/
theorem withStore (h : w.Alike w') {s s' : Store} (hs : s.masked = s'.masked) :
    Alike { w with store := s } { w' with store := s' } := by
  show { w.masked with store := s.masked } = { w'.masked with store := s'.masked }
  rw [show w.masked = w'.masked from h, hs]

/-- Fleets that differ in secrets alone may take the place of those of the worlds. -/
theorem withFleet (h : w.Alike w') {f f' : Fleet} (hf : f.masked = f'.masked) :
    Alike { w with fleet := f } { w' with fleet := f' } := by
  show { w.masked with fleet := f.masked } = { w'.masked with fleet := f'.masked }
  rw [show w.masked = w'.masked from h, hf]

variable {α : Type} {R : α → α → Prop}

/-- Calls on the stores that are answered alike leave worlds that differ in secrets alone. -/
theorem ofStore (h : w.Alike w') (call : RunCall) {r r' : Except StoreFault (Store × α)}
    (hr : ResultsAgree (fun a b => a.1.masked = b.1.masked ∧ R a.2 b.2) r r') :
    ResultsAgree R (w.ofStore call r).1 (w'.ofStore call r').1 ∧
      (w.ofStore call r).2.Alike (w'.ofStore call r').2 := by
  unfold World.ofStore
  by_cases hbroken : w.broken.contains call
  · rw [if_pos hbroken, if_pos (h.broken ▸ hbroken)]
    exact ⟨.error _, h⟩
  · rw [if_neg hbroken, if_neg (h.broken ▸ hbroken)]
    cases hr with
    | ok hab => exact ⟨.ok hab.2, h.withStore hab.1⟩
    | error e => exact ⟨.error _, h⟩

/-- Calls on the fleets that are answered alike leave worlds that differ in secrets alone. -/
theorem ofFleet (h : w.Alike w') (call : AgentCall) {a a' : α} (ha : R a a') {f f' : Fleet}
    (hf : f.masked = f'.masked) :
    ResultsAgree R (w.ofFleet call (a, f)).1 (w'.ofFleet call (a', f')).1 ∧
      (w.ofFleet call (a, f)).2.Alike (w'.ofFleet call (a', f')).2 := by
  unfold World.ofFleet
  by_cases hrefused : w.fleet.refusing.contains call
  · rw [if_pos hrefused, if_pos (h.refusing ▸ hrefused)]
    exact ⟨.error _, h⟩
  · rw [if_neg hrefused, if_neg (h.refusing ▸ hrefused)]
    exact ⟨.ok ha, h.withFleet hf⟩

end Alike
end World

/-! ## Calls on worlds that are alike -/

namespace Call

/-- Whether two worlds answer two calls with related answers and are alike afterwards, when the same
goes wrong. -/
def AnsweredAlike (c c' : Call) (R : c.Answer → c'.Answer → Prop) (w w' : World) : Prop :=
  ∀ mishap, R (w.answerWith mishap c).1 (w'.answerWith mishap c').1 ∧
    (w.answerWith mishap c).2.Alike (w'.answerWith mishap c').2

variable {w w' : World} (h : w.Alike w')
include h

/-- Calls that fail alike, and as late as each other, are answered alike when they go well alike. -/
theorem answeredAlike_of {c c' : Call} {R : c.Answer → c'.Answer → Prop}
    (hanswer : R (w.answer c).1 (w'.answer c').1 ∧ (w.answer c).2.Alike (w'.answer c').2)
    (hfailing : ∀ cause, Option.Rel R (c.failing? cause) (c'.failing? cause))
    (hlate : c.canFailLate = c'.canFailLate) : c.AnsweredAlike c' R w w' := by
  intro mishap
  cases mishap with
  | none => exact hanswer
  | some x =>
    have hfailed := hfailing x.cause
    simp only [World.answerWith, hlate]
    generalize c.failing? x.cause = failed at hfailed ⊢
    generalize c'.failing? x.cause = failed' at hfailed ⊢
    cases hfailed with
    | none => exact hanswer
    | some hR =>
      refine ⟨hR, ?_⟩
      dsimp only
      split
      · exact hanswer.2
      · exact h

/-- An open call gets the same answer. -/
theorem answeredAlike_of_isOpen {c : Call} (hc : c.IsOpen) : c.AnsweredAlike c Eq w w' := by
  refine answeredAlike_of h ?_ (fun cause => ?_) rfl
  · have hmasked := w.answer_masked hc
    rw [show w.masked = w'.masked from h, w'.answer_masked hc] at hmasked
    exact ⟨(congrArg Prod.fst hmasked).symm, (congrArg Prod.snd hmasked).symm⟩
  · cases c.failing? cause with
    | none => exact .none
    | some failed => exact .some rfl

/-! ### Calls that are not open -/

/-- A run is found alike but for its tokens. -/
theorem answeredAlike_run (id : Int) :
    (run id).AnsweredAlike (run id) (ResultsAgree fun r r' => r.map Run.masked = r'.map Run.masked)
      w w' := by
  refine answeredAlike_of h (h.ofStore .getRun (.ok ⟨h.store, ?_⟩))
    (fun cause => .some (.error cause)) rfl
  rw [← Store.run?_masked, h.store, Store.run?_masked]

/-- A run is created in both worlds, where its access token is free in both or in neither. -/
theorem answeredAlike_createRun {new : NewRun}
    (hnew : w.store.HasAccessToken new.accessToken ↔ w'.store.HasAccessToken new.accessToken) :
    (createRun new).AnsweredAlike (createRun new) (ResultsAgree Eq) w w' := by
  refine answeredAlike_of h (h.ofStore .createRun ?_) (fun cause => .some (.error cause)) rfl
  rw [h.now]
  exact Store.createRun_of_masked_eq h.store w'.now hnew

/-- Whatever tokens are recorded. -/
theorem answeredAlike_setCommunicationToken (id : Int) (token token' : String) :
    (setCommunicationToken id token).AnsweredAlike (setCommunicationToken id token')
      (ResultsAgree Eq) w w' := by
  refine answeredAlike_of h (h.ofStore .setCommunicationToken (.ok ⟨?_, rfl⟩))
    (fun cause => .some (.error cause)) rfl
  rw [Store.masked_setCommunicationToken, h.store, Store.masked_setCommunicationToken]

/-- The communication tokens that are made may be any. -/
theorem answeredAlike_newCommunicationToken (runId : Int) :
    (newCommunicationToken runId).AnsweredAlike (newCommunicationToken runId)
      (fun _ _ => True) w w' :=
  answeredAlike_of h ⟨trivial, h⟩ (fun _ => .none) rfl

/-- An agent is found alike but for its secrets. -/
theorem answeredAlike_agent (id : Int) :
    (agent id).AnsweredAlike (agent id)
      (ResultsAgree fun a a' => a.map Agent.masked = a'.map Agent.masked) w w' := by
  refine answeredAlike_of h (h.ofFleet .agent ?_ h.fleet) (fun cause => .some (.error cause)) rfl
  rw [← Fleet.agent?_masked, h.fleet, Fleet.agent?_masked]

/-- The agents of a testbed are listed alike but for their secrets. -/
theorem answeredAlike_agentsOf (testbedId : String) :
    (agentsOf testbedId).AnsweredAlike (agentsOf testbedId)
      (ResultsAgree fun as as' => as.map Agent.masked = as'.map Agent.masked) w w' := by
  refine answeredAlike_of h (h.ofFleet .listAgents ?_ h.fleet) (fun cause => .some (.error cause))
    rfl
  rw [← Fleet.agentsOf_masked, h.fleet, Fleet.agentsOf_masked]

/-! ### Calls on agents that differ in their passwords at most -/

section Agents

variable {a a' : Agent} (ha : a.masked = a'.masked)
include ha

/-- Whatever the value of a credential is. -/
theorem answeredAlike_createCredential (name value value' description : String) :
    (createCredential a name value description).AnsweredAlike
      (createCredential a' name value' description) (ResultsAgree Eq) w w' := by
  have hid : a.id = a'.id := by
    show a.masked.id = a'.masked.id
    rw [ha]
  have hcreated (f : Fleet) (c : Credential) :
    Fleet.masked { f with credentials := f.credentials ++ [c] } =
      { f.masked with credentials := f.masked.credentials ++ [c.masked] } := by
    simp [Fleet.masked]
  refine answeredAlike_of h (h.ofFleet .createCredential rfl ?_) (fun cause => .some (.error cause))
    rfl
  rw [hcreated, hcreated, h.fleet, hid]
  rfl

/-- A probe is answered alike. -/
theorem answeredAlike_probe : (probe a).AnsweredAlike (probe a') Eq w w' := by
  have h : (probe a.masked).AnsweredAlike (probe a'.masked) Eq w w' := by
    rw [ha]
    exact answeredAlike_of_isOpen h trivial
  exact h

/-- A job is submitted alike. -/
theorem answeredAlike_submitJob (name script : String) :
    (submitJob a name script).AnsweredAlike (submitJob a' name script) Eq w w' := by
  have h : (submitJob a.masked name script).AnsweredAlike
      (submitJob a'.masked name script) Eq w w' := by
    rw [ha]
    exact answeredAlike_of_isOpen h trivial
  exact h

/-- A job is started alike. -/
theorem answeredAlike_startJob (name : String) :
    (startJob a name).AnsweredAlike (startJob a' name) Eq w w' := by
  have h : (startJob a.masked name).AnsweredAlike (startJob a'.masked name) Eq w w' := by
    rw [ha]
    exact answeredAlike_of_isOpen h trivial
  exact h

/-- The latest build is told alike. -/
theorem answeredAlike_lastBuildNumber (name : String) :
    (lastBuildNumber a name).AnsweredAlike (lastBuildNumber a' name) Eq w w' := by
  have h : (lastBuildNumber a.masked name).AnsweredAlike
      (lastBuildNumber a'.masked name) Eq w w' := by
    rw [ha]
    exact answeredAlike_of_isOpen h trivial
  exact h

/-- The log of a build is fetched alike. -/
theorem answeredAlike_fetchLog (name : String) (build : Nat) :
    (fetchLog a name build).AnsweredAlike (fetchLog a' name build) Eq w w' := by
  have h : (fetchLog a.masked name build).AnsweredAlike
      (fetchLog a'.masked name build) Eq w w' := by
    rw [ha]
    exact answeredAlike_of_isOpen h trivial
  exact h

end Agents

end Call
end PipelineManager
