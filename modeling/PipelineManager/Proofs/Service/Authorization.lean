import PipelineManager.Proofs.Service.Session
import PipelineManager.Proofs.Service.Stages

/-!
# Authorization

A callback is let in by the communication token of its run, and a report is given for the access
token. Whoever has neither is a stranger, who learns whether there is the run and nothing else. The
first call of such a request looks up the run, and it is the only one, so that nothing is changed
and a session goes on as if the request had not been made.
-/

namespace PipelineManager

/-! ## Strangers -/

/-- Whether a token is the communication token of a run. -/
def Store.Grants (s : Store) (runId : Int) (token : String) : Prop :=
  ∃ r, s.run? runId = some r ∧ r.communicationToken = some token

/-- Whether a token is the access token of a run. -/
def Store.GrantsReport (s : Store) (runId : Int) (token : String) : Prop :=
  ∃ r, s.run? runId = some r ∧ r.accessToken = token

/-- Whether a request is about a run and comes with a token that is not the run's. There may be no
such run. -/
def ServiceRequest.IsStrange (s : Store) (runId : Int) : ServiceRequest → Prop
  | callback id token _ => id = runId ∧ ¬ s.Grants runId token
  | report id token => id = runId ∧ ¬ s.GrantsReport runId token
  | _ => False

/-- What a stranger is told. -/
def World.refusal (w : World) (runId : Int) : ServiceError :=
  if RunCall.getRun ∈ w.broken then .storage (.broken .getRun)
  else if (w.store.run? runId).isSome then .unauthorized runId
  else .runNotFound runId

/-! ## How a run is looked up -/

section Lookup

variable {σ : Type} (answer : (c : Call) → σ → c.Answer × σ) (s : σ) (runId : Int) (token : String)

/-- The run that was looked up, or why it was not found. -/
def found (runId : Int) : Except Fault (Option Run) → Except ServiceError Run
  | .ok (some r) => .ok r
  | .ok none => .error (.runNotFound runId)
  | .error e => .error (.storage e)

/-- The run that was found, if it satisfies a condition. -/
def admitted (runId : Int) (condition : Run → Bool) :
    Except ServiceError Run → Except ServiceError Run
  | .ok r => if condition r then .ok r else .error (.unauthorized runId)
  | .error e => .error e

/-- An existing run is looked up by one call. -/
theorem exec_existingRun :
    Service.exec answer (Manager.existingRun runId) s =
      (found runId (answer (.run runId) s).1, (answer (.run runId) s).2) := by
  rw [Manager.existingRun, Service.exec_bind, Service.exec_ask]
  dsimp only
  rw [Service.exec_bind]
  rcases (answer (.run runId) s).1 with e | _ | r <;> rfl

/-- An authorized run is looked up by one call, and admitted by its token. -/
theorem exec_authorizedRun :
    Service.exec answer (Manager.authorizedRun runId token) s =
      (admitted runId (fun r => r.communicationToken = some token)
        (found runId (answer (.run runId) s).1), (answer (.run runId) s).2) := by
  rw [Manager.authorizedRun, Service.exec_bind, exec_existingRun]
  rcases found runId (answer (.run runId) s).1 with e | r
  · rfl
  · dsimp only [admitted]
    rw [Service.exec_bind, Service.exec_require]
    by_cases h : decide (r.communicationToken = some token) = true
    · rw [if_pos h, if_pos h]
      rfl
    · rw [if_neg h, if_neg h]

variable {answer s runId token}

/-- A callback ends where its run is not found for its token. -/
theorem Callback.exec_service_of_error (c : Callback) {e : ServiceError} {s' : σ}
    (h : Service.exec answer (Manager.authorizedRun runId token) s = (.error e, s')) :
    Service.exec answer (c.service runId token) s = (.error e, s') := by
  cases c with
  | recordStatus state success =>
    rw [service, Manager.recordStatus, Service.exec_bind, h]
  | publishResults directory =>
    rw [service, Manager.publishResults, Service.exec_bind, h]
  | developerArchive fullName =>
    rw [service, Manager.developerArchive, Service.exec_bind, h]

/-- A report that is not admitted ends with the error of the admission. -/
theorem exec_report_of_error {e : ServiceError}
    (h : admitted runId (fun r => r.accessToken = token) (found runId (answer (.run runId) s).1) =
      .error e) :
    Service.exec answer (Manager.report runId token) s = (.error e, (answer (.run runId) s).2) := by
  rw [Manager.report, Service.exec_bind, exec_existingRun]
  rcases hfound : found runId (answer (.run runId) s).1 with e' | r <;> rw [hfound] at h
  · obtain rfl := Except.error.inj h
    rfl
  · dsimp only [admitted] at h ⊢
    rw [Service.exec_bind, Service.exec_require]
    split at h
    · exact nomatch h
    · obtain rfl := Except.error.inj h
      rw [if_neg ‹_›]

end Lookup

/-! ## Refusals -/

namespace World

variable {w : World} {runId : Int} {token : String}

/-- A run that is looked up in a world, and does not satisfy a condition if there is one, is refused
with nothing but whether there is one. -/
theorem admitted_eq_error {condition : Run → Bool}
    (h : ∀ r, w.store.run? runId = some r → condition r = false) :
    admitted runId condition (found runId (answer (.run runId) w).1) =
      .error (w.refusal runId) := by
  rw [answer_run, refusal]
  by_cases hbroken : RunCall.getRun ∈ w.broken
  · rw [if_pos hbroken, if_pos (by simpa using hbroken)]
    rfl
  · rw [if_neg hbroken, if_neg (by simpa using hbroken)]
    cases hrun : w.store.run? runId with
    | none => rfl
    | some r => simp [found, admitted, h r hrun]

/-- A token is let in exactly when it is the token of the run. -/
theorem authorizedRun_iff (hworks : RunCall.getRun ∉ w.broken) :
    (∃ r, (w.carryOut (Manager.authorizedRun runId token).run).1 = .ok r) ↔
      w.store.Grants runId token := by
  have hexec : w.carryOut (Manager.authorizedRun runId token).run = _ :=
    exec_authorizedRun answer w runId token
  rw [hexec, answer_run, if_neg (by simpa using hworks)]
  cases hrun : w.store.run? runId with
  | none => simp [found, admitted, Store.Grants, hrun]
  | some r =>
    by_cases htoken :
      r.communicationToken = some token <;> simp [found, admitted, Store.Grants, hrun, htoken]

/-- Looking up a run leaves the world, also when it goes wrong. -/
theorem answerWith_run (mishap : Option Mishap) : (w.answerWith mishap (.run runId)).2 = w := by
  rcases w.answerWith_snd_cases mishap (.run runId) with h | h
  · exact h
  · rw [h, answer_run]

end World

namespace ServiceRequest

/-- The run that a request is about, and what is demanded of it for the request to be let in. -/
def demand? : ServiceRequest → Option (Int × (Run → Bool))
  | callback runId token _ => some (runId, fun r => r.communicationToken = some token)
  | report runId token => some (runId, fun r => r.accessToken = token)
  | _ => none

variable {w : World} {runId : Int} {q : ServiceRequest} {condition : Run → Bool}

/-- A request that does not meet its demand ends with the error of the admission. -/
theorem exec_service_of_demand {σ : Type} {answer : (c : Call) → σ → c.Answer × σ} {s : σ}
    (hq : q.demand? = some (runId, condition)) {e : ServiceError}
    (h : admitted runId condition (found runId (answer (.run runId) s).1) = .error e) :
    Service.exec answer q.service s = (.error e, (answer (.run runId) s).2) := by
  cases q with
  | callback id token c =>
    obtain ⟨rfl, rfl⟩ := Prod.mk.inj (Option.some.inj hq)
    exact c.exec_service_of_error ((exec_authorizedRun answer s id token).trans (congrArg (·, _) h))
  | report id token =>
    obtain ⟨rfl, rfl⟩ := Prod.mk.inj (Option.some.inj hq)
    exact exec_report_of_error h
  | _ => exact nomatch hq

/-- No run satisfies what a stranger's request demands. -/
theorem IsStrange.exists_demand (hq : q.IsStrange w.store runId) :
    ∃ condition, q.demand? = some (runId, condition) ∧ ∀ r,
      w.store.run? runId = some r → condition r = false := by
  cases q with
  | callback id token c =>
    obtain ⟨rfl, hgrants⟩ := hq
    exact ⟨_, rfl, fun r hr => decide_eq_false fun htoken => hgrants ⟨r, hr, htoken⟩⟩
  | report id token =>
    obtain ⟨rfl, hgrants⟩ := hq
    exact ⟨_, rfl, fun r hr => decide_eq_false fun htoken => hgrants ⟨r, hr, htoken⟩⟩
  | _ => exact hq.elim

/-- A strange request is refused and changes nothing. -/
theorem IsStrange.carryOut_eq (hq : q.IsStrange w.store runId) :
    w.carryOut q.service.run = (.error (w.refusal runId), w) := by
  obtain ⟨condition, hdemand, hcondition⟩ := hq.exists_demand
  have hexec :
      Service.exec World.answer q.service w =
          (.error (w.refusal runId), (World.answer (.run runId) w).2) :=
    exec_service_of_demand hdemand (World.admitted_eq_error hcondition)
  rwa [World.answer_run] at hexec

/-- Whatever goes wrong, a stranger's request changes nothing. -/
theorem IsStrange.attempt_eq (hq : q.IsStrange w.store runId) (plan : Nat → Option Mishap) :
    (w.attempt plan q.service).2 = w := by
  obtain ⟨condition, hdemand, hcondition⟩ := hq.exists_demand
  have herror : ∃ e, admitted runId condition
      (found runId (Trial.answer plan (.run runId) { world := w }).1) = .error e := by
    rw [Trial.answer_fst]
    rcases w.answerWith_cases (plan 0) (.run runId) with h | ⟨cause, failed, hfailing, h | h⟩
    · exact ⟨_, (congrArg (fun r => admitted runId condition (found runId r.1)) h).trans
        (World.admitted_eq_error hcondition)⟩
    all_goals
      obtain rfl := Option.some.inj hfailing
      exact ⟨.storage cause, congrArg (fun r => admitted runId condition (found runId r.1)) h⟩
  obtain ⟨e, herror⟩ := herror
  have hexec := exec_service_of_demand hdemand herror
  exact (congrArg (fun r => r.2.world) hexec).trans (World.answerWith_run _)

end ServiceRequest

/-! ## Sessions without strangers -/

/-- A session that begins in a world, and the same session when some of the strangers' requests are
left out. -/
inductive SparesStrangers : World → List Event → List Event → Prop
  | nil {w : World} : SparesStrangers w [] []
  | keep {w : World} {e : Event} {events rest : List Event}
      (h : SparesStrangers (w.perform e) events rest) :
      SparesStrangers w (e :: events) (e :: rest)
  | leave {w : World} {runId : Int} {q : ServiceRequest} {plan : Nat → Option Mishap}
      {events rest : List Event} (hq : q.IsStrange w.store runId)
      (h : SparesStrangers w events rest) :
      SparesStrangers w (.request q plan :: events) rest

/-- A session leads to the same world when strangers' requests are left out. -/
theorem SparesStrangers.after_eq {w : World} {events rest : List Event}
    (h : SparesStrangers w events rest) :
    w.after events = w.after rest := by
  induction h with
  | nil => rfl
  | keep _ ih => exact ih
  | @leave w runId q plan events rest hq _ ih =>
    have hworld : w.perform (.request q plan) = w := hq.attempt_eq plan
    rw [World.after, List.foldl_cons, hworld]
    exact ih

/-- A stranger is told that there is no such run, or that the token is not that of the run.
Nothing is changed. Any two worlds that can look up runs and have the run, or have it not,
refuse all strangers alike. And a session leads to the same world with the requests of strangers
and without. -/
theorem Manager.strangers_are_refused {w : World} {runId : Int} {q : ServiceRequest}
    (hq : q.IsStrange w.store runId) :
    (w.carryOut q.service.run = (.error (w.refusal runId), w)) ∧
    (RunCall.getRun ∉ w.broken → ∀ (w' : World) (q' : ServiceRequest), q'.IsStrange w'.store runId →
      RunCall.getRun ∉ w'.broken → (w'.store.run? runId).isSome = (w.store.run? runId).isSome →
      ∃ e, (w.carryOut q.service.run).1 = .error e ∧ (w'.carryOut q'.service.run).1 = .error e) ∧
    ∀ plan events rest, SparesStrangers w events rest →
      w.after (.request q plan :: events) = w.after rest := by
  refine ⟨hq.carryOut_eq, fun hworks w' q' hq' hworks' hsame => ?_, fun plan events rest h => ?_⟩
  · have hrefusal : w'.refusal runId = w.refusal runId := by
      rw [World.refusal, World.refusal, if_neg hworks, if_neg hworks', hsame]
    rw [hq.carryOut_eq, hq'.carryOut_eq, hrefusal]
    exact ⟨_, rfl, rfl⟩
  · exact (SparesStrangers.leave hq h).after_eq

/-- A world with a run that has a communication token, or has none yet. -/
def guardedWorld (token : Option String) : World :=
  { smallWorld with
    store := { smallWorld.store with
      runs := [{
        id := 1, netappId := "app", networkServiceId := "net", testbedId := "tb", agentId := none
        accessToken := "access", communicationToken := token, jobName := none, buildNumber := none
        logLocation := none, resultsLocation := none, createdAt := "now" }] } }

/-- A callback with another token than that of the guarded run is strange. -/
theorem isStrange_guardedWorld {token : Option String} {other : String} (h : token ≠ some other)
    (c : Callback) :
    (ServiceRequest.callback 1 other c).IsStrange (guardedWorld token).store 1 := by
  refine ⟨rfl, ?_⟩
  rintro ⟨r, hr, hother⟩
  obtain rfl := Option.some.inj hr
  exact h hother

/-- An empty token is not taken for the token of a run that has none, and is told what a wrong
one is told. -/
theorem Manager.strangers_are_refused_guarded :
    (ServiceRequest.callback 1 "" (.publishResults "results")).IsStrange
        (guardedWorld none).store 1 ∧
      (ServiceRequest.callback 1 "access" (.recordStatus .testEnded true)).IsStrange
        (guardedWorld (some "communication")).store 1 ∧
      ((guardedWorld none).carryOut (Callback.service 1 "" (.publishResults "results")).run =
        (.error (.unauthorized 1), guardedWorld none)) ∧
      ∃ e,
        ((guardedWorld none).carryOut (Callback.service 1 "" (.publishResults "results")).run).1 =
        .error e ∧
        ((guardedWorld (some "communication")).carryOut
          (Callback.service 1 "access" (.recordStatus .testEnded true)).run).1 = .error e := by
  have hnone := isStrange_guardedWorld (show none ≠ some "" by decide) (.publishResults "results")
  have hother := isStrange_guardedWorld (show some "communication" ≠ some "access" by decide)
    (.recordStatus .testEnded true)
  exact ⟨hnone, hother, (strangers_are_refused hnone).1,
    (strangers_are_refused hnone).2.1 (by decide) _ _ hother (by decide) rfl⟩

end PipelineManager
