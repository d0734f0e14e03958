import PipelineManager.Proofs.Agent.Selection
import PipelineManager.Proofs.Service.Underway

/-!
# The stages of a submission

A submission passes five stages, and reports each of them. Whatever calls go wrong on the way,
the log of the new run is a beginning of the five stages: every entry but possibly the last tells
of a stage that was reached, and a last entry that does not tells where a call failed. This is the
invariant of a trial, kept by every call that succeeds and every report, and turned into the final
log by the first call that fails.
-/

namespace PipelineManager

open StatusRequest

/-! ## What is said of a submission -/

/-- The stages of a submission in order. -/
def submissionStages : List RunState :=
  [.submittedToManager, .authenticatedOnAgent, .createdCommunicationToken, .createdPipelineScript,
    .submittedPipelineScript]

/-- The reports of a submission that has reached some of its stages. -/
def reached (n : Nat) : List (RunState × Bool) :=
  (submissionStages.take n).map fun state => (state, true)

namespace Call

/-- The stage that a call belongs to. -/
def stage? : Call → Option RunState
  | agentsOf _ | setRunAgent _ _ => some .authenticatedOnAgent
  | createCredential _ _ _ _ | setCommunicationToken _ _ => some .createdCommunicationToken
  | addRunTest _ _ => some .createdPipelineScript
  | submitJob _ _ _ | startJob _ _ | setJob _ _ _ => some .submittedPipelineScript
  | _ => none

/-- The error of a submission when a call of it failed. -/
def failure (cause : Fault) : Call → ServiceError
  | createCredential _ _ _ _ => .credentialProvisioning cause
  | submitJob _ _ _ | startJob _ _ => .pipelineSubmission cause
  | _ => .storage cause

/-- The stage that must have been reached before a call. -/
def after? : Call → Option RunState
  | createCredential _ _ _ _ => some .authenticatedOnAgent
  | submitJob _ _ _ | startJob _ _ => some .createdPipelineScript
  | _ => none

end Call

/-- Whether the log of a run says that a stage was reached. -/
def Store.HasReached (s : Store) (runId : Int) (state : RunState) : Prop :=
  ∃ log, s.statusLog runId = .ok log ∧ ∃ entry ∈ log, entry.state = state ∧ entry.success = true

/-- Whether a call was made when the stage before it had been reached. -/
def Exchange.InOrder (runId : Int) (x : Exchange) : Prop :=
  ∀ state ∈ x.call.after?, x.store.HasReached runId state

/-- Whether no call of a stage has failed. -/
def Untroubled (past : List Exchange) : Prop := ∀ x ∈ past, x.call.stage?.isSome → x.fault = none

/-- Whether the agents of a testbed were listed at last, all of them were probed then, and none has
answered that it can be reached. -/
def Unreached (testbedId : String) (past : List Exchange) : Prop :=
  ∃ before store agents probes,
    past = before ++ ⟨store, .agentsOf testbedId, .ok agents⟩ :: probes ∧
      List.Forall₂ (fun a x => ∃ (store : Store) (answer : Option Probe),
        x = ⟨store, .probe a, answer⟩ ∧ ∀ p ∈ answer, p.reachable = false) agents probes

/-- Whether the catalogue of the testbed was looked up at last, and the script of a run cannot be
rendered with it. -/
def Unrendered (m : Manager) (d : Descriptor) (tests : List ExecutedTest) (runId : Int)
    (past : List Exchange) (e : RenderError) : Prop :=
  ∃ store : Store,
    let catalogue := store.testsOf d.info.testbedId
    past.getLast? = some ⟨store, .tests d.info.testbedId, catalogue⟩ ∧
      renderScript m.template m.settings (m.scriptRequest d catalogue tests runId) = .error e

/-- Why a submission stops at a stage: its last call failed, and is the first of them to fail, or
all went well but no agent can be reached, or the script cannot be rendered. -/
inductive StopsAt (m : Manager) (d : Descriptor) (tests : List ExecutedTest) (runId : Int) :
    List Exchange → RunState → ServiceError → Prop
  | call {before : List Exchange} {x : Exchange} {cause : Fault} {state : RunState}
      (hbefore : Untroubled before) (hfault : x.fault = some cause)
      (hstage : x.call.stage? = some state) :
      StopsAt m d tests runId (before ++ [x]) state (x.call.failure cause)
  | noAgent {past : List Exchange} (hpast : Untroubled past)
      (hunreached : Unreached d.info.testbedId past) :
      StopsAt m d tests runId past .authenticatedOnAgent (.noAgentAvailable d.info.testbedId)
  | render {past : List Exchange} {e : RenderError} (hpast : Untroubled past)
      (hunrendered : Unrendered m d tests runId past e) :
      StopsAt m d tests runId past .createdPipelineScript (.render e)

/-! ## The invariant -/

variable {plan : Nat → Option Mishap} {w : World} {run : Run} {marks : List (RunState × Bool)}
  {t : Trial} {m : Manager} {d : Descriptor} {tests : List ExecutedTest} {state : RunState}
  {e : ServiceError}

/-- A trial of a submission in which nothing has failed yet. -/
structure GoingWell (w : World) (run : Run) (marks : List (RunState × Bool))
    (t : Trial) : Prop where
  underway : Underway w run marks t.world
  inOrder : ∀ x ∈ t.past, x.InOrder run.id
  untroubled : Untroubled t.past

/-- A trial of a submission that must stop at a stage and has not reported so. -/
structure MustStop (m : Manager) (d : Descriptor) (tests : List ExecutedTest) (w : World)
    (run : Run) (marks : List (RunState × Bool)) (state : RunState) (e : ServiceError) (t : Trial) :
    Prop where
  underway : Underway w run marks t.world
  inOrder : ∀ x ∈ t.past, x.InOrder run.id
  cause : StopsAt m d tests run.id t.past state e

/-- A trial of a submission that has reported where it stopped. -/
structure Stopped (m : Manager) (d : Descriptor) (tests : List ExecutedTest) (w : World)
    (runId : Int) (marks : List (RunState × Bool)) (state : RunState) (e : ServiceError)
    (t : Trial) : Prop where
  underway : ∃ run, run.id = runId ∧ Underway w run (marks ++ [(state, false)]) t.world
  inOrder : ∀ x ∈ t.past, x.InOrder runId
  cause : ∃ before report, t.past = before ++ [report] ∧
    StopsAt m d tests runId before state e

/-- A run underway has reached the states that are marked as successes. -/
theorem Underway.hasReached {w' : World} (h : Underway w run marks w') (hw : w.store.Consistent)
    (hmark : (state, true) ∈ marks) : w'.store.HasReached run.id state := by
  have hlog := (h.records hw).statusLog_eq
  rw [h.maxima_requestsOf] at hlog
  obtain ⟨place, hplace, hget⟩ := List.mem_iff_getElem.mp hmark
  refine ⟨_, hlog, entryAt place ⟨run.id, state, true, w.now⟩, ?_, rfl, rfl⟩
  exact List.mem_mapIdx.mpr ⟨place, by simpa [requestsOf] using hplace, by simp [requestsOf, hget]⟩

/-- A call that no stage must precede is in order. -/
theorem Exchange.inOrder_of_after?_eq_none {runId : Int} {x : Exchange} (h : x.call.after? = none) :
    x.InOrder runId := by
  intro state hstate
  rw [h] at hstate
  cases hstate

namespace GoingWell

variable {c : Call}

/-- Whatever a call is answered, it changes at most the new run, and is made in order. -/
theorem answer (h : GoingWell w run marks t) (hw : w.store.Consistent) (hc : c.StaysWith run.id)
    (hafter : ∀ state ∈ c.after?, (state, true) ∈ marks) :
    Underway w (c.effectIf (c.fault? (Trial.answer plan c t).1) run) marks
      (Trial.answer plan c t).2.world ∧
      ∀ x ∈ (Trial.answer plan c t).2.past, x.InOrder run.id := by
  constructor
  · exact h.underway.changed hw (c.id_effectIf _ run) (World.changes_answerWith hc _ _)
  · refine Trial.forall_past_answer plan h.inOrder fun state hstate => ?_
    exact h.underway.hasReached hw (hafter state hstate)

/-- A call that does not fail keeps the invariant. -/
theorem answer_ok (h : GoingWell w run marks t) (hw : w.store.Consistent) (hc : c.StaysWith run.id)
    (hafter : ∀ state ∈ c.after?, (state, true) ∈ marks)
    (hfault : c.fault? (Trial.answer plan c t).1 = none) :
    GoingWell w (c.effect run) marks (Trial.answer plan c t).2 := by
  obtain ⟨hunderway, hinOrder⟩ := h.answer hw hc hafter
  rw [hfault] at hunderway
  have huntroubled : Untroubled (Trial.answer plan c t).2.past :=
    Trial.forall_past_answer plan h.untroubled fun _ => hfault
  exact ⟨hunderway, by rw [c.id_effect]; exact hinOrder, huntroubled⟩

/-- A call of a stage that fails stops the submission there. -/
theorem answer_failed (h : GoingWell w run marks t) (hw : w.store.Consistent)
    (hc : c.StaysWith run.id) (hafter : ∀ state ∈ c.after?, (state, true) ∈ marks) {cause : Fault}
    (hfault : c.fault? (Trial.answer plan c t).1 = some cause) (hstage : c.stage? = some state) :
    MustStop m d tests w run marks state (c.failure cause) (Trial.answer plan c t).2 := by
  obtain ⟨hunderway, hinOrder⟩ := h.answer hw hc hafter
  rw [hfault] at hunderway
  refine ⟨hunderway, hinOrder, ?_⟩
  rw [Trial.past_answer]
  exact .call h.untroubled hfault hstage

end GoingWell

/-! ## Reports -/

/-- The report of a later state is recorded. -/
theorem Underway.report (plan : Nat → Option Mishap) (h : Underway w run marks t.world)
    (hw : w.store.Consistent) (hinOrder : ∀ x ∈ t.past, x.InOrder run.id)
    (hnext : IsNext state marks) (success : Bool) :
    (∃ entry, (Trial.answer plan (.appendStatus run.id state success) t).1 = .ok entry) ∧
      Underway w run (marks ++ [(state, success)])
        (Trial.answer plan (.appendStatus run.id state success) t).2.world ∧
      ∀ x ∈ (Trial.answer plan (.appendStatus run.id state success) t).2.past,
        x.InOrder run.id := by
  obtain ⟨hentry, hunderway⟩ := h.append hw hnext success
  have hpast : ∀ x ∈ (Trial.answer plan (.appendStatus run.id state success) t).2.past,
      x.InOrder run.id :=
    Trial.forall_past_answer plan hinOrder (Exchange.inOrder_of_after?_eq_none rfl)
  rw [Trial.answer_fst, Trial.world_answer, Trial.answerWith_of_failing?_eq_none fun _ => rfl]
  exact ⟨hentry, hunderway, hpast⟩

/-- A stage that fails is reported, and the submission has stopped. -/
theorem MustStop.ends_failStage {α : Type} {ok : α → Trial → Prop}
    (h : MustStop m d tests w run marks state e t) (hw : w.store.Consistent)
    (hnext : IsNext state marks) :
    Service.Ends (Trial.answer plan) (failStage run.id state e) t ok
      (Stopped m d tests w run.id marks state) := by
  obtain ⟨-, hunderway, hinOrder⟩ := h.underway.report plan hw h.inOrder hnext false
  rw [failStage, Service.ends_ask_bind]
  exact ⟨⟨run, rfl, hunderway⟩, hinOrder, t.past, _, rfl, h.cause⟩

/-- A stage that was reached is reported, and the submission goes on. -/
theorem GoingWell.ends_markStage {failed : ServiceError → Trial → Prop}
    (h : GoingWell w run marks t) (hw : w.store.Consistent) (hnext : IsNext state marks) :
    Service.Ends (Trial.answer plan) (markStage run.id state) t
      (fun _ => GoingWell w run (marks ++ [(state, true)])) failed := by
  obtain ⟨⟨entry, hentry⟩, hunderway, hinOrder⟩ := h.underway.report plan hw h.inOrder hnext true
  have huntroubled : Untroubled (Trial.answer plan (.appendStatus run.id state true) t).2.past :=
    Trial.forall_past_answer plan h.untroubled fun _ => rfl
  rw [markStage, Service.ends_ask_bind, hentry]
  exact ⟨hunderway, hinOrder, huntroubled⟩

/-- What a call of a stage gives is gone on with, or reported as a failure of the stage. -/
theorem GoingWell.ends_stage {α : Type} {c : Call} {r : Except Fault α}
    {wrap : Fault → ServiceError} (h : GoingWell w run marks t) (hw : w.store.Consistent)
    (hc : c.StaysWith run.id) (hafter : ∀ state ∈ c.after?, (state, true) ∈ marks)
    (hr : c.fault? (Trial.answer plan c t).1 = Call.faultOf? r) (hstage : c.stage? = some state)
    (hwrap : ∀ cause, wrap cause = c.failure cause) (hnext : IsNext state marks) :
    Service.Ends (Trial.answer plan) (stage run.id state (r.mapError wrap))
      (Trial.answer plan c t).2
      (fun a t' =>
        (r = .ok a ∧ t' = (Trial.answer plan c t).2) ∧ GoingWell w (c.effect run) marks t')
      (Stopped m d tests w run.id marks state) := by
  cases r with
  | ok a => exact ⟨⟨rfl, rfl⟩, h.answer_ok hw hc hafter hr⟩
  | error cause =>
    have hstop : MustStop m d tests w run marks state (c.failure cause) (Trial.answer plan c t).2 :=
      h.answer_failed hw hc hafter hr hstage
    rw [← hwrap] at hstop
    exact hstop.ends_failStage hw hnext

/-! ## The stages -/

/-- Probes keep the invariant; one that fails only has no answer. -/
theorem GoingWell.ends_probeAll {failed : ServiceError → Trial → Prop} (h : GoingWell w run marks t)
    (hw : w.store.Consistent) (agents : List Agent) :
    Service.Ends (Trial.answer plan) (probeAll agents) t
      (fun probed t' => GoingWell w run marks t' ∧ probed.map (·.1) = agents ∧
        ∃ probes, t'.past = t.past ++ probes ∧
          List.Forall₂ (fun (y : Agent × Option Probe) (x : Exchange) =>
            ∃ store, x = ⟨store, .probe y.1, y.2⟩) probed probes) failed := by
  induction agents generalizing t with
  | nil => exact ⟨h, rfl, [], (List.append_nil _).symm, .nil⟩
  | cons a rest ih =>
    rw [probeAll, Service.ends_ask_bind]
    have hprobed : GoingWell w run marks (Trial.answer plan (.probe a) t).2 :=
      h.answer_ok (c := .probe a) hw trivial (by simp [Call.after?]) rfl
    refine (ih hprobed).bind ?_
    rintro probed t' ⟨h', rfl, probes, hpast, hprobes⟩
    rw [Trial.past_answer, List.append_assoc] at hpast
    exact ⟨h', rfl, _, hpast, .cons ⟨_, rfl⟩ hprobes⟩

/-- The second stage. It fails when no agent can be listed, chosen or recorded. -/
theorem Manager.ends_chooseAgent (h : GoingWell w run marks t) (hw : w.store.Consistent)
    (hnext : IsNext .authenticatedOnAgent marks) :
    Service.Ends (Trial.answer plan) (chooseAgent d.info run.id) t
      (fun _ t' => ∃ run' : Run, run'.id = run.id ∧
        GoingWell w run' (marks ++ [(.authenticatedOnAgent, true)]) t')
      (Stopped m d tests w run.id marks .authenticatedOnAgent) := by
  rw [chooseAgent, Service.ends_ask_bind]
  refine (h.ends_stage (c := .agentsOf d.info.testbedId) hw trivial (by simp [Call.after?]) rfl rfl
    (fun _ => rfl) hnext).bind ?_
  rintro agents t₁ ⟨⟨hlisted, rfl⟩, h₁⟩
  refine (h₁.ends_probeAll hw agents).bind ?_
  rintro probed t₂ ⟨h₂, rfl, probes, hpast, hprobes⟩
  cases hselected : selectAgent probed with
  | none =>
    rw [Trial.past_answer, hlisted, List.append_assoc] at hpast
    have hunreached : Unreached d.info.testbedId t₂.past := by
      refine ⟨_, _, _, probes, hpast, List.forall₂_map_left_iff.mpr ?_⟩
      have hsilent := Selection.unreachable_of_selectAgent hselected
      exact (List.forall₂_and_left _ _ |>.mpr ⟨hsilent, hprobes⟩).imp
        fun y x ⟨hy, store, hx⟩ => ⟨store, y.2, hx, hy⟩
    have hstop : MustStop m d tests w run marks _ _ t₂ :=
      ⟨h₂.underway, h₂.inOrder, .noAgent h₂.untroubled hunreached⟩
    exact hstop.ends_failStage hw hnext
  | some chosen =>
    obtain ⟨agent, probe⟩ := chosen
    dsimp only
    rw [Service.ends_ask_bind]
    refine (h₂.ends_stage (c := .setRunAgent run.id agent.id) hw rfl (by simp [Call.after?]) rfl rfl
      (fun _ => rfl) hnext).bind ?_
    rintro _ t₃ ⟨-, h₃⟩
    refine (h₃.ends_markStage hw hnext).bind ?_
    exact fun _ t₄ h₄ => ⟨{ run with agentId := some agent.id }, rfl, h₄⟩

/-- The third stage. The agent is given the token before the run is. -/
theorem Manager.ends_provideToken (h : GoingWell w run marks t) (hw : w.store.Consistent)
    (agent : Agent) (hauthenticated : (.authenticatedOnAgent, true) ∈ marks)
    (hnext : IsNext .createdCommunicationToken marks) :
    Service.Ends (Trial.answer plan) (provideToken agent run.id) t
      (fun _ t' =>
        GoingWell w { run with communicationToken := some (w.secrets.communication run.id) }
        (marks ++ [(.createdCommunicationToken, true)]) t')
      (Stopped m d tests w run.id marks .createdCommunicationToken) := by
  rw [provideToken, Service.ends_ask_bind]
  have h₁ : GoingWell w run marks (Trial.answer plan (.newCommunicationToken run.id) t).2 :=
    h.answer_ok (c := .newCommunicationToken run.id) hw trivial (by simp [Call.after?]) rfl
  have htoken :
      (Trial.answer plan (.newCommunicationToken run.id) t).1 = w.secrets.communication run.id := by
    rw [Trial.answer_fst, Trial.answerWith_of_failing?_eq_none fun _ => rfl, World.answer,
      h.underway.setting.secrets]
  rw [htoken, Service.ends_ask_bind]
  refine (h₁.ends_stage (c := .createCredential agent _ _ _) hw trivial ?_ rfl rfl (fun _ => rfl)
    hnext).bind ?_
  · rintro state ⟨rfl⟩
    exact hauthenticated
  rintro _ t₂ ⟨-, h₂⟩
  rw [Service.ends_ask_bind]
  refine (h₂.ends_stage (c := .setCommunicationToken run.id _) hw rfl (by simp [Call.after?])
    rfl rfl (fun _ => rfl) hnext).bind ?_
  rintro _ t₃ ⟨-, h₃⟩
  exact h₃.ends_markStage hw hnext

/-- Tests are registered until one is not. -/
theorem ends_registerTests (h : GoingWell w run marks t) (hw : w.store.Consistent)
    (netappId : String) (news : List ExecutedTest) :
    Service.Ends (Trial.answer plan) (registerTests netappId run.id news) t
      (fun _ => GoingWell w run marks) (MustStop m d tests w run marks .createdPipelineScript) := by
  induction news generalizing t with
  | nil => exact h
  | cons test rest ih =>
    rw [registerTests, Service.ends_ask_bind, Service.ends_bind]
    set c : Call := .addRunTest run.id (.ofExecuted netappId test) with hc
    rcases hr : (Trial.answer plan c t).1 with cause | registered
    · have hfault : c.fault? (Trial.answer plan c t).1 = some cause := by rw [hr]; rfl
      exact h.answer_failed (c := c) hw trivial (by simp [hc, Call.after?]) hfault rfl
    · have hfault : c.fault? (Trial.answer plan c t).1 = none := by rw [hr]; rfl
      exact ih (h.answer_ok (c := c) hw trivial (by simp [hc, Call.after?]) hfault)

/-- The fourth stage. It fails when a test cannot be registered or the script not be rendered. -/
theorem Manager.ends_createScript (h : GoingWell w run marks t) (hw : w.store.Consistent)
    (hnext : IsNext .createdPipelineScript marks) :
    Service.Ends (Trial.answer plan) (m.createScript d tests run.id) t
      (fun _ => GoingWell w run (marks ++ [(.createdPipelineScript, true)]))
      (Stopped m d tests w run.id marks .createdPipelineScript) := by
  have hprepared : Service.Ends (Trial.answer plan) (m.prepareScript d tests run.id) t
      (fun _ => GoingWell w run marks)
      (MustStop m d tests w run marks .createdPipelineScript) := by
    rw [prepareScript]
    refine (ends_registerTests h hw d.info.netappId tests).bind ?_
    intro _ t₁ h₁
    rw [Service.ends_ask_bind]
    have h₂ : GoingWell w run marks (Trial.answer plan (.tests d.info.testbedId) t₁).2 :=
      h₁.answer_ok (c := .tests d.info.testbedId) hw trivial (by simp [Call.after?]) rfl
    have hcatalogue : (Trial.answer plan (.tests d.info.testbedId) t₁).1 =
        t₁.world.store.testsOf d.info.testbedId := by
      rw [Trial.answer_fst, Trial.answerWith_of_failing?_eq_none fun _ => rfl]
      rfl
    have hpast := Trial.past_answer plan (.tests d.info.testbedId) t₁
    rw [hcatalogue] at hpast ⊢
    split
    · exact h₂
    · next e hrender =>
      refine ⟨h₂.underway, h₂.inOrder, .render h₂.untroubled ⟨t₁.world.store, ?_, hrender⟩⟩
      rw [hpast, List.getLast?_concat]
  rw [createScript, Service.ends_result_bind]
  refine hprepared.mono ?_ ?_
  · intro script t₁ h₁
    rw [Service.ends_bind, Service.ends_stage_ok, Service.ends_bind]
    exact h₁.ends_markStage hw hnext
  · intro e t₁ hstop
    rw [Service.ends_bind, Service.ends_stage_error]
    exact hstop.ends_failStage hw hnext

/-- A job that is not submitted is not started. -/
theorem Manager.ends_launch (h : GoingWell w run marks t) (hw : w.store.Consistent) (agent : Agent)
    (name script : String) (hcreated : (.createdPipelineScript, true) ∈ marks)
    {failed : ServiceError → Trial → Prop} :
    Service.Ends (Trial.answer plan) (launch agent name script) t
      (fun r t' => match r with
        | .ok _ => GoingWell w run marks t'
        | .error cause =>
          MustStop m d tests w run marks .submittedPipelineScript (.pipelineSubmission cause) t')
      failed := by
  have hafter : ∀ state ∈ some RunState.createdPipelineScript, (state, true) ∈ marks := by
    rintro state ⟨rfl⟩
    exact hcreated
  rw [launch, Service.ends_ask_bind]
  set submit : Call := .submitJob agent name script
  rcases hsubmitted : (Trial.answer plan submit t).1 with cause | _
  · have hfault : submit.fault? (Trial.answer plan submit t).1 = some cause := by
      rw [hsubmitted]; rfl
    exact h.answer_failed (c := submit) hw trivial hafter hfault rfl
  · have hfault : submit.fault? (Trial.answer plan submit t).1 = none := by rw [hsubmitted]; rfl
    have h₁ := h.answer_ok (c := submit) hw trivial hafter hfault
    set start : Call := .startJob agent name
    have hends : ∀ r : Except Fault Nat,
      (Trial.answer plan start (Trial.answer plan submit t).2).1 = r →
        match r with
        | .ok _ => GoingWell w run marks (Trial.answer plan start (Trial.answer plan submit t).2).2
        | .error cause =>
          MustStop m d tests w run marks .submittedPipelineScript (.pipelineSubmission cause)
            (Trial.answer plan start (Trial.answer plan submit t).2).2 := by
      intro r hstarted
      cases r with
      | ok build => exact h₁.answer_ok (c := start) hw trivial hafter (by rw [hstarted]; rfl)
      | error cause =>
        exact h₁.answer_failed (c := start) hw trivial hafter (by rw [hstarted]; rfl) rfl
    exact hends _ rfl

/-- The fifth stage. It fails when the job cannot be submitted, started or recorded. -/
theorem Manager.ends_startRun (h : GoingWell w run marks t) (hw : w.store.Consistent)
    (agent : Agent) (name script : String) (hcreated : (.createdPipelineScript, true) ∈ marks)
    (hnext : IsNext .submittedPipelineScript marks) :
    Service.Ends (Trial.answer plan) (startRun agent run.id name script) t
      (fun build t' => GoingWell w { run with jobName := some name, buildNumber := some build }
        (marks ++ [(.submittedPipelineScript, true)]) t')
      (Stopped m d tests w run.id marks .submittedPipelineScript) := by
  have hlaunched : Service.Ends (Trial.answer plan) (launch agent name script) t
      (fun r t' => match r with
        | .ok _ => GoingWell w run marks t'
        | .error cause =>
          MustStop m d tests w run marks .submittedPipelineScript (.pipelineSubmission cause) t')
      (Stopped m d tests w run.id marks .submittedPipelineScript) :=
    ends_launch h hw agent name script hcreated
  rw [startRun]
  refine hlaunched.bind ?_
  intro launched t₁ h₁
  rw [Service.ends_bind]
  cases launched with
  | error cause => exact h₁.ends_failStage hw hnext
  | ok build =>
    refine Service.ends_stage_ok.mpr ?_
    rw [Service.ends_ask_bind]
    refine (h₁.ends_stage (c := .setJob run.id name (some build)) hw rfl (by simp [Call.after?])
      rfl rfl (fun _ => rfl) hnext).bind ?_
    rintro _ t₂ ⟨-, h₂⟩
    exact (h₂.ends_markStage hw hnext).bind fun _ _ h₃ => h₃

/-! ## Submissions -/

/-- Whether the last call was to create a run, and failed. -/
def Uncreated (cause : Fault) (past : List Exchange) : Prop :=
  ∃ store new, past.getLast? = some ⟨store, .createRun new, .error cause⟩

/-- A submission in `w` that has stopped, because it could not create a run or at a stage of it. -/
def HasStopped (m : Manager) (d : Descriptor) (tests : List ExecutedTest) (w : World)
    (e : ServiceError) (t : Trial) : Prop :=
  (∃ cause, e = .storage cause ∧ t.world = w ∧ Uncreated cause t.past) ∨
    ∃ n state, submissionStages[n]? = some state ∧
      Stopped m d tests w (Store.nextId w.store.runs) (reached n) state e t

/-- A submission in `w` that has come to its end. -/
def HasSucceeded (w : World) (receipt : Receipt) (t : Trial) : Prop :=
  ∃ run, GoingWell w run (reached 5) t ∧ receipt.runId = run.id ∧
    run.jobName = some receipt.jobName ∧ run.buildNumber = some receipt.buildNumber

/-- A submission that stopped at one of its stages has stopped. -/
theorem HasStopped.of_stopped (n : Nat) (hstate : submissionStages[n]? = some state) {runId : Int}
    (hrun : runId = Store.nextId w.store.runs)
    (h : Stopped m d tests w runId (reached n) state e t) : HasStopped m d tests w e t :=
  .inr ⟨n, state, hstate, hrun ▸ h⟩

/-- Whether a call neither belongs to a stage nor comes after one. -/
def Call.IsOutside (c : Call) : Prop := c.stage? = none ∧ c.after? = none

/-- A submission goes well while only calls outside of its stages were made. -/
theorem Underway.goingWell (h : Underway w run marks t.world)
    (hpast : ∀ x ∈ t.past, x.call.IsOutside) :
    GoingWell w run marks t where
  underway := h
  inOrder x hx := Exchange.inOrder_of_after?_eq_none (hpast x hx).2
  untroubled x hx hstage := by simp [(hpast x hx).1] at hstage

/-- One more call outside of the stages leaves all calls outside of them. -/
theorem Trial.isOutside_answer {c : Call} (hc : c.IsOutside)
    (hpast : ∀ x ∈ t.past, x.call.IsOutside) :
    ∀ x ∈ (Trial.answer plan c t).2.past, x.call.IsOutside :=
  forall_past_answer plan hpast hc

/-- The run is created, or the submission stops before it. -/
theorem ends_created (new : NewRun) (hpast : ∀ x ∈ t.past, x.call.IsOutside) :
    Service.Ends (Trial.answer plan) (Service.stored (Trial.answer plan (.createRun new) t).1)
      (Trial.answer plan (.createRun new) t).2 (fun run => GoingWell t.world run [])
      (HasStopped m d tests t.world) := by
  have hpast' : ∀ x ∈ (Trial.answer plan (.createRun new) t).2.past, x.call.IsOutside :=
    Trial.isOutside_answer ⟨rfl, rfl⟩ hpast
  have hfst := Trial.answer_fst plan (.createRun new) t
  have hworld := Trial.world_answer plan (.createRun new) t
  rcases World.answerWith_createRun (plan t.past.length) new t.world with
    ⟨cause, h⟩ | ⟨run, w', h, hrun⟩ <;>
    simp only [h] at hfst hworld <;> rw [hfst]
  · have hlast : Uncreated cause (Trial.answer plan (.createRun new) t).2.past :=
      ⟨t.world.store, new, by rw [Trial.past_answer, hfst, List.getLast?_concat]⟩
    exact .inl ⟨cause, rfl, hworld, hlast⟩
  · rw [← hworld] at hrun
    exact hrun.goingWell hpast'

/-- Once its run is created, a submission passes its first four stages or stops at one of them. -/
theorem Manager.ends_prepare (m : Manager) (d : Descriptor) (tests : List ExecutedTest)
    (hw : t.world.store.Consistent) (hpast : ∀ x ∈ t.past, x.call.IsOutside) :
    Service.Ends (Trial.answer plan) (m.prepare d tests) t
      (fun prepared t' => ∃ run, GoingWell t.world run (reached 4) t' ∧ prepared.run.id = run.id ∧
        run.communicationToken = some (t.world.secrets.communication run.id))
      (HasStopped m d tests t.world) := by
  unfold prepare
  dsimp only
  rw [Service.ends_ask_bind, Service.ends_ask_bind]
  set t₁ := (Trial.answer plan .newAccessToken t).2 with ht₁
  have hworld : t₁.world = t.world := by
    rw [ht₁, Trial.world_answer, Trial.answerWith_of_failing?_eq_none fun _ => rfl]
    rfl
  rw [← hworld] at hw ⊢
  refine (ends_created _ (Trial.isOutside_answer ⟨rfl, rfl⟩ hpast)).bind ?_
  intro run t₂ h₂
  refine (h₂.ends_markStage hw (by decide)).bind ?_
  intro _ t₃ h₃
  rw [Service.ends_bind]
  refine (ends_chooseAgent h₃ hw (by decide)).mono ?_ fun _ _ h =>
    .of_stopped 1 rfl h₂.underway.isNext h
  rintro agent t₄ ⟨run₄, hid, h₄⟩
  rw [← hid, Service.ends_bind]
  refine (ends_provideToken h₄ hw agent (by decide) (by decide)).mono ?_ fun _ _ h =>
    .of_stopped 2 rfl h₄.underway.isNext h
  intro _ t₅ h₅
  rw [Service.ends_bind]
  refine (ends_createScript h₅ hw (by decide)).mono ?_ fun _ _ h =>
    .of_stopped 3 rfl h₄.underway.isNext h
  intro script t₆ h₆
  exact ⟨_, h₆, hid.symm, rfl⟩

/-- A prepared submission passes its last stage or stops there. -/
theorem Manager.ends_dispatch (m : Manager) (d : Descriptor) (tests : List ExecutedTest)
    (hw : t.world.store.Consistent) (hpast : ∀ x ∈ t.past, x.call.IsOutside) :
    Service.Ends (Trial.answer plan) (m.dispatch d tests) t (HasSucceeded t.world)
      (HasStopped m d tests t.world) := by
  rw [dispatch]
  refine (m.ends_prepare d tests hw hpast).bind ?_
  rintro prepared t₁ ⟨run, h₁, hid, -⟩
  unfold startPrepared
  dsimp only
  rw [hid, Service.ends_bind]
  refine (ends_startRun h₁ hw prepared.agent _ prepared.script (by decide) (by decide)).mono ?_
      fun _ _ h =>
    .of_stopped 4 rfl h₁.underway.isNext h
  intro build t₂ h₂
  exact ⟨_, h₂, rfl, rfl, rfl⟩

/-- A call that only looks is outside of the stages. -/
theorem Call.IsLook.isOutside {c : Call} (h : c.IsLook) : c.IsOutside := by
  cases c <;> first
    | exact absurd h id
    | exact ⟨rfl, rfl⟩

/-- A check that passes in a world passes in a trial of it, and leaves the world as it is. -/
theorem Manager.ends_check (m : Manager) (d : Descriptor) {tests : List ExecutedTest}
    (hcheck : (w.carryOut (m.check d).run).1 = .ok tests) {failed : ServiceError → Trial → Prop} :
    Service.Ends (Trial.answer plan) (m.check d) { world := w }
      (fun passed t' => passed = tests ∧ t'.world = w ∧ ∀ x ∈ t'.past, x.call.IsOutside)
        failed := by
  let related (t : Trial) (v : World) : Prop := t.world = w ∧ v = w ∧ ∀ x ∈ t.past, x.call.IsOutside
  have hstep : ∀ (c : Call) (t : Trial) (v : World), c.IsLook → related t v →
      (Trial.answer plan c t).1 = (World.answer c v).1 ∧
        related (Trial.answer plan c t).2 (World.answer c v).2 := by
    rintro c t v hlook ⟨hworld, rfl, hpast⟩
    obtain ⟨hanswer, hkept, hkept'⟩ := Trial.answer_look plan hlook t
    rw [hworld] at hanswer hkept hkept'
    exact ⟨hanswer, hkept, hkept', Trial.isOutside_answer hlook.isOutside hpast⟩
  have hstart : related { world := w } w := ⟨rfl, rfl, by simp⟩
  obtain ⟨hresult, hworld, -, hpast⟩ := (m.asks_check d).run_related hstep hstart
  exact .of_ok (hresult.trans hcheck) ⟨rfl, hworld, hpast⟩

/-- A check leaves the world as it is, whether it passes or not. -/
theorem Manager.ends_check_outside (m : Manager) (d : Descriptor) (w : World) :
    Service.Ends (Trial.answer plan) (m.check d) { world := w }
      (fun _ t' => t'.world = w ∧ ∀ x ∈ t'.past, x.call.IsOutside)
      fun _ t' => t'.world = w ∧ ∀ x ∈ t'.past, x.call.IsOutside := by
  have hstep : ∀ (c : Call) (t : Trial), c.IsLook → (t.world = w ∧ ∀ x ∈ t.past, x.call.IsOutside) →
      (Trial.answer plan c t).2.world = w ∧ ∀ x ∈ (Trial.answer plan c t).2.past,
          x.call.IsOutside := by
    rintro c t hlook ⟨rfl, hpast⟩
    exact ⟨(Trial.answer_look plan hlook t).2.1, Trial.isOutside_answer hlook.isOutside hpast⟩
  exact Service.ends_iff.mpr ((m.asks_check d).run_invariant hstep ⟨rfl, by simp⟩)

/-- However a submission ends, its check or one of its stages has ended it. -/
theorem Manager.ends_submission (m : Manager) (d : Descriptor) (hw : w.store.Consistent) :
    Service.Ends (Trial.answer plan) (m.submitDescriptor d) { world := w } (HasSucceeded w)
      fun e t' => t'.world = w ∨ ∃ tests, HasStopped m d tests w e t' := by
  rw [submitDescriptor, Service.ends_bind]
  refine (m.ends_check_outside d w).mono ?_ fun _ _ h => .inl h.1
  rintro tests t ⟨rfl, hpast⟩
  exact (m.ends_dispatch d tests hw hpast).mono (fun _ _ h => h) fun _ _ h => .inr ⟨_, h⟩

/-- What a submission to `w` that created `run` and reported `marks` leaves behind, with
its result. -/
structure Leaves (m : Manager) (d : Descriptor) (tests : List ExecutedTest) (w : World)
    (r : Except ServiceError Receipt) (t : Trial) (run : Run) (marks : List (RunState × Bool)) :
    Prop where
  /-- One run is created, with the next identifier; all others stay as they are. -/
  isNext : run.id = Store.nextId w.store.runs
  runs : t.world.store.runs = w.store.runs ++ [run]
  /-- Its log can be read and holds `marks`; the logs of other runs stay as they are. -/
  log : t.world.store.statusLog run.id = .ok (numbered (requestsOf run.id w.now marks))
  others : ∀ runId, runId ≠ run.id → t.world.store.statusLog runId = w.store.statusLog runId
  nonempty : marks ≠ []
  stages : marks.map (·.1) <+: submissionStages
  reached : ∀ mark ∈ marks.dropLast, mark.2 = true
  complete : (∃ receipt, r = .ok receipt) ↔ marks = submissionStages.map fun state => (state, true)
  /-- A receipt is for the run, which then has the job that it names, and no call has failed. -/
  succeeded : ∀ receipt,
    r = .ok receipt → receipt.runId = run.id ∧ run.jobName = some receipt.jobName ∧
    run.buildNumber = some receipt.buildNumber ∧ Untroubled t.past
  /-- Without a receipt, the last entry is the stage of what failed, which was reported at once. -/
  failed : ∀ e, r = .error e → ∃ state before report, marks.getLast? = some (state, false) ∧
    t.past = before ++ [report] ∧ StopsAt m d tests run.id before state e
  inOrder : ∀ x ∈ t.past, x.InOrder run.id

/-- How a submission to `w` may end: the run cannot be created and nothing changes, or it is created
and its log is left behind. -/
def Concludes (m : Manager) (d : Descriptor) (tests : List ExecutedTest) (w : World)
    (r : Except ServiceError Receipt) (t : Trial) : Prop :=
  (∃ cause, r = .error (.storage cause) ∧ t.world = w ∧ Uncreated cause t.past) ∨
    ∃ run marks, Leaves m d tests w r t run marks

/-- A submission that succeeded leaves its run with all stages and the receipt. -/
theorem HasSucceeded.leaves {receipt : Receipt} (h : HasSucceeded w receipt t)
    (hw : w.store.Consistent) :
    ∃ run marks, Leaves m d tests w (.ok receipt) t run marks := by
  obtain ⟨run, hwell, hreceipt, hjob, hbuild⟩ := h
  refine ⟨run, _, {
    isNext := hwell.underway.isNext
    runs := hwell.underway.runs
    log := hwell.underway.statusLog_eq hw
    others := fun runId hne => hwell.underway.statusLog_of_ne hne
    nonempty := by decide
    stages := by decide
    reached := by decide
    complete := ⟨fun _ => rfl, fun _ => ⟨receipt, rfl⟩⟩
    succeeded := ?_
    failed := by simp
    inOrder := hwell.inOrder }⟩
  rintro receipt' ⟨rfl⟩
  exact ⟨hreceipt, hjob, hbuild, hwell.untroubled⟩

/-- A submission that stopped leaves its run with the stages up to the failed one. -/
theorem Stopped.leaves {n : Nat} (hstate : submissionStages[n]? = some state)
    (h : Stopped m d tests w (Store.nextId w.store.runs) (reached n) state e t)
    (hw : w.store.Consistent) :
    ∃ run marks, Leaves m d tests w (.error e) t run marks := by
  obtain ⟨run, hid, hunderway⟩ := h.underway
  have hstages : (reached n ++ [(state, false)]).map (·.1) = submissionStages.take (n + 1) := by
    rw [List.take_add_one, hstate]
    simp [reached, Function.comp_def]
  have hincomplete : reached n ++ [(state, false)] ≠ submissionStages.map
      fun state => (state, true) := by
    intro heq
    have hlast : (state, false) ∈ submissionStages.map fun state => (state, true) := by simp [← heq]
    simp at hlast
  refine ⟨run, reached n ++ [(state, false)], {
    isNext := hunderway.isNext
    runs := hunderway.runs
    log := hunderway.statusLog_eq hw
    others := fun runId hne => hunderway.statusLog_of_ne hne
    nonempty := by simp
    stages := by rw [hstages]; exact List.take_prefix _ _
    reached := ?_
    complete := ⟨by simp, fun heq => absurd heq hincomplete⟩
    succeeded := by simp
    failed := ?_
    inOrder := by rw [hid]; exact h.inOrder }⟩
  · rw [List.dropLast_concat]
    intro mark hmark
    obtain ⟨_, -, rfl⟩ := List.mem_map.mp hmark
    rfl
  · rintro e' ⟨rfl⟩
    obtain ⟨before, report, hpast, hstops⟩ := h.cause
    exact ⟨state, before, report, by simp, hpast, by rwa [hid]⟩

/-- Whatever calls go wrong, a submission that passes its check either fails to create a run and
changes nothing, or leaves a log that tells how far it came. -/
theorem Manager.submission_concludes (m : Manager) (d : Descriptor) (plan : Nat → Option Mishap)
    {w : World} (hw : w.store.Reachable) {tests : List ExecutedTest}
    (hcheck : (w.carryOut (m.check d).run).1 = .ok tests) :
    Concludes m d tests w (Service.exec (Trial.answer plan) (m.submitDescriptor d) { world := w }).1
      (Service.exec (Trial.answer plan) (m.submitDescriptor d) { world := w }).2 := by
  have hconsistent := hw.consistent
  have hends : Service.Ends (Trial.answer plan) (m.submitDescriptor d) { world := w }
      (HasSucceeded w) (HasStopped m d tests w) := by
    rw [submitDescriptor]
    refine (m.ends_check d hcheck).bind ?_
    rintro _ t ⟨rfl, rfl, hpast⟩
    exact m.ends_dispatch d _ hconsistent hpast
  have hconcludes : Service.Ends (Trial.answer plan) (m.submitDescriptor d) { world := w }
      (fun receipt => Concludes m d tests w (.ok receipt))
      (fun e => Concludes m d tests w (.error e)) := by
    refine hends.mono (fun receipt t h => .inr (h.leaves hconsistent)) fun e t h => ?_
    rcases h with ⟨cause, rfl, hworld, hlast⟩ | ⟨n, state, hstate, hstopped⟩
    · exact .inl ⟨cause, rfl, hworld, hlast⟩
    · exact .inr (hstopped.leaves hstate hconsistent)
  exact hconcludes.elim

/-! ## A small submission -/

/-- A manager whose template is empty. -/
def smallManager : Manager where
  template := ⟨[]⟩
  settings := ⟨"http://manager", "http://metrics", "metrics", "6.0.2", [], []⟩
  contract := ⟨"metrics", "metrics.robot", []⟩

/-- A descriptor that executes one test of its testbed. -/
def smallDescriptor : Descriptor where
  info := ⟨"tb", "app", "net", none⟩
  setup := ⟨[], [⟨1, "ping", .predefined, "all", none, []⟩], none⟩
  execution := [⟨1, "all", [⟨1, none, [1]⟩]⟩]

/-- How the store of the small world came about: one testbed with one test and one agent. -/
def smallHistory : List Store.Operation :=
  [.putTestbed ⟨"tb", "", ""⟩, .putTest ⟨"tb", "ping", "ping", "", "ping", "ping.robot", "", []⟩,
    .addAgent "tb" "http://agent" "user" "password"]

/-- A world with one testbed and an idle agent. -/
def smallWorld : World where
  store := Store.after {} smallHistory
  warehouse := { root := "warehouse" }
  fleet := { agents := [⟨⟨1, "tb", "http://agent", "user", "password"⟩, some ⟨true, 0⟩⟩] }
  secrets := ⟨fun _ => "access", fun _ => "communication"⟩
  now := "now"

/-- The small world is reached from the empty store. -/
theorem smallWorld_reachable : smallWorld.store.Reachable :=
  Store.Reachable.empty.after smallHistory

/-- The plan by which the small submission is told that its credential was not created, when it
was. -/
def lateCredential (n : Nat) : Option Mishap :=
  if n = 10 then some ⟨.refused .createCredential, true⟩ else none

/-- A submission whose credential fails late concludes in the small world. -/
theorem Manager.submission_concludes_small :
    smallWorld.store.Reachable ∧
      (smallWorld.carryOut (smallManager.check smallDescriptor).run).1 =
        .ok smallDescriptor.executedTests ∧
      Concludes smallManager smallDescriptor smallDescriptor.executedTests smallWorld
        (Service.exec (Trial.answer lateCredential) (smallManager.submitDescriptor smallDescriptor)
          { world := smallWorld }).1
        (Service.exec (Trial.answer lateCredential) (smallManager.submitDescriptor smallDescriptor)
          { world := smallWorld }).2 :=
  ⟨smallWorld_reachable, rfl,
    submission_concludes smallManager smallDescriptor lateCredential smallWorld_reachable rfl⟩

end PipelineManager
