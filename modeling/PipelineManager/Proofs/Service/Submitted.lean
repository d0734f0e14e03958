import PipelineManager.Proofs.Service.Facts

/-!
# What a submission leaves behind

A submission that succeeds adds a run, the rows of its tests, a credential and a job to the world it
began with, and changes nothing else of these. `Gained` says what was added so far; every call that
does not fail adds what `Gain.after` says, so that the stages of a submission only have to be put
together.
-/

namespace PipelineManager

/-! ## Calls that do not fail -/

namespace World

/-- A call to the store without fault gives its value and leaves the new store. -/
theorem ofStore_of_fault?_eq_none {α : Type} {w : World} {call : RunCall}
    {r : Except StoreFault (Store × α)} (h : Call.faultOf? (w.ofStore call r).1 = none) :
    ∃ s a, r = .ok (s, a) ∧ w.ofStore call r = (.ok a, { w with store := s }) := by
  rcases w.ofStore_cases call r with ⟨e, hw⟩ | hok
  · rw [hw] at h
    cases h
  · exact hok

/-- A call to an agent without fault gives its value and leaves the new fleet. -/
theorem ofFleet_of_fault?_eq_none {α : Type} {w : World} {call : AgentCall} {r : α × Fleet}
    (h : Call.faultOf? (w.ofFleet call r).1 = none) :
    w.ofFleet call r = (.ok r.1, { w with fleet := r.2 }) := by
  rcases w.ofFleet_cases call r with ⟨e, hw⟩ | hok
  · rw [hw] at h
    cases h
  · exact hok

/-- A call that may go wrong and does not fail is answered by the world, but for a probe. -/
theorem answerWith_of_fault?_eq_none {mishap : Option Mishap} {c : Call} {w : World}
    (h : c.fault? (w.answerWith mishap c).1 = none) :
    w.answerWith mishap c = w.answer c ∨ (∃ a, c = .probe a) ∧ (w.answerWith mishap c).2 = w := by
  rcases w.answerWith_cases mishap c with hw | ⟨cause, failed, hfailing, hw | hw⟩
  · exact .inl hw
  all_goals
    rw [hw] at h
    cases c <;> cases hfailing <;> first
      | exact .inr ⟨⟨_, rfl⟩, congrArg Prod.snd hw⟩
      | cases h

/-- The row that is answered is the one that was asked for. -/
theorem registered_of_answerWith {mishap : Option Mishap} {runId : Int} {new : NewRunTest}
    {w : World} {t : RunTest} (h : (w.answerWith mishap (.addRunTest runId new)).1 = .ok t) :
    t.registered = new := by
  have hfault :
      (Call.addRunTest runId new).fault? (w.answerWith mishap (.addRunTest runId new)).1 =
          none := by
    rw [h]
    rfl
  rcases answerWith_of_fault?_eq_none hfault with hanswer | ⟨⟨a, ha⟩, -⟩
  · rw [hanswer] at h hfault
    obtain ⟨s, t', hadded, hstored⟩ := ofStore_of_fault?_eq_none hfault
    rw [answer, hstored] at h
    obtain rfl := Except.ok.inj h
    unfold Store.addRunTest at hadded
    split at hadded
    · obtain ⟨-, rfl⟩ := Prod.mk.inj (Except.ok.inj hadded)
      rfl
    · cases hadded
  · cases ha

end World

/-! ## What is added -/

/-- What a submission has added to a world: its run, and in order the tests, credentials
and jobs. -/
structure Gain where
  run : Run
  rows : List RunTest
  credentials : List Credential
  jobs : List Job

/-- The credential of a run on its agent. -/
def runCredential (agent : Agent) (runId : Int) (token : String) : Credential where
  agentId := agent.id
  name := tokenCredential runId
  value := token
  description := credentialDescription runId

/-- What is added when a call was answered without a failure. -/
def Gain.after (g : Gain) : (c : Call) → c.Answer → Gain
  | .addRunTest _ _, .ok t => { g with rows := g.rows ++ [t] }
  | .createCredential agent name value description, _ =>
    { g with credentials := g.credentials ++ [⟨agent.id, name, value, description⟩] }
  | .submitJob agent name script, _ => { g with jobs := g.jobs ++ [⟨agent.id, name, script⟩] }
  | c, _ => { g with run := c.effect g.run }

/-- A world that came from another one when a submission added something. -/
structure Gained (w : World) (g : Gain) (w' : World) : Prop where
  secrets : w'.secrets = w.secrets
  tests : w'.store.tests = w.store.tests
  isNext : g.run.id = Store.nextId w.store.runs
  runs : w'.store.runs = w.store.runs ++ [g.run]
  runTests : w'.store.runTests = w.store.runTests ++ g.rows
  credentials : w'.fleet.credentials = w.fleet.credentials ++ g.credentials
  jobs : w'.fleet.jobs = w.fleet.jobs ++ g.jobs
  own : ∀ t ∈ g.rows, t.runId = g.run.id
  distinct : (g.rows.map (·.fullName)).Nodup

namespace Gained

variable {w w' : World} {g : Gain}

/-- The run that was added is the only one that a change of it changes. -/
theorem updateRun (h : Gained w g w') (hw : w.store.Consistent) {change : Run → Run}
    (hid : (change g.run).id = g.run.id) :
    Gained w { g with run := change g.run }
      { w' with store := w'.store.updateRun g.run.id change } where
  secrets := h.secrets
  tests := h.tests
  isNext := hid.trans h.isNext
  runs := Store.runs_updateRun_last h.runs (by rw [h.isNext]; exact hw.nextId_notMem) change
  runTests := h.runTests
  credentials := h.credentials
  jobs := h.jobs
  own := fun t ht => (h.own t ht).trans hid.symm
  distinct := h.distinct

/-- A test that is added is gained. -/
theorem addRunTest (h : Gained w g w') {new : NewRunTest} {s : Store} {t : RunTest}
    (hadded : w'.store.addRunTest g.run.id new = .ok (s, t)) :
    Gained w { g with rows := g.rows ++ [t] } { w' with store := s } := by
  unfold Store.addRunTest at hadded
  split at hadded
  · next hnew =>
    obtain ⟨rfl, rfl⟩ := Prod.mk.inj (Except.ok.inj hadded)
    refine ⟨h.secrets, h.tests, h.isNext, h.runs, ?_, h.credentials, h.jobs, ?_, ?_⟩
    · simp [h.runTests]
    · intro t ht
      rcases List.mem_append.mp ht with ht | ht
      · exact h.own t ht
      · rw [List.mem_singleton.mp ht]
    · have hfresh : ∀ t ∈ g.rows, t.fullName ≠ new.fullName := by
        intro t ht
        have hmem : t ∈ w'.store.testsOfRun g.run.id := by
          simp [Store.testsOfRun, h.runTests, ht, h.own t ht]
        simpa using List.all_eq_true.mp (Bool.and_eq_true_iff.mp hnew).2 t hmem
      rw [List.map_append, List.nodup_append]
      refine ⟨h.distinct, by simp, ?_⟩
      simpa using hfresh
  · cases hadded

/-- A call of the submission that the world answers without a failure adds what it is for. -/
theorem answer (h : Gained w g w') (hw : w.store.Consistent) {c : Call} (hc : c.Completes g.run.id)
    (hfault : c.fault? (World.answer c w').1 = none) :
    Gained w (g.after c (World.answer c w').1) (World.answer c w').2 := by
  cases c with
  | appendStatus id state success =>
    rw [World.answer_appendStatus rfl]
    rcases w'.store.request_store ⟨id, state, success, w'.now⟩ with
      hstore | ⟨-, row, -, hstore⟩ <;> rw [hstore]
    · exact h
    · exact ⟨h.secrets, h.tests, h.isNext, h.runs, h.runTests, h.credentials, h.jobs, h.own,
        h.distinct⟩
  | setRunAgent id agentId =>
    obtain rfl : id = g.run.id := hc
    obtain ⟨s, a, hset, hanswer⟩ := World.ofStore_of_fault?_eq_none hfault
    rw [World.answer, hanswer]
    simp only [Store.setRunAgent] at hset
    split at hset
    · obtain ⟨rfl, -⟩ := Prod.mk.inj (Except.ok.inj hset)
      exact h.updateRun hw rfl
    · cases hset
  | setCommunicationToken id token =>
    obtain rfl : id = g.run.id := hc
    obtain ⟨s, a, hset, hanswer⟩ := World.ofStore_of_fault?_eq_none hfault
    obtain ⟨rfl, -⟩ := Prod.mk.inj (Except.ok.inj hset)
    rw [World.answer, hanswer]
    exact h.updateRun hw rfl
  | setJob id jobName build =>
    obtain rfl : id = g.run.id := hc
    obtain ⟨s, a, hset, hanswer⟩ := World.ofStore_of_fault?_eq_none hfault
    obtain ⟨rfl, -⟩ := Prod.mk.inj (Except.ok.inj hset)
    rw [World.answer, hanswer]
    exact h.updateRun hw rfl
  | addRunTest id new =>
    obtain rfl : id = g.run.id := hc
    obtain ⟨s, t, hadded, hanswer⟩ := World.ofStore_of_fault?_eq_none hfault
    rw [World.answer, hanswer]
    exact h.addRunTest hadded
  | createCredential agent name value description =>
    rw [World.answer, World.ofFleet_of_fault?_eq_none hfault]
    exact ⟨h.secrets, h.tests, h.isNext, h.runs, h.runTests, by simp [Gain.after, h.credentials],
      h.jobs, h.own, h.distinct⟩
  | submitJob agent name script =>
    rw [World.answer, World.ofFleet_of_fault?_eq_none hfault]
    exact ⟨h.secrets, h.tests, h.isNext, h.runs, h.runTests,
      h.credentials, by simp [Gain.after, h.jobs], h.own, h.distinct⟩
  | agentsOf testbedId =>
    rw [World.answer, World.ofFleet_of_fault?_eq_none hfault]
    exact h
  | startJob agent name =>
    rw [World.answer, World.ofFleet_of_fault?_eq_none hfault]
    exact h
  | tests _ | probe _ | newCommunicationToken _ => exact h
  | _ => exact absurd hc (by simp [Call.Completes, Call.Prepares])

/-- The same holds when calls may go wrong. -/
theorem answerWith (h : Gained w g w') (hw : w.store.Consistent) {mishap : Option Mishap} {c : Call}
    (hc : c.Completes g.run.id) (hfault : c.fault? (w'.answerWith mishap c).1 = none) :
    Gained w (g.after c (w'.answerWith mishap c).1) (w'.answerWith mishap c).2 := by
  rcases World.answerWith_of_fault?_eq_none hfault with hanswer | ⟨⟨a, rfl⟩, hworld⟩
  · rw [hanswer] at hfault ⊢
    exact h.answer hw hc hfault
  · rw [hworld]
    exact h

/-! ## Stages -/

section Stages

variable {α : Type} {plan : Nat → Option Mishap} {t : Trial}

/-- A submission that gives up does not succeed. -/
theorem ends_failStage {runId : Int} {state : RunState} {e : ServiceError} {ok : α → Trial → Prop} :
    Service.Ends (Trial.answer plan) (failStage runId state e) t ok fun _ _ => True := by
  rw [failStage, Service.ends_ask_bind]
  trivial

/-- A call of a trial without fault adds to what is gained what the call brings. -/
theorem trial_answer (h : Gained w g t.world) (hw : w.store.Consistent) {c : Call}
    (hc : c.Completes g.run.id) (hfault : c.fault? (Trial.answer plan c t).1 = none) :
    Gained w (g.after c (Trial.answer plan c t).1) (Trial.answer plan c t).2.world :=
  h.answerWith hw hc hfault

/-- A submission goes on with what a call gives when it does not fail. -/
theorem ends_stage {c : Call} {runId : Int} {state : RunState} {r : Except Fault α}
    {wrap : Fault → ServiceError} (h : Gained w g t.world) (hw : w.store.Consistent)
    (hc : c.Completes g.run.id) (hr : c.fault? (Trial.answer plan c t).1 = Call.faultOf? r) :
    Service.Ends (Trial.answer plan) (stage runId state (r.mapError wrap)) (Trial.answer plan c t).2
      (fun a t' => r = .ok a ∧ Gained w (g.after c (Trial.answer plan c t).1) t'.world)
        fun _ _ => True := by
  cases r with
  | ok a => exact ⟨rfl, h.trial_answer hw hc hr⟩
  | error cause => exact ends_failStage

/-- A mark keeps what is gained. -/
theorem ends_markStage (h : Gained w g t.world) (hw : w.store.Consistent) (state : RunState) :
    Service.Ends (Trial.answer plan) (markStage g.run.id state) t (fun _ t' => Gained w g t'.world)
      fun _ _ => True := by
  rw [markStage, Service.ends_ask_bind]
  have h₁ : Gained w g (Trial.answer plan (.appendStatus g.run.id state true) t).2.world :=
    h.trial_answer (c := .appendStatus g.run.id state true) hw rfl rfl
  cases (Trial.answer plan (.appendStatus g.run.id state true) t).1 with
  | ok entry => exact h₁
  | error e => exact ends_failStage

/-- Probes keep what is gained. -/
theorem ends_probeAll (h : Gained w g t.world) (hw : w.store.Consistent) (agents : List Agent) :
    Service.Ends (Trial.answer plan) (probeAll agents) t (fun _ t' => Gained w g t'.world)
      fun _ _ => True := by
  induction agents generalizing t with
  | nil => exact h
  | cons a rest ih =>
    rw [probeAll, Service.ends_ask_bind]
    have h₁ : Gained w g (Trial.answer plan (.probe a) t).2.world :=
      h.trial_answer (c := .probe a) hw trivial rfl
    exact (ih h₁).bind fun _ _ h₂ => h₂

/-- The agent that is chosen is recorded. -/
theorem ends_chooseAgent (h : Gained w g t.world) (hw : w.store.Consistent) (info : TestInfo) :
    Service.Ends (Trial.answer plan) (Manager.chooseAgent info g.run.id) t
      (fun agent t' => Gained w { g with run := { g.run with agentId := some agent.id } } t'.world)
      fun _ _ => True := by
  rw [Manager.chooseAgent, Service.ends_ask_bind]
  refine (h.ends_stage (c := .agentsOf info.testbedId) hw trivial rfl).bind ?_
  rintro agents t₁ ⟨-, h₁⟩
  refine (h₁.ends_probeAll hw agents).bind fun probed t₂ h₂ => ?_
  cases selectAgent probed with
  | none => exact ends_failStage
  | some chosen =>
    obtain ⟨agent, probe⟩ := chosen
    dsimp only
    rw [Service.ends_ask_bind]
    refine (h₂.ends_stage (c := .setRunAgent g.run.id agent.id) hw rfl rfl).bind ?_
    rintro _ t₃ ⟨-, h₃⟩
    exact (h₃.ends_markStage hw .authenticatedOnAgent).bind fun _ _ h₄ => h₄

/-- The agent and the store get the same token. -/
theorem ends_provideToken (h : Gained w g t.world) (hw : w.store.Consistent) (agent : Agent) :
    Service.Ends (Trial.answer plan) (Manager.provideToken agent g.run.id) t
      (fun _ t' => Gained w
        { g with
          run := { g.run with communicationToken := some (w.secrets.communication g.run.id) }
          credentials :=
            g.credentials ++
              [runCredential agent g.run.id (w.secrets.communication g.run.id)] } t'.world)
      fun _ _ => True := by
  rw [Manager.provideToken, Service.ends_ask_bind]
  have h₁ : Gained w g (Trial.answer plan (.newCommunicationToken g.run.id) t).2.world :=
    h.trial_answer (c := .newCommunicationToken g.run.id) hw trivial rfl
  have htoken :
      (Trial.answer plan (.newCommunicationToken g.run.id) t).1 =
          w.secrets.communication g.run.id := by
    rw [Trial.answer_fst, Trial.answerWith_of_failing?_eq_none fun _ => rfl, World.answer,
      h.secrets]
  rw [htoken, Service.ends_ask_bind]
  refine (h₁.ends_stage (c := .createCredential agent _ _ _) hw rfl rfl).bind ?_
  rintro _ t₂ ⟨-, h₂⟩
  rw [Service.ends_ask_bind]
  refine (h₂.ends_stage (c := .setCommunicationToken g.run.id _) hw rfl rfl).bind ?_
  rintro _ t₃ ⟨-, h₃⟩
  exact h₃.ends_markStage hw .createdCommunicationToken

/-- A row is added for every test, in order. -/
theorem ends_registerTests (h : Gained w g t.world) (hw : w.store.Consistent) (netappId : String)
    (tests : List ExecutedTest) :
    Service.Ends (Trial.answer plan) (registerTests netappId g.run.id tests) t
      (fun _ t' => ∃ rows, Gained w { g with rows := g.rows ++ rows } t'.world ∧
        rows.map (·.registered) = tests.map (.ofExecuted netappId)) fun _ _ => True := by
  induction tests generalizing t g with
  | nil => exact ⟨[], by rw [List.append_nil]; exact h, rfl⟩
  | cons test rest ih =>
    rw [registerTests, Service.ends_ask_bind, Service.ends_bind]
    rcases hadded : (Trial.answer plan (.addRunTest g.run.id (.ofExecuted netappId test)) t).1 with
      e | row
    · trivial
    · have h₁ :=
        h.trial_answer (c := .addRunTest g.run.id (.ofExecuted netappId test)) hw
          rfl (by rw [hadded]; rfl)
      rw [hadded] at h₁
      refine (ih h₁).mono ?_ fun _ _ h' => h'
      rintro _ t₂ ⟨rows, h₂, hrows⟩
      refine ⟨row :: rows, ?_, ?_⟩
      · have happend : g.rows ++ row :: rows = g.rows ++ [row] ++ rows := by simp
        rw [happend]
        exact h₂
      · rw [List.map_cons, hrows, World.registered_of_answerWith hadded, List.map_cons]

/-- Whether the tests of a run were added and its script was rendered for them. -/
def Scripted (m : Manager) (d : Descriptor) (tests : List ExecutedTest) (w : World) (g : Gain)
    (script : String) (w' : World) : Prop :=
  ∃ rows, Gained w { g with rows := g.rows ++ rows } w' ∧
    rows.map (·.registered) = tests.map (.ofExecuted d.info.netappId) ∧
    renderScript m.template m.settings
      (m.scriptRequest d (w.store.testsOf d.info.testbedId) tests g.run.id) =
      .ok script

/-- The script is rendered for the tests that are registered. -/
theorem ends_createScript (h : Gained w g t.world) (hw : w.store.Consistent) (m : Manager)
    (d : Descriptor) (tests : List ExecutedTest) :
    Service.Ends (Trial.answer plan) (m.createScript d tests g.run.id) t
      (fun script t' => Scripted m d tests w g script t'.world) fun _ _ => True := by
  have hprepared : Service.Ends (Trial.answer plan) (m.prepareScript d tests g.run.id) t
      (fun script t' => Scripted m d tests w g script t'.world) fun _ _ => True := by
    rw [Manager.prepareScript]
    refine (h.ends_registerTests hw d.info.netappId tests).bind ?_
    rintro _ t₁ ⟨rows, h₁, hrows⟩
    rw [Service.ends_ask_bind]
    have h₂ : Gained w _ (Trial.answer plan (.tests d.info.testbedId) t₁).2.world :=
      h₁.trial_answer (c := .tests d.info.testbedId) hw trivial rfl
    have hcatalogue :
        (Trial.answer plan (.tests d.info.testbedId) t₁).1 = w.store.testsOf d.info.testbedId := by
      rw [Trial.answer_fst, Trial.answerWith_of_failing?_eq_none fun _ => rfl, World.answer,
        Store.testsOf, Store.readTests, Store.testRows, h₁.tests]
      rfl
    rw [hcatalogue]
    split
    · next script hscript => exact ⟨rows, h₂, hrows, hscript⟩
    · trivial
  rw [Manager.createScript, Service.ends_result_bind]
  refine hprepared.mono ?_ fun e t₁ _ => ends_failStage
  rintro script t₁ ⟨rows, h₁, hrest⟩
  rw [Service.ends_bind, Service.ends_stage_ok, Service.ends_bind]
  exact (h₁.ends_markStage hw .createdPipelineScript).mono (fun _ t₂ h₂ => ⟨rows, h₂, hrest⟩)
    fun _ _ h' => h'

/-- The job that is started is recorded. -/
theorem ends_startRun (h : Gained w g t.world) (hw : w.store.Consistent) (agent : Agent)
    (name script : String) :
    Service.Ends (Trial.answer plan) (Manager.startRun agent g.run.id name script) t
      (fun build t' => Gained w
        { g with
          run := { g.run with jobName := some name, buildNumber := some build }
          jobs := g.jobs ++ [⟨agent.id, name, script⟩] } t'.world) fun _ _ => True := by
  have hlaunched : Service.Ends (Trial.answer plan) (Manager.launch agent name script) t
      (fun launched t' => ∀ build, launched = .ok build →
        Gained w { g with jobs := g.jobs ++ [⟨agent.id, name, script⟩] } t'.world)
      fun _ _ => True := by
    rw [Manager.launch, Service.ends_ask_bind]
    rcases hsubmitted : (Trial.answer plan (.submitJob agent name script) t).1 with e | _
    · rintro build ⟨⟩
    · have h₁ :=
        h.trial_answer (c := .submitJob agent name script) hw trivial (by rw [hsubmitted]; rfl)
      intro build hbuild
      have hfault : (Call.startJob agent name).fault? (Trial.answer plan (.startJob agent name)
          (Trial.answer plan (.submitJob agent name script) t).2).1 = none :=
        congrArg Call.faultOf? hbuild
      exact h₁.trial_answer (c := .startJob agent name) hw trivial hfault
  rw [Manager.startRun]
  refine hlaunched.bind fun launched t₁ h₁ => ?_
  rw [Service.ends_bind]
  cases launched with
  | error cause => exact ends_failStage
  | ok build =>
    refine Service.ends_stage_ok.mpr ?_
    rw [Service.ends_ask_bind]
    refine ((h₁ build rfl).ends_stage (c := .setJob g.run.id name (some build)) hw rfl rfl).bind ?_
    rintro _ t₂ ⟨-, h₂⟩
    exact (h₂.ends_markStage hw .submittedPipelineScript).bind fun _ _ h₃ => h₃

end Stages
end Gained

/-! ## Submissions -/

/-- A world to which a submission that succeeded has added a run and what belongs to it: the rows of
its tests, one credential and one job, both on its agent. -/
structure Submitted (m : Manager) (d : Descriptor) (w : World) (receipt : Receipt) (w' : World)
    (run : Run) (agent : Agent) (rows : List RunTest) (script : String) : Prop where
  gained : Gained w ⟨run, rows, [runCredential agent run.id (w.secrets.communication run.id)],
    [⟨agent.id, jobName d.info run.id, script⟩]⟩ w'
  runId : receipt.runId = run.id
  jobName : receipt.jobName = jobName d.info run.id
  agent : run.agentId = some agent.id
  token : run.communicationToken = some (w.secrets.communication run.id)
  registered : rows.map (·.registered) = d.executedTests.map (.ofExecuted d.info.netappId)
  judged : semanticErrors d (w.store.testsOf d.info.testbedId) = []
  rendered : renderScript m.template m.settings
    (m.scriptRequest d (w.store.testsOf d.info.testbedId) d.executedTests run.id) = .ok script

section Submissions

variable {w : World} {plan : Nat → Option Mishap} {t : Trial}

/-- With its creation, a run is gained without tests. -/
theorem gained_createRun {mishap : Option Mishap} {new : NewRun} {run : Run}
    (h : (w.answerWith mishap (.createRun new)).1 = .ok run) :
    Gained w ⟨run, [], [], []⟩ (w.answerWith mishap (.createRun new)).2 := by
  have hfault : (Call.createRun new).fault? (w.answerWith mishap (.createRun new)).1 = none := by
    rw [h]
    rfl
  rcases World.answerWith_of_fault?_eq_none hfault with hanswer | ⟨⟨a, ha⟩, -⟩
  · rw [hanswer] at h hfault ⊢
    obtain ⟨s, r, hcreated, hstored⟩ := World.ofStore_of_fault?_eq_none hfault
    rw [World.answer, hstored] at h ⊢
    obtain rfl := Except.ok.inj h
    unfold Store.createRun at hcreated
    split at hcreated
    · obtain ⟨rfl, rfl⟩ := Prod.mk.inj (Except.ok.inj hcreated)
      exact ⟨rfl, rfl, rfl, rfl, by simp, by simp, by simp, List.forall_mem_nil _, List.nodup_nil⟩
    · cases hcreated
  · cases ha

/-- From its run on, a submission adds what belongs to the run. -/
theorem Gained.ends_completeRun {run : Run} (h : Gained w ⟨run, [], [], []⟩ t.world)
    (hw : w.store.Consistent) (m : Manager) (d : Descriptor)
    (hjudged : semanticErrors d (w.store.testsOf d.info.testbedId) = []) :
    Service.Ends (Trial.answer plan) (m.completeRun d d.executedTests run) t
      (fun receipt t' => ∃ run agent rows script,
        Submitted m d w receipt t'.world run agent rows script)
      fun _ _ => True := by
  rw [Manager.completeRun]
  refine (h.ends_markStage hw .submittedToManager).bind fun _ t₁ h₁ => ?_
  refine (h₁.ends_chooseAgent hw d.info).bind fun agent t₂ h₂ => ?_
  refine (h₂.ends_provideToken hw agent).bind fun _ t₃ h₃ => ?_
  refine (h₃.ends_createScript hw m d d.executedTests).bind ?_
  rintro script t₄ ⟨rows, h₄, hregistered, hscript⟩
  rw [Manager.startPrepared]
  refine (h₄.ends_startRun hw agent (jobName d.info run.id) script).bind fun build t₅ h₅ => ?_
  exact ⟨_, agent, rows, script, h₅, rfl, rfl, rfl, rfl, hregistered, hjudged, hscript⟩

/-- A check that passes has judged the descriptor to be without problems. -/
theorem Manager.ends_check_judged (m : Manager) (d : Descriptor) (w : World) :
    Service.Ends (Trial.answer plan) (m.check d) { world := w }
      (fun tests t' =>
        tests = d.executedTests ∧ semanticErrors d (w.store.testsOf d.info.testbedId) = [] ∧
        t'.world = w) fun _ _ => True := by
  have hlook {c : Call} (hc : c.IsLook) {t : Trial} (ht : t.world = w) :
      (Trial.answer plan c t).1 = (World.answer c w).1 ∧ (Trial.answer plan c t).2.world = w := by
    obtain ⟨hanswer, hworld, -⟩ := Trial.answer_look plan hc t
    rw [ht] at hanswer hworld
    exact ⟨hanswer, hworld⟩
  rw [check]
  dsimp only
  rw [Service.ends_ask_bind]
  obtain ⟨-, h₁⟩ := hlook (c := .testbed d.info.testbedId) trivial (t := { world := w }) rfl
  refine Service.ends_require_bind (fun _ => ?_) fun _ => trivial
  rw [Service.ends_ask_bind]
  obtain ⟨htests, h₂⟩ := hlook (c := .tests d.info.testbedId) trivial h₁
  rw [htests]
  refine Service.ends_require_bind (fun hjudged => ?_) fun _ => trivial
  refine Service.ends_require_bind (fun _ => ?_) fun _ => trivial
  have hstep : ∀ c mishap (v : World), c.IsLook → v = w → (v.answerWith mishap c).2 = w := by
    rintro c mishap v hc rfl
    exact World.answerWith_look hc mishap v
  have harchives :=
    Trial.ends_of_asks plan (asks_requireArchives d.info.netappId d.executedTests) hstep h₂
  rw [Service.ends_bind]
  exact harchives.mono (fun _ _ hworld => ⟨rfl, List.isEmpty_iff.mp hjudged, hworld⟩)
    fun _ _ _ => trivial

/-- A submission that succeeds has added a run with all that belongs to it, whatever went wrong with
calls that it can do without. -/
theorem Manager.ends_submitDescriptor (m : Manager) (d : Descriptor) (hw : w.store.Consistent) :
    Service.Ends (Trial.answer plan) (m.submitDescriptor d) { world := w }
      (fun receipt t' => ∃ run agent rows script,
        Submitted m d w receipt t'.world run agent rows script)
      fun _ _ => True := by
  rw [submitDescriptor]
  refine (m.ends_check_judged d w).bind ?_
  rintro _ t ⟨rfl, hjudged, rfl⟩
  rw [dispatch_eq, Service.ends_ask_bind]
  set t₁ := (Trial.answer plan .newAccessToken t).2 with ht₁
  have hworld : t₁.world = t.world := by
    rw [ht₁, Trial.world_answer, Trial.answerWith_of_failing?_eq_none fun _ => rfl]
    rfl
  rw [← hworld] at hw hjudged ⊢
  rw [Service.ends_ask_bind, Service.ends_bind]
  rcases hcreated : (Trial.answer plan (.createRun _) t₁).1 with e | run
  · trivial
  · exact (gained_createRun hcreated).ends_completeRun hw m d hjudged

/-- A submission with a receipt leaves a submitted run. -/
theorem World.exists_submitted {m : Manager} {d : Descriptor} {receipt : Receipt} {w' : World}
    (hw : w.store.Consistent) (h : w.attempt plan (m.submitDescriptor d) = (.ok receipt, w')) :
    ∃ run agent rows script, Submitted m d w receipt w' run agent rows script := by
  obtain ⟨hreceipt, rfl⟩ := Prod.mk.inj h
  exact (m.ends_submitDescriptor d hw).of_result hreceipt

variable {m : Manager} {d : Descriptor} {w' : World} {receipt : Receipt} {run : Run} {agent : Agent}
  {rows : List RunTest} {script : String}

/-- A submission leads from reachable worlds to reachable ones. -/
theorem World.Reachable.submitted (hw : w.Reachable)
    (h : w.attempt plan (m.submitDescriptor d) = (.ok receipt, w')) :
    w'.Reachable := by
  have hperformed := hw.perform (.request (.submit m d) plan)
  rwa [World.perform, ServiceRequest.service, h] at hperformed

/-- A submitted run is found under its id. -/
theorem Submitted.run?_eq (h : Submitted m d w receipt w' run agent rows script)
    (hw : w.store.Consistent) :
    w'.store.run? run.id = some run :=
  Store.run?_last h.gained.runs (h.gained.isNext ▸ hw.nextId_notMem)

/-- Before a run is there, nothing is known of it. -/
theorem Submitted.factsOf_eq_blank (h : Submitted m d w receipt w' run agent rows script)
    (hw : w.Reachable) :
    w.factsOf run.id = .blank := by
  refine hw.factsOf_of_none ?_
  have hnew := hw.store.consistent.nextId_notMem
  rw [← h.gained.isNext, ← Store.isSome_run?_iff] at hnew
  simpa using hnew

end Submissions
end PipelineManager
