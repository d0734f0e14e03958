import PipelineManager.Proofs.Service.Registration
import PipelineManager.Proofs.Store.Integrity

/-!
# Names of the tests of a run

A full name ends with the identifier of its test, and tells it. A descriptor that passes its check
declares no identifier twice, so no two of the tests that it executes have one full name. The
store has nothing to object to their registration then, and each of them has a directory of
results to itself.
-/

namespace PipelineManager

/-! ## Executed tests -/

/-- Tests with different identifiers have different full names. -/
theorem Descriptor.nodup_fullNames {d : Descriptor} (h : (d.setup.testcases.map (·.id)).Nodup) :
    (d.executedTests.map (·.fullName)).Nodup := by
  have hids : (d.executed.map (·.id)).Nodup := h.sublist (List.filter_sublist.map _)
  have hnames : d.executedTests.map (·.fullName) = d.executed.map Testcase.fullName := List.map_map
  rw [hnames]
  rw [List.Nodup, List.pairwise_map] at hids ⊢
  exact hids.imp fun hne hsame => hne (Testcase.id_eq_of_fullName_eq hsame)

/-! ## Registrations -/

/-- Whether a call that registers a test is one that the store it meets accepts, so that it fails,
if at all, because the store is broken or because the call goes wrong by the plan. -/
def Exchange.RegistersNew (plan : Nat → Option Mishap) (x : Exchange) : Prop :=
  ∀ runId new, x.call = .addRunTest runId new →
    (∃ s t, x.store.addRunTest runId new = .ok (s, t)) ∧
    ∀ cause, x.fault = some cause → cause = .broken .addRunTest ∨ ∃ n mishap,
      plan n = some mishap ∧ cause = mishap.cause

/-- A test that the store accepts is registered, unless something else goes wrong. -/
theorem World.fault_addRunTest {w : World} {runId : Int} {new : NewRunTest} {mishap : Option Mishap}
    {cause : Fault} (haccepts : ∃ s t, w.store.addRunTest runId new = .ok (s, t))
    (h : Call.faultOf? (w.answerWith mishap (.addRunTest runId new)).1 = some cause) :
    cause = .broken .addRunTest ∨ ∃ x, mishap = some x ∧ cause = x.cause := by
  cases mishap with
  | some x => exact .inr ⟨x, rfl, (Option.some.inj h).symm⟩
  | none =>
    obtain ⟨s, t, haccepted⟩ := haccepts
    simp only [answerWith, answer, ofStore, haccepted] at h
    split at h
    · exact .inl (Option.some.inj h).symm
    · cases h

section Registrations

variable {α : Type} {plan : Nat → Option Mishap} {w w' : World} {g : Gain} {t : Trial}

/-- A test whose name is new among those of its run can be added to it. -/
theorem Gained.exists_addRunTest (h : Gained w g w') (hw : w.store.Reachable) {new : NewRunTest}
    (hnew : new.fullName ∉ g.rows.map (·.fullName)) :
    ∃ s t, w'.store.addRunTest g.run.id new = .ok (s, t) := by
  have hfresh : g.run.id ∉ w.store.runs.map (·.id) := h.isNext ▸ hw.consistent.nextId_notMem
  have hrun : (w'.store.run? g.run.id).isSome := by
    rw [Store.run?_last h.runs hfresh]
    rfl
  have hnames : ∀ x ∈ w'.store.testsOfRun g.run.id, x.fullName ≠ new.fullName := by
    intro x hx hsame
    obtain ⟨hmem, hown⟩ := List.mem_filter.mp hx
    rw [h.runTests] at hmem
    rcases List.mem_append.mp hmem with hold | hadded
    · -- The rows from before belong to runs from before.
      have hknown := hw.references.runTests x hold
      rw [of_decide_eq_true hown, Store.isSome_run?_iff] at hknown
      exact hfresh hknown
    · exact hnew (List.mem_map.mpr ⟨x, hadded, hsame⟩)
  rw [Store.addRunTest, if_pos]
  · exact ⟨_, _, rfl⟩
  · rw [hrun, Bool.true_and, List.all_eq_true]
    exact fun x hx => decide_eq_true (hnames x hx)

/-- Services that register no test add no registration to a trial. -/
theorem ends_registersNew {p : Service α} (hp : Service.Asks (Call.RegistersOnly []) p)
    (ht : ∀ x ∈ t.past, x.RegistersNew plan) :
    Service.Ends (Trial.answer plan) p t (fun _ t' => ∀ x ∈ t'.past, x.RegistersNew plan)
      fun _ t' => ∀ x ∈ t'.past, x.RegistersNew plan := by
  have hstep : ∀ (c : Call) (t : Trial), c.RegistersOnly [] → (∀ x ∈ t.past, x.RegistersNew plan) →
      ∀ x ∈ (Trial.answer plan c t).2.past, x.RegistersNew plan := by
    intro c t hc ht
    refine Trial.forall_past_answer plan ht fun runId new hcall => ?_
    obtain rfl : c = .addRunTest runId new := hcall
    exact absurd hc List.not_mem_nil
  exact Service.ends_iff.mpr (hp.run_invariant hstep ht)

/-- What is known of the end of a service that registers no test is known together with the
registrations so far. -/
theorem Service.Ends.and_registersNew {p : Service α} {ok : α → Trial → Prop}
    (h : Service.Ends (Trial.answer plan) p t ok fun _ _ => True)
    (hp : Service.Asks (Call.RegistersOnly []) p) (ht : ∀ x ∈ t.past, x.RegistersNew plan) :
    Service.Ends (Trial.answer plan) p t (fun a t' => ok a t' ∧ ∀ x ∈ t'.past, x.RegistersNew plan)
      fun _ t' => ∀ x ∈ t'.past, x.RegistersNew plan :=
  (h.and (ends_registersNew hp ht)).mono (fun _ _ h' => h') fun _ _ h' => h'.2

/-- Tests with different names are registered one after the other. -/
theorem Gained.ends_registerTests_new (h : Gained w g t.world) (hw : w.store.Reachable)
    (netappId : String) {tests : List ExecutedTest}
    (hnames : (g.rows.map (·.fullName) ++ tests.map (·.fullName)).Nodup)
    (ht : ∀ x ∈ t.past, x.RegistersNew plan) :
    Service.Ends (Trial.answer plan) (registerTests netappId g.run.id tests) t
      (fun _ t' => ∀ x ∈ t'.past, x.RegistersNew plan) fun _ t' => ∀ x ∈ t'.past,
        x.RegistersNew plan := by
  induction tests generalizing t g with
  | nil => exact ht
  | cons test rest ih =>
    set new : NewRunTest := .ofExecuted netappId test with hnewTest
    have hnew : new.fullName ∉ g.rows.map (·.fullName) := by
      intro hmem
      exact (List.nodup_append.mp hnames).2.2 _ hmem _ List.mem_cons_self rfl
    have haccepts := h.exists_addRunTest hw hnew
    have hpast : ∀ x ∈ (Trial.answer plan (.addRunTest g.run.id new) t).2.past,
        x.RegistersNew plan := by
      refine Trial.forall_past_answer plan ht ?_
      rintro _ _ ⟨rfl⟩
      refine ⟨haccepts, fun cause hfault => ?_⟩
      exact (World.fault_addRunTest haccepts hfault).imp_right fun ⟨x, hx, hcause⟩ =>
        ⟨_, x, hx, hcause⟩
    rw [registerTests, Service.ends_ask_bind, Service.ends_bind, ← hnewTest]
    rcases hadded : (Trial.answer plan (.addRunTest g.run.id new) t).1 with e | row
    · exact hpast
    · have h₁ :=
        h.trial_answer (c := .addRunTest g.run.id new) hw.consistent rfl (by rw [hadded]; rfl)
      rw [hadded] at h₁
      have hname : row.fullName = test.fullName :=
        congrArg NewRunTest.fullName (World.registered_of_answerWith hadded)
      exact ih (g := { g with rows := g.rows ++ [row] }) h₁ (by simpa [hname] using hnames) hpast

/-- From its run on, a submission registers tests that are new in the run. -/
theorem Gained.ends_completeRun_new {run : Run} (h : Gained w ⟨run, [], [], []⟩ t.world)
    (hw : w.store.Reachable) (m : Manager) (d : Descriptor)
    (hids : (d.setup.testcases.map (·.id)).Nodup) (ht : ∀ x ∈ t.past, x.RegistersNew plan) :
    Service.Ends (Trial.answer plan) (m.completeRun d d.executedTests run) t
      (fun _ t' => ∀ x ∈ t'.past, x.RegistersNew plan) fun _ t' => ∀ x ∈ t'.past,
        x.RegistersNew plan := by
  have hno {β : Type} {p : Service β} (hp : Service.Asks (Call.PreparesWith [] run.id) p) :
      Service.Asks (Call.RegistersOnly []) p := hp.mono fun _ hc => hc.2
  rw [Manager.completeRun]
  refine ((h.ends_markStage hw.consistent .submittedToManager).and_registersNew
    (hno (asks_markStage _ _)) ht).bind ?_
  rintro _ t₁ ⟨h₁, ht₁⟩
  refine ((h₁.ends_chooseAgent hw.consistent d.info).and_registersNew
    (hno (Manager.asks_chooseAgent _ _)) ht₁).bind ?_
  rintro agent t₂ ⟨h₂, ht₂⟩
  refine ((h₂.ends_provideToken hw.consistent agent).and_registersNew
    (hno (Manager.asks_provideToken _ _)) ht₂).bind ?_
  rintro _ t₃ ⟨h₃, ht₃⟩
  have hnames := Descriptor.nodup_fullNames hids
  have hprepared : Service.Ends (Trial.answer plan) (m.prepareScript d d.executedTests run.id) t₃
      (fun _ t' => ∀ x ∈ t'.past, x.RegistersNew plan) fun _ t' => ∀ x ∈ t'.past,
          x.RegistersNew plan := by
    refine (h₃.ends_registerTests_new hw d.info.netappId hnames ht₃).bind fun _ t₄ ht₄ => ?_
    refine ends_registersNew (Service.asks_bind (Service.asks_ask trivial) fun catalogue => ?_) ht₄
    split
    · exact Service.asks_pure _
    · exact Service.asks_throw _
  have hcreated : Service.Ends (Trial.answer plan) (m.createScript d d.executedTests run.id) t₃
      (fun _ t' => ∀ x ∈ t'.past, x.RegistersNew plan) fun _ t' => ∀ x ∈ t'.past,
          x.RegistersNew plan := by
    rw [Manager.createScript, Service.ends_result_bind]
    refine hprepared.mono (fun script t₄ ht₄ => ?_) fun e t₄ ht₄ => ?_
    all_goals
      refine ends_registersNew (Service.asks_bind (hno (asks_stage _ _ _)) fun script => ?_) ht₄
      exact Service.asks_bind (hno (asks_markStage _ _)) fun _ => Service.asks_pure _
  refine hcreated.bind fun script t₄ ht₄ => ?_
  exact ends_registersNew
    ((Manager.asks_startPrepared d.info { run, agent, script }).mono fun _ hc => hc.2) ht₄

/-- A submission only registers tests that are new in its run: one that passes its check declares no
identifier twice. -/
theorem Manager.ends_submitDescriptor_new (m : Manager) (d : Descriptor) (hw : w.store.Reachable)
    (plan : Nat → Option Mishap) :
    Service.Ends (Trial.answer plan) (m.submitDescriptor d) { world := w }
      (fun _ t' => ∀ x ∈ t'.past, x.RegistersNew plan) fun _ t' => ∀ x ∈ t'.past,
        x.RegistersNew plan := by
  have hlook : ∀ c, Call.IsLook c → c.RegistersOnly [] := by
    intro c hc
    cases c <;> first
      | exact trivial
      | exact absurd hc id
  rw [submitDescriptor]
  refine ((m.ends_check_judged d w).and_registersNew ((m.asks_check d).mono hlook)
    (List.forall_mem_nil _)).bind ?_
  rintro _ t ⟨⟨rfl, hjudged, rfl⟩, ht⟩
  have hids := nodup_declaredIds hjudged
  rw [dispatch_eq, Service.ends_ask_bind]
  set t₁ := (Trial.answer plan .newAccessToken t).2 with ht₁
  have hworld : t₁.world = t.world := by
    rw [ht₁, Trial.world_answer, Trial.answerWith_of_failing?_eq_none fun _ => rfl]
    rfl
  have hpast₁ : ∀ x ∈ t₁.past, x.RegistersNew plan :=
    Trial.forall_past_answer plan ht fun _ _ hcall => by cases hcall
  rw [← hworld] at hw
  rw [Service.ends_ask_bind, Service.ends_bind]
  set c : Call := .createRun _
  have hpast₂ : ∀ x ∈ (Trial.answer plan c t₁).2.past, x.RegistersNew plan :=
    Trial.forall_past_answer plan hpast₁ fun _ _ hcall => by cases hcall
  rcases hcreated : (Trial.answer plan c t₁).1 with e | run
  · exact hpast₂
  · exact (gained_createRun hcreated).ends_completeRun_new hw m d hids hpast₂

end Registrations

/-! ## Directories of results -/

/-- The directory of the results of a test, below the directory of all results. -/
def resultsDirectory (parent fullName : String) : String := parent ++ "/" ++ fullName

/-- Different tests have different directories for their results. -/
theorem resultsDirectory_injective (parent : String) :
    Function.Injective (resultsDirectory parent) :=
  fun _ _ h => (String.append_right_inj _).mp h

/-- Whether a command ends with a run of a test that has its results written to a directory. -/
def Command.WritesResultsTo (directory command : String) : Prop :=
  ∃ before target,
    command = Command.sh
    (before ++ " ; python -m robot.run -d " ++ directory ++ " " ++ target ++ " || true")

/-- A test is run with the directory of its full name. -/
theorem Command.writesResultsTo_runTest (s : ScriptSettings) (scope : String)
    (parameters : List Parameter) (workDir target fullName : String) :
    Command.WritesResultsTo (resultsDirectory resultsDir fullName)
      (runTest s scope parameters workDir target fullName) := by
  refine ⟨exportsText scope parameters ++ "cd " ++ workDir ++
    "; python3 -m venv venv; . venv/bin/activate; pip install --upgrade pip; " ++
    "pip install -r requirements.txt || pip install robotframework==" ++ s.robotVersion, target, ?_⟩
  simp only [runTest, resultsDirectory, String.append_assoc]

/-- Whether some commands run tests in order, each with a directory of results to itself. No
directory lies in another one, since the name of none has a slash. -/
structure RunsApart (s : ScriptSettings) (tests : List ExecutedTest)
    (commands : List String) : Prop where
  runs : List.Forall₂ (ExecutedTest.IsRunBy s) tests commands
  writes : List.Forall₂
    (fun t command =>
      Command.WritesResultsTo (resultsDirectory Command.resultsDir t.fullName) command)
    tests commands
  distinct : (tests.map fun t => resultsDirectory Command.resultsDir t.fullName).Nodup
  direct : ∀ t ∈ tests, '/' ∉ t.fullName.toList

/-- Tests with distinct names have distinct directories. -/
theorem nodup_resultsDirectories {names : List String} (h : names.Nodup) (parent : String) :
    (names.map (resultsDirectory parent)).Nodup :=
  h.map (resultsDirectory_injective parent)

/-- The commands that perform the tests of a descriptor keep their results apart. -/
theorem exists_runsApart {d : Descriptor} (hids : (d.setup.testcases.map (·.id)).Nodup)
    {s : ScriptSettings} {r : ScriptRequest} {obtained performed : List String}
    (htests : r.tests = d.executedTests) (hblocks : testBlocks s r = .ok (obtained, performed)) :
    ∃ commands, performed = Command.installTestModules s :: commands ∧
      RunsApart s r.tests commands := by
  obtain ⟨commands, rfl, hruns⟩ := performed_testBlocksFrom hblocks
  refine ⟨commands, rfl, hruns, hruns.imp ?_, ?_, ?_⟩
  · rintro t _ ⟨workDir, target, rfl⟩
    exact Command.writesResultsTo_runTest s _ _ workDir target _
  · have hnames := nodup_resultsDirectories (Descriptor.nodup_fullNames hids) Command.resultsDir
    rwa [List.map_map, ← htests] at hnames
  · intro t ht
    have hname := isTestName_of_testBlocksFrom hblocks t ht
    obtain ⟨t, -, rfl⟩ := List.mem_map.mp (htests ▸ ht)
    exact Testcase.slash_notMem_fullName hname

/-- The tests of a run have full names of their own. -/
theorem Store.Reachable.nodup_fullNames {s : Store} (h : s.Reachable) (runId : Int) :
    ((s.testsOfRun runId).map (·.fullName)).Nodup := by
  have hkeys := h.keys.runTests
  rw [List.Nodup, List.pairwise_map] at hkeys ⊢
  refine (hkeys.sublist List.filter_sublist).imp_of_mem ?_
  intro t t' ht ht' hne hsame
  have hown := of_decide_eq_true (List.mem_filter.mp ht).2
  have hown' := of_decide_eq_true (List.mem_filter.mp ht').2
  exact hne (Prod.ext (hown.trans hown'.symm) hsame)

/-! ## Tests of a submission -/

/-- Whether tests are kept apart by their full names, from a descriptor to the results of its run. A
full name tells the identifier of its test; the tests that a descriptor executes have different
names if it declares no identifier twice; this is so if it passes its check; the store then takes
each test that a submission registers; and neither the commands of a script nor the tests of a run
in the store share a directory of results. -/
structure NamesApart (m : Manager) (d : Descriptor) (w : World)
    (plan : Nat → Option Mishap) : Prop where
  ids : ∀ t t' : Testcase, t.fullName = t'.fullName → t.id = t'.id
  executed : (d.setup.testcases.map (·.id)).Nodup → (d.executedTests.map (·.fullName)).Nodup
  checked : ∀ tests, (w.attempt plan (m.check d)).1 = .ok tests →
    tests = d.executedTests ∧ (d.setup.testcases.map (·.id)).Nodup ∧ (tests.map (·.fullName)).Nodup
  registered :
    ∀ x ∈ (Service.exec (Trial.answer plan) (m.submitDescriptor d) { world := w }).2.past,
    x.RegistersNew plan
  performed : (d.setup.testcases.map (·.id)).Nodup → ∀ s (r : ScriptRequest) obtained performed,
    r.tests = d.executedTests → testBlocks s r = .ok (obtained, performed) →
    ∃ commands, performed = Command.installTestModules s :: commands ∧ RunsApart s r.tests commands
  stored : ∀ runId parent,
    ((w.store.testsOfRun runId).map fun t => resultsDirectory parent t.fullName).Nodup

/-- A check that passes has found no identifier that is declared twice. -/
theorem Manager.nodup_of_check_eq_ok {m : Manager} {d : Descriptor} {w : World}
    {plan : Nat → Option Mishap} {tests : List ExecutedTest}
    (h : (w.attempt plan (m.check d)).1 = .ok tests) :
    tests = d.executedTests ∧ (d.setup.testcases.map (·.id)).Nodup := by
  obtain ⟨rfl, hjudged, -⟩ := (m.ends_check_judged d w).of_result h
  exact ⟨rfl, nodup_declaredIds hjudged⟩

/-- Whatever names, kinds and identifiers its tests have, and whatever calls go wrong, a submission
at any point keeps tests apart by their full names. -/
theorem Manager.full_names_are_apart (m : Manager) (d : Descriptor) {w : World}
    (hw : w.store.Reachable) (plan : Nat → Option Mishap) : NamesApart m d w plan where
  ids _ _ := Testcase.id_eq_of_fullName_eq
  executed := Descriptor.nodup_fullNames
  checked tests h := by
    obtain ⟨rfl, hids⟩ := nodup_of_check_eq_ok h
    exact ⟨rfl, hids, Descriptor.nodup_fullNames hids⟩
  registered := Service.ends_iff.mp (m.ends_submitDescriptor_new d hw plan)
  performed hids _ _ _ _ := exists_runsApart hids
  stored runId parent := by
    have hnames := nodup_resultsDirectories (hw.nodup_fullNames runId) parent
    rwa [List.map_map] at hnames

/-- The pair is submitted. -/
theorem Manager.full_names_are_apart_pair :
    pairWorld.store.Reachable ∧
      pairDescriptor.executedTests.map (·.fullName) =
        ["dev-defined-own-test-id-2", "ping-test-id-1"] ∧
      (pairWorld.attempt (fun _ => none) (pairManager.check pairDescriptor)).1.toOption.isSome
        = true ∧
      NamesApart pairManager pairDescriptor pairWorld fun _ => none := by
  have hreachable : pairWorld.store.Reachable := smallWorld_reachable
  have hnames :
      pairDescriptor.executedTests.map (·.fullName) =
          ["dev-defined-own-test-id-2", "ping-test-id-1"] := by
    decide +kernel
  have hchecked :
      (pairWorld.attempt (fun _ => none) (pairManager.check pairDescriptor)).1.toOption.isSome =
          true := by
    decide +kernel
  exact ⟨hreachable, hnames, hchecked, full_names_are_apart pairManager pairDescriptor hreachable _⟩

end PipelineManager
