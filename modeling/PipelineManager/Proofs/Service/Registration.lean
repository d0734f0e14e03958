import PipelineManager.Proofs.Pipeline.TestCommands
import PipelineManager.Proofs.Service.Publication
import PipelineManager.Proofs.Validation.Judgement

/-!
# Registered tests

The tests of a run are registered by one traversal of the executed tests, and the script that runs
them is rendered by another. Neither drops, repeats or reorders a test: a submission that succeeds
has a row and a command for each id that its descriptor references, and they agree test by test. The
full name of a row is also where a publication finds the report of its test, at any later time.
-/

namespace PipelineManager

/-! ## Executed tests -/

/-- Whether some tests are those that a descriptor executes: declared tests in declaration order,
one for each id that some execution references. -/
structure Descriptor.Executes (d : Descriptor) (tests : List Testcase) : Prop where
  declared : tests.Sublist d.setup.testcases
  distinct : (tests.map (·.id)).Nodup
  referenced : ∀ id, id ∈ tests.map (·.id) ↔ d.References id

section Executed

variable {d : Descriptor} {catalogue : List CatalogueEntry}

/-- The declared ids of an accepted descriptor are distinct. -/
theorem nodup_declaredIds (h : semanticErrors d catalogue = []) :
    (d.setup.testcases.map (·.id)).Nodup :=
  (semanticErrors_eq_nil_iff.mp h).1

/-- A test that an accepted descriptor refers to is declared in it. -/
theorem exists_declared (h : semanticErrors d catalogue = []) {id : Int} (hid : d.References id) :
    ∃ t ∈ d.setup.testcases, t.id = id :=
  List.mem_map.mp ((semanticErrors_eq_nil_iff.mp h).2.1 id hid)

/-- No id is missed or repeated in a descriptor that was judged to have no errors. -/
theorem Descriptor.executes_executed (h : semanticErrors d catalogue = []) :
    d.Executes d.executed where
  declared := List.filter_sublist
  distinct := (nodup_declaredIds h).sublist (List.filter_sublist.map _)
  referenced id := by
    constructor
    · intro hid
      obtain ⟨t, ht, rfl⟩ := List.mem_map.mp hid
      exact (mem_executed_iff.mp ht).2
    · intro hid
      obtain ⟨t, ht, rfl⟩ := exists_declared h hid
      exact List.mem_map_of_mem (mem_executed_iff.mpr ⟨ht, hid⟩)

end Executed

/-! ## Rows and commands -/

/-- A test of a run: as it is declared, as it is registered and as it is run. -/
structure RegisteredTest where
  declared : Testcase
  row : RunTest
  command : String

/-- Whether row and command are those of the declared test, in a run that obtains its tests by some
commands. The archive that is downloaded under the full name of the row is that of the test, if the
row is one of a developer-defined test; otherwise there is none. -/
structure RegisteredTest.Agrees (s : ScriptSettings) (runId : Int) (obtained : List String)
    (t : RegisteredTest) :
    Prop where
  fullName : t.row.fullName = t.declared.fullName
  description : t.row.description = t.declared.description
  developerDefined : t.row.developerDefined = true ↔ t.declared.kind = .developerDefined
  command : ∃ workDir target, t.command =
    Command.runTest s t.declared.name t.declared.parameters workDir target t.row.fullName
  download : ∀ name, Command.download s.managerUrl runId name t.row.fullName <:+: obtained ↔
    t.row.developerDefined = true ∧ name = t.declared.name

/-- Whether row and command were made from the declared test, each by its own traversal. -/
structure RegisteredTest.IsMade (s : ScriptSettings) (netappId : String)
    (t : RegisteredTest) : Prop where
  row : t.row.registered = .ofExecuted netappId (.ofTestcase t.declared)
  command : (ExecutedTest.ofTestcase t.declared).IsRunBy s t.command

section Made

variable {s : ScriptSettings} {r : ScriptRequest} {netappId : String} {t : RegisteredTest}

/-- The row of a test has the full name of the test. -/
theorem RegisteredTest.IsMade.fullName (h : t.IsMade s netappId) :
    t.row.fullName = t.declared.fullName :=
  congrArg NewRunTest.fullName h.row

/-- The row of a test says whether the test is a developer's. -/
theorem RegisteredTest.IsMade.developerDefined (h : t.IsMade s netappId) :
    t.row.developerDefined = true ↔ t.declared.kind = .developerDefined := by
  have hflag : t.row.developerDefined = (ExecutedTest.ofTestcase t.declared).isDeveloperDefined :=
    congrArg NewRunTest.developerDefined h.row
  rw [hflag]
  exact decide_eq_true_iff

/-- Rows that were registered for tests and commands that run the same tests belong
together one by one. -/
theorem exists_registeredTests {tests : List Testcase} {rows : List RunTest}
    {commands : List String}
    (hrows : rows.map (·.registered) = (tests.map .ofTestcase).map (.ofExecuted netappId))
    (hcommands : List.Forall₂ (ExecutedTest.IsRunBy s) (tests.map .ofTestcase) commands) :
    ∃ registered : List RegisteredTest,
      registered.map (·.declared) = tests ∧ registered.map (·.row) = rows ∧
      registered.map (·.command) = commands ∧ ∀ t ∈ registered, t.IsMade s netappId := by
  induction tests generalizing rows commands with
  | nil =>
    obtain rfl := List.map_eq_nil_iff.mp hrows
    obtain rfl := List.forall₂_nil_left_iff.mp hcommands
    exact ⟨[], rfl, rfl, rfl, List.forall_mem_nil _⟩
  | cons test tests ih =>
    obtain ⟨row, rows, rfl, hrow, hrest⟩ := List.map_eq_cons_iff.mp hrows
    obtain ⟨command, commands, hcommand, hlater, rfl⟩ := List.forall₂_cons_left_iff.mp hcommands
    obtain ⟨registered, rfl, rfl, rfl, hall⟩ := ih hrest hlater
    exact ⟨⟨test, row, command⟩ :: registered, rfl, rfl, rfl,
      List.forall_mem_cons.mpr ⟨⟨hrow, hcommand⟩, hall⟩⟩

/-- Among rows with different full names, each has the archive of its own test downloaded, if that
is a developer-defined one. -/
theorem download_registered_iff {registered : List RegisteredTest}
    {obtained performed : List String} (hblocks : testBlocks s r = .ok (obtained, performed))
    (htests : r.tests = registered.map fun t => .ofTestcase t.declared)
    (hmade : ∀ t ∈ registered, t.IsMade s netappId)
    (hdistinct : (registered.map (·.row.fullName)).Nodup) (ht : t ∈ registered) (name : String) :
    Command.download s.managerUrl r.runId name t.row.fullName <:+: obtained ↔
      t.row.developerDefined = true ∧ name = t.declared.name := by
  have hquotes : ∀ x ∈ r.tests, '"' ∉ x.fullName.toList := by
    intro x hx
    obtain ⟨x, -, rfl⟩ := List.mem_map.mp (htests ▸ hx)
    exact Testcase.quote_notMem_fullName (isTestName_of_testBlocksFrom hblocks _ hx)
  have hmem : .ofTestcase t.declared ∈ r.tests := htests ▸ List.mem_map_of_mem ht
  have hquote : '"' ∉ t.row.fullName.toList := (hmade t ht).fullName ▸ hquotes _ hmem
  rw [download_infix_iff hblocks hquotes hquote, (hmade t ht).developerDefined]
  constructor
  · rintro ⟨x, hx, hkind, hname, hsame⟩
    obtain ⟨t', ht', rfl⟩ := List.mem_map.mp (htests ▸ hx)
    -- No other test has the full name of the row.
    obtain rfl := List.inj_on_of_nodup_map hdistinct ht' ht ((hmade t' ht').fullName.trans hsame)
    exact ⟨hkind, hname.symm⟩
  · rintro ⟨hkind, rfl⟩
    exact ⟨_, hmem, hkind, rfl, (hmade t ht).fullName.symm⟩

/-- The blocks that obtain and run the tests of a descriptor agree with the rows that were
registered for them. -/
theorem exists_agreeing {d : Descriptor} {rows : List RunTest} {obtained performed : List String}
    (hblocks : testBlocks s r = .ok (obtained, performed)) (htests : r.tests = d.executedTests)
    (hrows : rows.map (·.registered) = d.executedTests.map (.ofExecuted d.info.netappId))
    (hdistinct : (rows.map (·.fullName)).Nodup) :
    ∃ registered : List RegisteredTest, registered.map (·.declared) = d.executed ∧
      registered.map (·.row) = rows ∧
      performed = Command.installTestModules s :: registered.map (·.command) ∧
      ∀ t ∈ registered, t.Agrees s r.runId obtained := by
  obtain ⟨commands, rfl, hcommands⟩ := performed_testBlocksFrom hblocks
  rw [htests] at hcommands
  obtain ⟨registered, hdeclared, rfl, rfl, hmade⟩ := exists_registeredTests hrows hcommands
  rw [Descriptor.executedTests, ← hdeclared, List.map_map] at htests
  rw [List.map_map] at hdistinct
  refine ⟨registered, hdeclared, rfl, rfl, fun t ht => ?_⟩
  exact {
    fullName := (hmade t ht).fullName
    description := congrArg NewRunTest.description (hmade t ht).row
    developerDefined := (hmade t ht).developerDefined
    command := (hmade t ht).fullName ▸ (hmade t ht).command
    download := download_registered_iff hblocks htests hmade hdistinct ht }

end Made

/-! ## Submissions -/

/-- Whether a submission has registered some tests and runs these. Its script is the text of the
template line by line, with some commands in the place of the line of each slot: for the tests,
those that install their modules and run them in order. -/
structure RunsRegistered (m : Manager) (d : Descriptor) (w : World) (receipt : Receipt) (w' : World)
    (tests : List RegisteredTest) : Prop where
  executed : d.Executes (tests.map (·.declared))
  rows : w'.store.testsOfRun receipt.runId = tests.map (·.row)
  script : ∃ agentId script blocks,
    w'.fleet.jobs = w.fleet.jobs ++ [⟨agentId, receipt.jobName, script⟩] ∧
    m.template.fill blocks (scriptValues m.settings receipt.runId) = .ok script ∧
    (∀ text, Template.parse text = .ok m.template → ∃ outs,
      List.Forall₂ (Template.LineFilled blocks (scriptValues m.settings receipt.runId))
        (Text.splitLines text.toList) outs ∧ script = String.ofList outs.flatten) ∧
    blocks .performTests = Command.installTestModules m.settings :: tests.map (·.command) ∧
    ∀ t ∈ tests, t.Agrees m.settings receipt.runId (blocks .obtainTests)

section Submissions

variable {m : Manager} {d : Descriptor} {w w' : World} {receipt : Receipt} {run : Run}
  {agent : Agent}
  {rows : List RunTest} {script : String} {runId : Int}

/-- The rows of a run are those that its submission has added. -/
theorem Submitted.testsOfRun_eq (h : Submitted m d w receipt w' run agent rows script)
    (hw : w.Reachable) :
    w'.store.testsOfRun run.id = rows := by
  have hblank : w.store.testsOfRun run.id = [] :=
    List.map_eq_nil_iff.mp (congrArg RunFacts.tests (h.factsOf_eq_blank hw))
  have hown : rows.filter (fun t => t.runId = run.id) = rows :=
    List.filter_eq_self.mpr fun t ht => decide_eq_true (h.gained.own t ht)
  rw [Store.testsOfRun] at hblank ⊢
  rw [h.gained.runTests, List.filter_append, hblank, hown, List.nil_append]

/-- A submitted run runs the tests that are registered for it. -/
theorem Submitted.exists_runsRegistered (h : Submitted m d w receipt w' run agent rows script)
    (hw : w.Reachable) :
    ∃ tests, RunsRegistered m d w receipt w' tests := by
  obtain ⟨obtained, performed, hblocks, hfill⟩ := renderScript_eq_ok_iff.mp h.rendered
  obtain ⟨tests, hdeclared, hrows, hperformed, hagree⟩ :=
    exists_agreeing hblocks rfl h.registered h.gained.distinct
  have hlines (text : String) (htext : Template.parse text = .ok m.template) :=
    (Template.fill_eq_ok_iff htext).mp (h.runId ▸ hfill)
  refine ⟨tests, ?_, ?_, agent.id, script, _, ?_, h.runId ▸ hfill, hlines, hperformed,
    h.runId ▸ hagree⟩
  · rw [hdeclared]
    exact Descriptor.executes_executed h.judged
  · rw [h.runId, hrows, h.testsOfRun_eq hw]
  · rw [h.jobName]
    exact h.gained.jobs

/-- Which steps lead to verdicts depends on what was registered alone. -/
theorem World.Judges.congr {rows' : List RunTest} (h : w.Judges runId rows)
    (hsame : rows.map (fun t => (t.id, t.registered)) = rows'.map fun t => (t.id, t.registered)) :
    w.Judges runId rows' := by
  have hsteps (W : Warehouse) (resultsDir : String) :
      rows.flatMap (RunTest.verdictSteps W resultsDir) =
          rows'.flatMap (RunTest.verdictSteps W resultsDir) := by
    let steps (x : Int × NewRunTest) : List VerdictStep :=
      [.read (Manager.reportPath resultsDir x.2.fullName),
        .record x.1 (W.verdict resultsDir x.2.fullName)]
    have hfactor (rows : List RunTest) : rows.flatMap (RunTest.verdictSteps W resultsDir) =
        (rows.map fun t => (t.id, t.registered)).flatMap steps := by
      rw [List.flatMap_map]
      rfl
    rw [hfactor, hsame, ← hfactor]
  intro plan token directory
  rw [← hsteps]
  exact h plan token directory

/-- A submission that succeeds, at any point of a session, registers the tests that its descriptor
executes, and its script runs these, each in the directory of its row. For the rest of the session
the rows stay, and a publication looks for the reports in those directories. -/
theorem Manager.registered_tests_are_run (hw : w.Reachable) {plan : Nat → Option Mishap}
    (h : w.attempt plan (m.submitDescriptor d) = (.ok receipt, w')) :
    ∃ tests, RunsRegistered m d w receipt w' tests ∧ ∀ events,
      ((w'.after events).store.testsOfRun receipt.runId).map (fun t => (t.id, t.registered)) =
        tests.map (fun t => (t.row.id, t.row.registered)) ∧
      (w'.after events).Judges receipt.runId (tests.map (·.row)) := by
  obtain ⟨run, agent, rows, script, hsubmitted⟩ := World.exists_submitted hw.store.consistent h
  obtain ⟨tests, htests⟩ := hsubmitted.exists_runsRegistered hw
  refine ⟨tests, htests, fun events => ?_⟩
  have hrun : (w'.store.run? receipt.runId).isSome := by
    rw [hsubmitted.runId, hsubmitted.run?_eq hw.store.consistent]
    rfl
  have hkept :
    ((w'.after events).store.testsOfRun receipt.runId).map (fun t => (t.id, t.registered)) =
      (tests.map (·.row)).map fun t => (t.id, t.registered) := by
    rw [← htests.rows]
    exact congrArg RunFacts.tests ((hw.submitted h).factsOf_after hrun events)
  exact ⟨hkept.trans List.map_map, ((w'.after events).judges_testsOfRun receipt.runId).congr hkept⟩

end Submissions

/-! ## A small submission -/

/-- A manager whose template has a line for each slot, and no other. -/
def pairManager : Manager := { smallManager with template := bareTemplate }

/-- A descriptor that executes a test of either kind, one of them twice, and declares one more. -/
def pairDescriptor : Descriptor where
  info := ⟨"tb", "app", "net", none⟩
  setup :=
    ⟨[],
      [⟨3, "idle", .predefined, "all", none, []⟩, ⟨2, "own", .developerDefined, "all", none, []⟩,
        ⟨1, "ping", .predefined, "all", none, []⟩],
      none⟩
  execution := [⟨1, "all", [⟨1, none, [1, 2]⟩]⟩, ⟨2, "all", [⟨1, none, [2]⟩]⟩]

/-- The small world with the archive of the developer's test. -/
def pairWorld : World :=
  { smallWorld with
    warehouse := {
      root := "warehouse"
      tree := { files := [(["developer-defined-tests", "app", "own.tar.gz"], ⟨#[]⟩)] } } }

/-- The pair is submitted. -/
theorem Manager.registered_tests_are_run_pair :
    ∃ receipt w', Template.parse bareText = .ok pairManager.template ∧ pairWorld.Reachable ∧
      pairWorld.attempt (fun _ => none) (pairManager.submitDescriptor pairDescriptor) =
        (.ok receipt, w') ∧
      ∃ tests, RunsRegistered pairManager pairDescriptor pairWorld receipt w' tests ∧ ∀ events,
        ((w'.after events).store.testsOfRun receipt.runId).map (fun t => (t.id, t.registered)) =
          tests.map (fun t => (t.row.id, t.row.registered)) ∧
        (w'.after events).Judges receipt.runId (tests.map (·.row)) := by
  have hreachable : pairWorld.Reachable := .start smallWorld_reachable rfl rfl rfl rfl
  have hsome :
      (pairWorld.carryOut (pairManager.submitDescriptor pairDescriptor).run).1.toOption.isSome =
          true := by
    decide +kernel
  rcases hresult : pairWorld.carryOut (pairManager.submitDescriptor pairDescriptor).run with
    ⟨e | receipt, w'⟩
  · rw [hresult] at hsome
    exact nomatch hsome
  have hattempt :
      pairWorld.attempt (fun _ => none) (pairManager.submitDescriptor pairDescriptor) =
          (.ok receipt, w') :=
    (World.attempt_undisturbed _ _).trans hresult
  exact ⟨receipt, w', parse_bareText, hreachable, hattempt,
    registered_tests_are_run hreachable hattempt⟩

end PipelineManager
