import PipelineManager.Pipeline.Script
import PipelineManager.Proofs.Descriptor.Parsing
import PipelineManager.Proofs.Pipeline.Filling
import PipelineManager.Validation.Semantics

/-!
# Rendering a script

The texts of a parsed template have no marker but placeholders, and no slot is left without
commands, so that only the tests of a request can keep it from being rendered. A descriptor that is
judged to be without problems has no such test.
-/

namespace PipelineManager

/-! ## The tests of a request -/

variable {s : ScriptSettings} {r : ScriptRequest} {t : ExecutedTest}

/-- Whether a test can be rendered: its name is a test name, and a predefined test is registered for
the testbed under its name. -/
structure Renderable (r : ScriptRequest) (t : ExecutedTest) : Prop where
  name : isTestName t.testcase.name.toList = true
  registered : t.testcase.kind = .predefined →
    ∃ e ∈ r.catalogue, e.testbedId = r.testbedId ∧ e.name = t.testcase.name

/-- What keeps a test from being rendered. -/
inductive TestFault (r : ScriptRequest) (t : ExecutedTest) : RenderError → Prop where
  | invalidName (hname : isTestName t.testcase.name.toList = false) :
      TestFault r t (.invalidTestName t.testcase.name)
  | unknown (hname : isTestName t.testcase.name.toList = true)
      (hkind : t.testcase.kind = .predefined)
      (hmissing : ∀ e ∈ r.catalogue, ¬ (e.testbedId = r.testbedId ∧ e.name = t.testcase.name)) :
      TestFault r t (.unknownTest t.testcase.name r.testbedId)

/-- No entry is found iff none is of the testbed and has the name. -/
theorem entryAt?_eq_none_iff {catalogue : List CatalogueEntry} {testbedId name : String} :
    entryAt? catalogue testbedId name = none ↔
      ∀ e ∈ catalogue, ¬ (e.testbedId = testbedId ∧ e.name = name) := by
  simp [entryAt?]

/-- A test has a plan, or it has a fault, which is the error. -/
theorem planTest_cases (s : ScriptSettings) (r : ScriptRequest) (t : ExecutedTest) :
    (Renderable r t ∧ ∃ plan, planTest s r t = .ok plan) ∨
      ∃ e, TestFault r t e ∧ planTest s r t = .error e := by
  cases hname : isTestName t.testcase.name.toList with
  | false => exact Or.inr ⟨_, .invalidName hname, by simp [planTest, hname]⟩
  | true =>
    cases hkind : t.testcase.kind with
    | developerDefined =>
      exact Or.inl ⟨⟨hname, fun h => nomatch hkind.symm.trans h⟩, by simp [planTest, hname, hkind]⟩
    | predefined =>
      cases hentry : entryAt? r.catalogue r.testbedId t.testcase.name with
      | none =>
        have hmissing := entryAt?_eq_none_iff.mp hentry
        exact Or.inr ⟨_, .unknown hname hkind hmissing, by simp [planTest, hname, hkind, hentry]⟩
      | some e =>
        have he : e.testbedId = r.testbedId ∧ e.name = t.testcase.name := by
          simpa using List.find?_some hentry
        have hregistered : Renderable r t :=
          ⟨hname, fun _ => ⟨e, List.mem_of_find?_eq_some hentry, he⟩⟩
        exact Or.inl ⟨hregistered, by simp [planTest, hname, hkind, hentry]⟩

/-- A test that can be rendered has no fault. -/
theorem Renderable.not_fault {e : RenderError} (h : Renderable r t) : ¬ TestFault r t e := by
  intro hfault
  cases hfault with
  | invalidName hname => exact Bool.noConfusion (hname.symm.trans h.name)
  | unknown _ hkind hmissing =>
    obtain ⟨entry, hentry, hfound⟩ := h.registered hkind
    exact hmissing entry hentry hfound

/-- A test has one fault at most. -/
theorem TestFault.unique {e e' : RenderError} (h : TestFault r t e) (h' : TestFault r t e') :
    e = e' := by
  cases h with
  | invalidName hname =>
    cases h' with
    | invalidName => rfl
    | unknown hname' => exact Bool.noConfusion (hname.symm.trans hname')
  | unknown hname =>
    cases h' with
    | invalidName hname' => exact Bool.noConfusion (hname'.symm.trans hname)
    | unknown => rfl

/-- The blocks of tests fail for the first test that has a fault. -/
theorem testBlocksFrom_eq_error_iff {tests : List ExecutedTest} {obtained performed : List String}
    {e : RenderError} :
    testBlocksFrom s r obtained performed tests = .error e ↔ ∃ earlier t later,
      tests = earlier ++ t :: later ∧
      (∀ t' ∈ earlier, Renderable r t') ∧ TestFault r t e := by
  induction tests generalizing obtained performed with
  | nil => simp [testBlocksFrom]
  | cons t tests ih =>
    rw [testBlocksFrom]
    rcases planTest_cases s r t with ⟨ht, plan, hplan⟩ | ⟨e', hfault, hplan⟩
    · rw [exists_first_cons_of_fine ht ht.not_fault, hplan]
      exact ih
    · have hnot : ¬ Renderable r t := fun ht => ht.not_fault hfault
      rw [exists_first_cons_of_not_fine hnot, hplan, Except.error.injEq]
      constructor
      · rintro rfl
        exact hfault
      · exact hfault.unique

/-- What is obtained does not get lost. -/
theorem addObtain_ne_nil {obtained : List String} (h : obtained ≠ []) (kind : TestKind)
    (commands : List String) : addObtain obtained kind commands ≠ [] := by
  cases kind <;> simp [addObtain, h]

/-- Tests only add commands to the blocks. -/
theorem testBlocksFrom_ne_nil {tests : List ExecutedTest}
    {obtained performed obtained' performed' : List String} (hobtained : obtained ≠ [])
    (hperformed : performed ≠ [])
    (h : testBlocksFrom s r obtained performed tests = .ok (obtained', performed')) :
    obtained' ≠ [] ∧ performed' ≠ [] := by
  induction tests generalizing obtained performed with
  | nil =>
    obtain ⟨rfl, rfl⟩ := Prod.mk.inj (Except.ok.inj h)
    exact ⟨hobtained, hperformed⟩
  | cons t tests ih =>
    rw [testBlocksFrom] at h
    cases hplan : planTest s r t with
    | error e =>
      rw [hplan] at h
      exact nomatch h
    | ok plan =>
      rw [hplan] at h
      exact ih (addObtain_ne_nil hobtained _ _) (List.append_ne_nil_of_left_ne_nil hperformed _) h

/-! ## Scripts -/

/-- There is a command for metrics, also for no blocks. -/
theorem Command.metrics_ne_nil (s : ScriptSettings) (c : MetricsContract)
    (blocks : List MetricsBlock) (action : Command.MetricsAction) :
    Command.metrics s c blocks action ≠ [] := by
  unfold Command.metrics
  split <;> exact List.cons_ne_nil _ _

/-- Every slot has commands, whatever a request asks for. -/
theorem scriptBlocks_ne_nil {obtained performed : List String} (hobtained : obtained ≠ [])
    (hperformed : performed ≠ []) (slot : Slot) :
    scriptBlocks s r obtained performed slot ≠ [] := by
  cases slot with
  | obtainTests => exact hobtained
  | performTests => exact hperformed
  | startMetrics => exact Command.metrics_ne_nil s r.contract r.metrics .start
  | endMetrics => exact Command.metrics_ne_nil s r.contract r.metrics .stop
  | _ => exact List.cons_ne_nil _ _

/-- Every placeholder of a script has a value. -/
theorem scriptValues_isSome (s : ScriptSettings) (runId : Int) (p : Placeholder) :
    (scriptValues s runId p).isSome = true := by
  cases p <;> rfl

variable {text : String} {template : Template}

/-- Nothing but its tests keeps a request from being rendered. -/
theorem renderScript_cases (htemplate : Template.parse text = .ok template) (s : ScriptSettings)
    (r : ScriptRequest) :
    (∃ script, renderScript template s r = .ok script) ∨
      ∃ e, testBlocks s r = .error e ∧ renderScript template s r = .error e := by
  unfold renderScript
  cases htests : testBlocks s r with
  | error e => exact Or.inr ⟨e, rfl, rfl⟩
  | ok blocks =>
    obtain ⟨obtained, performed⟩ := blocks
    have hne := testBlocksFrom_ne_nil (List.cons_ne_nil _ _) (List.cons_ne_nil _ _) htests
    have hblocks (slot : Slot) : scriptBlocks s r obtained performed slot ≠ [] :=
      scriptBlocks_ne_nil hne.1 hne.2 slot
    have hvalues (p : Placeholder) : scriptValues s r.runId p ≠ none :=
      Option.isSome_iff_ne_none.mp (scriptValues_isSome s r.runId p)
    obtain ⟨script, hscript⟩ :=
      (Template.exists_fill_iff htemplate).mpr ⟨hblocks, fun p _ => hvalues p⟩
    exact Or.inl ⟨script, by simp [hscript]⟩

/-- A script is rendered iff its blocks are made and the template is filled with them. -/
theorem renderScript_eq_ok_iff {script : String} :
    renderScript template s r = .ok script ↔ ∃ obtained performed,
      testBlocks s r = .ok (obtained, performed) ∧
      template.fill (scriptBlocks s r obtained performed) (scriptValues s r.runId) =
        .ok script := by
  unfold renderScript
  cases testBlocks s r with
  | error e => simp
  | ok blocks =>
    obtain ⟨obtained, performed⟩ := blocks
    cases hfill :
      template.fill (scriptBlocks s r obtained performed) (scriptValues s r.runId) <;> simp [hfill]

/-- The error of a script is the fault of the first test that has one. -/
theorem renderScript_eq_error_iff (htemplate : Template.parse text = .ok template)
    {e : RenderError} :
    renderScript template s r = .error e ↔ ∃ earlier t later, r.tests = earlier ++ t :: later ∧
      (∀ t' ∈ earlier, Renderable r t') ∧ TestFault r t e := by
  have htests : testBlocks s r = .error e ↔ _ := testBlocksFrom_eq_error_iff
  rw [← htests]
  rcases renderScript_cases htemplate s r with ⟨script, hscript⟩ | ⟨e', htests', hscript⟩
  · rw [hscript]
    refine iff_of_false nofun fun h => ?_
    rw [renderScript, h] at hscript
    exact nomatch hscript
  · rw [hscript, htests', Except.error.injEq, Except.error.injEq]

/-- A script is rendered if every test can be. -/
theorem exists_renderScript (htemplate : Template.parse text = .ok template)
    (h : ∀ t ∈ r.tests, Renderable r t) : ∃ script, renderScript template s r = .ok script := by
  cases hrender : renderScript template s r with
  | ok script => exact ⟨script, rfl⟩
  | error e =>
    obtain ⟨earlier, t, later, htests, -, hfault⟩ :=
      (renderScript_eq_error_iff htemplate).mp hrender
    have ht : t ∈ r.tests := htests ▸ List.mem_append_right earlier List.mem_cons_self
    exact absurd hfault (h t ht).not_fault

/-! ## Judged descriptors -/

/-- Whatever is right of the things that a list holds is right of each of them. -/
theorem Value.Lists.forall {α : Type} {isIn : α → Value → Prop} {p : α → Prop} {xs : List α}
    {v : Value} (h : v.Lists isIn xs) (hp : ∀ x w, isIn x w → p x) : ∀ x ∈ xs, p x := by
  obtain ⟨items, -, hitems⟩ := h
  clear v
  induction hitems with
  | nil => exact List.forall_mem_nil _
  | cons hhead _ ih => exact List.forall_mem_cons.mpr ⟨hp _ _ hhead, ih⟩

/-- The declared tests of a descriptor have test names. -/
theorem Descriptor.IsIn.isTestName {d : Descriptor} {document : Value} (h : d.IsIn document) :
    ∀ t ∈ d.setup.testcases, isTestName t.name.toList = true := by
  obtain ⟨_, -, ⟨_, -, hsetup⟩, -⟩ := h.phases
  obtain ⟨_, -, htestcases⟩ := hsetup.testcases
  refine htestcases.forall fun t _ ht => ?_
  obtain ⟨_, -, -, hname⟩ := ht.name
  exact hname

/-- An entry that is found by its name is in the catalogue and has the name. -/
theorem mem_of_entryNamed? {catalogue : List CatalogueEntry} {name : String} {e : CatalogueEntry}
    (h : entryNamed? catalogue name = some e) : e ∈ catalogue ∧ e.name = name :=
  ⟨List.mem_of_find?_eq_some h, by simpa using List.find?_some h⟩

/-- A test without problems is registered. -/
theorem exists_entry_of_testErrors {catalogue : List CatalogueEntry} {t : Testcase}
    (h : testErrors catalogue t = []) (hkind : t.kind = .predefined) :
    ∃ e ∈ catalogue, e.name = t.name := by
  rw [testErrors, hkind] at h
  cases hentry : entryNamed? catalogue t.name with
  | none =>
    rw [hentry] at h
    exact nomatch h
  | some e => exact ⟨e, mem_of_entryNamed? hentry⟩

/-- The executed tests of a descriptor without problems can be rendered for its testbed. -/
theorem renderable_of_judged {document : Value} {d : Descriptor}
    (hd : Descriptor.parse document = .ok d)
    (hcatalogue : ∀ e ∈ r.catalogue, e.testbedId = d.info.testbedId)
    (hvalid : semanticErrors d r.catalogue = []) (htests : r.tests = d.executedTests)
    (htestbed : r.testbedId = d.info.testbedId) :
    ∀ t ∈ r.tests, Renderable r t := by
  intro t ht
  rw [htests] at ht
  obtain ⟨testcase, htestcase, rfl⟩ := List.mem_map.mp ht
  have hdeclared : testcase ∈ d.setup.testcases := List.mem_of_mem_filter htestcase
  refine ⟨(Descriptor.isIn_of_parse hd).isTestName testcase hdeclared, fun hkind => ?_⟩
  have herrors : testErrors r.catalogue testcase = [] :=
    List.flatMap_eq_nil_iff.mp (List.append_eq_nil_iff.mp hvalid).2 testcase htestcase
  obtain ⟨e, he, hname⟩ := exists_entry_of_testErrors herrors hkind
  exact ⟨e, he, (hcatalogue e he).trans htestbed.symm, hname⟩

/-- Rendering fails for its tests only. A request is rendered if every test of it can be, and else
the error is that of the first test that cannot. The executed tests of a descriptor that is judged
to be without problems can all be rendered, whatever the template, the settings and the rest of
the request. -/
theorem renderScript_outcome (htemplate : Template.parse text = .ok template) (s : ScriptSettings) :
    (∀ (document : Value) (d : Descriptor) (catalogue : List CatalogueEntry),
      Descriptor.parse document = .ok d → (∀ e ∈ catalogue, e.testbedId = d.info.testbedId) →
      semanticErrors d catalogue = [] →
      ∀ (metrics : List MetricsBlock) (contract : MetricsContract) (runId : Int), ∃ script : String,
        renderScript template s
        ⟨d.executedTests, catalogue, metrics, contract, runId, d.info.testbedId⟩ =
          .ok script) ∧
    ∀ r : ScriptRequest,
      ((∀ t ∈ r.tests, Renderable r t) → ∃ script : String,
        renderScript template s r = .ok script) ∧
      (∀ e, renderScript template s r = .error e ↔ ∃ earlier t later,
        r.tests = earlier ++ t :: later ∧
        (∀ t' ∈ earlier, Renderable r t') ∧ TestFault r t e) ∧
      (∀ slot, renderScript template s r ≠ .error (.unfilledSlot slot)) ∧
      ∀ name, renderScript template s r ≠ .error (.unresolvedPlaceholder name) := by
  refine ⟨fun document d catalogue hd hcatalogue hvalid metrics contract runId => ?_, fun r => ?_⟩
  · exact exists_renderScript htemplate (renderable_of_judged hd hcatalogue hvalid rfl rfl)
  · have herror (e : RenderError) := renderScript_eq_error_iff (s := s) (r := r) htemplate (e := e)
    refine ⟨exists_renderScript htemplate, herror, fun slot h => ?_, fun name h => ?_⟩
    · obtain ⟨_, _, _, -, -, hfault⟩ := (herror _).mp h
      exact nomatch hfault
    · obtain ⟨_, _, _, -, -, hfault⟩ := (herror _).mp h
      exact nomatch hfault

/-- A document that executes one predefined test. -/
def bandwidthDocument : Value :=
  .dict [
    ("test_info", .dict [
      ("netapp_id", .str "netapp"),
      ("network_service_id", .str "ns"),
      ("testbed_id", .str "testbed")]),
    ("test_phases", .dict [
      ("execution", .list [.dict [
        ("batch_id", .int 1),
        ("executions", .list [.dict [("execution_id", .int 1), ("testcase_ids", .list [.int 7])]]),
        ("scope", .str "all")]]),
      ("setup", .dict [
        ("deployments", .list []),
        ("testcases", .list [.dict [
          ("name", .str "bandwidth"),
          ("scope", .str "iperf"),
          ("testcase_id", .int 7),
          ("type", .str "predefined")]])])])]

/-- The predefined test. -/
def bandwidthTest : Testcase := ⟨7, "bandwidth", .predefined, "iperf", none, []⟩

/-- The descriptor of the document. -/
def bandwidthDescriptor : Descriptor :=
  ⟨⟨"testbed", "netapp", "ns", none⟩, ⟨[], [bandwidthTest], none⟩, [⟨1, "all", [⟨1, none, [7]⟩]⟩]⟩

/-- The test in the catalogue of the testbed. -/
def bandwidthEntry : CatalogueEntry :=
  { testbedId := "testbed"
    testId := "bandwidth"
    name := "bandwidth"
    location := "bandwidth/"
    filename := "t.robot" }

/-- The document of the bandwidth test is the descriptor of it. -/
theorem parse_bandwidthDocument : Descriptor.parse bandwidthDocument = .ok bandwidthDescriptor := by
  rw [Descriptor.parse_of_not_violations (by decide)]
  rfl

/-- With the catalogue entry the test is rendered, and without it there is no script. -/
theorem renderScript_outcome_bandwidth :
    Template.parse bareText = .ok bareTemplate ∧
      Descriptor.parse bandwidthDocument = .ok bandwidthDescriptor ∧
    (∀ e ∈ [bandwidthEntry], e.testbedId = bandwidthDescriptor.info.testbedId) ∧
    semanticErrors bandwidthDescriptor [bandwidthEntry] = [] ∧
    (∃ script, renderScript bareTemplate default
      ⟨bandwidthDescriptor.executedTests, [bandwidthEntry], [], default, 1, "testbed"⟩ =
        .ok script) ∧
    renderScript bareTemplate default
      ⟨bandwidthDescriptor.executedTests, [], [], default, 1, "testbed"⟩ =
      .error (.unknownTest "bandwidth" "testbed") := by
  have hcatalogue : ∀ e ∈ [bandwidthEntry], e.testbedId = bandwidthDescriptor.info.testbedId := by
    decide
  have hvalid : semanticErrors bandwidthDescriptor [bandwidthEntry] = [] := by decide
  obtain ⟨hjudged, houtcome⟩ := renderScript_outcome parse_bareText default
  refine ⟨parse_bareText, parse_bandwidthDocument, hcatalogue, hvalid,
    hjudged _ _ _ parse_bandwidthDocument hcatalogue hvalid [] default 1, ?_⟩
  have hfault : TestFault ⟨bandwidthDescriptor.executedTests, [], [], default, 1, "testbed"⟩
      (.ofTestcase bandwidthTest) (.unknownTest "bandwidth" "testbed") :=
    .unknown (by decide) rfl (List.forall_mem_nil _)
  exact ((houtcome _).2.1 _).mpr ⟨[], _, [], rfl, List.forall_mem_nil _, hfault⟩

end PipelineManager
