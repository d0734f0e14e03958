import PipelineManager.Proofs.Descriptor.Reading

/-!
# Parsing a descriptor

Each record of a descriptor agrees with the rule of its nodes, and so does the descriptor as a
whole. What `Descriptor.parse` answers for a document depends on the violations of the document and
on the integers at the paths of identifiers only.
-/

namespace PipelineManager

open Schema

/-! ## Records -/

/-- Parameters are read as their rule allows. -/
theorem Parameter.agrees : Agrees parametersRule (Value.itemsBy? Parameter.ofValue?)
    fun ps v => v.Lists Parameter.IsIn ps := by
  refine Agrees.list (Agrees.record fun v hv => ?_)
  have hkey := text_agrees.required.require "key" hv (by simp) rfl
  have hvalue := any_agrees.required.require "value" hv (by simp) rfl
  refine ReadsWhen.congr (hkey.bind fun _ key => hvalue.bind fun _ value => .of_some trivial
    { key, value, only := hv.only }) ?_
  simp

/-- Tests are read as their rule allows. -/
theorem Testcase.agrees : Agrees testcasesRule (Value.itemsBy? Testcase.ofValue?)
    fun ts v => v.Lists Testcase.IsIn ts := by
  refine Agrees.list (Agrees.record fun v hv => ?_)
  have hid := id_agrees.required.require "testcase_id" hv (by simp) rfl
  have hname := name_agrees.require "name" hv (by simp) rfl
  have hkind := kind_agrees.require "type" hv (by simp) rfl
  have hscope := text_agrees.required.require "scope" hv (by simp) rfl
  have hdescription := text_agrees.optional "description" hv (by simp)
  have hparameters := Parameter.agrees.itemsOrNone "parameters" hv (by simp)
  refine ReadsWhen.congr (hid.bind fun _ id => hname.bind fun _ name => hkind.bind fun _ kind =>
    hscope.bind fun _ scope => hdescription.bind fun _ description => hparameters.bind
        fun _ parameters =>
    .of_some trivial { id, name, kind, scope, description, parameters, only := hv.only }) ?_
  simp only [List.forall_mem_cons]
  tauto

/-- Deployments are read as their rule allows. -/
theorem Deployment.agrees : Agrees deploymentsRule (Value.itemsBy? Deployment.ofValue?)
    fun ds v => v.Lists Deployment.IsIn ds := by
  refine Agrees.list (Agrees.record fun v hv => ?_)
  have hdeploymentId := id_agrees.required.require "deployment_id" hv (by simp) rfl
  have hname := text_agrees.required.require "name" hv (by simp) rfl
  have hdescriptor := text_agrees.required.require "descriptor" hv (by simp) rfl
  have hid := text_agrees.required.require "id" hv (by simp) rfl
  have hparameters := Parameter.agrees.itemsOrNone "parameters" hv (by simp)
  refine ReadsWhen.congr (hdeploymentId.bind fun _ deploymentId => hname.bind fun _ name =>
    hdescriptor.bind fun _ descriptor => hid.bind fun _ id => hparameters.bind fun _ parameters =>
    .of_some trivial { deploymentId, name, descriptor, id, parameters, only := hv.only }) ?_
  simp

/-- Metrics blocks are read as their rule allows. -/
theorem MetricsBlock.agrees : Agrees metricsBlocksRule (Value.itemsBy? MetricsBlock.ofValue?)
    fun ms v => v.Lists MetricsBlock.IsIn ms := by
  refine Agrees.list (Agrees.record fun v hv => ?_)
  have hid := id_agrees.required.require "metrics_collection_id" hv (by simp) rfl
  have hdescription := text_agrees.optional "description" hv (by simp)
  have hparameters := Parameter.agrees.required.require "parameters" hv (by simp) rfl
  refine ReadsWhen.congr (hid.bind fun _ id => hdescription.bind fun _ description =>
    hparameters.bind fun _ parameters =>
      .of_some trivial { id, description, parameters, only := hv.only }) ?_
  simp

/-- Executions are read as their rule allows. -/
theorem Execution.agrees : Agrees (Rule.listOf (.dict [
      ("execution_id", Rule.integer.required),
      ("name", .string),
      ("testcase_ids", (Rule.listOf .integer).required)]))
    (Value.itemsBy? Execution.ofValue?) fun es v => v.Lists Execution.IsIn es := by
  refine Agrees.list (Agrees.record fun v hv => ?_)
  have hid := id_agrees.required.require "execution_id" hv (by simp) rfl
  have hname := text_agrees.optional "name" hv (by simp)
  have htestcaseIds := id_agrees.list.required.itemsOrNone_required "testcase_ids" hv (by simp) rfl
  refine ReadsWhen.congr (hid.bind fun _ id => hname.bind fun _ name =>
    htestcaseIds.bind fun _ testcaseIds =>
      .of_some trivial { id, name, testcaseIds, only := hv.only }) ?_
  simp

/-- Batches are read as their rule allows. -/
theorem Batch.agrees : Agrees executionRule (Value.itemsBy? Batch.ofValue?)
    fun bs v => v.Lists Batch.IsIn bs := by
  refine Agrees.list (Agrees.record fun v hv => ?_)
  have hid := id_agrees.required.require "batch_id" hv (by simp) rfl
  have hscope := text_agrees.required.require "scope" hv (by simp) rfl
  have hexecutions := Execution.agrees.required.require "executions" hv (by simp) rfl
  refine ReadsWhen.congr (hid.bind fun _ id => hscope.bind fun _ scope =>
    hexecutions.bind fun _ executions =>
      .of_some trivial { id, scope, executions, only := hv.only }) ?_
  simp

/-- The test information is read as its rule allows. -/
theorem TestInfo.agrees : Agrees testInfoRule TestInfo.ofValue? TestInfo.IsIn := by
  refine Agrees.record fun v hv => ?_
  have htestbedId := text_agrees.required.require "testbed_id" hv (by simp) rfl
  have hnetappId := text_agrees.required.require "netapp_id" hv (by simp) rfl
  have hnetworkServiceId := text_agrees.required.require "network_service_id" hv (by simp) rfl
  have hdescription := text_agrees.optional "description" hv (by simp)
  refine ReadsWhen.congr (htestbedId.bind fun _ testbedId => hnetappId.bind fun _ netappId =>
    hnetworkServiceId.bind fun _ networkServiceId => hdescription.bind fun _ description =>
    .of_some trivial { testbedId, netappId, networkServiceId, description, only := hv.only }) ?_
  simp only [List.forall_mem_cons]
  tauto

/-- A setup is read as its rule allows. -/
theorem Setup.agrees : Agrees (Rule.dict [
      ("deployments", deploymentsRule.required),
      ("testcases", testcasesRule.required),
      ("metrics_collection", metricsBlocksRule)])
    Setup.ofValue? Setup.IsIn := by
  refine Agrees.record fun v hv => ?_
  have hdeployments := Deployment.agrees.required.require "deployments" hv (by simp) rfl
  have htestcases := Testcase.agrees.required.require "testcases" hv (by simp) rfl
  have hmetrics := MetricsBlock.agrees.optional "metrics_collection" hv (by simp)
  refine ReadsWhen.congr (hdeployments.bind fun _ deployments => htestcases.bind fun _ testcases =>
    hmetrics.bind fun _ metrics =>
      .of_some trivial { deployments, testcases, metrics, only := hv.only }) ?_
  simp

namespace Descriptor

/-- The rules of the phases. -/
def phaseRules : List (String × Rule) := [
  ("setup", (Rule.dict [
    ("deployments", deploymentsRule.required),
    ("testcases", testcasesRule.required),
    ("metrics_collection", metricsBlocksRule)]).required),
  ("execution", executionRule.required)]

/-- The rules of the sections. -/
def sectionRules : List (String × Rule) := [
  ("test_info", testInfoRule.required),
  ("test_phases", testPhasesRule.required),
  ("metrics_collection", metricsJobsRule),
  ("log_collection", logCollectionRule)]

/-- A descriptor is read from its test information and its phases. -/
theorem ofValue?_of_phases {v phases : Value} (hphases : v.field? "test_phases" = some phases) :
    ofValue? v = do
      let info ← v.require "test_info" TestInfo.ofValue?
      let setup ← phases.require "setup" Setup.ofValue?
      let execution ← phases.require "execution" (Value.itemsBy? Batch.ofValue?)
      return { info, setup, execution } := by
  rw [ofValue?, hphases]
  rfl

/-- The sections of a document that a descriptor leaves out hold no identifier. -/
theorem sections_inRange_iff {v phases : Value} (hphases : v.field? "test_phases" = some phases)
    (hdict : phases.HasOnly (phaseRules.map (·.1))) :
    (∀ f ∈ sectionRules, FieldInRange v f) ↔
      FieldInRange v ("test_info", testInfoRule.required) ∧ ∀ f ∈ phaseRules,
        FieldInRange phases f := by
  obtain ⟨entries, rfl, -⟩ := hdict
  have hleft (rule : Rule) (hrule : integerPaths rule = []) (name : String) :
      FieldInRange v (name, rule) :=
    fun w _ => inRange_of_integerPaths_eq_nil hrule w
  have hinside : FieldInRange v ("test_phases", testPhasesRule.required) ↔ ∀ f ∈ phaseRules,
      FieldInRange _ f :=
    (fieldInRange_iff hphases).trans (inRange_dict_iff _ entries)
  simp [sectionRules, hinside, hleft metricsJobsRule rfl, hleft logCollectionRule rfl]

/-- A descriptor is read as its rule allows. -/
theorem agrees : Agrees descriptorRule ofValue? IsIn := by
  refine Agrees.required (Agrees.record fun v hv => ?_)
  obtain ⟨phases, hphases⟩ := hv.required ("test_phases", testPhasesRule.required) (by simp) rfl
  have hfollows := (hv.conforms _ (by simp) phases hphases).follows rfl
  have hinfo := TestInfo.agrees.required.require "test_info" hv (by simp) rfl
  have hsetup := Setup.agrees.required.require "setup" hfollows (by simp) rfl
  have hexecution := Batch.agrees.required.require "execution" hfollows (by simp) rfl
  rw [ofValue?_of_phases hphases]
  refine ReadsWhen.congr (hinfo.bind fun _ info => hsetup.bind fun _ setup =>
    hexecution.bind fun _ execution => .of_some trivial
    { info, phases := ⟨phases, hphases, setup, execution, hfollows.only⟩ }) ?_
  refine Iff.trans ?_ (sections_inRange_iff hphases hfollows.only).symm
  simp [phaseRules]

end Descriptor

/-! ## Documents -/

/-- What is inside a canonical tree is canonical. -/
theorem Value.Canonical.at {v w : Value} {path : List String} (h : v.Canonical)
    (hat : v.At path w) :
    w.Canonical := by
  induction hat with
  | here => exact h
  | @field v _ _ _ _ hvalue _ ih =>
    cases v with
    | dict entries => exact ih (h.of_lookup hvalue)
    | _ => exact nomatch hvalue
  | item hvalue _ ih => exact ih (Value.CanonicalItems.of_mem h hvalue)

namespace Descriptor

/-- The paths to the identifiers of a document. -/
def identifierPaths : List (List String) := [
  ["test_phases", "setup", "deployments", "deployment_id"],
  ["test_phases", "setup", "testcases", "testcase_id"],
  ["test_phases", "setup", "metrics_collection", "metrics_collection_id"],
  ["test_phases", "execution", "batch_id"],
  ["test_phases", "execution", "executions", "execution_id"],
  ["test_phases", "execution", "executions", "testcase_ids"]]

/-- The integers of a descriptor are its identifiers. -/
theorem integerPaths_descriptorRule : integerPaths descriptorRule = identifierPaths := rfl

/-- Whether some identifier of a document is greater than `2 ^ 63 - 1`, the greatest signed
integer of 64 bits. -/
def HasLargeIdentifier (document : Value) : Prop :=
  ∃ path ∈ identifierPaths, ∃ n : Int, document.At path (.int n) ∧ Word.greatest < n

/-- The integers of a document are at least the least identifier, so that only a great one can be
out of range. -/
theorem inRange_descriptorRule_iff {document : Value} (hdocument : document.Canonical) :
    InRange descriptorRule document ↔ ¬ HasLargeIdentifier document := by
  rw [InRange, integerPaths_descriptorRule, HasLargeIdentifier]
  simp only [not_exists, not_and, not_lt]
  refine forall₄_congr fun path _ n hat => ?_
  have hleast : Word.least ≤ n := (hdocument.at hat).1
  rw [Word.isSigned, Bool.and_eq_true, decide_eq_true_eq, decide_eq_true_eq]
  exact and_iff_right hleast

/-- A document without violations is read when its identifiers are in range. -/
theorem reads {document : Value} (h : checkDescriptor document = []) :
    ReadsWhen (InRange descriptorRule document) (ofValue? document) (·.IsIn document) :=
  agrees document ((check_eq_nil_iff _ _).mp h)

/-- The violations of a document are what is wrong with it. -/
theorem parse_of_violations {document : Value} (h : checkDescriptor document ≠ []) :
    parse document = .error (checkDescriptor document) := by
  unfold parse
  cases hviolations : checkDescriptor document with
  | nil => exact absurd hviolations h
  | cons _ _ => rfl

/-- A document without violations is read, or malformed. -/
theorem parse_of_not_violations {document : Value} (h : checkDescriptor document = []) :
    parse document = (ofValue? document).elim (.error [.malformed]) .ok := by
  rw [parse, h]

/-- A document is accepted when it has no violations and is read. -/
theorem parse_eq_ok_iff {document : Value} {d : Descriptor} :
    parse document = .ok d ↔ checkDescriptor document = [] ∧ ofValue? document = some d := by
  by_cases hcheck : checkDescriptor document = []
  · rw [parse_of_not_violations hcheck, and_iff_right hcheck]
    cases ofValue? document <;> simp
  · rw [parse_of_violations hcheck]
    simp [hcheck]

/-- A descriptor holds exactly the data of the sections that it is read from. -/
theorem isIn_of_parse {document : Value} {d : Descriptor} (h : parse document = .ok d) :
    d.IsIn document := by
  obtain ⟨hcheck, hread⟩ := parse_eq_ok_iff.mp h
  exact ((reads hcheck).sound d hread).2

/-- The schema and the readers agree. A document with violations is refused with them. Of the
others, one that has an identifier out of range is malformed as a whole, and any other is read as a
descriptor, which holds exactly the data of its sections. -/
theorem parse_outcome (document : Value) (hdocument : document.Canonical) :
    (checkDescriptor document ≠ [] → parse document = .error (checkDescriptor document)) ∧
    (checkDescriptor document = [] →
      (HasLargeIdentifier document →
        ∃ v : Violation,
          parse document = .error [v] ∧ v.fault = .malformed ∧ v.position.text = "<root>") ∧
      (¬ HasLargeIdentifier document → ∃ d : Descriptor, parse document = .ok d)) ∧
    ∀ d : Descriptor, parse document = .ok d → d.IsIn document := by
  refine ⟨parse_of_violations, fun hcheck => ⟨fun hlarge => ?_, fun hsmall => ?_⟩,
    fun d => isIn_of_parse⟩
  · have hread : ofValue? document = none := Option.eq_none_iff_forall_ne_some.mpr fun d hd =>
      (inRange_descriptorRule_iff hdocument).mp ((reads hcheck).sound d hd).1 hlarge
    refine ⟨.malformed, ?_, rfl, rfl⟩
    rw [parse_of_not_violations hcheck, hread, Option.elim_none]
  · obtain ⟨d, hread⟩ := (reads hcheck).succeeds ((inRange_descriptorRule_iff hdocument).mpr hsmall)
    refine ⟨d, ?_⟩
    rw [parse_of_not_violations hcheck, hread, Option.elim_some]

/-- A document that refers to one test, by the integer behind the greatest signed one. -/
def referringDocument : Value :=
  .dict [
    ("test_info", .dict [
      ("netapp_id", .str "netapp"),
      ("network_service_id", .str "ns"),
      ("testbed_id", .str "testbed")]),
    ("test_phases", .dict [
      ("execution", .list [.dict [
        ("batch_id", .int 1),
        ("executions", .list [.dict [
          ("execution_id", .int 1),
          ("testcase_ids", .list [.int (Word.greatest + 1)])]]),
        ("scope", .str "all")]]),
      ("setup", .dict [("deployments", .list []), ("testcases", .list [])])])]

/-- The document of references is canonical. -/
theorem referringDocument_canonical : referringDocument.Canonical := by
  simp only [referringDocument, Value.Canonical, Value.CanonicalItems, Value.CanonicalEntries,
    and_true]
  decide

/-- That number is an integer for the schema, and out of range for an identifier. -/
theorem parse_outcome_referring :
    referringDocument.Canonical ∧ checkDescriptor referringDocument = [] ∧
      HasLargeIdentifier referringDocument ∧
      ∃ v : Violation, parse referringDocument = .error [v] ∧ v.fault = .malformed ∧
        v.position.text = "<root>" := by
  have hlarge : HasLargeIdentifier referringDocument := by
    refine ⟨["test_phases", "execution", "executions", "testcase_ids"], by decide,
      Word.greatest + 1, ?_, by decide⟩
    exact .field rfl (.field rfl (.item List.mem_cons_self (.field rfl (.item List.mem_cons_self
      (.field rfl (.item List.mem_cons_self (.here _)))))))
  exact ⟨referringDocument_canonical, by decide, hlarge,
    ((parse_outcome _ referringDocument_canonical).2.1 (by decide)).1 hlarge⟩

end Descriptor
end PipelineManager
