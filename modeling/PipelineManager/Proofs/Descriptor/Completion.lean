import PipelineManager.Proofs.Descriptor.Writing

/-!
# What a descriptor is written as

A descriptor that was read from a document is written as the completed document: the two sections
that the manager acts on, in which every declared test and every deployment has a list of
parameters. Both trees have their keys in order, so that it is enough to compare what they hold
under each key.
-/

namespace PipelineManager

open Value (Present Lists ListsIfPresent HasOnly)

/-! ## Trees compared by their fields -/

namespace Value

variable {names : List String} {v w : Value} {key : String}

/-- A canonical tree with no fields but the named ones is a record of them. -/
theorem Canonical.isRecord (h : v.Canonical) (honly : v.HasOnly names) : v.IsRecord names := by
  refine ⟨honly, ?_⟩
  obtain ⟨entries, rfl, -⟩ := honly
  exact ⟨entries, rfl, h.1⟩

/-- A field that is not among the named ones is not there. -/
theorem HasOnly.field?_eq_none (h : v.HasOnly names) (hkey : key ∉ names) :
    v.field? key = none := by
  obtain ⟨entries, rfl, honly⟩ := h
  exact lookup_eq_none_iff.mpr fun e he heq => hkey (heq ▸ honly e he)

/-- Two records of the same keys are equal if they hold the same under each of them. -/
theorem IsRecord.ext (hv : v.IsRecord names) (hw : w.IsRecord names)
    (hfields : ∀ key ∈ names, v.field? key = w.field? key) : v = w := by
  obtain ⟨entries, rfl, hentries⟩ := hv.ordered
  obtain ⟨entries', rfl, hentries'⟩ := hw.ordered
  refine congrArg dict (entries_ext hentries hentries' fun key => ?_)
  by_cases hkey : key ∈ names
  · exact hfields key hkey
  · exact (hv.only.field?_eq_none hkey).trans (hw.only.field?_eq_none hkey).symm

/-- What a field of a canonical tree holds is canonical. -/
theorem Canonical.of_field? (h : v.Canonical) (hfield : v.field? key = some w) : w.Canonical := by
  cases v with
  | dict entries => exact h.of_lookup hfield
  | _ => cases hfield

end Value

/-! ## Completing a tree -/

section Completes

variable {α : Type} {complete : Value → Value} {isIn : α → Value → Prop} {write : α → Value}

/-- A canonical tree that holds something is, once completed, what is written of it. -/
def Completes (complete : Value → Value) (isIn : α → Value → Prop) (write : α → Value) : Prop :=
  ∀ x v, v.Canonical → isIn x v → complete v = write x

/-- A canonical tree that holds something is what is written of it. -/
def Spells (isIn : α → Value → Prop) (write : α → Value) : Prop :=
  ∀ x v, v.Canonical → isIn x v → v = write x

namespace Completes

/-- What completes the items of a list completes the list. -/
theorem list (h : Completes complete isIn write) :
    Completes (Value.mapItems complete) (fun xs v => v.Lists isIn xs) (listTree write) := by
  rintro xs v hv ⟨items, rfl, hitems⟩
  refine congrArg Value.list ?_
  have hcanonical : ∀ v ∈ items, v.Canonical := Value.canonicalItems_iff.mp hv
  clear hv
  induction hitems with
  | nil => rfl
  | cons hx _ ih =>
    obtain ⟨hfirst, hrest⟩ := List.forall_mem_cons.mp hcanonical
    rw [List.map_cons, List.map_cons, h _ _ hfirst hx, ih hrest]

variable {v : Value} {name : String}

/-- What completes a node completes it as a field that must be there. -/
theorem present (h : Completes complete isIn write) (hv : v.Canonical) {x : α}
    (hx : Present isIn x (v.field? name)) : (v.field? name).map complete = some (write x) := by
  obtain ⟨w, hw, hx⟩ := hx
  rw [hw, Option.map_some, h x w (hv.of_field? hw) hx]

end Completes

namespace Spells

/-- What spells the items of a list spells the list. -/
theorem list (h : Spells isIn write) : Spells (fun xs v => v.Lists isIn xs) (listTree write) := by
  rintro xs v hv ⟨items, rfl, hitems⟩
  have hcompletes : Completes id isIn write := h
  have hlist := hcompletes.list xs _ hv ⟨items, rfl, hitems⟩
  rwa [Value.mapItems, List.map_id] at hlist

variable {v : Value} {name : String}

/-- What spells a node spells it as a field that must be there. -/
theorem present (h : Spells isIn write) (hv : v.Canonical) {x : α}
    (hx : Present isIn x (v.field? name)) :
    v.field? name = some (write x) := by
  obtain ⟨w, hw, hx⟩ := hx
  rw [hw, ← h x w (hv.of_field? hw) hx]

/-- What spells a node spells it as a field that may be absent. -/
theorem optional (h : Spells isIn write) (hv : v.Canonical) {x : Option α}
    (hx : Option.Rel isIn x (v.field? name)) : v.field? name = x.map write := by
  cases hw : v.field? name with
  | none =>
    rw [hw] at hx
    cases hx
    rfl
  | some w =>
    rw [hw] at hx
    cases hx with
    | some hx => rw [Option.map_some, ← h _ w (hv.of_field? hw) hx]

/-- A list that may be absent is an empty list then. -/
theorem orEmpty (h : Spells isIn write) (hv : v.Canonical) {xs : List α}
    (hxs : ListsIfPresent isIn xs (v.field? name)) :
    (v.field? name).getD (.list []) = listTree write xs := by
  cases hw : v.field? name with
  | none =>
    rw [hw] at hxs
    obtain rfl : xs = [] := hxs
    rfl
  | some w =>
    rw [hw] at hxs
    exact h.list xs w (hv.of_field? hw) hxs

end Spells
end Completes

/-- A text is spelled in one way. -/
theorem text_spells : Spells textIsIn .str := fun _ _ _ h => h

/-- The name of a test is spelled in one way. -/
theorem name_spells : Spells nameIsIn .str := fun _ _ _ h => h.1

/-- A kind of test is spelled in one way. -/
theorem kind_spells : Spells kindIsIn TestKind.toValue := fun _ _ _ h => h

/-- An identifier is spelled in one way. -/
theorem id_spells : Spells idIsIn .int := fun _ _ _ h => h

/-- What may be anything is spelled as it is. -/
theorem any_spells : Spells (fun w u => u = w) id := fun _ _ _ h => h

/-! ## Records -/

/-- A parameter is spelled in one way. -/
theorem Parameter.spells : Spells Parameter.IsIn Parameter.toValue := fun p v hv h => by
  obtain ⟨fkey, fvalue⟩ := p.field?_toValue
  refine (hv.isRecord h.only).ext p.isRecord_toValue ?_
  simp only [List.forall_mem_cons]
  exact ⟨(text_spells.present hv h.key).trans fkey.symm,
    (any_spells.present hv h.value).trans fvalue.symm, List.forall_mem_nil _⟩

/-- Puts an empty list of parameters into a record that has none. -/
def Value.withParameters (v : Value) : Value := v.withList "parameters"

section Parameters

variable {names : List String} {v : Value} {key : String}

/-- A canonical tree stays canonical when it gets a list of parameters. -/
theorem Value.Canonical.withParameters (hv : v.Canonical) : v.withParameters.Canonical :=
  hv.withList "parameters"

/-- A tree that may have parameters has no further fields when it gets a list of them. -/
theorem Value.HasOnly.withParameters (h : v.HasOnly names) (hv : v.Canonical)
    (hparameters : "parameters" ∈ names) :
    v.withParameters.HasOnly names := by
  obtain ⟨entries, rfl, honly⟩ := h
  rw [Value.withParameters, Value.withList]
  split
  · exact ⟨entries, rfl, honly⟩
  · refine ⟨_, rfl, fun e he => ?_⟩
    rcases (Value.mem_insert_iff hv.1 "parameters" (.list []) e).mp he with rfl | ⟨he, -⟩
    · exact hparameters
    · exact honly e he

/-- The parameters are those that were there, or none. -/
theorem Value.field?_withParameters (h : v.HasOnly names) (hv : v.Canonical) :
    v.withParameters.field? "parameters" = some ((v.field? "parameters").getD (.list [])) := by
  obtain ⟨entries, rfl, -⟩ := h
  rw [Value.withParameters, Value.field?_withList hv, if_pos rfl]
  rfl

/-- The other fields are as before. -/
theorem Value.field?_withParameters_of_ne (h : v.HasOnly names) (hv : v.Canonical)
    (hkey : key ≠ "parameters") :
    v.withParameters.field? key = v.field? key := by
  obtain ⟨entries, rfl, -⟩ := h
  rw [Value.withParameters, Value.field?_withList hv, if_neg hkey]
  rfl

end Parameters

/-- A test is spelled in one way when it has a list of parameters. -/
theorem Testcase.completes :
    Completes Value.withParameters Testcase.IsIn Testcase.toValue := fun t v hv h => by
  obtain ⟨fid, fname, fkind, fscope, fdescription, fparameters⟩ := t.field?_toValue
  refine (hv.withParameters.isRecord (h.only.withParameters hv (by simp))).ext t.isRecord_toValue ?_
  have hparameters := Parameter.spells.orEmpty hv h.parameters
  simp only [List.forall_mem_cons]
  rw [Value.field?_withParameters h.only hv, hparameters, fparameters, fid, fname, fkind, fscope,
    fdescription]
  refine ⟨?_, ?_, ?_, ?_, ?_, rfl, List.forall_mem_nil _⟩
  all_goals rw [Value.field?_withParameters_of_ne h.only hv (by simp)]
  · exact id_spells.present hv h.id
  · exact name_spells.present hv h.name
  · exact text_spells.optional hv h.description
  · exact kind_spells.present hv h.kind
  · exact text_spells.present hv h.scope

/-- A deployment is spelled in one way when it has a list of parameters. -/
theorem Deployment.completes :
    Completes Value.withParameters Deployment.IsIn Deployment.toValue := fun d v hv h => by
  obtain ⟨fdeploymentId, fname, fdescriptor, fid, fparameters⟩ := d.field?_toValue
  refine (hv.withParameters.isRecord (h.only.withParameters hv (by simp))).ext d.isRecord_toValue ?_
  have hparameters := Parameter.spells.orEmpty hv h.parameters
  simp only [List.forall_mem_cons]
  rw [Value.field?_withParameters h.only hv, hparameters, fparameters, fdeploymentId, fname,
    fdescriptor, fid]
  refine ⟨?_, ?_, ?_, ?_, rfl, List.forall_mem_nil _⟩
  all_goals rw [Value.field?_withParameters_of_ne h.only hv (by simp)]
  · exact id_spells.present hv h.deploymentId
  · exact text_spells.present hv h.name
  · exact text_spells.present hv h.descriptor
  · exact text_spells.present hv h.id

/-- A metrics block is spelled in one way. -/
theorem MetricsBlock.spells : Spells MetricsBlock.IsIn MetricsBlock.toValue := fun m v hv h => by
  obtain ⟨fid, fdescription, fparameters⟩ := m.field?_toValue
  refine (hv.isRecord h.only).ext m.isRecord_toValue ?_
  simp only [List.forall_mem_cons]
  rw [fid, fdescription, fparameters]
  exact ⟨id_spells.present hv h.id, text_spells.optional hv h.description,
    Parameter.spells.list.present hv h.parameters, List.forall_mem_nil _⟩

/-- An execution is spelled in one way. -/
theorem Execution.spells : Spells Execution.IsIn Execution.toValue := fun e v hv h => by
  obtain ⟨fid, fname, ftestcaseIds⟩ := e.field?_toValue
  refine (hv.isRecord h.only).ext e.isRecord_toValue ?_
  simp only [List.forall_mem_cons]
  rw [fid, fname, ftestcaseIds]
  exact ⟨id_spells.present hv h.id, text_spells.optional hv h.name,
    id_spells.list.present hv h.testcaseIds, List.forall_mem_nil _⟩

/-- A batch is spelled in one way. -/
theorem Batch.spells : Spells Batch.IsIn Batch.toValue := fun b v hv h => by
  obtain ⟨fid, fscope, fexecutions⟩ := b.field?_toValue
  refine (hv.isRecord h.only).ext b.isRecord_toValue ?_
  simp only [List.forall_mem_cons]
  rw [fid, fscope, fexecutions]
  exact ⟨id_spells.present hv h.id, text_spells.present hv h.scope,
    Execution.spells.list.present hv h.executions, List.forall_mem_nil _⟩

/-- The test information is spelled in one way. -/
theorem TestInfo.spells : Spells TestInfo.IsIn TestInfo.toValue := fun i v hv h => by
  obtain ⟨ftestbedId, fnetappId, fnetworkServiceId, fdescription⟩ := i.field?_toValue
  refine (hv.isRecord h.only).ext i.isRecord_toValue ?_
  simp only [List.forall_mem_cons]
  rw [ftestbedId, fnetappId, fnetworkServiceId, fdescription]
  exact ⟨text_spells.present hv h.netappId, text_spells.present hv h.networkServiceId,
    text_spells.present hv h.testbedId, text_spells.optional hv h.description,
    List.forall_mem_nil _⟩

/-! ## Sections -/

/-- A change of one field adds no other. -/
theorem Value.HasOnly.modify {names : List String} {v : Value} (h : v.HasOnly names) (key : String)
    (f : Value → Value) : (v.modify key f).HasOnly names := by
  obtain ⟨entries, rfl, honly⟩ := h
  refine ⟨_, rfl, fun e he => ?_⟩
  obtain ⟨e, hmem, rfl⟩ := List.mem_map.mp he
  split <;> exact honly e hmem

/-- A tree that keeps some fields has no others. -/
theorem Value.hasOnly_keep {v w : Value} {key : String} (hfield : v.field? key = some w)
    (names : List String) :
    (v.keep names).HasOnly names := by
  cases v with
  | dict entries => exact ⟨_, rfl, fun e he => by simpa using List.of_mem_filter he⟩
  | _ => cases hfield

/-- Completes the declarations: every declared test and every deployment gets a list of
parameters. -/
def Value.completeSetup (setup : Value) : Value :=
  (setup.modify "testcases" (Value.mapItems Value.withParameters)).modify "deployments"
    (Value.mapItems Value.withParameters)

/-- A canonical list stays canonical when its items get lists of parameters. -/
theorem Value.Canonical.mapWithParameters {v : Value} (hv : v.Canonical) :
    (v.mapItems Value.withParameters).Canonical :=
  hv.mapItems fun _ hw => hw.withParameters

/-- A canonical setup stays canonical when it is completed. -/
theorem Value.Canonical.completeSetup {v : Value} (hv : v.Canonical) : v.completeSetup.Canonical :=
  (hv.modify "testcases" fun _ hw => hw.mapWithParameters).modify "deployments" fun _ hw =>
    hw.mapWithParameters

/-- A setup is spelled in one way when it is completed. -/
theorem Setup.completes :
    Completes Value.completeSetup Setup.IsIn Setup.toValue := fun s v hv h => by
  obtain ⟨fdeployments, ftestcases, fmetrics⟩ := s.field?_toValue
  have honly :=
    (h.only.modify "testcases" (Value.mapItems Value.withParameters)).modify "deployments"
    (Value.mapItems Value.withParameters)
  refine (hv.completeSetup.isRecord honly).ext s.isRecord_toValue ?_
  simp only [List.forall_mem_cons, Value.completeSetup, Value.field?_modify]
  rw [fdeployments, ftestcases, fmetrics]
  exact ⟨Deployment.completes.list.present hv h.deployments,
    Testcase.completes.list.present hv h.testcases,
    MetricsBlock.spells.list.optional hv h.metrics, List.forall_mem_nil _⟩

namespace Descriptor

/-- The phases with completed declarations. -/
def completePhases (phases : Value) : Value := phases.modify "setup" Value.completeSetup

/-- The document cut down to the sections that the manager acts on, with an empty list of parameters
wherever a declared test or a deployment had none. -/
def completed (document : Value) : Value :=
  (document.keep ["test_info", "test_phases"]).modify "test_phases" completePhases

/-- Canonical test phases stay canonical when they are completed. -/
theorem completePhases_canonical {phases : Value} (h : phases.Canonical) :
    (completePhases phases).Canonical :=
  h.modify _ fun _ hsetup => hsetup.completeSetup

/-- A canonical document stays canonical when it is completed. -/
theorem completed_canonical {document : Value} (h : document.Canonical) :
    (completed document).Canonical :=
  (h.keep _).modify _ fun _ hphases => completePhases_canonical hphases

/-- A descriptor is spelled in one way by its document when that is completed. -/
theorem completes : Completes completed IsIn toValue := fun d document hdocument h => by
  obtain ⟨finfo, fphases⟩ := d.field?_toValue
  obtain ⟨phases, hphases, hsetup, hexecution, honly⟩ := h.phases
  have hcanonical := hdocument.of_field? hphases
  have hwritten : completePhases phases = phasesTree d.setup d.execution := by
    obtain ⟨fsetup, fexecution⟩ := field?_phasesTree d.setup d.execution
    refine ((completePhases_canonical hcanonical).isRecord (honly.modify _ _)).ext
      (isRecord_phasesTree d.setup d.execution) ?_
    simp only [List.forall_mem_cons, completePhases, Value.field?_modify]
    rw [fsetup, fexecution]
    exact ⟨Setup.completes.present hcanonical hsetup,
      Batch.spells.list.present hcanonical hexecution, List.forall_mem_nil _⟩
  refine ((completed_canonical hdocument).isRecord ((Value.hasOnly_keep hphases _).modify _ _)).ext
    d.isRecord_toValue ?_
  simp only [List.forall_mem_cons, completed, Value.field?_modify, Value.field?_keep]
  rw [finfo, fphases, hphases, ← hwritten]
  exact ⟨TestInfo.spells.present hdocument h.info, rfl, List.forall_mem_nil _⟩

/-- A descriptor that was read is written as a document that follows the schema and is read as the
same descriptor. It is the completed document that the descriptor was read from. -/
theorem toValue_of_parse {document : Value} {d : Descriptor} (h : parse document = .ok d) :
    checkDescriptor d.toValue = [] ∧ parse d.toValue = .ok d ∧
      (document.Canonical → d.toValue.Canonical ∧ d.toValue = completed document) := by
  obtain ⟨hcheck, hagain⟩ := parse_toValue h
  refine ⟨hcheck, hagain, fun hdocument => ?_⟩
  have hcompleted : completed document = d.toValue :=
    completes d document hdocument (isIn_of_parse h)
  exact ⟨hcompleted ▸ completed_canonical hdocument, hcompleted.symm⟩

/-- A document with a section for another service, and with a declared test and a deployment that
have no parameters. -/
def sparseDocument : Value :=
  .dict [
    ("log_collection", .list []),
    ("test_info", .dict [
      ("netapp_id", .str "netapp"),
      ("network_service_id", .str "ns"),
      ("testbed_id", .str "testbed")]),
    ("test_phases", .dict [
      ("execution", .list []),
      ("setup", .dict [
        ("deployments", .list [.dict [
          ("deployment_id", .int 1),
          ("descriptor", .str "vnf"),
          ("id", .str "a"),
          ("name", .str "first")]]),
        ("testcases", .list [.dict [
          ("name", .str "ping"),
          ("scope", .str "all"),
          ("testcase_id", .int 7),
          ("type", .str "predefined")]])])])]

/-- What is read from that document. -/
def sparse : Descriptor where
  info := ⟨"testbed", "netapp", "ns", none⟩
  setup := ⟨[⟨1, "first", "vnf", "a", []⟩], [⟨7, "ping", .predefined, "all", none, []⟩], none⟩
  execution := []

/-- The sparse document is accepted, and written again with the lists that it leaves out. -/
theorem toValue_of_parse_sparse :
    parse sparseDocument = .ok sparse ∧ checkDescriptor sparse.toValue = [] ∧
      parse sparse.toValue = .ok sparse ∧
      sparse.toValue.Canonical ∧ sparse.toValue = completed sparseDocument := by
  have hparse : parse sparseDocument = .ok sparse := parse_eq_ok_iff.mpr ⟨by decide, rfl⟩
  have hcanonical : sparseDocument.Canonical := by
    simp only [sparseDocument, Value.Canonical, Value.CanonicalItems, Value.CanonicalEntries,
      and_true]
    decide
  obtain ⟨hcheck, hagain, hwritten⟩ := toValue_of_parse hparse
  exact ⟨hparse, hcheck, hagain, hwritten hcanonical⟩

end Descriptor
end PipelineManager
