import Mathlib.Data.List.Forall2
import PipelineManager.Descriptor.Form

/-!
# What a tree says of a descriptor

For each record of a descriptor, `IsIn` says that a tree holds exactly its data: every field of the
record stands under its name, a part that the record lacks is absent, and there is no other key.
Lists agree item by item.
-/

namespace PipelineManager

namespace Value

/-- A tree that is a dictionary with no key but the given ones. -/
def HasOnly (names : List String) (v : Value) : Prop :=
  ∃ entries, v = .dict entries ∧ ∀ e ∈ entries, e.1 ∈ names

/-- A tree that is a list of the given things, in the same order and number. -/
def Lists {α : Type} (isIn : α → Value → Prop) (xs : List α) (v : Value) : Prop :=
  ∃ items, v = .list items ∧ List.Forall₂ isIn xs items

/-- A field that is present and holds something. -/
def Present {α : Type} (isIn : α → Value → Prop) (x : α) (field : Option Value) : Prop :=
  ∃ v, field = some v ∧ isIn x v

/-- A list field that is absent for the empty list of things, or lists them. -/
def ListsIfPresent {α : Type} (isIn : α → Value → Prop) (xs : List α) : Option Value → Prop
  | none => xs = []
  | some v => v.Lists isIn xs

end Value

/-- The tree is the text. -/
def textIsIn (s : String) (v : Value) : Prop := v = .str s

/-- The tree is the text, which is a test name. -/
def nameIsIn (s : String) (v : Value) : Prop := v = .str s ∧ isTestName s.toList = true

/-- The tree is the name of the kind. -/
def kindIsIn (k : TestKind) (v : Value) : Prop := v = .str k.name

/-- The tree is the identifier. -/
def idIsIn (n : Int) (v : Value) : Prop := v = .int n

/-- The tree of a parameter: its key as a text, and its value as it is. -/
structure Parameter.IsIn (p : Parameter) (v : Value) : Prop where
  key : Value.Present textIsIn p.key (v.field? "key")
  value : Value.Present (fun w u => u = w) p.value (v.field? "value")
  only : v.HasOnly ["key", "value"]

/-- The tree of a testcase. Its description and its parameters may be absent. -/
structure Testcase.IsIn (t : Testcase) (v : Value) : Prop where
  id : Value.Present idIsIn t.id (v.field? "testcase_id")
  name : Value.Present nameIsIn t.name (v.field? "name")
  kind : Value.Present kindIsIn t.kind (v.field? "type")
  scope : Value.Present textIsIn t.scope (v.field? "scope")
  description : Option.Rel textIsIn t.description (v.field? "description")
  parameters : Value.ListsIfPresent Parameter.IsIn t.parameters (v.field? "parameters")
  only : v.HasOnly ["testcase_id", "name", "description", "type", "scope", "parameters"]

/-- The tree of a deployment. Its parameters may be absent. -/
structure Deployment.IsIn (d : Deployment) (v : Value) : Prop where
  deploymentId : Value.Present idIsIn d.deploymentId (v.field? "deployment_id")
  name : Value.Present textIsIn d.name (v.field? "name")
  descriptor : Value.Present textIsIn d.descriptor (v.field? "descriptor")
  id : Value.Present textIsIn d.id (v.field? "id")
  parameters : Value.ListsIfPresent Parameter.IsIn d.parameters (v.field? "parameters")
  only : v.HasOnly ["deployment_id", "name", "descriptor", "id", "parameters"]

/-- The tree of a block of metrics. Its description may be absent. -/
structure MetricsBlock.IsIn (m : MetricsBlock) (v : Value) : Prop where
  id : Value.Present idIsIn m.id (v.field? "metrics_collection_id")
  description : Option.Rel textIsIn m.description (v.field? "description")
  parameters :
    Value.Present (fun ps w => w.Lists Parameter.IsIn ps) m.parameters (v.field? "parameters")
  only : v.HasOnly ["metrics_collection_id", "description", "parameters"]

/-- The tree of an execution. Its name may be absent. -/
structure Execution.IsIn (e : Execution) (v : Value) : Prop where
  id : Value.Present idIsIn e.id (v.field? "execution_id")
  name : Option.Rel textIsIn e.name (v.field? "name")
  testcaseIds :
    Value.Present (fun ids w => w.Lists idIsIn ids) e.testcaseIds (v.field? "testcase_ids")
  only : v.HasOnly ["execution_id", "name", "testcase_ids"]

/-- The tree of a batch. -/
structure Batch.IsIn (b : Batch) (v : Value) : Prop where
  id : Value.Present idIsIn b.id (v.field? "batch_id")
  scope : Value.Present textIsIn b.scope (v.field? "scope")
  executions :
    Value.Present (fun es w => w.Lists Execution.IsIn es) b.executions (v.field? "executions")
  only : v.HasOnly ["batch_id", "scope", "executions"]

/-- The tree of the general data. The description may be absent. -/
structure TestInfo.IsIn (i : TestInfo) (v : Value) : Prop where
  testbedId : Value.Present textIsIn i.testbedId (v.field? "testbed_id")
  netappId : Value.Present textIsIn i.netappId (v.field? "netapp_id")
  networkServiceId : Value.Present textIsIn i.networkServiceId (v.field? "network_service_id")
  description : Option.Rel textIsIn i.description (v.field? "description")
  only : v.HasOnly ["netapp_id", "network_service_id", "testbed_id", "description"]

/-- The tree of the setup. The blocks of metrics may be absent. -/
structure Setup.IsIn (s : Setup) (v : Value) : Prop where
  deployments :
    Value.Present (fun ds w => w.Lists Deployment.IsIn ds) s.deployments (v.field? "deployments")
  testcases : Value.Present (fun ts w => w.Lists Testcase.IsIn ts) s.testcases
    (v.field? "testcases")
  metrics : Option.Rel (fun ms w => w.Lists MetricsBlock.IsIn ms) s.metrics
    (v.field? "metrics_collection")
  only : v.HasOnly ["deployments", "testcases", "metrics_collection"]

/-- The sections of a document that a descriptor is made of. Other sections of the document are not
part of it. -/
structure Descriptor.IsIn (d : Descriptor) (document : Value) : Prop where
  info : Value.Present TestInfo.IsIn d.info (document.field? "test_info")
  phases : ∃ phases, document.field? "test_phases" = some phases ∧
    Value.Present Setup.IsIn d.setup (phases.field? "setup") ∧
    Value.Present (fun bs w => w.Lists Batch.IsIn bs) d.execution (phases.field? "execution") ∧
    phases.HasOnly ["setup", "execution"]

end PipelineManager
