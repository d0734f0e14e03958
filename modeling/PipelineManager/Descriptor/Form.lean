import PipelineManager.Schema.Check
import PipelineManager.Descriptor.Basic
import PipelineManager.Document.Field
import PipelineManager.Document.Yaml.Reading

/-!
# The form of a descriptor document

The schema of descriptor documents, the tree that a descriptor is written as, and the descriptor
that a tree is read as. `Descriptor.parse` reads a tree that the schema accepts.
-/

namespace PipelineManager

open Schema

/-- The pattern of test names. -/
def testName : Pattern := ⟨testNamePattern, isTestName⟩

/-- A list of parameters. -/
def parametersRule : Rule :=
  .listOf (.dict [("key", Rule.string.required), ("value", Rule.any.required)])

/-- The section that says what the descriptor is about. -/
def testInfoRule : Rule :=
  .dict [
    ("netapp_id", Rule.string.required),
    ("network_service_id", Rule.string.required),
    ("testbed_id", Rule.string.required),
    ("description", .string)]

/-- The declared deployments. -/
def deploymentsRule : Rule :=
  .listOf (.dict [
    ("deployment_id", Rule.integer.required),
    ("name", Rule.string.required),
    ("descriptor", Rule.string.required),
    ("id", Rule.string.required),
    ("parameters", parametersRule)])

/-- The declared tests. -/
def testcasesRule : Rule :=
  .listOf (.dict [
    ("testcase_id", Rule.integer.required),
    ("name", Rule.string.required.matching testName),
    ("description", .string),
    ("type", Rule.string.required.allowing TestKind.names),
    ("scope", Rule.string.required),
    ("parameters", parametersRule)])

/-- The metrics blocks of the setup. -/
def metricsBlocksRule : Rule :=
  .listOf (.dict [
    ("metrics_collection_id", Rule.integer.required),
    ("description", .string),
    ("parameters", parametersRule.required)])

/-- The batches of executions. -/
def executionRule : Rule :=
  .listOf (.dict [
    ("batch_id", Rule.integer.required),
    ("scope", Rule.string.required),
    ("executions", (Rule.listOf (.dict [
      ("execution_id", Rule.integer.required),
      ("name", .string),
      ("testcase_ids", (Rule.listOf .integer).required)])).required)])

/-- Setup and execution. -/
def testPhasesRule : Rule :=
  .dict [
    ("setup", (Rule.dict [
      ("deployments", deploymentsRule.required),
      ("testcases", testcasesRule.required),
      ("metrics_collection", metricsBlocksRule)]).required),
    ("execution", executionRule.required)]

/-- Dashboards of metrics, which another service provisions. -/
def metricsJobsRule : Rule :=
  .listOf (.dict [
    ("job_name", Rule.string.required),
    ("metrics_collection", (Rule.listOf (.dict [
      ("type", Rule.string.required),
      ("collection_endpoint", Rule.string.required)])).required),
    ("viewer", .dict [
      ("type", Rule.string.required),
      ("dashboard_src", .string),
      ("name_for_dashboard", .string)])])

/-- Log collection, which another service provisions. -/
def logCollectionRule : Rule :=
  .listOf (.dict [
    ("test_agent_name", Rule.string.required),
    ("type", Rule.string.required),
    ("viewer", .string)])

/-- The schema of descriptor documents. -/
def descriptorRule : Rule :=
  Rule.required (.dict [
    ("test_info", testInfoRule.required),
    ("test_phases", testPhasesRule.required),
    ("metrics_collection", metricsJobsRule),
    ("log_collection", logCollectionRule)])

/-- The violations of the descriptor schema in a document. -/
def checkDescriptor (document : Value) : List Violation := check descriptorRule document

namespace Parameter

/-- Reads a parameter. -/
def ofValue? (v : Value) : Option Parameter := do
  return { key := ← v.require "key" Value.text?, value := ← v.require "value" some }

/-- The tree of a parameter. -/
def toValue (p : Parameter) : Value := .dict [("key", .str p.key), ("value", p.value)]

end Parameter

namespace Testcase

/-- Reads a declared test. -/
def ofValue? (v : Value) : Option Testcase := do
  return {
    id := ← v.require "testcase_id" Value.id?
    name := ← v.require "name" Value.text?
    kind := ← v.require "type" fun k => k.text?.bind TestKind.ofName?
    scope := ← v.require "scope" Value.text?
    description := ← v.optional? "description" Value.text?
    parameters := ← v.itemsOrNone? "parameters" Parameter.ofValue? }

/-- The tree of a declared test. -/
def toValue (t : Testcase) : Value :=
  .dict (Value.textEntry "description" t.description ++ [
    ("name", .str t.name),
    ("parameters", .list (t.parameters.map Parameter.toValue)),
    ("scope", .str t.scope),
    ("testcase_id", .int t.id),
    ("type", .str t.kind.name)])

end Testcase

namespace Deployment

/-- Reads a deployment. -/
def ofValue? (v : Value) : Option Deployment := do
  return {
    deploymentId := ← v.require "deployment_id" Value.id?
    name := ← v.require "name" Value.text?
    descriptor := ← v.require "descriptor" Value.text?
    id := ← v.require "id" Value.text?
    parameters := ← v.itemsOrNone? "parameters" Parameter.ofValue? }

/-- The tree of a deployment. -/
def toValue (d : Deployment) : Value :=
  .dict [
    ("deployment_id", .int d.deploymentId),
    ("descriptor", .str d.descriptor),
    ("id", .str d.id),
    ("name", .str d.name),
    ("parameters", .list (d.parameters.map Parameter.toValue))]

end Deployment

namespace MetricsBlock

/-- Reads a metrics block. -/
def ofValue? (v : Value) : Option MetricsBlock := do
  return {
    id := ← v.require "metrics_collection_id" Value.id?
    description := ← v.optional? "description" Value.text?
    parameters := ← v.require "parameters" (Value.itemsBy? Parameter.ofValue?) }

/-- The tree of a metrics block. -/
def toValue (m : MetricsBlock) : Value :=
  .dict (Value.textEntry "description" m.description ++ [
    ("metrics_collection_id", .int m.id),
    ("parameters", .list (m.parameters.map Parameter.toValue))])

end MetricsBlock

namespace Execution

/-- Reads an execution. -/
def ofValue? (v : Value) : Option Execution := do
  return {
    id := ← v.require "execution_id" Value.id?
    name := ← v.optional? "name" Value.text?
    testcaseIds := ← v.itemsOrNone? "testcase_ids" Value.id? }

/-- The tree of an execution. -/
def toValue (e : Execution) : Value :=
  .dict ([("execution_id", .int e.id)] ++ Value.textEntry "name" e.name ++
    [("testcase_ids", .list (e.testcaseIds.map .int))])

end Execution

namespace Batch

/-- Reads a batch. -/
def ofValue? (v : Value) : Option Batch := do
  return {
    id := ← v.require "batch_id" Value.id?
    scope := ← v.require "scope" Value.text?
    executions := ← v.require "executions" (Value.itemsBy? Execution.ofValue?) }

/-- The tree of a batch. -/
def toValue (b : Batch) : Value :=
  .dict [
    ("batch_id", .int b.id),
    ("executions", .list (b.executions.map Execution.toValue)),
    ("scope", .str b.scope)]

end Batch

namespace TestInfo

/-- Reads what a descriptor says about itself. -/
def ofValue? (v : Value) : Option TestInfo := do
  return {
    testbedId := ← v.require "testbed_id" Value.text?
    netappId := ← v.require "netapp_id" Value.text?
    networkServiceId := ← v.require "network_service_id" Value.text?
    description := ← v.optional? "description" Value.text? }

/-- The tree of what a descriptor says about itself. -/
def toValue (i : TestInfo) : Value :=
  .dict (Value.textEntry "description" i.description ++ [
    ("netapp_id", .str i.netappId),
    ("network_service_id", .str i.networkServiceId),
    ("testbed_id", .str i.testbedId)])

end TestInfo

namespace Setup

/-- Reads the declarations. -/
def ofValue? (v : Value) : Option Setup := do
  return {
    deployments := ← v.require "deployments" (Value.itemsBy? Deployment.ofValue?)
    testcases := ← v.require "testcases" (Value.itemsBy? Testcase.ofValue?)
    metrics := ← v.optional? "metrics_collection" (Value.itemsBy? MetricsBlock.ofValue?) }

/-- The tree of the declarations. -/
def toValue (s : Setup) : Value :=
  let metrics := match s.metrics with
    | some blocks => [("metrics_collection", Value.list (blocks.map MetricsBlock.toValue))]
    | none => []
  .dict ([("deployments", Value.list (s.deployments.map Deployment.toValue))] ++ metrics ++
    [("testcases", Value.list (s.testcases.map Testcase.toValue))])

end Setup

namespace Descriptor

/-- Reads the sections of a descriptor that the manager acts on. -/
def ofValue? (v : Value) : Option Descriptor := do
  let phases ← v.field? "test_phases"
  return {
    info := ← v.require "test_info" TestInfo.ofValue?
    setup := ← phases.require "setup" Setup.ofValue?
    execution := ← phases.require "execution" (Value.itemsBy? Batch.ofValue?) }

/-- The tree of a descriptor. -/
def toValue (d : Descriptor) : Value :=
  .dict [
    ("test_info", d.info.toValue),
    ("test_phases", .dict [
      ("execution", .list (d.execution.map Batch.toValue)),
      ("setup", d.setup.toValue)])]

/-- The descriptor of a document, or the violations that keep it from being one. A document that
follows the schema and has an identifier out of range is malformed as a whole. -/
def parse (document : Value) : Except (List Violation) Descriptor :=
  match checkDescriptor document with
  | [] => (ofValue? document).elim (.error [.malformed]) .ok
  | violations => .error violations

/-- The descriptor of a YAML text. JSON is YAML. -/
def parseYaml (text : String) : Except (List Violation) Descriptor :=
  match Yaml.read? text with
  | some document => parse document
  | none => .error [.malformed]

end Descriptor
end PipelineManager
