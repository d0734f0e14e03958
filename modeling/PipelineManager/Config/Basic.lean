import PipelineManager.Catalogue.Basic
import PipelineManager.Number.Word
import PipelineManager.Text.Blank

/-!
# Configuration

Every setting has a default. A configuration document has one section for each group of settings;
sections and settings that are left out keep their defaults, and unknown ones are ignored.
A section may also be a list of its settings in order.
-/

namespace PipelineManager

/-- The settings of the manager. Time limits are in seconds. -/
structure Config where
  bind : String := "0.0.0.0:8000"
  managerUrl : String := "http://localhost:8000"
  databasePath : String := "data/cicd-manager.db"
  testsPath : String := "static/tests.yaml"
  testbedsPath : String := "static/testbeds.yaml"
  contractPath : String := "static/metrics_collection.yaml"
  probeTimeout : Nat := 5
  requestTimeout : Nat := 10
  metricsLocation : String := "http://localhost:8086"
  metricsDatabase : String := "metrics"
  templatePath : Option String := none
  robotVersion : String := "6.0.2"
  testModules : List String := ["robotframework==4.1.1", "paramiko==2.7.2", "python3-nmap==1.5.1"]
  metricsModules : List String := ["scp==0.14.1", "robotframework==4.1.1"]
  warehousePath : String := "warehouse"
  logLevel : String := "info"
  logJson : Bool := false
deriving DecidableEq, Repr, Inhabited

namespace Config

/-- The settings of a section in order, absent ones as none. -/
def section? (document : Value) (name : String) (keys : List String) :
    Option (List (Option Value)) :=
  match document.field? name with
  | none => some (keys.map fun _ => none)
  | some (.dict entries) => some (keys.map (Value.lookup entries))
  | some (.list items) => some ((List.range keys.length).map fun i => items[i]?)
  | some _ => none

/-- A setting, or its default when absent. -/
def setting {α : Type} (values : List (Option Value)) (place : Nat) (default : α)
    (read : Value → Option α) : Option α :=
  match values[place]?.join with
  | some v => read v
  | none => some default

/-- A time limit: a natural number below `2^64`. -/
def seconds? : Value → Option Nat
  | .int n => if Word.isUnsigned n then some n.toNat else none
  | _ => none

/-- An optional text. -/
def optionalText? : Value → Option (Option String)
  | .null => some none
  | .str s => some (some s)
  | _ => none

/-- Reads a configuration document. -/
def ofValue? (document : Value) : Option Config := do
  let d : Config := {}
  let server ← section? document "server" ["bind"]
  let manager ← section? document "manager" ["url"]
  let storage ← section? document "storage" ["db_path"]
  let catalogue ← section? document "catalogue"
    ["tests_path", "testbeds_path", "metrics_contract_path"]
  let agents ← section? document "agents" ["probe_timeout_secs", "request_timeout_secs"]
  let metrics ← section? document "metrics_repository" ["location", "database"]
  let pipeline ← section? document "pipeline"
    ["template_path", "robot_version", "test_python_modules", "metrics_python_modules"]
  let artifacts ← section? document "artifacts" ["warehouse_dir"]
  let logging ← section? document "logging" ["level", "json"]
  let texts := Value.itemsBy? Value.text?
  return {
    bind := ← setting server 0 d.bind Value.text?
    managerUrl := ← setting manager 0 d.managerUrl Value.text?
    databasePath := ← setting storage 0 d.databasePath Value.text?
    testsPath := ← setting catalogue 0 d.testsPath Value.text?
    testbedsPath := ← setting catalogue 1 d.testbedsPath Value.text?
    contractPath := ← setting catalogue 2 d.contractPath Value.text?
    probeTimeout := ← setting agents 0 d.probeTimeout seconds?
    requestTimeout := ← setting agents 1 d.requestTimeout seconds?
    metricsLocation := ← setting metrics 0 d.metricsLocation Value.text?
    metricsDatabase := ← setting metrics 1 d.metricsDatabase Value.text?
    templatePath := ← setting pipeline 0 d.templatePath optionalText?
    robotVersion := ← setting pipeline 1 d.robotVersion Value.text?
    testModules := ← setting pipeline 2 d.testModules texts
    metricsModules := ← setting pipeline 3 d.metricsModules texts
    warehousePath := ← setting artifacts 0 d.warehousePath Value.text?
    logLevel := ← setting logging 0 d.logLevel Value.text?
    logJson := ← setting logging 1 d.logJson Value.bool? }

/-- The tree of a configuration. -/
def toValue (c : Config) : Value :=
  let texts (ss : List String) := Value.list (ss.map .str)
  .dict [
    ("agents", .dict [
      ("probe_timeout_secs", .int c.probeTimeout),
      ("request_timeout_secs", .int c.requestTimeout)]),
    ("artifacts", .dict [("warehouse_dir", .str c.warehousePath)]),
    ("catalogue", .dict [
      ("metrics_contract_path", .str c.contractPath),
      ("testbeds_path", .str c.testbedsPath),
      ("tests_path", .str c.testsPath)]),
    ("logging", .dict [("json", .bool c.logJson), ("level", .str c.logLevel)]),
    ("manager", .dict [("url", .str c.managerUrl)]),
    ("metrics_repository", .dict [
      ("database", .str c.metricsDatabase),
      ("location", .str c.metricsLocation)]),
    ("pipeline", .dict [
      ("metrics_python_modules", texts c.metricsModules),
      ("robot_version", .str c.robotVersion),
      ("template_path", (c.templatePath.map Value.str).getD .null),
      ("test_python_modules", texts c.testModules)]),
    ("server", .dict [("bind", .str c.bind)]),
    ("storage", .dict [("db_path", .str c.databasePath)])]

end Config
end PipelineManager
