import PipelineManager.Catalogue.Basic
import PipelineManager.Document.Table
import PipelineManager.Document.Yaml.Reading

/-!
# Catalogue files

The YAML files that testbeds, their tests and the metrics contract are read from. Records ignore
unknown fields and refuse repeated ones; maps of records keep the last of repeated keys and come
in key order.
-/

namespace PipelineManager.CatalogueFile

open Yaml

variable (d : Document)

/-- Whether a scalar was left out, which stands for an empty list or record. -/
def isLeftOut : Node → Bool
  | .scalar _ .plain s => s.isEmpty
  | _ => false

/-- The items of a list, each read by `item`. -/
def items {α : Type} (item : Nat → Node → Reading α) : Nat → Node → Reading (List α)
  | depth, n => do
    let n ← d.follow n
    match n, depth with
    | .list _ ns, depth + 1 => ns.mapM (item depth)
    | n, _ => if isLeftOut n then return [] else failure

/-- The entries of a record or map with the texts of their keys. -/
def entries : Nat → Node → Reading (Nat × List (String × Node))
  | depth, n => do
    let n ← d.follow n
    match n, depth with
    | .dict _ es, depth + 1 => return (depth, ← es.mapM fun e => do return (← d.text e.1, e.2))
    | n, depth => if isLeftOut n then return (depth, []) else failure

/-- The entries of a record, none of whose known fields is repeated. -/
def fields (known : List String) (depth : Nat) (n : Node) :
    Reading (Nat × List (String × Node)) := do
  let (depth, es) ← entries d depth n
  if known.all fun k => (es.filter fun e => e.1 = k).length ≤ 1 then return (depth, es) else failure

/-- The field of a record. -/
def field? (es : List (String × Node)) (key : String) : Option Node :=
  (es.find? fun e => e.1 = key).map (·.2)

/-- A field that must be present. -/
def require {α : Type} (es : List (String × Node)) (key : String) (read : Node → Reading α) :
    Reading α :=
  match field? es key with
  | some n => read n
  | none => failure

/-- A field that takes a default when absent. -/
def fieldOr {α : Type} (es : List (String × Node)) (key : String) (default : α)
    (read : Node → Reading α) : Reading α :=
  match field? es key with
  | some n => read n
  | none => return default

/-- The records of a map by key, in key order; the last of repeated keys counts. -/
def recordMap {α : Type} (record : Nat → Node → Reading α) (depth : Nat) (n : Node) :
    Reading (List (String × α)) := do
  let (depth, es) ← entries d depth n
  let records ← es.mapM fun e => do return (e.1, ← record depth e.2)
  let put (known : List (String × α)) (r : String × α) : List (String × α) :=
    Table.upsert (fun a b => a.1 = b.1) (fun a b => a.1 < b.1) (fun _ new => new) r known
  return records.foldl put []

/-- A typed truth value: a plain scalar, or a literal one tagged as a truth value. -/
def truth (n : Node) : Reading Bool := do
  match ← d.follow n with
  | .scalar tag style s =>
    if style = .plain ∨ (style = .literal ∧ tag = some "tag:yaml.org,2002:bool") then
      match bool? s with
      | some b => return b
      | none => failure
    else failure
  | _ => failure

mutual
/-- Whether every part of a node has a value, whatever it is. -/
def readable : Nat → Node → Reading Unit
  | depth, n => do
    match ← d.follow n with
    | .scalar tag style s => if (scalarValue? tag style s).isSome then return () else failure
    | .list tag ns =>
      match depth with
      | 0 => failure
      | depth + 1 => if Document.ownTag tag then failure else readableItems depth ns
    | .dict tag es =>
      match depth with
      | 0 => failure
      | depth + 1 => if Document.ownTag tag then failure else readableEntries depth es
    | .reference _ => failure
termination_by depth _ => (depth, 0)

/-- Whether all items are readable. -/
def readableItems : Nat → List Node → Reading Unit
  | _, [] => return ()
  | depth, n :: rest => do
    readable depth n
    readableItems depth rest
termination_by depth ns => (depth, ns.length + 1)

/-- Whether all keys and values are readable. -/
def readableEntries : Nat → List (Node × Node) → Reading Unit
  | _, [] => return ()
  | depth, (k, v) :: rest => do
    readable depth k
    readable depth v
    readableEntries depth rest
termination_by depth es => (depth, es.length + 1)
end

/-- What a scalar node stands for. -/
def scalar? (n : Node) : Reading (Option Plain) := do
  match ← d.follow n with
  | .scalar tag style s => return scalarValue? tag style s
  | _ => return none

/-- An option of a variable: a real text, or a dictionary with a real text under `name`. Other
keys are texts or natural numbers; the number zero counts as the first field, the name. -/
def option (depth : Nat) (n : Node) : Reading String := do
  readable d depth n
  match ← d.follow n with
  | .scalar tag style s =>
    match scalarValue? tag style s with
    | some (.str s) => return s
    | _ => failure
  | .dict _ es =>
    let names ← es.filterMapM fun e => do
      match ← scalar? d e.1 with
      | some (.str key) => return if key = "name" then some e.2 else none
      | some (.int i) => if i < 0 then failure else return if i = 0 then some e.2 else none
      | _ => failure
    match names with
    | [name] =>
      match ← scalar? d name with
      | some (.str s) => return s
      | _ => failure
    | _ => failure
  | _ => failure

/-- A variable of a test. -/
def testVariable (depth : Nat) (n : Node) : Reading Variable := do
  let (depth, es) ←
    fields d ["variable_name", "description", "mandatory", "type", "possible_options"] depth n
  return {
    name := ← require es "variable_name" d.text
    description := ← fieldOr es "description" "" d.text
    mandatory := ← fieldOr es "mandatory" true (truth d)
    type := ← fieldOr es "type" "" d.text
    options := ← fieldOr es "possible_options" [] (items d (option d) depth) }

/-- A test of a testbed. -/
def test (depth : Nat) (n : Node) : Reading (String → CatalogueEntry) := do
  let (depth, es) ← fields d
    ["id", "name", "description", "ftp_base_location", "test_filename", "test_type",
      "test_variables"] depth n
  let testId ← require es "id" d.text
  let name ← require es "name" d.text
  let description ← fieldOr es "description" "" d.text
  let location ← require es "ftp_base_location" d.text
  let filename ← require es "test_filename" d.text
  let testType ← fieldOr es "test_type" "" d.text
  let vars ← fieldOr es "test_variables" [] (items d (testVariable d) depth)
  return fun testbedId =>
    { testbedId, testId, name, description, location, filename, testType, vars }

/-- The tests of all testbeds. -/
def tests (n : Node) : Reading (List CatalogueEntry) := do
  let (depth, es) ← fields d ["tests"] maxDepth n
  let testbeds ← require es "tests" (recordMap d (recordMap d (test d)) depth)
  return testbeds.flatMap fun t => t.2.map fun e => e.2 t.1

/-- A testbed. -/
def testbed (depth : Nat) (n : Node) : Reading (String → Testbed) := do
  let (_, es) ← fields d ["name", "description"] depth n
  let name ← require es "name" d.text
  let description ← fieldOr es "description" "" d.text
  return fun id => { id, name, description }

/-- All testbeds. -/
def testbeds (n : Node) : Reading (List Testbed) := do
  let (depth, es) ← fields d ["testbeds"] maxDepth n
  let records ← require es "testbeds" (recordMap d (testbed d) depth)
  return records.map fun r => r.2 r.1

/-- The metrics contract. -/
def contract (n : Node) : Reading MetricsContract := do
  let (depth, es) ← fields d ["metrics_collection"] maxDepth n
  require es "metrics_collection" fun n => do
    let (depth, es) ← fields d ["ftp_base_location", "test_filename", "variables"] depth n
    return {
      location := ← require es "ftp_base_location" d.text
      filename := ← require es "test_filename" d.text
      vars := ← fieldOr es "variables" [] (items d (testVariable d) depth) }

/-- Reads a text with a reader of its root; an empty text has no fields. -/
def read? {α : Type} (reader : Document → Node → Reading α) (text : String) : Option α := do
  let d ← Document.read? text
  d.run (reader d (d.root.getD .empty))

end PipelineManager.CatalogueFile

namespace PipelineManager

/-- Reads a tests file: the entries by testbed and key. -/
def CatalogueEntry.ofYaml? (text : String) : Option (List CatalogueEntry) :=
  CatalogueFile.read? CatalogueFile.tests text

/-- Reads a testbeds file: the testbeds by identifier. -/
def Testbed.ofYaml? (text : String) : Option (List Testbed) :=
  CatalogueFile.read? CatalogueFile.testbeds text

/-- Reads a contract file. -/
def MetricsContract.ofYaml? (text : String) : Option MetricsContract :=
  CatalogueFile.read? CatalogueFile.contract text

end PipelineManager
