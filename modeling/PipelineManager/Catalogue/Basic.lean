import PipelineManager.Document.Field

/-!
# The catalogue of a testbed

A testbed registers the predefined tests that it can run, each with the variables that it
understands. The metrics bundle has a contract of the same shape.
-/

namespace PipelineManager

/-- A target environment. -/
structure Testbed where
  id : String
  name : String
  description : String := ""
deriving DecidableEq, Repr, Inhabited

/-- A parameter that a catalogue test understands. No options mean that any text will do. -/
structure Variable where
  name : String
  description : String := ""
  mandatory : Bool := true
  type : String := ""
  options : List String := []
deriving DecidableEq, Repr, Inhabited

/-- Whether a text is acceptable for a variable. -/
def Variable.accepts (v : Variable) (text : String) : Bool :=
  v.options.isEmpty || v.options.any (· = text)

/-- A test of a testbed. Its identifier is its key within the testbed; descriptors name it by its
name. -/
structure CatalogueEntry where
  testbedId : String
  testId : String
  name : String
  description : String := ""
  location : String
  filename : String
  testType : String := ""
  vars : List Variable := []
deriving DecidableEq, Repr, Inhabited

/-- The contract of the metrics bundle. -/
structure MetricsContract where
  location : String
  filename : String
  vars : List Variable := []
deriving DecidableEq, Repr, Inhabited

/-- The names of the mandatory variables. -/
def MetricsContract.mandatoryNames (c : MetricsContract) : List String :=
  (c.vars.filter (·.mandatory)).map (·.name)

namespace Testbed

/-- Reads a testbed. -/
def ofValue? (v : Value) : Option Testbed := do
  return {
    id := ← v.require "id" Value.text?
    name := ← v.require "name" Value.text?
    description := ← v.fieldOr "description" "" Value.text? }

/-- The tree of a testbed. -/
def toValue (t : Testbed) : Value :=
  .dict [("description", .str t.description), ("id", .str t.id), ("name", .str t.name)]

end Testbed

namespace Variable

/-- Reads an option: a text, or a dictionary with its name. -/
def option? : Value → Option String
  | .str s => some s
  | v => v.require "name" Value.text?

/-- Reads a variable. -/
def ofValue? (v : Value) : Option Variable := do
  return {
    name := ← v.require "variable_name" Value.text?
    description := ← v.fieldOr "description" "" Value.text?
    mandatory := ← v.fieldOr "mandatory" true Value.bool?
    type := ← v.fieldOr "type" "" Value.text?
    options := ← v.itemsOrNone? "possible_options" option? }

/-- The tree of a variable. -/
def toValue (v : Variable) : Value :=
  .dict [
    ("description", .str v.description),
    ("mandatory", .bool v.mandatory),
    ("possible_options", .list (v.options.map fun o => .dict [("name", .str o)])),
    ("type", .str v.type),
    ("variable_name", .str v.name)]

end Variable

namespace CatalogueEntry

/-- Reads an entry. -/
def ofValue? (v : Value) : Option CatalogueEntry := do
  return {
    testbedId := ← v.require "testbed_id" Value.text?
    testId := ← v.require "test_id" Value.text?
    name := ← v.require "name" Value.text?
    description := ← v.fieldOr "description" "" Value.text?
    location := ← v.require "ftp_base_location" Value.text?
    filename := ← v.require "test_filename" Value.text?
    testType := ← v.fieldOr "test_type" "" Value.text?
    vars := ← v.itemsOrNone? "variables" Variable.ofValue? }

/-- The tree of an entry. -/
def toValue (e : CatalogueEntry) : Value :=
  .dict [
    ("description", .str e.description),
    ("ftp_base_location", .str e.location),
    ("name", .str e.name),
    ("test_filename", .str e.filename),
    ("test_id", .str e.testId),
    ("test_type", .str e.testType),
    ("testbed_id", .str e.testbedId),
    ("variables", .list (e.vars.map Variable.toValue))]

end CatalogueEntry

namespace MetricsContract

/-- Reads a contract. -/
def ofValue? (v : Value) : Option MetricsContract := do
  return {
    location := ← v.require "ftp_base_location" Value.text?
    filename := ← v.require "test_filename" Value.text?
    vars := ← v.itemsOrNone? "variables" Variable.ofValue? }

/-- The tree of a contract. -/
def toValue (c : MetricsContract) : Value :=
  .dict [
    ("ftp_base_location", .str c.location),
    ("test_filename", .str c.filename),
    ("variables", .list (c.vars.map Variable.toValue))]

end MetricsContract
end PipelineManager
