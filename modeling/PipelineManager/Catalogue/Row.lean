import PipelineManager.Catalogue.Basic
import PipelineManager.Document.Json.Reader
import PipelineManager.Document.Json.Writer

/-!
# Rows of the catalogue

The catalogue is kept in two tables with a column for each field. The variables of a test stand in
one column, as JSON text, and are read back from it.
-/

namespace PipelineManager

/-- A testbed whose columns are renewed. Its identifier is its key. -/
def Testbed.renewed (known new : Testbed) : Testbed :=
  { known with name := new.name, description := new.description }

namespace Variable

/-- Variables as they stand in a column. -/
def columnText (vars : List Variable) : String := Json.text (.list (vars.map toValue))

/-- Reads the variables of a column. -/
def ofColumnText? (text : String) : Option (List Variable) :=
  (Json.read? text).bind (Value.itemsBy? ofValue?)

end Variable

/-- A row of the table of tests. -/
structure CatalogueRow where
  testbedId : String
  testId : String
  name : String
  description : String
  location : String
  filename : String
  testType : String
  variablesText : String
deriving DecidableEq, Repr, Inhabited

/-- The row of an entry. -/
def CatalogueEntry.toRow (e : CatalogueEntry) : CatalogueRow where
  testbedId := e.testbedId
  testId := e.testId
  name := e.name
  description := e.description
  location := e.location
  filename := e.filename
  testType := e.testType
  variablesText := Variable.columnText e.vars

namespace CatalogueRow

/-- The entry of a row, if its variables can be read. -/
def entry? (r : CatalogueRow) : Option CatalogueEntry :=
  (Variable.ofColumnText? r.variablesText).map fun vars => {
    testbedId := r.testbedId
    testId := r.testId
    name := r.name
    description := r.description
    location := r.location
    filename := r.filename
    testType := r.testType
    vars }

/-- A row whose columns are renewed. The identifiers of the testbed and of the test are its key. -/
def renewed (known new : CatalogueRow) : CatalogueRow :=
  { known with
    name := new.name
    description := new.description
    location := new.location
    filename := new.filename
    testType := new.testType
    variablesText := new.variablesText }

/-- Whether two rows have the same key. -/
def sameKey (a b : CatalogueRow) : Bool := a.testbedId = b.testbedId && a.testId = b.testId

/-- Whether the key of a row comes before that of another. -/
def before (a b : CatalogueRow) : Bool :=
  a.testbedId < b.testbedId || (a.testbedId = b.testbedId && a.testId < b.testId)

/-- The record of a row. -/
def toRecord (r : CatalogueRow) : Value :=
  .dict [
    ("description", .str r.description),
    ("ftp_base_location", .str r.location),
    ("name", .str r.name),
    ("test_filename", .str r.filename),
    ("test_id", .str r.testId),
    ("test_type", .str r.testType),
    ("testbed_id", .str r.testbedId),
    ("variables_json", .str r.variablesText)]

/-- Reads the record of a row. -/
def ofRecord? (v : Value) : Option CatalogueRow := do
  return {
    testbedId := ← v.require "testbed_id" Value.text?
    testId := ← v.require "test_id" Value.text?
    name := ← v.require "name" Value.text?
    description := ← v.require "description" Value.text?
    location := ← v.require "ftp_base_location" Value.text?
    filename := ← v.require "test_filename" Value.text?
    testType := ← v.require "test_type" Value.text?
    variablesText := ← v.require "variables_json" Value.text? }

end CatalogueRow
end PipelineManager
