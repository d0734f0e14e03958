import PipelineManager.Catalogue.File
import PipelineManager.Store.Basic

/-!
# Importing catalogue files

An import stores the testbeds of one file and then the tests of another. It stops at the first
test of an unknown testbed; what was stored until then stays.
-/

namespace PipelineManager

/-- A file with its contents, if it can be read. -/
structure SourceFile where
  path : String
  text : Option String
deriving DecidableEq, Repr, Inhabited

/-- Why an import stops. -/
inductive ImportFault where
  | unreadable (path : String)
  | malformedTestbeds
  | malformedTests
  | unknownTestbed (testId testbedId : String)
deriving DecidableEq, Repr

/-- The wording for a testbeds file that cannot be understood. -/
def malformedTestbedsMessage : String := "malformed testbeds file"

/-- The wording for a tests file that cannot be understood. -/
def malformedTestsMessage : String := "malformed tests catalogue"

/-- The wording of a stop. -/
def ImportFault.message : ImportFault → String
  | unreadable path => "failed to read " ++ path
  | malformedTestbeds => malformedTestbedsMessage
  | malformedTests => malformedTestsMessage
  | unknownTestbed testId testbedId =>
    "test " ++ testId ++ " references unknown testbed " ++ testbedId

namespace Store

/-- Stores tests in order up to the first of an unknown testbed. -/
def putTests (s : Store) : List CatalogueEntry → Store × Except ImportFault Unit
  | [] => (s, .ok ())
  | e :: rest =>
    match s.putTest e with
    | .ok s => s.putTests rest
    | .error _ => (s, .error (.unknownTestbed e.testId e.testbedId))

/-- Stores all testbeds. -/
def putTestbeds (s : Store) (ts : List Testbed) : Store := ts.foldl putTestbed s

/-- Imports the tests of a file. -/
def importTests (s : Store) (file : SourceFile) : Store × Except ImportFault Nat :=
  match file.text with
  | none => (s, .error (.unreadable file.path))
  | some text =>
    match CatalogueEntry.ofYaml? text with
    | none => (s, .error .malformedTests)
    | some entries =>
      match s.putTests entries with
      | (s, .ok ()) => (s, .ok entries.length)
      | (s, .error e) => (s, .error e)

/-- Imports the testbeds of a file and then the tests of another. The answer counts both. -/
def importCatalogue (s : Store) (testbeds tests : SourceFile) :
    Store × Except ImportFault (Nat × Nat) :=
  match testbeds.text with
  | none => (s, .error (.unreadable testbeds.path))
  | some text =>
    match Testbed.ofYaml? text with
    | none => (s, .error .malformedTestbeds)
    | some ts =>
      match (s.putTestbeds ts).importTests tests with
      | (s, .ok n) => (s, .ok (ts.length, n))
      | (s, .error e) => (s, .error e)

end Store
end PipelineManager
