import PipelineManager.Catalogue.Basic
import PipelineManager.Descriptor.Basic

/-!
# Judging a descriptor against a catalogue

A well-formed descriptor may still ask for what its testbed cannot do. `semanticErrors` lists all
such problems: repeated and undeclared tests first, then for each executed predefined test what
its catalogue entry objects to. Developer-defined tests bring their own code and are not matched
against the catalogue.
-/

namespace PipelineManager

/-- A problem of a well-formed descriptor. -/
inductive SemanticError where
  | unknownTest (test : String)
  | missingParameter (test parameter : String)
  | invalidOption (test parameter : String)
  | undeclaredTestcase (batchId executionId testcaseId : Int)
  | duplicateTestcase (testcaseId : Int)
deriving DecidableEq, Repr

/-- The wording of a problem. -/
def SemanticError.message : SemanticError → String
  | unknownTest test => test ++ " doesn't exist in the chosen testbed."
  | missingParameter test parameter =>
    "The parameter \"" ++ parameter ++ "\" must be defined for the test " ++ test ++ "."
  | invalidOption test parameter =>
    "The parameter \"" ++ parameter ++ "\", for the test " ++ test ++
      ", is not according to its possible_options."
  | undeclaredTestcase batchId executionId testcaseId =>
    "Execution " ++ Json.intText executionId ++ " of batch " ++ Json.intText batchId ++
      " references testcase " ++ Json.intText testcaseId ++ ", which is not declared in the setup."
  | duplicateTestcase testcaseId =>
    "Testcase " ++ Json.intText testcaseId ++ " is declared more than once in the setup."

/-- The tree of an error. -/
def SemanticError.toValue : SemanticError → Value
  | unknownTest test => .dict [("kind", .str "unknown_test"), ("test", .str test)]
  | missingParameter test parameter =>
    .dict [("kind", .str "missing_parameter"), ("parameter", .str parameter), ("test", .str test)]
  | invalidOption test parameter =>
    .dict [("kind", .str "invalid_option"), ("parameter", .str parameter), ("test", .str test)]
  | undeclaredTestcase batchId executionId testcaseId =>
    .dict [
      ("batch_id", .int batchId),
      ("execution_id", .int executionId),
      ("kind", .str "undeclared_testcase"),
      ("testcase_id", .int testcaseId)]
  | duplicateTestcase testcaseId =>
    .dict [("kind", .str "duplicate_testcase"), ("testcase_id", .int testcaseId)]

/-- The elements that are repeated, each once, in the order of their first repetition. `seen`
holds what came before and `reported` what was already found repeated. -/
def repeatedFrom (seen reported : List Int) : List Int → List Int
  | [] => []
  | id :: rest =>
    if seen.contains id then
      if reported.contains id then repeatedFrom seen reported rest
      else id :: repeatedFrom seen (id :: reported) rest
    else repeatedFrom (id :: seen) reported rest

/-- The elements that occur more than once, in the order of their first repetition. -/
def repeated (ids : List Int) : List Int := repeatedFrom [] [] ids

/-- The ids of the declared tests. -/
def Descriptor.declaredIds (d : Descriptor) : List Int := d.setup.testcases.map (·.id)

/-- An error for each id that is declared more than once. -/
def duplicateErrors (d : Descriptor) : List SemanticError :=
  (repeated d.declaredIds).map .duplicateTestcase

/-- An error for each reference to an id that is not declared. -/
def undeclaredErrors (d : Descriptor) : List SemanticError :=
  d.execution.flatMap fun b =>
    b.executions.flatMap fun e =>
      (e.testcaseIds.filter fun id => !d.declaredIds.contains id).map fun id =>
        .undeclaredTestcase b.id e.id id

/-- What a variable objects to in a test. -/
def variableErrors (t : Testcase) (v : Variable) : List SemanticError :=
  match t.parameter? v.name with
  | some p => if v.accepts p.text then [] else [.invalidOption t.name v.name]
  | none => if v.mandatory then [.missingParameter t.name v.name] else []

/-- The entry that a test is matched with: the first of its name. -/
def entryNamed? (catalogue : List CatalogueEntry) (name : String) : Option CatalogueEntry :=
  catalogue.find? fun e => e.name = name

/-- The problems of an executed test. -/
def testErrors (catalogue : List CatalogueEntry) (t : Testcase) : List SemanticError :=
  match t.kind with
  | .developerDefined => []
  | .predefined =>
    match entryNamed? catalogue t.name with
    | none => [.unknownTest t.name]
    | some e => e.vars.flatMap (variableErrors t)

/-- All problems of a descriptor against the catalogue of its testbed. -/
def semanticErrors (d : Descriptor) (catalogue : List CatalogueEntry) : List SemanticError :=
  duplicateErrors d ++ undeclaredErrors d ++ d.executed.flatMap (testErrors catalogue)

/-- Whether a metrics block supplies every mandatory variable of the contract. -/
def MetricsBlock.supplies (m : MetricsBlock) (c : MetricsContract) : Bool :=
  c.mandatoryNames.all fun name => m.parameters.any fun p => p.key = name

/-- Whether every metrics block supplies the mandatory variables of the contract. -/
def Descriptor.suppliesMetrics (d : Descriptor) (c : MetricsContract) : Bool :=
  d.metricsBlocks.all (·.supplies c)

end PipelineManager
