import PipelineManager.Document.Json.Writer

/-!
# Test descriptors

A descriptor names the network application and the testbed, declares the tests of its setup and
says in batches which of them are executed. Executed tests are those that are declared and
referenced, in declaration order.
-/

namespace PipelineManager

/-- Whether a character may start a test name: an ASCII letter or digit. -/
def isNameStart (c : Char) : Bool := c.isAlphanum

/-- Whether a character may stand inside a test name. -/
def isNameChar (c : Char) : Bool := c.isAlphanum || c = '_' || c = '.' || c = '-'

/-- A test name starts with a letter or digit and goes on with letters, digits, `_`, `.` and
`-`. Test names stand in shell commands and in archive paths. -/
def isTestName : List Char → Bool
  | [] => false
  | c :: rest => isNameStart c && rest.all isNameChar

/-- The written form of the pattern of test names. -/
def testNamePattern : String := "^[A-Za-z0-9][A-Za-z0-9_.-]*$"

/-- A value as an option list or a shell sees it: a text as it is, nothing for null, and the
compact JSON text of all else. -/
def Value.plainText : Value → String
  | .str s => s
  | .null => ""
  | v => Json.text v

/-- A parameter of a test, a deployment or a metrics block. -/
structure Parameter where
  key : String
  value : Value
deriving Repr, Inhabited

/-- The value of a parameter as text. -/
def Parameter.text (p : Parameter) : String := p.value.plainText

/-- Whether a test comes from the testbed's catalogue or from the developer. -/
inductive TestKind where
  | predefined
  | developerDefined
deriving DecidableEq, Repr, Inhabited

/-- The name of a kind in documents. -/
def TestKind.name : TestKind → String
  | predefined => "predefined"
  | developerDefined => "developer-defined"

/-- The names of both kinds. -/
def TestKind.names : List String := [TestKind.predefined.name, TestKind.developerDefined.name]

/-- The kind of a name. -/
def TestKind.ofName? (name : String) : Option TestKind :=
  if name = TestKind.predefined.name then some .predefined
  else if name = TestKind.developerDefined.name then some .developerDefined
  else none

/-- A test declared in the setup of a descriptor. -/
structure Testcase where
  id : Int
  name : String
  kind : TestKind
  scope : String
  description : Option String
  parameters : List Parameter
deriving Repr, Inhabited

/-- The first parameter of a key. -/
def Testcase.parameter? (t : Testcase) (key : String) : Option Parameter :=
  t.parameters.find? fun p => p.key = key

/-- What a descriptor says about itself. -/
structure TestInfo where
  testbedId : String
  netappId : String
  networkServiceId : String
  description : Option String
deriving DecidableEq, Repr, Inhabited

/-- A deployment of the setup. -/
structure Deployment where
  deploymentId : Int
  name : String
  descriptor : String
  id : String
  parameters : List Parameter
deriving Repr, Inhabited

/-- A block of the metrics collection process. -/
structure MetricsBlock where
  id : Int
  description : Option String
  parameters : List Parameter
deriving Repr, Inhabited

/-- A group of references to declared tests. -/
structure Execution where
  id : Int
  name : Option String
  testcaseIds : List Int
deriving DecidableEq, Repr, Inhabited

/-- A batch of executions. -/
structure Batch where
  id : Int
  scope : String
  executions : List Execution
deriving DecidableEq, Repr, Inhabited

/-- The declarations of a descriptor. -/
structure Setup where
  deployments : List Deployment
  testcases : List Testcase
  metrics : Option (List MetricsBlock)
deriving Repr, Inhabited

/-- A test descriptor. -/
structure Descriptor where
  info : TestInfo
  setup : Setup
  execution : List Batch
deriving Repr, Inhabited

namespace Descriptor

/-- The referenced test ids, in reference order. -/
def referencedIds (d : Descriptor) : List Int :=
  d.execution.flatMap fun b => b.executions.flatMap (·.testcaseIds)

/-- The declared tests that some execution references, in declaration order. -/
def executed (d : Descriptor) : List Testcase :=
  d.setup.testcases.filter fun t => d.referencedIds.contains t.id

/-- The metrics blocks, none when the section is absent. -/
def metricsBlocks (d : Descriptor) : List MetricsBlock := d.setup.metrics.getD []

end Descriptor
end PipelineManager
