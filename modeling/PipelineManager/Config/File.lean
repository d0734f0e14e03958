import PipelineManager.Config.Basic
import PipelineManager.Document.Toml.Reader

/-!
# Configuration files

A configuration file is a TOML document. The address of the manager is kept without slashes at
its end.
-/

namespace PipelineManager.Config

/-- Reads a configuration file. -/
def ofToml? (text : String) : Option Config := do
  let c ← ofValue? (← Toml.read? text)
  return { c with managerUrl := Text.dropEndSlashes c.managerUrl }

/-- The time limit of a probe in milliseconds. -/
def probeTimeoutMillis (c : Config) : Nat := c.probeTimeout * 1000

/-- The time limit of any other request to an agent in milliseconds. -/
def requestTimeoutMillis (c : Config) : Nat := c.requestTimeout * 1000

end PipelineManager.Config
