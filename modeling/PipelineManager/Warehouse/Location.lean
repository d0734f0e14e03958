import PipelineManager.Files.Tree

/-!
# Locations in the warehouse

A path names a location by the parts between its slashes. Empty parts and single dots do not
count. `Location.ofPath` refuses the paths that could leave the warehouse: absolute ones and those
with a part of two dots.
-/

namespace PipelineManager

/-- Why the warehouse refuses a request. -/
inductive WarehouseFault where
  | emptyPath
  | escapes (path : String)
  | notCreated (directory : String)
  | notWritten (path : String)
  | notRead (path : String)
deriving DecidableEq, Repr

/-- The wording of a refusal. -/
def WarehouseFault.message : WarehouseFault → String
  | emptyPath => "empty artifact path"
  | escapes path => "artifact path escapes the warehouse: " ++ path
  | notCreated directory => "failed to create " ++ directory
  | notWritten path => "failed to write " ++ path
  | notRead path => "failed to read " ++ path

/-- A location below the root of the warehouse: the directories to it and its own name last. A path
that ends with a slash or a single dot can only name a directory. -/
structure Location where
  parts : List String
  onlyDirectory : Bool
deriving DecidableEq, Repr, Inhabited

/-- The location that a path names. -/
def Location.ofPath (path : String) : Except WarehouseFault Location :=
  if path.isEmpty then .error .emptyPath
  else if isAbsolute path || (namesOf path).contains ".." then .error (.escapes path)
  else .ok ⟨(namesOf path).filter (!isIdle ·), isIdle ((namesOf path).getLast?.getD "")⟩

/-- Where the archive of a developer-defined test is kept. -/
def archivePath (netappId name : String) : String :=
  "developer-defined-tests/" ++ netappId ++ "/" ++ name ++ ".tar.gz"

end PipelineManager
