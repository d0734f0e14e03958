import PipelineManager.CommandLine.Run

/-!
# The program

The command line on the files of the system.
-/

namespace PipelineManager

/-- Whether an action succeeds. -/
def succeeds (action : IO Unit) : IO Bool := do
  try
    action
    return true
  catch _ => return false

/-- Access to the files of the system. -/
def systemFiles : FileAccess IO where
  read path := do
    try return some (← IO.FS.readFile path)
    catch _ => return none
  holds path := succeeds (discard (IO.FS.realPath path))
  write path text := succeeds (IO.FS.writeFile path text)
  makeDirectories path := succeeds (IO.FS.createDirAll path)

end PipelineManager

open PipelineManager in
/-- Runs the command line and exits with its code. -/
def main (args : List String) : IO UInt32 := do
  let outcome ← CommandLine.run systemFiles (← IO.getEnv "CICD_MANAGER_CONFIG") args
  IO.print outcome.out
  IO.eprint outcome.complaints
  return outcome.code.toUInt32
