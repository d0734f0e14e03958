import PipelineManager.Store.StatusLog
import PipelineManager.Text.Column

/-!
# Listings

The listings of agents, runs and status logs. None of them shows a token or a password.
-/

namespace PipelineManager.CommandLine

/-- Lines of text, each ended. -/
def unlines (lines : List String) : String := String.join (lines.map (· ++ "\n"))

/-- The widths of the columns of agents. -/
def agentWidths : List Nat := [6, 40, 12]

/-- The row of an agent. -/
def agentRow (a : Agent) : List String := [Json.intText a.id, a.url, a.username]

/-- A table with its heading. -/
def table (widths : List Nat) (heading : List String) (rows : List (List String)) : List String :=
  Text.row (widths.zip heading) :: Text.rule widths :: rows.map fun r => Text.row (widths.zip r)

/-- The agents of a testbed. -/
def agentsListing (testbedId : String) (agents : List Agent) : List String :=
  if agents.isEmpty then ["No agents registered for testbed '" ++ testbedId ++ "'."]
  else table agentWidths ["Id", "Url", "User"] (agents.map agentRow)

/-- The widths of the columns of runs. -/
def runWidths : List Nat := [6, 20, 30, 6]

/-- What stands where nothing is known. -/
def nothingKnown : String := "-"

/-- The row of a run. -/
def runRow (r : Run) : List String :=
  [Json.intText r.id, r.testbedId, r.jobName.getD nothingKnown,
    (r.buildNumber.map Nat.repr).getD nothingKnown]

/-- All runs. -/
def runsListing (runs : List Run) : List String :=
  if runs.isEmpty then ["No runs found."]
  else table runWidths ["Run", "Testbed", "Job", "Build"] (runs.map runRow)

/-- The widths of the columns of a status log. -/
def statusWidths : List Nat := [35, 32, 6]

/-- Whether a state was reached, in words. -/
def outcome (success : Bool) : String := if success then "OK" else "FAILED"

/-- The row of an entry of a status log. -/
def statusRow (e : StatusEntry) : List String := [e.recordedAt, e.state.name, outcome e.success]

/-- The status log of a run. -/
def statusListing (runId : Int) (log : List StatusEntry) : List String :=
  if log.isEmpty then ["No status recorded for run " ++ Json.intText runId ++ "."]
  else log.map fun e => Text.row (statusWidths.zip (statusRow e))

end PipelineManager.CommandLine
