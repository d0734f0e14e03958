/-!
# Job definitions

The XML document that defines a job on an agent. Description and script are written as character
data, in which five characters are named by entities.
-/

namespace PipelineManager.Job

/-- A character as character data. -/
def escapeChar (c : Char) : List Char :=
  if c = '&' then "&amp;".toList
  else if c = '<' then "&lt;".toList
  else if c = '>' then "&gt;".toList
  else if c = '"' then "&quot;".toList
  else if c = '\'' then "&#x27;".toList
  else [c]

/-- A text as character data. -/
def escape (text : String) : String := String.ofList (text.toList.flatMap escapeChar)

/-- What stands in front of the description. -/
def head : String :=
  "<?xml version='1.1' encoding='UTF-8'?>\n" ++
  "<flow-definition plugin=\"workflow-job\">\n" ++
  "  <description>"

/-- What stands between the description and the script. -/
def middle : String :=
  "</description>\n" ++
  "  <keepDependencies>false</keepDependencies>\n" ++
  "  <properties/>\n" ++
  "  <definition class=\"org.jenkinsci.plugins.workflow.cps.CpsFlowDefinition\" " ++
  "plugin=\"workflow-cps\">\n" ++
  "    <script>"

/-- What stands behind the script. -/
def tail : String :=
  "</script>\n" ++
  "    <sandbox>true</sandbox>\n" ++
  "  </definition>\n" ++
  "  <triggers/>\n" ++
  "  <disabled>false</disabled>\n" ++
  "</flow-definition>"

/-- The definition of a job. -/
def definition (description script : String) : String :=
  head ++ escape description ++ middle ++ escape script ++ tail

end PipelineManager.Job
