/-!
# Shell words inside script strings

Commands stand in single-quoted strings of the pipeline script, which the agent's shell reads
after the script engine has removed one level of backslashes. `shellWord` writes a text so that
it comes out of both readings unchanged; `variableName` turns any text into a name that the shell
takes for a variable.
-/

namespace PipelineManager

/-- A character of a variable name. -/
def isVariableChar (c : Char) : Bool := c.isAlphanum || c = '_'

/-- The text with every other character replaced by an underscore. A name does not start with a
digit, and is not empty. -/
def variableName (raw : String) : String :=
  let name := raw.toList.map fun c => if isVariableChar c then c else '_'
  match name with
  | [] => "_"
  | c :: _ => if c.isDigit then String.ofList ('_' :: name) else String.ofList name

/-- A character that means itself in a shell word. -/
def isShellSafe (c : Char) : Bool := c.isAlphanum || "_-.,:/@%+=".toList.contains c

/-- A character inside a double-quoted shell word inside a single-quoted script string. -/
def escapeShellChar (c : Char) : List Char :=
  if c = '"' ∨ c = '$' ∨ c = '\x60' then ['\\', '\\', c]
  else if c = '\\' then ['\\', '\\', '\\', '\\']
  else if c = '\'' then ['\\', '\'']
  else if c = '\n' then ['\\', 'n']
  else [c]

/-- A text as one shell word inside a single-quoted script string: bare when all its characters
are safe, else in double quotes. -/
def shellWord (cs : List Char) : List Char :=
  if !cs.isEmpty && cs.all isShellSafe then cs
  else '"' :: cs.flatMap escapeShellChar ++ ['"']

end PipelineManager
