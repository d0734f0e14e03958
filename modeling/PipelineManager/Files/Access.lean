import PipelineManager.Files.Tree
import PipelineManager.Text.Utf8

/-!
# Access to files

What the command line does with files, whatever keeps them. A tree of files gives such access.
-/

namespace PipelineManager

/-- Access to files by their paths. -/
structure FileAccess (m : Type → Type) where
  /-- The text of a file that can be read. -/
  read : String → m (Option String)
  /-- Whether there is a file or a directory. -/
  holds : String → m Bool
  /-- Writes the text of a file, and says whether it could be written. -/
  write : String → String → m Bool
  /-- Makes a directory and those above it, and says whether all of them are there. -/
  makeDirectories : String → m Bool

namespace FileTree

/-- The text of a file. -/
def readText (t : FileTree) (path : String) : Option String := do
  Text.Utf8.strict? (← t.file? (← t.place? path)).toList

/-- Whether a path leads to a file or a directory. -/
def holds (t : FileTree) (path : String) : Bool :=
  (t.place? path).any fun names => t.isDirectory names || (t.file? names).isSome

/-- Writes the text of a file in a directory that is there. -/
def writeText (t : FileTree) (path text : String) : Option FileTree := do
  let names ← t.place? path
  if t.isDirectory names.dropLast then t.write names text.toUTF8 else none

/-- Makes the directory of a path and those above it. -/
def makePath (t : FileTree) (path : String) : FileTree × Bool :=
  if isAbsolute path then (t, false)
  else t.makeDirectories [] ((namesOf path).filter (!isIdle ·))

/-- The tree with a file and the directories to it. -/
def withText (t : FileTree) (path text : String) : FileTree :=
  let (t, _) := t.makePath (parentPath path)
  (t.writeText path text).getD t

/-- The access that a tree gives. -/
def access : FileAccess (StateM FileTree) where
  read path := do return (← get).readText path
  holds path := do return (← get).holds path
  write path text := do
    match (← get).writeText path text with
    | some t => set t; return true
    | none => return false
  makeDirectories path := modifyGet fun t => ((t.makePath path).2, (t.makePath path).1)

end FileTree
end PipelineManager
