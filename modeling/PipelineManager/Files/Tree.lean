import PipelineManager.Text.Parts

/-!
# File trees

Files and directories by the names that lead to them. Nothing is ever removed, so a place holds a
file or a directory for good. `FileTree.follow` finds the place of a path.
-/

namespace PipelineManager

/-- The files and directories of a tree by their names. The topmost directory has none. A name is
bounded in length, but not the path of a file: a system that takes no path of more than 4095 bytes
refuses some that lead to a file here. -/
structure FileTree where
  directories : List (List String) := []
  files : List (List String × ByteArray) := []
deriving Inhabited

/-- The names in a path as they are written between its slashes. -/
def namesOf (path : String) : List String := (Text.parts '/' path.toList).map String.ofList

/-- Whether a name in a path leads nowhere. -/
def isIdle (name : String) : Bool := name = "" || name = "."

/-- Whether a path starts at the root of all files. -/
def isAbsolute (path : String) : Bool := path.toList.head? = some '/'

/-- Drops the names at the end of a path that lead nowhere. -/
def dropIdleEnd (names : List String) : List String := (names.reverse.dropWhile isIdle).reverse

/-- The directory that holds what a path names, as a path. -/
def parentPath (path : String) : String :=
  String.intercalate "/" (dropIdleEnd (dropIdleEnd (namesOf path)).dropLast)

/-- Whether a name holds a null character, which no path of the system may. -/
def hasNull (name : String) : Bool := name.toList.any fun c => c.toNat = 0

/-- The greatest length of a name in bytes. -/
def maxNameLength : Nat := 255

/-- Whether the system takes a name for a file or directory. -/
def isName (name : String) : Bool := !hasNull name && name.utf8ByteSize ≤ maxNameLength

namespace FileTree

/-- Whether a directory is there. -/
def isDirectory (t : FileTree) (names : List String) : Bool := t.directories.contains names

/-- The contents of a file. -/
def file? (t : FileTree) (names : List String) : Option ByteArray :=
  (t.files.find? fun f => f.1 = names).map (·.2)

/-- Makes a directory, unless it is there, in a directory that is there. -/
def makeDirectory (t : FileTree) (names : List String) : Option FileTree :=
  if t.isDirectory names then some t
  else if (t.file? names).isSome || !(names.getLast?.all isName) then none
  else some { t with directories := t.directories ++ [names] }

/-- Makes a directory and the ones below it that lead along some names. It stops where one cannot
be made. -/
def makeDirectories (t : FileTree) (base : List String) : List String → FileTree × Bool
  | [] =>
    match t.makeDirectory base with
    | some t => (t, true)
    | none => (t, false)
  | name :: rest =>
    match t.makeDirectory base with
    | some t => t.makeDirectories (base ++ [name]) rest
    | none => (t, false)

/-- Puts contents at the place of a file. -/
def setFile (t : FileTree) (names : List String) (contents : ByteArray) : FileTree :=
  if (t.file? names).isSome then
    { t with files := t.files.map fun f => if f.1 = names then (names, contents) else f }
  else { t with files := t.files ++ [(names, contents)] }

/-- Writes a file in a directory that is there. -/
def write (t : FileTree) (names : List String) (contents : ByteArray) : Option FileTree :=
  if t.isDirectory names || !(names.getLast?.any isName) then none
  else some (t.setFile names contents)

/-- The place that is reached along some names. Only the last of them may name a file, and no way
leads out of the tree. -/
def follow (t : FileTree) (base : List String) : List String → Option (List String)
  | [] => some base
  | name :: rest =>
    if !t.isDirectory base then none
    else if isIdle name then t.follow base rest
    else if name = ".." then if base.isEmpty then none else t.follow base.dropLast rest
    else t.follow (base ++ [name]) rest

/-- The place of a path below the topmost directory. -/
def place? (t : FileTree) (path : String) : Option (List String) :=
  if path.isEmpty || isAbsolute path then none else t.follow [] (namesOf path)

end FileTree
end PipelineManager
