import PipelineManager.Warehouse.Location

/-!
# The warehouse

The files that the manager shares with the agents, below one root directory. An upload makes the
directories that it needs.
-/

namespace PipelineManager

/-- The files below a root directory, which is made by the first upload. -/
structure Warehouse where
  root : String
  tree : FileTree := {}
deriving Inhabited

namespace Warehouse

/-- A path below the root as a path of the system. -/
def systemPath (w : Warehouse) (path : String) : String :=
  if w.root.isEmpty then path
  else if w.root.toList.getLast? = some '/' then w.root ++ path
  else w.root ++ "/" ++ path

/-- Makes the directories to a location. The root itself lies outside the warehouse. -/
def makeParents (t : FileTree) (location : Location) : FileTree × Bool :=
  let parents := location.parts.dropLast
  if location.parts.isEmpty then (t, true)
  else if parents.any hasNull then (t, false)
  else t.makeDirectories [] parents

/-- Stores a file. Directories that were made stay when the file cannot be written. -/
def upload (w : Warehouse) (path : String) (contents : ByteArray) :
    Warehouse × Except WarehouseFault Unit :=
  match Location.ofPath path with
  | .error e => (w, .error e)
  | .ok location =>
    match makeParents w.tree location with
    | (t, false) => ({ w with tree := t }, .error (.notCreated (parentPath (w.systemPath path))))
    | (t, true) =>
      match if location.onlyDirectory then none else t.write location.parts contents with
      | some t => ({ w with tree := t }, .ok ())
      | none => ({ w with tree := t }, .error (.notWritten (w.systemPath path)))

/-- The contents of a file. -/
def download (w : Warehouse) (path : String) : Except WarehouseFault ByteArray :=
  match Location.ofPath path with
  | .error e => .error e
  | .ok location =>
    match if location.onlyDirectory then none else w.tree.file? location.parts with
    | some contents => .ok contents
    | none => .error (.notRead (w.systemPath path))

/-- Whether there is a file or a directory. -/
def holds (w : Warehouse) (path : String) : Except WarehouseFault Bool :=
  match Location.ofPath path with
  | .error e => .error e
  | .ok location =>
    .ok (w.tree.isDirectory location.parts ||
      (!location.onlyDirectory && (w.tree.file? location.parts).isSome))

end Warehouse
end PipelineManager
