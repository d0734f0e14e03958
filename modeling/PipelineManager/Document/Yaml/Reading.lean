import PipelineManager.Document.Yaml.Node

/-!
# Reading YAML documents

What a document stands for: a tree of values, or the parts of a typed record. Aliases are
followed, at most a hundred times as often as the document has parts; lists and dictionaries
nest at most 128 deep. `Yaml.read?` gives the tree of a text.
-/

namespace PipelineManager.Yaml

/-- Reading a part of a document, with the count of aliases that may still be followed. -/
abbrev Reading (α : Type) := StateT Nat Option α

/-- How deep lists and dictionaries may nest. -/
def maxDepth : Nat := 128

namespace Document

variable (d : Document)

/-- The node itself, or the node that an alias stands for. -/
def follow : Node → Reading Node
  | .reference id => do
    match ← get with
    | 0 => failure
    | left + 1 =>
      set left
      match d.target? id with
      | some n => return n
      | none => failure
  | n => return n

/-- Whether a tag is one of the document's own, which no value has. -/
def ownTag (tag : Option String) : Bool := tag.any (·.startsWith "!")

/-- The text of a key or a typed text: the scalar as written, whatever it looks like. -/
def text (n : Node) : Reading String := do
  match ← d.follow n with
  | .scalar _ _ s => return s
  | _ => failure

/-- The value of a plain scalar in a tree; a real that is not finite is null. -/
def plainTree : Plain → Value
  | .null | .notFinite => .null
  | .bool b => .bool b
  | .int n => .int n
  | .real x => .real x
  | .str s => .str s

/-- The tree that a node stands for. -/
def tree : Nat → Node → Reading Value
  | depth, n => do
    match ← d.follow n with
    | .scalar tag style s =>
      match scalarValue? tag style s with
      | some v => return plainTree v
      | none => failure
    | .list tag items =>
      match depth with
      | 0 => failure
      | depth + 1 =>
        if ownTag tag then failure
        return .list (← items.mapM (tree depth))
    | .dict tag entries =>
      match depth with
      | 0 => failure
      | depth + 1 =>
        if ownTag tag then failure
        return .ofEntries (← entries.mapM fun e => do return (← d.text e.1, ← tree depth e.2))
    | .reference _ => failure

/-- Reads the whole document. -/
def run {α : Type} (reading : Reading α) : Option α :=
  let parts := match d.root with
    | some n => n.size
    | none => 1
  (reading.run (parts * 100)).map (·.1)

/-- The tree of the document; an empty text is null. -/
def toValue? : Option Value :=
  match d.root with
  | none => some .null
  | some n => d.run (d.tree maxDepth n)

end Document

/-- Reads a text as one document and gives its tree. -/
def read? (text : String) : Option Value := do (← Document.read? text).toValue?

end PipelineManager.Yaml
