import PipelineManager.Document.Json.Writer

/-!
# Indented JSON text

Writes a document tree with every item and every entry on a line of its own, indented by two
blanks for each level. Empty lists and dictionaries stay on one line.
-/

namespace PipelineManager.Json

/-- The start of a line at a depth. -/
def newLine (depth : Nat) : String := String.ofList ('\n' :: List.replicate (2 * depth) ' ')

mutual
/-- The indented text of a tree at a depth. -/
def indentedAt (depth : Nat) : Value → String
  | .list [] => "[]"
  | .list (v :: rest) => "[" ++ indentedItems (depth + 1) (v :: rest) ++ newLine depth ++ "]"
  | .dict [] => "\x7b\x7d"
  | .dict (e :: rest) =>
    "\x7b" ++ indentedEntries (depth + 1) (e :: rest) ++ newLine depth ++ "\x7d"
  | v => text v

/-- The lines of items. -/
def indentedItems (depth : Nat) : List Value → String
  | [] => ""
  | [v] => newLine depth ++ indentedAt depth v
  | v :: rest => newLine depth ++ indentedAt depth v ++ "," ++ indentedItems depth rest

/-- The lines of entries. -/
def indentedEntries (depth : Nat) : List (String × Value) → String
  | [] => ""
  | [(k, v)] => newLine depth ++ quoted k ++ ": " ++ indentedAt depth v
  | (k, v) :: rest =>
    newLine depth ++ quoted k ++ ": " ++ indentedAt depth v ++ "," ++ indentedEntries depth rest
end

/-- The indented text of a tree. -/
def indented (v : Value) : String := indentedAt 0 v

end PipelineManager.Json
