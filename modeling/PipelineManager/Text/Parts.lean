/-!
# Parts of a text

`parts` cuts a text at every occurrence of a separator, and `joinParts` puts a separator between
parts.
-/

namespace PipelineManager.Text

/-- Puts a character in front of the first part. -/
def consPart (c : Char) : List (List Char) → List (List Char)
  | [] => [[c]]
  | p :: rest => (c :: p) :: rest

/-- The parts of a text between separators. There is always one. -/
def parts (separator : Char) : List Char → List (List Char)
  | [] => [[]]
  | c :: cs => if c = separator then [] :: parts separator cs else consPart c (parts separator cs)

/-- Joins parts with a separator. -/
def joinParts (separator : Char) : List (List Char) → List Char
  | [] => []
  | [p] => p
  | p :: rest => p ++ separator :: joinParts separator rest

/-- There is a part, if only the empty one. -/
theorem parts_ne_nil (separator : Char) (cs : List Char) : parts separator cs ≠ [] := by
  cases cs with
  | nil => simp [parts]
  | cons c cs =>
    rw [parts]
    split
    · simp
    · cases parts separator cs <;> simp [consPart]

end PipelineManager.Text
