/-!
# Lines of a text

`splitLines` cuts a text behind every line feed; joining the pieces again gives the text.
`lines` gives the lines without what ends them.
-/

namespace PipelineManager.Text

/-- A line and whether a line feed ends it. Only the last line of a text may lack one. -/
structure Line where
  text : List Char
  ended : Bool
deriving DecidableEq, Repr, Inhabited

/-- The line as it stands in the text. -/
def Line.source (l : Line) : List Char := if l.ended then l.text ++ ['\n'] else l.text

/-- Puts a character in front of the first line. -/
def consLine (c : Char) : List Line → List Line
  | [] => [⟨[c], false⟩]
  | l :: rest => { l with text := c :: l.text } :: rest

/-- Cuts a text behind every line feed. -/
def splitLines : List Char → List Line
  | [] => []
  | c :: rest => if c = '\n' then ⟨[], true⟩ :: splitLines rest else consLine c (splitLines rest)

/-- A line without the carriage return in front of its line feed. -/
def Line.content (l : Line) : List Char :=
  if l.ended && l.text.getLast? = some '\r' then l.text.dropLast else l.text

/-- The lines of a text, without line feeds and carriage returns in front of them. A text that
ends with a line feed has no empty last line. -/
def lines (cs : List Char) : List (List Char) := (splitLines cs).map Line.content

/-- A character that is put in front of lines is in front of their source. -/
theorem flatMap_source_consLine (c : Char) (ls : List Line) :
    (consLine c ls).flatMap Line.source = c :: ls.flatMap Line.source := by
  cases ls with
  | nil => simp [consLine, Line.source]
  | cons l rest => by_cases e : l.ended <;> simp [consLine, Line.source, e]

/-- The lines as they stand give the text again. -/
theorem flatMap_source_splitLines (cs : List Char) : (splitLines cs).flatMap Line.source = cs := by
  induction cs with
  | nil => rfl
  | cons c rest ih =>
    by_cases h : c = '\n'
    · simp [splitLines, h, Line.source, ih]
    · simp [splitLines, h, flatMap_source_consLine c, ih]

/-- A line feed ends the line in front of it. -/
theorem splitLines_append_newline {cs : List Char} (h : '\n' ∉ cs) (rest : List Char) :
    splitLines (cs ++ '\n' :: rest) = ⟨cs, true⟩ :: splitLines rest := by
  induction cs with
  | nil => simp [splitLines]
  | cons c cs ih =>
    rw [List.mem_cons, not_or] at h
    simp [splitLines, Ne.symm h.1, ih h.2, consLine]

end PipelineManager.Text
