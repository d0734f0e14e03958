import PipelineManager.Pipeline.Slot
import PipelineManager.Text.Blank
import PipelineManager.Text.Lines

/-!
# Pipeline templates

A template is read line by line. The marker of a slot stands alone on its line, and the white
space in front of it indents every line of the slot's commands; placeholders may stand anywhere
else. The lines between two slots are kept as one text. Filling replaces slots by commands and the
placeholders of those texts by values; neither are looked through for markers.
-/

namespace PipelineManager

/-- What is wrong with a template. Lines count from 1. -/
inductive TemplateError where
  | unknownMarker (marker : String) (line : Nat)
  | inlineSlot (slot : Slot) (line : Nat)
  | duplicateSlot (slot : Slot) (line : Nat)
  | missingSlot (slot : Slot)
deriving DecidableEq, Repr

/-- The wording of a template error. -/
def TemplateError.message : TemplateError → String
  | unknownMarker marker line => "line " ++ Nat.repr line ++ ": unknown marker <" ++ marker ++ ">"
  | inlineSlot slot line =>
    "line " ++ Nat.repr line ++ ": block marker " ++ slot.marker ++ " must be alone on its line"
  | duplicateSlot slot line =>
    "line " ++ Nat.repr line ++ ": block marker " ++ slot.marker ++ " appears more than once"
  | missingSlot slot => "template has no " ++ slot.marker ++ " block marker"

/-- Why a template cannot be filled. -/
inductive FillError where
  | emptySlot (slot : Slot)
  | missingValue (name : String)
deriving DecidableEq, Repr

/-- The wording of a fill error. -/
def FillError.message : FillError → String
  | emptySlot slot => "no commands for block " ++ slot.marker
  | missingValue name => "no value for placeholder <" ++ name ++ ">"

/-! ## Markers in a text -/

/-- A character of a marker's name. -/
def isMarkerChar (c : Char) : Bool := c.isLower || c.isDigit || c = '_'

/-- Reads a marker after its opening bracket: a name that starts with a lower-case letter, and
the closing bracket. -/
def readMarker (cs : List Char) : Option (List Char × List Char) :=
  match cs.takeWhile isMarkerChar, cs.dropWhile isMarkerChar with
  | c :: name, '>' :: rest => if c.isLower then some (c :: name, rest) else none
  | _, _ => none

/-- Dropping leaves no more. -/
theorem length_dropWhile_le {α : Type} (p : α → Bool) (xs : List α) :
    (xs.dropWhile p).length ≤ xs.length := by
  induction xs with
  | nil => simp
  | cons x xs ih =>
    rw [List.dropWhile_cons]
    split
    · simp only [List.length_cons]
      omega
    · simp

/-- A marker takes at least one character. -/
theorem length_lt_of_readMarker {cs name rest : List Char} (h : readMarker cs = some (name, rest)) :
    rest.length < cs.length := by
  have hle := length_dropWhile_le isMarkerChar cs
  unfold readMarker at h
  split at h
  · next c tail after _ hdrop =>
    split at h
    · obtain ⟨-, rfl⟩ := Prod.mk.inj (Option.some.inj h)
      rw [hdrop, List.length_cons] at hle
      omega
    · exact absurd h (by simp)
  · exact absurd h (by simp)

/-- A part of a text: one character, or a marker by its name. -/
inductive Piece where
  | char (c : Char)
  | marker (name : List Char)
deriving DecidableEq, Repr, Inhabited

/-- The part as it stands in the text. -/
def Piece.source : Piece → List Char
  | char c => [c]
  | marker name => '<' :: name ++ ['>']

/-- Cuts a text into markers and the characters between them. -/
def pieces : List Char → List Piece
  | [] => []
  | c :: rest =>
    if c = '<' then
      match h : readMarker rest with
      | some (name, after) =>
        have : after.length < rest.length := length_lt_of_readMarker h
        .marker name :: pieces after
      | none => .char c :: pieces rest
    else .char c :: pieces rest
termination_by cs => cs.length
decreasing_by all_goals (simp only [List.length_cons]; omega)

/-- The names of the markers in a text, in order. -/
def markerNames (cs : List Char) : List String :=
  (pieces cs).filterMap fun
    | .marker name => some (String.ofList name)
    | .char _ => none

/-! ## Templates -/

/-- A part of a template: the line of a slot with its indentation, or a run of lines
without slot. -/
inductive Segment where
  | slot (slot : Slot) (indent : List Char) (ended : Bool)
  | text (run : List Char)
deriving DecidableEq, Repr, Inhabited

/-- A template, cut at its slots. -/
structure Template where
  segments : List Segment
deriving DecidableEq, Repr, Inhabited

namespace Template

/-- The slot that a line holds, if any. The first marker from the left that is neither a
placeholder nor a slot alone on its line is an error. -/
def slotOfLine? (number : Nat) (line : List Char) : List String → Except TemplateError (Option Slot)
  | [] => .ok none
  | name :: rest =>
    match Slot.ofName? name with
    | some slot =>
      if Text.trim line = slot.marker.toList then
        match slotOfLine? number line rest with
        | .ok later => .ok (later.or (some slot))
        | .error e => .error e
      else .error (.inlineSlot slot number)
    | none =>
      if (Placeholder.ofName? name).isSome then slotOfLine? number line rest
      else .error (.unknownMarker name number)

/-- Puts a line in front of segments. A line without slot joins the text that comes first. -/
def consSegment (slot : Option Slot) (l : Text.Line) (later : List Segment) : List Segment :=
  match slot, later with
  | some s, _ => .slot s (l.text.takeWhile Text.isBlank) l.ended :: later
  | none, .text run :: rest => .text (l.source ++ run) :: rest
  | none, _ => .text l.source :: later

/-- Reads a line by its number behind those that hold the slots `seen`. -/
def readLine (number : Nat) (seen : List Slot) (l : Text.Line) :
    Except TemplateError (Option Slot) := do
  match ← slotOfLine? number l.text (markerNames l.text) with
  | some s => if seen.contains s then .error (.duplicateSlot s number) else return some s
  | none => return none

/-- Reads lines from a number on. `seen` holds the slots before them. -/
def parseLines : Nat → List Slot → List Text.Line → Except TemplateError (List Segment × List Slot)
  | _, seen, [] => .ok ([], seen)
  | number, seen, l :: rest => do
    let slot ← readLine number seen l
    let (later, seen) ← parseLines (number + 1) (slot.toList ++ seen) rest
    return (consSegment slot l later, seen)

/-- Reads a template. Every slot stands in it exactly once. -/
def parse (text : String) : Except TemplateError Template := do
  let (segments, seen) ← parseLines 1 [] (Text.splitLines text.toList)
  match Slot.all.find? fun s => !seen.contains s with
  | some missing => .error (.missingSlot missing)
  | none => return ⟨segments⟩

/-- The indentation of a slot. -/
def indentOf? (t : Template) (slot : Slot) : Option String :=
  t.segments.findSome? fun
    | .slot s indent _ => if s = slot then some (String.ofList indent) else none
    | .text _ => none

/-- The lines of commands, each behind an indentation, with line feeds between them. -/
def indented (indent : List Char) (commands : List String) : List Char :=
  List.intercalate ['\n'] ((commands.flatMap fun c => Text.lines c.toList).map (indent ++ ·))

/-- A piece of a text, a marker by the value of its placeholder. -/
def fillPiece (values : Placeholder → Option String) : Piece → Except FillError (List Char)
  | .char c => .ok [c]
  | .marker name =>
    match (Placeholder.ofName? (String.ofList name)).bind values with
    | some v => .ok v.toList
    | none => .error (.missingValue (String.ofList name))

/-- A run of lines with values in place of its markers. -/
def substitute (values : Placeholder → Option String) (run : List Char) :
    Except FillError (List Char) := do
  return (← (pieces run).mapM (fillPiece values)).flatten

/-- The text of a filled segment. -/
def fillSegment (blocks : Slot → List String) (values : Placeholder → Option String) :
    Segment → Except FillError (List Char)
  | .slot s indent ended =>
    if (blocks s).isEmpty then .error (.emptySlot s)
    else .ok (indented indent (blocks s) ++ if ended then ['\n'] else [])
  | .text run => substitute values run

/-- The text of a template with commands in its slots and values for its placeholders. -/
def fill (t : Template) (blocks : Slot → List String) (values : Placeholder → Option String) :
    Except FillError String := do
  return String.ofList (← t.segments.mapM (fillSegment blocks values)).flatten

end Template
end PipelineManager
