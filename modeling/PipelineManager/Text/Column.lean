/-!
# Columns

Texts side by side in columns. A text that is wider than its column is written in full.
-/

namespace PipelineManager.Text

/-- A text filled up to a width at its end. -/
def padEnd (fill : Char) (width : Nat) (text : String) : String :=
  text ++ String.ofList (List.replicate (width - text.length) fill)

/-- The cells of a row in columns of the given widths. The last cell is not filled up. -/
def row : List (Nat × String) → String
  | [] => ""
  | [(_, last)] => last
  | (width, cell) :: rest => padEnd ' ' width cell ++ " | " ++ row rest

/-- A rule below a row of columns of the given widths. -/
def rule (widths : List Nat) : String :=
  String.intercalate "-|-" (widths.map fun width => padEnd '-' width "")

end PipelineManager.Text
