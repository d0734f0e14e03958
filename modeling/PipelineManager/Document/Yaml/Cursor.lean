/-!
# A position in YAML text

A cursor holds the text that is still to be read with its line, column and index. The module also
names the character classes of YAML: line breaks, blanks and the characters of names.
-/

namespace PipelineManager.Yaml

/-- A character that ends a line. -/
def isBreak (c : Char) : Bool :=
  c = '\r' || c = '\n' || c = '\u0085' || c = '\u2028' || c = '\u2029'

/-- A space or a tab. -/
def isBlank (c : Char) : Bool := c = ' ' || c = '\t'

/-- A character of anchors, directive names and tag handles. -/
def isWordChar (c : Char) : Bool := c.isAlphanum || c = '_' || c = '-'

/-- A character that may stand in YAML text. -/
def isPrintable (c : Char) : Bool :=
  let n := c.toNat
  n = 0x09 || n = 0x0A || n = 0x0D || (0x20 ≤ n && n ≤ 0x7E) || n = 0x85 ||
  (0xA0 ≤ n && n ≤ 0xFFFD && n ≠ 0xFEFF) || 0x10000 ≤ n

/-- A position in the text. -/
structure Cursor where
  rest : List Char
  line : Nat := 0
  column : Nat := 0
  index : Nat := 0
deriving Repr, Inhabited

namespace Cursor

/-- The character `n` places ahead. -/
def at? (c : Cursor) (n : Nat) : Option Char := c.rest[n]?

/-- The next character. -/
def peek? (c : Cursor) : Option Char := c.rest.head?

/-- Whether the text ends here. -/
def atEnd (c : Cursor) : Bool := c.rest.isEmpty

/-- Whether the next character is `ch`. -/
def sees (c : Cursor) (ch : Char) : Bool := c.peek? = some ch

/-- Whether the character `n` places ahead is a blank. -/
def blankAt (c : Cursor) (n : Nat) : Bool := (c.at? n).any isBlank

/-- Whether the character `n` places ahead is a line break. -/
def breakAt (c : Cursor) (n : Nat) : Bool := (c.at? n).any isBreak

/-- Whether the line ends `n` places ahead. -/
def breakOrEndAt (c : Cursor) (n : Nat) : Bool := (c.at? n).all isBreak

/-- Whether a blank, a line break or the end of the text is `n` places ahead. -/
def gapAt (c : Cursor) (n : Nat) : Bool := (c.at? n).all fun ch => isBlank ch || isBreak ch

/-- Moves over `n` characters of a line. -/
def skip (c : Cursor) (n : Nat) : Cursor :=
  { c with rest := c.rest.drop n, column := c.column + n, index := c.index + n }

/-- Moves over a line break. A carriage return and a line feed count as one break. -/
def skipBreak (c : Cursor) : Cursor :=
  let n := match c.rest with
    | '\r' :: '\n' :: _ => 2
    | _ => 1
  { rest := c.rest.drop n, line := c.line + 1, column := 0, index := c.index + n }

/-- What a line break leaves in a scalar: a line feed, or the separator itself when it is one of
the two Unicode separators. Nothing is left at the end of the text. -/
def breakText (c : Cursor) : List Char :=
  match c.peek? with
  | none => []
  | some '\u2028' => ['\u2028']
  | some '\u2029' => ['\u2029']
  | some _ => ['\n']

/-- The characters from here on that satisfy `p`, which holds of no line break. -/
def run (c : Cursor) (p : Char → Bool) : List Char := c.rest.takeWhile p

/-- Moves over the characters that satisfy `p`. -/
def skipRun (c : Cursor) (p : Char → Bool) : Cursor := c.skip (c.run p).length

/-- Moves over a comment, if there is one. -/
def skipComment (c : Cursor) : Cursor :=
  if c.sees '#' then c.skipRun fun ch => !isBreak ch else c

/-- Whether a document marker (`---` or `...`) stands here at the start of a line. -/
def seesMarker (c : Cursor) (mark : Char) : Bool :=
  c.column = 0 && c.at? 0 = some mark && c.at? 1 = some mark && c.at? 2 = some mark && c.gapAt 3

/-- Whether either document marker stands here. -/
def seesAnyMarker (c : Cursor) : Bool := c.seesMarker '-' || c.seesMarker '.'

end Cursor
end PipelineManager.Yaml
