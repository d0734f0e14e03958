import PipelineManager.Document.Yaml.Cursor
import PipelineManager.Document.Json.Reader

/-!
# YAML scalars

How the text of a scalar is read: folding of line breaks in quoted and plain scalars, block
scalars, and the value that a plain text stands for.
-/

namespace PipelineManager.Yaml

/-- How a scalar was written. -/
inductive Style where
  | plain
  | quoted
  | literal
  | folded
deriving DecidableEq, Repr, Inhabited

/-! ## Folding -/

/-- The text of a scalar so far, in reverse, with blanks and line breaks that still wait for the
next character. The first break after a text is kept apart from those that follow it. -/
structure Folding where
  text : List Char := []
  blanks : List Char := []
  broken : Bool := false
  firstBreak : List Char := []
  moreBreaks : List Char := []
deriving Repr, Inhabited

namespace Folding

/-- Whether blanks or breaks wait. -/
def waits (f : Folding) : Bool := f.broken || !f.blanks.isEmpty

/-- Takes what waits into the text. A single line feed becomes a space, and one line feed before
further breaks disappears. -/
def settle (f : Folding) : Folding :=
  let text :=
    if f.broken then
      if f.firstBreak = ['\n'] then
        if f.moreBreaks.isEmpty then ' ' :: f.text else f.moreBreaks ++ f.text
      else f.moreBreaks ++ f.firstBreak ++ f.text
    else f.blanks ++ f.text
  { text }

/-- Adds a character of the text. -/
def push (f : Folding) (c : Char) : Folding :=
  let f := f.settle
  { f with text := c :: f.text }

/-- Adds a blank, which is dropped at the start of a line. -/
def pushBlank (f : Folding) (c : Char) : Folding :=
  if f.broken then f else { f with blanks := c :: f.blanks }

/-- Adds a line break. -/
def pushBreak (f : Folding) (text : List Char) : Folding :=
  if f.broken then { f with moreBreaks := text ++ f.moreBreaks }
  else { f with broken := true, blanks := [], firstBreak := text }

/-- Starts a new line without a break, as an escaped line break does. -/
def continueLine (f : Folding) : Folding :=
  let f := f.settle
  { f with broken := true }

/-- The text, in order. -/
def result (f : Folding) : List Char := f.text.reverse

end Folding

/-- The character that a backslash and one letter stand for in a double-quoted scalar. -/
def escape? : Char → Option Char
  | '0' => some '\x00'
  | 'a' => some '\x07'
  | 'b' => some '\x08'
  | 't' => some '\t'
  | '\t' => some '\t'
  | 'n' => some '\n'
  | 'v' => some '\x0b'
  | 'f' => some '\x0c'
  | 'r' => some '\r'
  | 'e' => some '\x1b'
  | ' ' => some ' '
  | '"' => some '"'
  | '/' => some '/'
  | '\\' => some '\\'
  | 'N' => some '\u0085'
  | '_' => some '\u00a0'
  | 'L' => some '\u2028'
  | 'P' => some '\u2029'
  | _ => none

/-- How many hexadecimal digits follow an escape. -/
def escapeDigits? : Char → Option Nat
  | 'x' => some 2
  | 'u' => some 4
  | 'U' => some 8
  | _ => none

/-- The number that hexadecimal digits give. -/
def hexNumber? (cs : List Char) : Option Nat :=
  cs.foldlM (fun n c => (Json.hexValue? c).map fun d => n * 16 + d) 0

/-- The character of a code point that is not a surrogate. -/
def charOfCode? (n : Nat) : Option Char :=
  if h : n.isValidChar then some (Char.ofNatAux n h) else none

/-- Reads a quoted scalar after its opening quote, with the closing quote. A document marker
may not stand inside. -/
def readQuoted (single : Bool) : Nat → Folding → Cursor → Option (List Char × Cursor)
  | 0, _, _ => none
  | fuel + 1, f, c =>
    match c.peek? with
    | none => none
    | some ch =>
      if c.seesAnyMarker then none
      else if isBlank ch then readQuoted single fuel (f.pushBlank ch) (c.skip 1)
      else if isBreak ch then readQuoted single fuel (f.pushBreak c.breakText) c.skipBreak
      else if single then
        if ch = '\'' then
          if c.at? 1 = some '\'' then readQuoted single fuel (f.push '\'') (c.skip 2)
          else some (f.settle.result, c.skip 1)
        else readQuoted single fuel (f.push ch) (c.skip 1)
      else if ch = '"' then some (f.settle.result, c.skip 1)
      else if ch = '\\' then
        if c.breakAt 1 then readQuoted single fuel f.continueLine (c.skip 1).skipBreak
        else match c.at? 1 with
          | none => none
          | some e =>
            match escapeDigits? e with
            | some n =>
              let digits := (c.rest.drop 2).take n
              if digits.length < n then none
              else match (hexNumber? digits).bind charOfCode? with
                | some v => readQuoted single fuel (f.push v) (c.skip (n + 2))
                | none => none
            | none =>
              match escape? e with
              | some v => readQuoted single fuel (f.push v) (c.skip 2)
              | none => none
      else readQuoted single fuel (f.push ch) (c.skip 1)

/-- A character that ends a plain scalar inside brackets or braces. -/
def isFlowIndicator (c : Char) : Bool := c = ',' || c = '[' || c = ']' || c = '{' || c = '}'

/-- Reads a plain scalar. Its further lines are indented by at least `indent` unless it stands
inside brackets or braces. The last part says whether it ended after a line break. -/
def readPlain (inFlow : Bool) (indent : Int) :
    Nat → Folding → Cursor → Option (List Char × Bool × Cursor)
  | 0, _, _ => none
  | fuel + 1, f, c =>
    let done := some (f.result, f.broken, c)
    match c.peek? with
    | none => done
    | some ch =>
      if isBlank ch then
        if f.broken && c.column < indent && ch = '\t' then none
        else readPlain inFlow indent fuel (f.pushBlank ch) (c.skip 1)
      else if isBreak ch then readPlain inFlow indent fuel (f.pushBreak c.breakText) c.skipBreak
      else if f.waits && !inFlow && c.column < indent then done
      else if c.seesAnyMarker then done
      else if f.waits && ch = '#' then done
      else if inFlow && ch = ':' && (c.at? 1).any (fun n => isFlowIndicator n || n = '?') then none
      else if ch = ':' && c.gapAt 1 then done
      else if inFlow && isFlowIndicator ch then done
      else readPlain inFlow indent fuel (f.push ch) (c.skip 1)

/-! ## Block scalars -/

/-- What becomes of the line breaks at the end of a block scalar. -/
inductive Chomping where
  | strip
  | clip
  | keep
deriving DecidableEq, Repr

/-- The indentation of a block scalar and the cursor after leading empty lines, with their
breaks. Without a given indentation it is that of the deepest of these lines, and deeper than
the parent's. -/
def readBlockBreaks (parent : Int) :
    Nat → Nat → Nat → List Char → Cursor → Option (Nat × List Char × Cursor)
  | 0, _, _, _, _ => none
  | fuel + 1, indent, deepest, breaks, c =>
    let spaces := (c.run (· = ' ')).length
    let spaces := if indent = 0 then spaces else min spaces (indent - c.column)
    let c := c.skip spaces
    let deepest := max deepest c.column
    if (indent = 0 || c.column < indent) && c.sees '\t' then none
    else if c.breakAt 0 then
      readBlockBreaks parent fuel indent deepest (c.breakText ++ breaks) c.skipBreak
    else
      let indent := if indent = 0 then max (max deepest (parent + 1).toNat) 1 else indent
      some (indent, breaks, c)

/-- The lines of a block scalar: the text so far in reverse, the break that ended its last line,
the empty lines after that, and whether the last line started with a blank. -/
structure BlockLines where
  text : List Char := []
  lastBreak : List Char := []
  emptyLines : List Char := []
  startedBlank : Bool := false

/-- Reads the lines of a block scalar at an indentation. -/
def readBlockLines (literal : Bool) (parent : Int) (indent : Nat) :
    Nat → BlockLines → Cursor → Option (BlockLines × Cursor)
  | 0, _, _ => none
  | fuel + 1, b, c =>
    if c.column = indent && !c.atEnd then
      let blank := c.blankAt 0
      let joined :=
        if !literal && b.lastBreak = ['\n'] && !b.startedBlank && !blank then
          if b.emptyLines.isEmpty then ' ' :: b.text else b.emptyLines ++ b.text
        else b.emptyLines ++ b.lastBreak ++ b.text
      let line := c.run fun ch => !isBreak ch
      let c := c.skip line.length
      let lastBreak := c.breakText
      let c := if c.atEnd then c else c.skipBreak
      match readBlockBreaks parent (c.rest.length + 1) indent 0 [] c with
      | none => none
      | some (_, emptyLines, c) =>
        readBlockLines literal parent indent fuel
          { text := line.reverse ++ joined, lastBreak, emptyLines, startedBlank := blank } c
    else some (b, c)

/-- Reads the chomping and indentation indicators of a block scalar. -/
def readBlockHeader (c : Cursor) : Option (Chomping × Nat × Cursor) :=
  let chomping? (ch : Option Char) : Option Chomping := match ch with
    | some '+' => some .keep
    | some '-' => some .strip
    | _ => none
  let digit? (ch : Option Char) : Option Nat := match ch with
    | some d => if d.isDigit then some (d.toNat - '0'.toNat) else none
    | none => none
  match chomping? c.peek? with
  | some chomping =>
    match digit? (c.at? 1) with
    | some 0 => none
    | some n => some (chomping, n, c.skip 2)
    | none => some (chomping, 0, c.skip 1)
  | none =>
    match digit? c.peek? with
    | some 0 => none
    | some n =>
      match chomping? (c.at? 1) with
      | some chomping => some (chomping, n, c.skip 2)
      | none => some (.clip, n, c.skip 1)
    | none => some (.clip, 0, c)

/-- Reads a block scalar after its indicator. -/
def readBlock (literal : Bool) (parent : Int) (c : Cursor) : Option (List Char × Cursor) := do
  let (chomping, increment, c) ← readBlockHeader c
  let c := (c.skipRun isBlank).skipComment
  if !c.breakOrEndAt 0 then none
  let c := if c.atEnd then c else c.skipBreak
  let given : Nat := if increment = 0 then 0 else ((max parent 0) + increment).toNat
  let fuel := c.rest.length + 1
  let (indent, breaks, c) ← readBlockBreaks parent fuel given 0 [] c
  let (b, c) ← readBlockLines literal parent indent fuel { emptyLines := breaks } c
  let text := match chomping with
    | .strip => b.text
    | .clip => b.lastBreak ++ b.text
    | .keep => b.emptyLines ++ b.lastBreak ++ b.text
  return (text.reverse, c)

/-! ## Plain values -/

/-- What a scalar stands for. Reals without a finite value are kept apart. -/
inductive Plain where
  | null
  | bool (b : Bool)
  | int (n : Int)
  | real (x : Binary64)
  | notFinite
  | str (s : String)
deriving DecidableEq, Repr, Inhabited

/-- The texts of null. -/
def isNull (s : String) : Bool := s = "null" || s = "Null" || s = "NULL" || s = "~"

/-- The texts of truth values. -/
def bool? (s : String) : Option Bool :=
  if s = "true" ∨ s = "True" ∨ s = "TRUE" then some true
  else if s = "false" ∨ s = "False" ∨ s = "FALSE" then some false
  else none

/-- The value of a digit in a base up to sixteen. -/
def digitIn? (base : Nat) (c : Char) : Option Nat :=
  (Json.hexValue? c).bind fun d => if d < base then some d else none

/-- The number of a non-empty run of digits in a base. -/
def numberIn? (base : Nat) (cs : List Char) : Option Nat :=
  if cs.isEmpty then none
  else cs.foldlM (fun n c => (digitIn? base c).map fun d => n * base + d) 0

/-- The base that a two-character mark names. -/
def baseOfMark? : Char → Option Nat
  | 'x' => some 16
  | 'o' => some 8
  | 'b' => some 2
  | _ => none

/-- Whether a text is digits with a superfluous leading zero, which is no number. -/
def hasSpareZero (cs : List Char) : Bool :=
  let body := match cs with
    | '-' :: rest | '+' :: rest => rest
    | _ => cs
  match body with
  | '0' :: rest => !rest.isEmpty && rest.all Char.isDigit
  | _ => false

/-- The magnitude of an unsigned integer text. -/
def magnitude? (cs : List Char) : Option Nat :=
  let marked := match cs with
    | '0' :: m :: rest => (baseOfMark? m).bind fun base => numberIn? base rest
    | _ => none
  match marked with
  | some n => some n
  | none => numberIn? 10 cs

/-- The integer of a text: an optional sign, then decimal digits without a spare zero or digits
of the base that `0x`, `0o` or `0b` names. -/
def integer? (cs : List Char) : Option Int :=
  if hasSpareZero cs then none
  else match cs with
    | '-' :: rest => (magnitude? rest).map fun n => -(n : Int)
    | '+' :: rest => (magnitude? rest).map fun n => (n : Int)
    | _ => (magnitude? cs).map fun n => (n : Int)

/-- The finite real of a decimal text without sign: digits with a point, at least one of them a
digit, and an optional exponent. -/
def decimal? (negative : Bool) (cs : List Char) : Option Binary64 := do
  let whole := cs.takeWhile Char.isDigit
  let cs := cs.dropWhile Char.isDigit
  let (fraction, cs) := match cs with
    | '.' :: rest => (rest.takeWhile Char.isDigit, rest.dropWhile Char.isDigit)
    | _ => ([], cs)
  if whole.isEmpty && fraction.isEmpty then none
  let exponent : Int ← match cs with
    | [] => some 0
    | 'e' :: rest | 'E' :: rest => do
      let (e, rest) ← Json.readExponent rest
      if rest.isEmpty then some e else none
    | _ => none
  Binary64.ofDecimal? negative (Decimal.digitsValue (whole ++ fraction))
    (exponent - fraction.length)

/-- The real of a text. -/
def real? (s : String) : Option Plain :=
  if s = ".inf" ∨ s = ".Inf" ∨ s = ".INF" ∨ s = "+.inf" ∨ s = "+.Inf" ∨ s = "+.INF" ∨
     s = "-.inf" ∨ s = "-.Inf" ∨ s = "-.INF" ∨ s = ".nan" ∨ s = ".NaN" ∨ s = ".NAN" then
    some .notFinite
  else match s.toList with
    | '-' :: rest => (decimal? true rest).map .real
    | '+' :: rest => (decimal? false rest).map .real
    | cs => (decimal? false cs).map .real

/-- The integer of a text as a value. Integers of a document have 64 bits: those that need up to
128 are refused (`some none`), larger ones are no integers. -/
def integerValue? (s : String) : Option (Option Plain) :=
  match integer? s.toList with
  | none => none
  | some n =>
    if Value.minInteger ≤ n ∧ n ≤ Value.maxInteger then some (some (.int n))
    else if -(powerOfTwo 127 : Int) ≤ n ∧ n < powerOfTwo 128 then some none
    else none

/-- The value of an untagged plain scalar; there is none for an integer of more than 64 bits. -/
def plainValue? (s : String) : Option Plain :=
  if s.isEmpty || isNull s then some .null
  else match bool? s with
    | some b => some (.bool b)
    | none =>
      match integerValue? s with
      | some answer => answer
      | none =>
        if hasSpareZero s.toList then some (.str s)
        else some ((real? s).getD (.str s))

/-- The value of a scalar with an optional tag. The four known tags convert or refuse, a tag of
the document's own is refused, and any other tag keeps the text. -/
def scalarValue? (tag : Option String) (style : Style) (s : String) : Option Plain :=
  match tag with
  | none => if style = .plain then plainValue? s else some (.str s)
  | some tag =>
    if tag.startsWith "!" then none
    else if tag = "tag:yaml.org,2002:bool" then (bool? s).map .bool
    else if tag = "tag:yaml.org,2002:int" then (integerValue? s).join
    else if tag = "tag:yaml.org,2002:float" then real? s
    else if tag = "tag:yaml.org,2002:null" then if isNull s then some .null else none
    else some (.str s)

end PipelineManager.Yaml
