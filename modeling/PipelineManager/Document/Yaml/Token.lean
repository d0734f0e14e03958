import PipelineManager.Document.Yaml.Scalar

/-!
# YAML tokens

Turns text into tokens. Indentation becomes the tokens that open and close block lists and
dictionaries. A key without mark is only known once its colon is met: the place of the last
possible key is remembered, and its tokens are put in there. Such a key lies on one line and
within 1024 characters.
-/

namespace PipelineManager.Yaml

/-- A token. -/
inductive Token where
  | version (major minor : Nat)
  | tagAlias (handle expansion : String)
  | documentStart
  | documentEnd
  | streamEnd
  | openBlockList
  | openBlockDict
  | closeBlock
  | openList
  | closeList
  | openDict
  | closeDict
  | blockItem
  | comma
  | key
  | value
  | anchor (name : String)
  | reference (name : String)
  | tag (handle suffix : String)
  | scalar (text : String) (style : Style)
deriving DecidableEq, Repr, Inhabited

/-- A place where a key without mark may have started. A required one that gets no colon is an
error. -/
structure PossibleKey where
  required : Bool
  token : Nat
  line : Nat
  column : Nat
  index : Nat
deriving Repr, Inhabited

/-- The state of scanning: the tokens so far, the open indentations, and for the current level of
brackets and each level around it the possible key. -/
structure Scan where
  cursor : Cursor
  tokens : Array Token := #[]
  indent : Int := -1
  indents : List Int := []
  keyAllowed : Bool := true
  possibleKey : Option PossibleKey := none
  outerKeys : List (Option PossibleKey) := []
deriving Inhabited

namespace Scan

/-- Whether the cursor is inside brackets or braces. -/
def inFlow (s : Scan) : Bool := !s.outerKeys.isEmpty

/-- Adds a token at the end. -/
def push (s : Scan) (t : Token) : Scan := { s with tokens := s.tokens.push t }

/-- Puts a token in at a place. -/
def putAt (s : Scan) (place : Nat) (t : Token) : Scan :=
  { s with tokens := s.tokens.insertIdxIfInBounds place t }

/-- Adds a token of `n` characters. -/
def pushMark (s : Scan) (n : Nat) (t : Token) : Scan :=
  { s.push t with cursor := s.cursor.skip n }

/-- Opens a block when the column is deeper than the indentation; its token goes to a place. -/
def openBlock (s : Scan) (column place : Nat) (t : Token) : Scan :=
  if s.inFlow then s
  else if s.indent < column then
    { s.putAt place t with indent := column, indents := s.indent :: s.indents }
  else s

/-- Closes the blocks that are deeper than a column. -/
def closeBlocks (column : Int) : List Int → Scan → Scan
  | [], s => s
  | outer :: rest, s =>
    if column < s.indent then
      closeBlocks column rest { s.push .closeBlock with indent := outer, indents := rest }
    else s

/-- Closes the blocks that are deeper than a column, outside brackets. -/
def unroll (s : Scan) (column : Int) : Scan :=
  if s.inFlow then s else closeBlocks column s.indents s

/-- Gives up the possible key of this level. -/
def dropKey (s : Scan) : Option Scan :=
  match s.possibleKey with
  | some k => if k.required then none else some { s with possibleKey := none }
  | none => some s

/-- Remembers that a key may start here. -/
def saveKey (s : Scan) : Option Scan :=
  if s.keyAllowed then do
    let s ← s.dropKey
    let c := s.cursor
    let required := !s.inFlow && s.indent = c.column
    return { s with possibleKey := some ⟨required, s.tokens.size, c.line, c.column, c.index⟩ }
  else some s

/-- Whether a possible key can no longer get its colon at the cursor. -/
def isStale (c : Cursor) (k : PossibleKey) : Bool := k.line < c.line || k.index + 1024 < c.index

/-- A possible key after the check that it is not stale; a stale required one is an error. -/
def refreshKey (c : Cursor) : Option PossibleKey → Option (Option PossibleKey)
  | none => some none
  | some k => if isStale c k then (if k.required then none else some none) else some (some k)

/-- Gives up stale possible keys of all levels. -/
def refreshKeys (s : Scan) : Option Scan := do
  return { s with
    possibleKey := ← refreshKey s.cursor s.possibleKey
    outerKeys := ← s.outerKeys.mapM (refreshKey s.cursor) }

/-- Moves over blanks, comments and line breaks. Tabs separate only where no block can start. -/
def skipGap : Nat → Scan → Scan
  | 0, s => s
  | fuel + 1, s =>
    let tabs := s.inFlow || !s.keyAllowed
    let c := (s.cursor.skipRun fun ch => ch = ' ' || (tabs && ch = '\t')).skipComment
    if c.breakAt 0 then
      skipGap fuel { s with cursor := c.skipBreak, keyAllowed := s.keyAllowed || !s.inFlow }
    else { s with cursor := c }

/-! ## Directives, anchors and tags -/

/-- A character of a tag's address. Brackets and commas may stand in a verbatim one. -/
def isTagChar (verbatim : Bool) (c : Char) : Bool :=
  isWordChar c || ";/?:@&=+$.%!~*'()".toList.contains c || (verbatim && ",[]".toList.contains c)

/-- How many bytes a character has whose first byte is `b`. -/
def byteCount? (b : Nat) : Option Nat :=
  if b < 0x80 then some 1
  else if b < 0xC0 then none
  else if b < 0xE0 then some 2
  else if b < 0xF0 then some 3
  else if b < 0xF8 then some 4
  else none

/-- A byte written as a percent sign and two hexadecimal digits. -/
def percentByte? : List Char → Option (Nat × List Char)
  | '%' :: a :: b :: rest => do return ((← Json.hexValue? a) * 16 + (← Json.hexValue? b), rest)
  | _ => none

/-- Reads `n` escaped bytes that continue a character. -/
def continuation? : Nat → Nat → List Char → Option (Nat × List Char)
  | 0, code, cs => some (code, cs)
  | n + 1, code, cs => do
    let (b, rest) ← percentByte? cs
    if b / 0x40 = 2 then continuation? n (code * 0x40 + b % 0x40) rest else none

/-- Decodes the escaped characters of a tag's address. -/
def decodeTag : Nat → List Char → Option (List Char)
  | 0, cs => if cs.isEmpty then some [] else none
  | _ + 1, [] => some []
  | fuel + 1, '%' :: rest => do
    let (b, rest) ← percentByte? ('%' :: rest)
    let n ← byteCount? b
    let lead := if n = 1 then b else b % powerOfTwo (7 - n)
    let (code, rest) ← continuation? (n - 1) lead rest
    return (← charOfCode? code) :: (← decodeTag fuel rest)
  | fuel + 1, c :: rest => (decodeTag fuel rest).map (c :: ·)

/-- Reads the address of a tag. -/
def readTagAddress (verbatim : Bool) (c : Cursor) : Option (String × Cursor) :=
  let run := c.run (isTagChar verbatim)
  (decodeTag run.length run).map fun cs => (String.ofList cs, c.skip run.length)

/-- Reads a tag handle: an exclamation mark, a word and maybe another exclamation mark. -/
def readTagHandle (c : Cursor) : Option (String × Cursor) :=
  if c.sees '!' then
    let word := (c.skip 1).run isWordChar
    let after := c.skip (word.length + 1)
    if after.sees '!' then some (String.ofList ('!' :: word ++ ['!']), after.skip 1)
    else some (String.ofList ('!' :: word), after)
  else none

/-- Reads a number of a version. -/
def readVersionNumber (c : Cursor) : Option (Nat × Cursor) :=
  let digits := c.run Char.isDigit
  if digits.isEmpty || 9 < digits.length then none
  else some (Decimal.digitsValue digits, c.skip digits.length)

/-- Reads a directive after its percent sign, up to the end of its line. -/
def readDirective (c : Cursor) : Option (Token × Cursor) := do
  let name := c.run isWordChar
  let c := c.skip name.length
  if name.isEmpty || !c.gapAt 0 then none
  let c := c.skipRun isBlank
  let (token, c) ←
    if name = "YAML".toList then do
      let (major, c) ← readVersionNumber c
      if !c.sees '.' then none
      let (minor, c) ← readVersionNumber (c.skip 1)
      some (Token.version major minor, c)
    else if name = "TAG".toList then do
      let (handle, c) ← readTagHandle c
      if handle ≠ "!" ∧ ¬ handle.endsWith "!" then none
      if !c.blankAt 0 then none
      let (expansion, after) ← readTagAddress true (c.skipRun isBlank)
      if expansion.isEmpty || !after.gapAt 0 then none
      some (Token.tagAlias handle expansion, after)
    else none
  let c := (c.skipRun isBlank).skipComment
  if !c.breakOrEndAt 0 then none
  return (token, if c.atEnd then c else c.skipBreak)

/-- Reads the name of an anchor or an alias after its mark. -/
def readAnchorName (c : Cursor) : Option (String × Cursor) :=
  let name := c.run isWordChar
  let after := c.skip name.length
  let ends := after.gapAt 0 || (after.peek?.any fun ch => "?:,]\x7d%@\x60".toList.contains ch)
  if name.isEmpty || !ends then none else some (String.ofList name, after)

/-- Reads a tag. -/
def readTag (inFlow : Bool) (c : Cursor) : Option (Token × Cursor) := do
  let (token, c) ←
    if c.at? 1 = some '<' then do
      let (suffix, after) ← readTagAddress true (c.skip 2)
      if suffix.isEmpty || !after.sees '>' then none
      some (Token.tag "" suffix, after.skip 1)
    else do
      let (handle, after) ← readTagHandle c
      if handle ≠ "!" ∧ handle.endsWith "!" then
        let (suffix, after) ← readTagAddress false after
        if suffix.isEmpty then none
        some (Token.tag handle suffix, after)
      else
        let (address, after) ← readTagAddress false after
        let suffix := String.ofList (handle.toList.drop 1) ++ address
        some (if suffix.isEmpty then Token.tag "" "!" else Token.tag "!" suffix, after)
  if (inFlow && c.sees ',') || c.gapAt 0 then return (token, c) else none

/-! ## Tokens -/

/-- The cursor's column as an indentation. -/
def column (s : Scan) : Int := s.cursor.column

/-- The token that ends the text, after the tokens that close all blocks. -/
def scanEnd (s : Scan) : Option Scan := do
  let s ← (s.unroll (-1)).dropKey
  return { s with keyAllowed := false }.push .streamEnd

/-- A directive. -/
def scanDirective (s : Scan) : Option Scan := do
  let s ← (s.unroll (-1)).dropKey
  let (token, c) ← readDirective (s.cursor.skip 1)
  return { s.push token with cursor := c, keyAllowed := false }

/-- A document marker. -/
def scanMarker (s : Scan) (t : Token) : Option Scan := do
  let s ← (s.unroll (-1)).dropKey
  return { s with keyAllowed := false }.pushMark 3 t

/-- An opening bracket or brace. -/
def scanOpen (s : Scan) (t : Token) : Option Scan := do
  let s ← s.saveKey
  return { s with
    outerKeys := s.possibleKey :: s.outerKeys, possibleKey := none, keyAllowed :=
    true }.pushMark 1 t

/-- A closing bracket or brace. -/
def scanClose (s : Scan) (t : Token) : Option Scan := do
  let s ← s.dropKey
  let s := match s.outerKeys with
    | [] => s
    | k :: outer => { s with possibleKey := k, outerKeys := outer }
  return { s with keyAllowed := false }.pushMark 1 t

/-- A comma inside brackets or braces. -/
def scanComma (s : Scan) : Option Scan := do
  let s ← s.dropKey
  return { s with keyAllowed := true }.pushMark 1 .comma

/-- The dash of a block list's item. -/
def scanBlockItem (s : Scan) : Option Scan := do
  if !s.inFlow && !s.keyAllowed then none
  let s ← (s.openBlock s.cursor.column s.tokens.size .openBlockList).dropKey
  return { s with keyAllowed := true }.pushMark 1 .blockItem

/-- The question mark of a marked key. -/
def scanKey (s : Scan) : Option Scan := do
  if !s.inFlow && !s.keyAllowed then none
  let s ← (s.openBlock s.cursor.column s.tokens.size .openBlockDict).dropKey
  return { s with keyAllowed := !s.inFlow }.pushMark 1 .key

/-- The colon of a value. The tokens of a key without mark go in where it started. -/
def scanValue (s : Scan) : Option Scan :=
  match s.possibleKey with
  | some k =>
    let s := (s.putAt k.token .key).openBlock k.column k.token .openBlockDict
    some ({ s with possibleKey := none, keyAllowed := false }.pushMark 1 .value)
  | none =>
    if !s.inFlow && !s.keyAllowed then none
    else
      let s := s.openBlock s.cursor.column s.tokens.size .openBlockDict
      some ({ s with keyAllowed := !s.inFlow }.pushMark 1 .value)

/-- An anchor or an alias. -/
def scanAnchor (s : Scan) (t : String → Token) : Option Scan := do
  let s ← s.saveKey
  let (name, c) ← readAnchorName (s.cursor.skip 1)
  return { s.push (t name) with cursor := c, keyAllowed := false }

/-- A tag. -/
def scanTag (s : Scan) : Option Scan := do
  let s ← s.saveKey
  let (t, c) ← readTag s.inFlow s.cursor
  return { s.push t with cursor := c, keyAllowed := false }

/-- A block scalar. -/
def scanBlockScalar (s : Scan) (literal : Bool) : Option Scan := do
  let s ← s.dropKey
  let (text, c) ← readBlock literal s.indent (s.cursor.skip 1)
  let t := Token.scalar (String.ofList text) (if literal then .literal else .folded)
  return { s.push t with cursor := c, keyAllowed := true }

/-- A quoted scalar. -/
def scanQuoted (s : Scan) (single : Bool) : Option Scan := do
  let s ← s.saveKey
  let (text, c) ← readQuoted single (s.cursor.rest.length + 1) {} (s.cursor.skip 1)
  return { s.push (.scalar (String.ofList text) .quoted) with cursor := c, keyAllowed := false }

/-- A plain scalar. -/
def scanPlain (s : Scan) : Option Scan := do
  let s ← s.saveKey
  let (text, broken, c) ← readPlain s.inFlow (s.indent + 1) (s.cursor.rest.length + 1) {} s.cursor
  return { s.push (.scalar (String.ofList text) .plain) with cursor := c, keyAllowed := broken }

/-- Whether a plain scalar may start with the next characters. -/
def startsPlain (s : Scan) (ch : Char) : Bool :=
  let c := s.cursor
  !("-?:,[]\x7b\x7d#&*!|>'\"%@\x60".toList.contains ch) ||
  (ch = '-' && !c.blankAt 1) ||
  (!s.inFlow && (ch = '?' || ch = ':') && !c.gapAt 1)

/-- Scans the token at the cursor, which stands on a character that is no gap. -/
def scanToken (s : Scan) (ch : Char) : Option Scan :=
  let c := s.cursor
  if c.column = 0 && ch = '%' then s.scanDirective
  else if c.seesMarker '-' then s.scanMarker .documentStart
  else if c.seesMarker '.' then s.scanMarker .documentEnd
  else if ch = '[' then s.scanOpen .openList
  else if ch = '{' then s.scanOpen .openDict
  else if ch = ']' then s.scanClose .closeList
  else if ch = '}' then s.scanClose .closeDict
  else if ch = ',' then s.scanComma
  else if ch = '-' && c.gapAt 1 then s.scanBlockItem
  else if ch = '?' && (s.inFlow || c.gapAt 1) then s.scanKey
  else if ch = ':' && (s.inFlow || c.gapAt 1) then s.scanValue
  else if ch = '*' then s.scanAnchor .reference
  else if ch = '&' then s.scanAnchor .anchor
  else if ch = '!' then s.scanTag
  else if ch = '|' && !s.inFlow then s.scanBlockScalar true
  else if ch = '>' && !s.inFlow then s.scanBlockScalar false
  else if ch = '\'' then s.scanQuoted true
  else if ch = '"' then s.scanQuoted false
  else if s.startsPlain ch && !isBlank ch then s.scanPlain
  else none

/-- Scans up to the end of the text. Every token but the last takes at least one character, so
`fuel` is never short when it is the text's length and one more. -/
def scanAll : Nat → Scan → Option Scan
  | 0, _ => none
  | fuel + 1, s => do
    let s ← (skipGap (s.cursor.rest.length + 1) s).refreshKeys
    let s := s.unroll s.column
    match s.cursor.peek? with
    | none => s.scanEnd
    | some ch => scanAll fuel (← s.scanToken ch)

end Scan

/-- The tokens of a text. A byte order mark at its start is dropped; other characters must be
printable. -/
def tokens? (text : String) : Option (List Token) :=
  let cs := match text.toList with
    | '\ufeff' :: rest => rest
    | cs => cs
  if cs.all isPrintable then
    (Scan.scanAll (cs.length + 1) { cursor := { rest := cs } }).map (·.tokens.toList)
  else none

end PipelineManager.Yaml
