import PipelineManager.Document.Toml.Scalar
import PipelineManager.Document.Toml.Text

/-!
# Reading TOML text

A text is read into statements, one a line, and the statements make the document. Arrays and
tables between braces nest at most 79 deep, and a key has at most 79 parts.
-/

namespace PipelineManager.Toml

/-- How deep values may nest and how many parts a key may have. -/
def maxDepth : Nat := 79

/-- The text behind blanks. -/
def skipBlanks (cs : List Char) : List Char := cs.dropWhile isBlank

/-- The text behind a comment, if there is one. -/
def skipComment : List Char → List Char
  | '#' :: rest => rest.dropWhile isPrintable
  | cs => cs

/-- The text behind a line end. -/
def lineEnd? : List Char → Option (List Char)
  | '\n' :: rest => some rest
  | '\r' :: '\n' :: rest => some rest
  | _ => none

/-- The text behind what may end a line: blanks and a comment. The end of the text is a line end
too. -/
def restOfLine? (cs : List Char) : Option (List Char) :=
  match skipComment (skipBlanks cs) with
  | [] => some []
  | cs => lineEnd? cs

/-- The text behind blanks, comments and line ends, at most `fuel` of them. -/
def skipLines : Nat → List Char → List Char
  | 0, cs => cs
  | fuel + 1, cs =>
    match lineEnd? (skipComment (skipBlanks cs)) with
    | some rest => skipLines fuel rest
    | none => skipBlanks cs

/-- A character of a bare key. -/
def isKeyChar (c : Char) : Bool := c.isAlphanum || c = '_' || c = '-'

/-- A part of a key: a bare word or a quoted text of one line. -/
def keyPart? : List Char → Option (String × List Char)
  | '"' :: rest => (basicTail rest).map fun r => (String.ofList r.1, r.2)
  | '\'' :: rest => (literalTail rest).map fun r => (String.ofList r.1, r.2)
  | cs =>
    let word := cs.takeWhile isKeyChar
    if word.isEmpty then none else some (String.ofList word, cs.dropWhile isKeyChar)

/-- A key of at most so many parts with blanks around it. -/
def keyPath? : Nat → List Char → Option (KeyPath × List Char)
  | 0, _ => none
  | parts + 1, cs => do
    let (key, cs) ← keyPart? (skipBlanks cs)
    match skipBlanks cs with
    | '.' :: cs =>
      let (path, cs) ← keyPath? parts cs
      return ({ path with parents := key :: path.parents }, cs)
    | cs => return (⟨[], key⟩, cs)

/-- A character of a number, a word or a date. -/
def isScalarChar (c : Char) : Bool :=
  c.isAlphanum || c = '_' || c = '-' || c = '+' || c = '.' || c = ':'

/-- A scalar that is not quoted. A blank and a digit behind a date go on with a time. -/
def readScalar? (cs : List Char) : Option (Item × List Char) :=
  let word := cs.takeWhile isScalarChar
  match date? word, cs.dropWhile isScalarChar with
  | some [], ' ' :: c :: rest =>
    if c.isDigit then
      let time := (c :: rest).takeWhile isScalarChar
      (scalar? (word ++ ' ' :: time)).map fun i => (i, (c :: rest).dropWhile isScalarChar)
    else (scalar? word).map fun i => (i, ' ' :: c :: rest)
  | _, rest => (scalar? word).map fun i => (i, rest)

mutual
/-- Reads a value. Each array or table between braces takes one of `depth`; `fuel` bounds the
calls and is never short when it is twice the text's length. -/
def readItem : Nat → Nat → List Char → Option (Item × List Char)
  | 0, _, _ => none
  | fuel + 1, depth, cs =>
    match cs with
    | '"' :: _ | '\'' :: _ => (text? cs).map fun r => (.text r.1, r.2)
    | '[' :: rest =>
      match depth with
      | 0 => none
      | depth + 1 =>
        (readElements fuel depth (skipLines rest.length rest)).map fun r => (.array r.1, r.2)
    | '{' :: rest =>
      match depth with
      | 0 => none
      | depth + 1 => do
        match skipBlanks rest with
        | '}' :: rest => return (← Item.ofPairs? [], rest)
        | rest =>
          let (pairs, rest) ← readPairs fuel depth rest
          return (← Item.ofPairs? pairs, rest)
    | cs => readScalar? cs

/-- Reads the items of an array, the first of which starts here, and the closing bracket. A comma
may stand behind the last item. -/
def readElements : Nat → Nat → List Char → Option (List Item × List Char)
  | 0, _, _ => none
  | fuel + 1, depth, cs =>
    match cs with
    | ']' :: rest => some ([], rest)
    | cs => do
      let (item, rest) ← readItem fuel depth cs
      match skipLines rest.length rest with
      | ',' :: rest =>
        let (items, rest) ← readElements fuel depth (skipLines rest.length rest)
        return (item :: items, rest)
      | ']' :: rest => return ([item], rest)
      | _ => none

/-- Reads the entries between braces, the first of which starts here, and the closing brace. -/
def readPairs : Nat → Nat → List Char → Option (List (KeyPath × Item) × List Char)
  | 0, _, _ => none
  | fuel + 1, depth, cs => do
    match ← keyPath? maxDepth cs with
    | (path, '=' :: rest) =>
      let (item, rest) ← readItem fuel depth (skipBlanks rest)
      match skipBlanks rest with
      | ',' :: rest =>
        let (pairs, rest) ← readPairs fuel depth rest
        return ((path, item) :: pairs, rest)
      | '}' :: rest => return ([(path, item)], rest)
      | _ => none
    | _ => none
end

/-- Reads a statement and the rest of its line. -/
def readStatement (cs : List Char) : Option (Statement × List Char) := do
  match cs with
  | '[' :: '[' :: rest =>
    match ← keyPath? maxDepth rest with
    | (path, ']' :: ']' :: rest) => return (.arrayHeader path, ← restOfLine? rest)
    | _ => none
  | '[' :: rest =>
    match ← keyPath? maxDepth rest with
    | (path, ']' :: rest) => return (.header path, ← restOfLine? rest)
    | _ => none
  | cs =>
    match ← keyPath? maxDepth cs with
    | (path, '=' :: rest) =>
      let rest := skipBlanks rest
      let (item, rest) ← readItem (2 * rest.length + 2) maxDepth rest
      return (.entry path item, ← restOfLine? rest)
    | _ => none

/-- Reads the statements of a text, at most `fuel` of them. -/
def readStatements : Nat → List Char → Option (List Statement)
  | 0, _ => none
  | fuel + 1, cs => do
    let cs := skipLines cs.length cs
    if (skipComment cs).isEmpty then return []
    let (statement, cs) ← readStatement cs
    return statement :: (← readStatements fuel cs)

/-- The text behind a byte order mark, if there is one. -/
def skipMark : List Char → List Char
  | c :: rest => if c.toNat = 0xFEFF then rest else c :: rest
  | [] => []

/-- Reads a whole text as one document. -/
def read? (text : String) : Option Value := do
  let cs := skipMark text.toList
  return (← Item.ofStatements? (← readStatements (cs.length + 1) cs)).toValue

end PipelineManager.Toml
