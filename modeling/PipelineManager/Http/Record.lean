import PipelineManager.Document.Json.Reader
import PipelineManager.Number.Word
import PipelineManager.Text.Utf8

/-!
# Records in bodies

A body in JSON text holds one record, written as a dictionary or as the list of its fields in
order. The first fault in reading order decides how a body is refused: as bad JSON text or as text
that is no such record. A field is given once, and may be left out only if it has a default. What
a record does not have is skipped, and of what is skipped only the form counts.
-/

namespace PipelineManager.Http

/-- Why a body is refused. -/
inductive BodyFault where
  | mediaType
  | tooLarge
  | notJson
  | notRecord
deriving DecidableEq, Repr

/-- A reader takes what it reads off the front of a text, or finds a fault there. -/
abbrev Reader (α : Type) := List Char → Except BodyFault (α × List Char)

/-- A field of a record. One with a default may be left out. -/
structure Field where
  name : String
  read : Reader Value
  default? : Option Value := none

/-- The fields of a record. -/
abbrev RecordType := List Field

/-- What was read, or a fault of the JSON text. -/
def asJson {α : Type} (r : Option (α × List Char)) : Except BodyFault (α × List Char) :=
  match r with
  | some r => .ok r
  | none => .error .notJson

/-- What a scalar of no use is refused for, once it was read. -/
def unwanted {α β : Type} (r : Option α) : Except BodyFault β :=
  .error (if r.isSome then .notRecord else .notJson)

/-- Refuses a value that has the wrong type. A scalar is read first. -/
def wrongType {α : Type} : Reader α
  | 'n' :: rest => unwanted (Json.takeWord "null" ('n' :: rest))
  | 't' :: rest => unwanted (Json.takeWord "true" ('t' :: rest))
  | 'f' :: rest => unwanted (Json.takeWord "false" ('f' :: rest))
  | '"' :: rest => unwanted (Json.readStringTail rest)
  | '[' :: _ | '{' :: _ => .error .notRecord
  | cs => unwanted ((Json.readNumeral cs).bind fun r => r.1.value?)

/-! ## Scalars -/

/-- Reads a text. -/
def readText : Reader Value := fun cs =>
  match Json.skipBlanks cs with
  | '"' :: rest =>
    asJson ((Json.readStringTail rest).map fun r => (.str (String.ofList r.1), r.2))
  | cs => wrongType cs

/-- Reads a truth value. -/
def readTruth : Reader Value := fun cs =>
  match Json.skipBlanks cs with
  | 't' :: rest => asJson ((Json.takeWord "true" ('t' :: rest)).map fun r => (.bool true, r))
  | 'f' :: rest => asJson ((Json.takeWord "false" ('f' :: rest)).map fun r => (.bool false, r))
  | cs => wrongType cs

/-- Whether a number starts with a character. -/
def startsNumber (c : Char) : Bool := c = '-' || c.isDigit

/-- Reads an integer of a range. -/
def readIntegerIn (inRange : Int → Bool) : Reader Value := fun cs =>
  match Json.skipBlanks cs with
  | c :: rest =>
    if startsNumber c then
      match (Json.readNumeral (c :: rest)).bind fun r => r.1.value?.map fun v => (v, r.2) with
      | none => .error .notJson
      | some (.int n, rest) => if inRange n then .ok (.int n, rest) else .error .notRecord
      | some _ => .error .notRecord
    else wrongType (c :: rest)
  | [] => wrongType []

/-- Reads a signed integer of 64 bits. -/
def readInteger : Reader Value := readIntegerIn Word.isSigned

/-- Reads an unsigned integer of 64 bits. -/
def readNatural : Reader Value := readIntegerIn Word.isUnsigned

/-- Reads a value that may be null. -/
def readOptional (read : Reader Value) : Reader Value := fun cs =>
  match Json.skipBlanks cs with
  | 'n' :: rest => asJson ((Json.takeWord "null" ('n' :: rest)).map fun r => (.null, r))
  | cs => read cs

/-! ## Skipping -/

/-- The character that stands for an ill-formed piece of a text in UTF-8. -/
def illFormed : Char := '\x00'

/-- The characters of a body. A null character, which JSON text has nowhere, is read as another
one that it has nowhere either. -/
def bodyText (bytes : List UInt8) : List Char :=
  (Text.Utf8.decode bytes).map fun
    | none => illFormed
    | some c => if c = illFormed then '\x01' else c

/-- The text behind a string, of which only the form counts: what is ill-formed may stand there,
and so may one half of a pair of escapes. -/
def skipStringTail : List Char → Option (List Char)
  | [] => none
  | '"' :: rest => some rest
  | '\\' :: 'u' :: a :: b :: c :: d :: rest =>
    if (Json.hexUnit? a b c d).isSome then skipStringTail rest else none
  | '\\' :: c :: rest => if (Json.shortEscape? c).isSome then skipStringTail rest else none
  | c :: rest =>
    if (c.toNat < 32 && c ≠ illFormed) || c = '\\' then none else skipStringTail rest

mutual
/-- The text behind a value, of which only the form counts. `fuel` bounds the calls and is never
short when it is twice the text's length. -/
def skipValue : Nat → List Char → Option (List Char)
  | 0, _ => none
  | fuel + 1, cs =>
    match Json.skipBlanks cs with
    | '"' :: rest => skipStringTail rest
    | '[' :: rest =>
      match Json.skipBlanks rest with
      | ']' :: rest => some rest
      | rest => skipItems fuel rest
    | '{' :: rest =>
      match Json.skipBlanks rest with
      | '}' :: rest => some rest
      | rest => skipEntries fuel rest
    | 't' :: rest => Json.takeWord "true" ('t' :: rest)
    | 'f' :: rest => Json.takeWord "false" ('f' :: rest)
    | 'n' :: rest => Json.takeWord "null" ('n' :: rest)
    | cs => (Json.readNumeral cs).map (·.2)

/-- The text behind items and the closing bracket. -/
def skipItems : Nat → List Char → Option (List Char)
  | 0, _ => none
  | fuel + 1, cs => do
    match Json.skipBlanks (← skipValue fuel cs) with
    | ',' :: rest => skipItems fuel rest
    | ']' :: rest => some rest
    | _ => none

/-- The text behind entries and the closing brace. -/
def skipEntries : Nat → List Char → Option (List Char)
  | 0, _ => none
  | fuel + 1, cs => do
    match Json.skipBlanks cs with
    | '"' :: rest =>
      match Json.skipBlanks (← skipStringTail rest) with
      | ':' :: rest =>
        match Json.skipBlanks (← skipValue fuel rest) with
        | ',' :: rest => skipEntries fuel rest
        | '}' :: rest => some rest
        | _ => none
      | _ => none
    | _ => none
end

/-! ## Lists -/

/-- The text where the next item of a list starts, or none at the closing bracket. -/
def nextItem? (isFirst : Bool) (cs : List Char) : Except BodyFault (Option (List Char)) :=
  match isFirst, Json.skipBlanks cs with
  | _, ']' :: _ => .ok none
  | true, c :: rest => .ok (some (c :: rest))
  | false, ',' :: rest =>
    match Json.skipBlanks rest with
    | ']' :: _ | [] => .error .notJson
    | rest => .ok (some rest)
  | _, _ => .error .notJson

/-- The text behind the closing bracket of a list. -/
def closeList (cs : List Char) : Except BodyFault (List Char) :=
  match Json.skipBlanks cs with
  | ']' :: rest => .ok rest
  | _ => .error .notJson

/-- Reads the items of a list and the closing bracket, at most `fuel` of them. -/
def readItems (read : Reader Value) : Nat → (isFirst : Bool) → Reader (List Value)
  | 0, _, _ => .error .notJson
  | fuel + 1, isFirst, cs => do
    match ← nextItem? isFirst cs with
    | none => return ([], ← closeList cs)
    | some cs =>
      let (v, cs) ← read cs
      let (vs, cs) ← readItems read fuel false cs
      return (v :: vs, cs)

/-- Reads a list. -/
def readList (read : Reader Value) : Reader Value := fun cs =>
  match Json.skipBlanks cs with
  | '[' :: rest => (readItems read (rest.length + 1) true rest).map fun r => (.list r.1, r.2)
  | cs => wrongType cs

/-! ## Records -/

/-- Reads the value of a field of a dictionary, behind its key. -/
def readEntry (type : RecordType) (known : List (String × Value)) (key : String) :
    Reader (List (String × Value)) := fun cs => do
  match type.find? fun f => f.name = key with
  | none =>
    match Json.skipBlanks cs with
    | ':' :: rest => asJson ((skipValue (2 * rest.length + 2) rest).map fun rest => (known, rest))
    | _ => .error .notJson
  | some field =>
    if (known.lookup key).isSome then .error .notRecord
    match Json.skipBlanks cs with
    | ':' :: rest =>
      let (v, rest) ← field.read rest
      return (known ++ [(key, v)], rest)
    | _ => .error .notJson

/-- The fields of a record in the order of its type. -/
def inOrder (type : RecordType) (known : List (String × Value)) : Except BodyFault (List Value) :=
  match type.mapM fun f => (known.lookup f.name).or f.default? with
  | some vs => .ok vs
  | none => .error .notRecord

/-- Reads the entries of a dictionary from a key on, and the closing brace, at most `fuel` of
them. -/
def readEntries (type : RecordType) : Nat → List (String × Value) → Reader (List Value)
  | 0, _, _ => .error .notJson
  | fuel + 1, known, cs => do
    match cs with
    | '"' :: rest =>
      let (key, rest) ← asJson (Json.readStringTail rest)
      let (known, rest) ← readEntry type known (String.ofList key) rest
      match Json.skipBlanks rest with
      | '}' :: rest => return (← inOrder type known, rest)
      | ',' :: rest => readEntries type fuel known (Json.skipBlanks rest)
      | _ => .error .notJson
    | _ => .error .notJson

/-- Reads the fields of a record as the items of a list, and the closing bracket. -/
def readFields : (isFirst : Bool) → RecordType → Reader (List Value)
  | _, [], cs => do return ([], ← closeList cs)
  | isFirst, f :: fields, cs => do
    match ← nextItem? isFirst cs with
    | none =>
      match f.default? with
      | none => .error .notRecord
      | some v =>
        let (vs, cs) ← readFields isFirst fields cs
        return (v :: vs, cs)
    | some cs =>
      let (v, cs) ← f.read cs
      let (vs, cs) ← readFields false fields cs
      return (v :: vs, cs)

/-- Reads the fields of a record. -/
def readRecord (type : RecordType) : Reader (List Value) := fun cs =>
  match Json.skipBlanks cs with
  | '[' :: rest => readFields true type rest
  | '{' :: rest =>
    match Json.skipBlanks rest with
    | '}' :: rest => (inOrder type []).map fun vs => (vs, rest)
    | rest => readEntries type (rest.length + 1) [] rest
  | cs => wrongType cs

/-- Reads a record within another one, as the list of its fields. -/
def readPart (type : RecordType) : Reader Value := fun cs =>
  (readRecord type cs).map fun r => (.list r.1, r.2)

/-- Reads a whole body as a record. -/
def readBody (type : RecordType) (bytes : List UInt8) : Except BodyFault (List Value) := do
  let (vs, rest) ← readRecord type (bodyText bytes)
  if (Json.skipBlanks rest).isEmpty then return vs else .error .notJson

end PipelineManager.Http
