import PipelineManager.Document.Value
import PipelineManager.Number.Decimal

/-!
# Reading JSON text

`read?` accepts one JSON value with blanks around it and nothing else. Dictionaries nest with
lists at most 127 deep. Of repeated keys the last one wins. The parts (blanks, strings, numbers,
values) are readers of their own: each takes the text that follows and gives what it read and
the rest.
-/

namespace PipelineManager.Json

/-- The four blanks between JSON tokens. -/
def isBlank (c : Char) : Bool := c = ' ' || c = '\t' || c = '\n' || c = '\r'

/-- The text after leading blanks. -/
def skipBlanks (cs : List Char) : List Char := cs.dropWhile isBlank

/-- The value of a hexadecimal digit. -/
def hexValue? (c : Char) : Option Nat :=
  if '0' ≤ c ∧ c ≤ '9' then some (c.toNat - '0'.toNat)
  else if 'a' ≤ c ∧ c ≤ 'f' then some (c.toNat - 'a'.toNat + 10)
  else if 'A' ≤ c ∧ c ≤ 'F' then some (c.toNat - 'A'.toNat + 10)
  else none

/-- The number that four hexadecimal digits give. -/
def hexUnit? (a b c d : Char) : Option Nat := do
  return (((← hexValue? a) * 16 + (← hexValue? b)) * 16 + (← hexValue? c)) * 16 + (← hexValue? d)

/-- The character that a backslash and one letter stand for. -/
def shortEscape? : Char → Option Char
  | '"' => some '"'
  | '\\' => some '\\'
  | '/' => some '/'
  | 'b' => some '\x08'
  | 'f' => some '\x0c'
  | 'n' => some '\n'
  | 'r' => some '\r'
  | 't' => some '\t'
  | _ => none

/-- A UTF-16 unit that starts a pair. -/
def isLeadingUnit (n : Nat) : Bool := 0xD800 ≤ n && n < 0xDC00

/-- A UTF-16 unit that ends a pair. -/
def isTrailingUnit (n : Nat) : Bool := 0xDC00 ≤ n && n < 0xE000

/-- Reads a string after its opening quote, up to and with the closing one. Control characters
must be escaped, and units of a pair must come in pairs. -/
def readStringTail : List Char → Option (List Char × List Char)
  | [] => none
  | '"' :: rest => some ([], rest)
  | '\\' :: 'u' :: a :: b :: c :: d :: rest =>
    match hexUnit? a b c d with
    | none => none
    | some unit =>
      if isTrailingUnit unit then none
      else if isLeadingUnit unit then
        match rest with
        | '\\' :: 'u' :: e :: f :: g :: h :: rest' =>
          match hexUnit? e f g h with
          | none => none
          | some second =>
            if isTrailingUnit second then
              let code := 0x10000 + (unit - 0xD800) * 0x400 + (second - 0xDC00)
              (readStringTail rest').map fun r => (Char.ofNat code :: r.1, r.2)
            else none
        | _ => none
      else (readStringTail rest).map fun r => (Char.ofNat unit :: r.1, r.2)
  | '\\' :: e :: rest =>
    match shortEscape? e with
    | none => none
    | some c => (readStringTail rest).map fun r => (c :: r.1, r.2)
  | c :: rest =>
    if c.toNat < 32 || c = '\\' then none
    else (readStringTail rest).map fun r => (c :: r.1, r.2)

/-- A number as written: its digits before and after the point, and its exponent. -/
structure Numeral where
  negative : Bool
  whole : List Char
  fraction : Option (List Char)
  exponent : Option Int
deriving Repr

/-- Reads the digits of an exponent with an optional sign. -/
def readExponent (cs : List Char) : Option (Int × List Char) :=
  let (negative, cs) := match cs with
    | '-' :: rest => (true, rest)
    | '+' :: rest => (false, rest)
    | _ => (false, cs)
  let digits := cs.takeWhile Char.isDigit
  if digits.isEmpty then none
  else
    let n : Int := Decimal.digitsValue digits
    some (if negative then -n else n, cs.dropWhile Char.isDigit)

/-- Reads a number. Its whole part has no superfluous zero, and a point or an exponent mark is
followed by a digit. -/
def readNumeral (cs : List Char) : Option (Numeral × List Char) := do
  let (negative, cs) := match cs with
    | '-' :: rest => (true, rest)
    | _ => (false, cs)
  let whole := cs.takeWhile Char.isDigit
  let cs := cs.dropWhile Char.isDigit
  if whole.isEmpty || (whole.length > 1 && whole.head? = some '0') then none
  let (fraction, cs) ← match cs with
    | '.' :: rest =>
      let digits := rest.takeWhile Char.isDigit
      if digits.isEmpty then none else some (some digits, rest.dropWhile Char.isDigit)
    | _ => some (none, cs)
  match cs with
  | 'e' :: rest | 'E' :: rest => do
    let (e, rest) ← readExponent rest
    return (⟨negative, whole, fraction, some e⟩, rest)
  | _ => return (⟨negative, whole, fraction, none⟩, cs)

/-- The bound of the digits that a numeral keeps. -/
def significandBound : Nat := powerOfTwo 64

/-- Digits taken into a significand while it stays below the bound: the significand, how many
digits were taken, and whether one was left out. -/
def takeDigits (significand : Nat) : List Char → Nat × Nat × Bool
  | [] => (significand, 0, false)
  | c :: rest =>
    let next := significand * 10 + Decimal.digitValue c
    if next < significandBound then
      let (s, taken, more) := takeDigits next rest
      (s, taken + 1, more)
    else (significand, 0, true)

/-- `± significand * 10^e`. The significand and the power of ten are rounded first, then
multiplied or divided with one more rounding; below `10^-308` the division takes two steps. -/
def scaledReal? (negative : Bool) (significand : Nat) (e : Int) : Option Binary64 := do
  if significand = 0 then return Binary64.zero negative
  let s ← Binary64.ofQuotient? negative significand 1
  let power (k : Nat) : Option Binary64 := Binary64.ofDecimal? false 1 k
  if 308 < e then none
  else if 0 ≤ e then s.timesMagnitude? (← power e.toNat)
  else if -308 ≤ e then s.overMagnitude? (← power (-e).toNat)
  else if -616 ≤ e then (← s.overMagnitude? (← power 308)).overMagnitude? (← power (-e - 308).toNat)
  else return Binary64.zero negative

/-- The value of a numeral: an integer when it is written without point and exponent and is in
range, else a real. A negative zero is a real. Numbers too large for a real have no value. -/
def Numeral.value? (n : Numeral) : Option Value := do
  let (significand, taken, more) := takeDigits 0 n.whole
  let beforePoint : Int := if more then n.whole.length - taken else 0
  match n.fraction, n.exponent with
  | none, none =>
    if more then (scaledReal? n.negative significand beforePoint).map .real
    else if n.negative then
      if significand = 0 ∨ powerOfTwo 63 < significand then
        (Binary64.ofQuotient? true significand 1).map .real
      else return .int (-significand)
    else return .int significand
  | fraction, exponent =>
    let (significand, taken, _) := takeDigits significand (fraction.getD [])
    (scaledReal? n.negative significand (beforePoint - taken + exponent.getD 0)).map .real

/-- Takes a fixed word off the front of the text. -/
def takeWord (word : String) (cs : List Char) : Option (List Char) :=
  if word.toList.isPrefixOf cs then some (cs.drop word.length) else none

mutual
/-- Reads a value that starts at the first character. Each nested list or dictionary takes one
of `depth`; `fuel` bounds the calls and is never short when it is twice the text's length. -/
def readValue : Nat → Nat → List Char → Option (Value × List Char)
  | 0, _, _ => none
  | fuel + 1, depth, cs =>
    match cs with
    | '"' :: rest => (readStringTail rest).map fun r => (.str (String.ofList r.1), r.2)
    | '[' :: rest =>
      match depth with
      | 0 => none
      | depth + 1 =>
        match skipBlanks rest with
        | ']' :: rest => some (.list [], rest)
        | rest => (readItems fuel depth rest).map fun r => (.list r.1, r.2)
    | '{' :: rest =>
      match depth with
      | 0 => none
      | depth + 1 =>
        match skipBlanks rest with
        | '}' :: rest => some (.dict [], rest)
        | rest => (readEntries fuel depth rest).map fun r => (.dict r.1, r.2)
    | 't' :: _ => (takeWord "true" cs).map fun rest => (.bool true, rest)
    | 'f' :: _ => (takeWord "false" cs).map fun rest => (.bool false, rest)
    | 'n' :: _ => (takeWord "null" cs).map fun rest => (.null, rest)
    | _ => do
      let (n, rest) ← readNumeral cs
      return (← n.value?, rest)

/-- Reads the items of a list, the first of which starts here, and the closing bracket. -/
def readItems : Nat → Nat → List Char → Option (List Value × List Char)
  | 0, _, _ => none
  | fuel + 1, depth, cs => do
    let (v, rest) ← readValue fuel depth cs
    match skipBlanks rest with
    | ',' :: rest =>
      let (vs, rest) ← readItems fuel depth (skipBlanks rest)
      return (v :: vs, rest)
    | ']' :: rest => return ([v], rest)
    | _ => none

/-- Reads the entries of a dictionary, the first of which starts here, and the closing brace. -/
def readEntries : Nat → Nat → List Char → Option (List (String × Value) × List Char)
  | 0, _, _ => none
  | fuel + 1, depth, cs => do
    match cs with
    | '"' :: rest =>
      let (key, rest) ← readStringTail rest
      match skipBlanks rest with
      | ':' :: rest =>
        let (v, rest) ← readValue fuel depth (skipBlanks rest)
        let entry := (String.ofList key, v)
        match skipBlanks rest with
        | ',' :: rest =>
          let (es, rest) ← readEntries fuel depth (skipBlanks rest)
          return (entry :: es, rest)
        | '}' :: rest => return ([entry], rest)
        | _ => none
      | _ => none
    | _ => none
end

/-- How deep lists and dictionaries may nest. -/
def maxDepth : Nat := 127

/-- Reads one value at the front of the text. -/
def readFirst (cs : List Char) : Option (Value × List Char) :=
  readValue (2 * cs.length + 2) maxDepth (skipBlanks cs)

/-- Reads a whole text as one value. -/
def read? (text : String) : Option Value :=
  match readFirst text.toList with
  | some (v, rest) => if (skipBlanks rest).isEmpty then some v.canonical else none
  | none => none

end PipelineManager.Json
