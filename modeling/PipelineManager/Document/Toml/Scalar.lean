import PipelineManager.Document.Json.Reader
import PipelineManager.Document.Toml.Item
import PipelineManager.Time.Calendar

/-!
# Scalars of TOML

The words that stand for truth values, numbers, dates and times. An underscore may stand between
two digits, a decimal number has no superfluous zero in front, and integers have 64 bits.
-/

namespace PipelineManager.Toml

/-- The digits of a text without the underscores between them. -/
def digits? (isDigit : Char → Bool) : List Char → Option (List Char)
  | [] => none
  | [c] => if isDigit c then some [c] else none
  | c :: '_' :: rest => if isDigit c then (digits? isDigit rest).map (c :: ·) else none
  | c :: rest => if isDigit c then (digits? isDigit rest).map (c :: ·) else none

/-- A sign, if any, and the text behind it. -/
def sign : List Char → Bool × List Char
  | '-' :: rest => (true, rest)
  | '+' :: rest => (false, rest)
  | cs => (false, cs)

/-- The digits of a decimal number without a superfluous zero. -/
def decimal? (cs : List Char) : Option (List Char) := do
  let ds ← digits? Char.isDigit cs
  if ds.length > 1 && ds.head? = some '0' then none else some ds

/-- An integer in the range of integers. -/
def inRange? (n : Int) : Option Item := if Word.isSigned n then some (.integer n) else none

/-- The number that digits give in a base. -/
def ofDigits? (base : Nat) (ds : List Char) : Option Nat :=
  ds.foldlM (fun n c => do
    let d ← Json.hexValue? c
    if d < base then some (n * base + d) else none) 0

/-- A hexadecimal, octal or binary integer, given its digits. -/
def based? (base : Nat) (cs : List Char) : Option Item := do
  let ds ← digits? (fun c => (Json.hexValue? c).isSome) cs
  inRange? (← ofDigits? base ds)

/-- An integer. -/
def integer? : List Char → Option Item
  | '0' :: 'x' :: cs => based? 16 cs
  | '0' :: 'o' :: cs => based? 8 cs
  | '0' :: 'b' :: cs => based? 2 cs
  | cs => do
    let (negative, cs) := sign cs
    let n : Int := Decimal.digitsValue (← decimal? cs)
    inRange? (if negative then -n else n)

/-- An exponent. -/
def exponent? (cs : List Char) : Option Int := do
  let (negative, cs) := sign cs
  let n : Int := Decimal.digitsValue (← digits? Char.isDigit cs)
  return if negative then -n else n

/-- Whether a character marks an exponent. -/
def isExponentMark (c : Char) : Bool := c = 'e' || c = 'E'

/-- A number with a fraction or an exponent. It may be too large in the negative direction
only. -/
def float? (cs : List Char) : Option Item := do
  let (negative, cs) := sign cs
  let mantissa := cs.takeWhile (!isExponentMark ·)
  let exponent := cs.dropWhile (!isExponentMark ·)
  let whole := mantissa.takeWhile (· ≠ '.')
  let fraction := mantissa.dropWhile (· ≠ '.')
  if fraction.isEmpty && exponent.isEmpty then none
  let ws ← decimal? whole
  let fs ← if fraction.isEmpty then some [] else digits? Char.isDigit fraction.tail
  let e ← if exponent.isEmpty then some 0 else exponent? exponent.tail
  let x := Binary64.ofDecimal? negative (Decimal.digitsValue (ws ++ fs)) (e - fs.length)
  if x.isNone && !negative then none else some (.real x)

/-- An infinite number or none at all. -/
def special? (cs : List Char) : Option Item :=
  let word := (sign cs).2
  if word = "inf".toList ∨ word = "nan".toList then some (.real none) else none

/-- A number of two digits in a range, and the text behind it. -/
def pair? (low high : Nat) : List Char → Option (Nat × List Char)
  | a :: b :: rest =>
    let n := Decimal.digitsValue [a, b]
    if a.isDigit && b.isDigit && low ≤ n && n ≤ high then some (n, rest) else none
  | _ => none

/-- The text behind a character. -/
def behind? (c : Char) : List Char → Option (List Char)
  | d :: rest => if d = c then some rest else none
  | [] => none

/-- The text behind a date. -/
def date? : List Char → Option (List Char)
  | a :: b :: c :: d :: '-' :: rest => do
    if !([a, b, c, d].all Char.isDigit) then none
    let (month, rest) ← pair? 1 12 rest
    let (day, rest) ← pair? 1 31 (← behind? '-' rest)
    if day ≤ Calendar.daysOf (Decimal.digitsValue [a, b, c, d]) month then some rest else none
  | _ => none

/-- The text behind a time of day. -/
def time? (cs : List Char) : Option (List Char) := do
  let (_, cs) ← pair? 0 23 cs
  let (_, cs) ← pair? 0 59 (← behind? ':' cs)
  let (_, cs) ← pair? 0 60 (← behind? ':' cs)
  match cs with
  | '.' :: rest =>
    if (rest.takeWhile Char.isDigit).isEmpty then none else some (rest.dropWhile Char.isDigit)
  | cs => some cs

/-- The text behind the offset of a time zone, if there is one. -/
def offset? : List Char → Option (List Char)
  | 'Z' :: rest | 'z' :: rest => some rest
  | '+' :: rest | '-' :: rest => do
    let (_, rest) ← pair? 0 23 rest
    let (_, rest) ← pair? 0 59 (← behind? ':' rest)
    return rest
  | cs => some cs

/-- The text behind a time of day with an offset. -/
def zonedTime? : List Char → Option (List Char)
  | 'T' :: rest | 't' :: rest | ' ' :: rest => do offset? (← time? rest)
  | _ => none

/-- A date, a time or both. -/
def moment? (cs : List Char) : Option Item :=
  let item := Item.moment (String.ofList cs)
  if time? cs = some [] then some item
  else match date? cs with
    | some [] => some item
    | some rest => if zonedTime? rest = some [] then some item else none
    | none => none

/-- What a word stands for. -/
def scalar? (cs : List Char) : Option Item :=
  if cs = "true".toList then some (.truth true)
  else if cs = "false".toList then some (.truth false)
  else special? cs <|> integer? cs <|> float? cs <|> moment? cs

end PipelineManager.Toml
