import PipelineManager.Document.Json.Writer
import PipelineManager.Number.Decimal
import PipelineManager.Text.Blank
import PipelineManager.Time.Calendar

/-!
# Moments

A moment is a day of the calendar and a time of day, without a time zone. `Moment.read?` reads the
form `20240105 10:00:00.500` that reports are written in, `Moment.text` writes
`2024-01-05 10:00:00.500`, and `Moment.rank` orders moments in time.
-/

namespace PipelineManager

/-- A day and a time of day. A leap second has the number 60. -/
structure Moment where
  year : Int
  month : Nat
  day : Nat
  hour : Nat
  minute : Nat
  second : Nat
  nanosecond : Nat
deriving DecidableEq, Repr, Inhabited

namespace Moment

/-- The first year of the calendar. -/
def minYear : Int := -262143

/-- The last year of the calendar. -/
def maxYear : Int := 262142

/-- Whether the numbers name a day of the calendar and a time of day. -/
def isValid (m : Moment) : Bool :=
  decide (minYear ≤ m.year) && decide (m.year ≤ maxYear) && decide (1 ≤ m.day) &&
    decide (m.day ≤ Calendar.daysOf m.year m.month) && decide (m.hour < 24) &&
    decide (m.minute < 60) &&
    decide (m.second ≤ 60) && decide (m.nanosecond < 1000000000)

/-- The place of a moment in time. Valid moments have different places. -/
def rank (m : Moment) : Int :=
  (((((m.year * 13 + m.month) * 32 + m.day) * 24 + m.hour) * 60 + m.minute) * 61 + m.second) *
    1000000000 +
    m.nanosecond

/-- The earlier of two moments. -/
def earlier (a b : Moment) : Moment := if b.rank < a.rank then b else a

/-- The later of two moments. -/
def later (a b : Moment) : Moment := if a.rank < b.rank then b else a

/-- The earliest of some moments. -/
def earliest? : List Moment → Option Moment
  | [] => none
  | m :: rest => some (rest.foldl earlier m)

/-- The latest of some moments. -/
def latest? : List Moment → Option Moment
  | [] => none
  | m :: rest => some (rest.foldl later m)

/-! ## Reading -/

/-- Splits off the digits in front, at most `width` of them. -/
def takeDigits : Nat → List Char → List Char × List Char
  | width + 1, c :: cs =>
    if c.isDigit then
      let (ds, rest) := takeDigits width cs
      (c :: ds, rest)
    else ([], c :: cs)
  | _, cs => ([], cs)

/-- Reads a number of at most `width` digits. -/
def number? (width : Nat) (cs : List Char) : Option (Nat × List Char) :=
  match takeDigits width cs with
  | ([], _) => none
  | (ds, rest) => some (Decimal.digitsValue ds, rest)

/-- Reads a number with white space in front. -/
def field? (width : Nat) (cs : List Char) : Option (Nat × List Char) :=
  number? width (cs.dropWhile Text.isBlank)

/-- Reads a year: four digits at most, or any number of them behind a sign. -/
def year? (cs : List Char) : Option (Int × List Char) :=
  match cs.dropWhile Text.isBlank with
  | '-' :: rest => (number? rest.length rest).map fun r => (-(r.1 : Int), r.2)
  | '+' :: rest => (number? rest.length rest).map fun r => ((r.1 : Int), r.2)
  | cs => (number? 4 cs).map fun r => ((r.1 : Int), r.2)

/-- Reads a colon and a number of two digits. -/
def colonField? : List Char → Option (Nat × List Char)
  | ':' :: cs => field? 2 cs
  | _ => none

/-- Reads an optional fraction of a second. Digits behind the ninth do not count. -/
def fraction? : List Char → Option (Nat × List Char)
  | '.' :: cs =>
    match takeDigits 9 cs with
    | ([], _) => none
    | (ds, rest) =>
      some (Decimal.digitsValue ds * powerOfTen (9 - ds.length), rest.dropWhile (·.isDigit))
  | cs => some (0, cs)

/-- Reads a moment: year, month and day without a mark between them, and then the time of day.
White space may stand in front of every number. -/
def read? (cs : List Char) : Option Moment := do
  let (year, cs) ← year? cs
  let (month, cs) ← field? 2 cs
  let (day, cs) ← field? 2 cs
  let (hour, cs) ← field? 2 cs
  let (minute, cs) ← colonField? cs
  let (second, cs) ← colonField? cs
  let (nanosecond, cs) ← fraction? cs
  let m : Moment := { year, month, day, hour, minute, second, nanosecond }
  if cs.isEmpty && m.isValid then some m else none

/-! ## Writing -/

/-- A number with zeros in front up to a width. -/
def padded (width n : Nat) : String :=
  let s := Json.intText n
  String.ofList (List.replicate (width - s.length) '0') ++ s

/-- A year: four digits, with a sign when it lies outside the years 0 to 9999. -/
def yearText (year : Int) : String :=
  if 0 ≤ year ∧ year ≤ 9999 then padded 4 year.toNat
  else (if year < 0 then "-" else "+") ++ padded 4 year.natAbs

/-- The fraction of a second in three, six or nine digits, nothing when it is zero. -/
def fractionText (nanosecond : Nat) : String :=
  if nanosecond = 0 then ""
  else if nanosecond % 1000000 = 0 then "." ++ padded 3 (nanosecond / 1000000)
  else if nanosecond % 1000 = 0 then "." ++ padded 6 (nanosecond / 1000)
  else "." ++ padded 9 nanosecond

/-- The written form of a moment. -/
def text (m : Moment) : String :=
  yearText m.year ++ "-" ++ padded 2 m.month ++ "-" ++ padded 2 m.day ++ " " ++ padded 2 m.hour ++
    ":" ++ padded 2 m.minute ++ ":" ++ padded 2 m.second ++ fractionText m.nanosecond

end Moment
end PipelineManager
