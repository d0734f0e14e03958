import PipelineManager.Number.Word

/-!
# Decimal numerals

The number that decimal digits stand for, and `Decimal.readInteger?`, which reads digits with an
optional sign. Integers outside 64 bits are refused.
-/

namespace PipelineManager.Decimal

/-- The value of a decimal digit. -/
def digitValue (c : Char) : Nat := c.toNat - '0'.toNat

/-- The number that decimal digits stand for. -/
def digitsValue (cs : List Char) : Nat := cs.foldl (fun n c => n * 10 + digitValue c) 0

/-- The sign of a text, whether it is negative, and the text behind it. -/
def splitSign : List Char → Bool × List Char
  | '-' :: ds => (true, ds)
  | '+' :: ds => (false, ds)
  | ds => (false, ds)

/-- The integer that a text stands for, from `-2^63` to `2^63 - 1`. -/
def readInteger? (text : String) : Option Int :=
  let (negative, ds) := splitSign text.toList
  let n : Int := if negative then -(digitsValue ds : Int) else digitsValue ds
  if !ds.isEmpty && ds.all Char.isDigit && Word.isSigned n then some n else none

end PipelineManager.Decimal
