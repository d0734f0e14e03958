import PipelineManager.Document.Value

/-!
# Compact JSON text

Writes a document tree without blanks. Strings escape the quote, the backslash and the control
characters below `0x20`; numbers with a fraction are written with the fewest digits that read
back.
-/

namespace PipelineManager.Json

/-- One lower-case hexadecimal digit. -/
def hexDigit (n : Nat) : Char :=
  if n < 10 then Char.ofNat ('0'.toNat + n) else Char.ofNat ('a'.toNat + (n - 10))

/-- A character inside a quoted string. -/
def escapeChar (c : Char) : List Char :=
  if c = '"' then ['\\', '"']
  else if c = '\\' then ['\\', '\\']
  else if c = '\n' then ['\\', 'n']
  else if c = '\r' then ['\\', 'r']
  else if c = '\t' then ['\\', 't']
  else if c.toNat = 8 then ['\\', 'b']
  else if c.toNat = 12 then ['\\', 'f']
  else if c.toNat < 32 then ['\\', 'u', '0', '0', hexDigit (c.toNat / 16), hexDigit (c.toNat % 16)]
  else [c]

/-- A quoted string. -/
def quoted (s : String) : String :=
  String.ofList ('"' :: s.toList.flatMap escapeChar ++ ['"'])

/-- How a number with a fraction is laid out: positional while the exponent of its first digit
is between the bounds, and then with at least one digit after the point; otherwise scientific,
with a signed exponent. -/
structure RealLayout where
  leastPositional : Int
  greatestPositional : Int

/-- Numbers are positional from `0.00001` to below `10^16`. -/
def realLayout : RealLayout := ⟨-5, 15⟩

/-- The text of decimal digits under a layout. -/
def RealLayout.text (layout : RealLayout) (d : Binary64.Decimal) : String :=
  let digits := Nat.toDigits 10 d.digits
  let lead : Int := d.exponent + digits.length - 1
  if d.digits = 0 then "0.0"
  else if layout.leastPositional ≤ lead ∧ lead ≤ layout.greatestPositional then
    if 0 ≤ d.exponent then
      String.ofList (digits ++ List.replicate d.exponent.toNat '0') ++ ".0"
    else if 0 ≤ lead then
      String.ofList (digits.take (lead.toNat + 1)) ++ "." ++
        String.ofList (digits.drop (lead.toNat + 1))
    else
      "0." ++ String.ofList (List.replicate (-lead - 1).toNat '0' ++ digits)
  else
    let fraction := if digits.length = 1 then "" else "." ++ String.ofList (digits.drop 1)
    let sign := if lead < 0 then "-" else "+"
    String.ofList (digits.take 1) ++ fraction ++ "e" ++ sign ++ toString lead.natAbs

/-- The text of a number with a fraction. -/
def realText (x : Binary64) : String :=
  (if x.negative then "-" else "") ++ realLayout.text x.shortest

/-- The text of an integer. -/
def intText (n : Int) : String :=
  if n < 0 then "-" ++ Nat.repr n.natAbs else Nat.repr n.natAbs

mutual
/-- The compact text of a tree. -/
def text : Value → String
  | .null => "null"
  | .bool true => "true"
  | .bool false => "false"
  | .int n => intText n
  | .real x => realText x
  | .str s => quoted s
  | .list items => "[" ++ itemsText items ++ "]"
  | .dict entries => "\x7b" ++ entriesText entries ++ "\x7d"

/-- The items of a list, separated by commas. -/
def itemsText : List Value → String
  | [] => ""
  | [v] => text v
  | v :: rest => text v ++ "," ++ itemsText rest

/-- The entries of a dictionary, separated by commas. -/
def entriesText : List (String × Value) → String
  | [] => ""
  | [(k, v)] => quoted k ++ ":" ++ text v
  | (k, v) :: rest => quoted k ++ ":" ++ text v ++ "," ++ entriesText rest
end

end PipelineManager.Json
