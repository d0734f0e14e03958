import PipelineManager.Text.Utf8

/-!
# Percent codes and forms

A percent sign and two hexadecimal digits stand for a byte. A form is a sequence of pairs of name
and value, with a plus for each space.
-/

namespace PipelineManager.Http

/-- The value of a hexadecimal digit. -/
def hexByte? (b : UInt8) : Option UInt8 :=
  let n := b.toNat
  if 0x30 ≤ n ∧ n ≤ 0x39 then some (b - 0x30)
  else if 0x41 ≤ n ∧ n ≤ 0x46 then some (b - 0x37)
  else if 0x61 ≤ n ∧ n ≤ 0x66 then some (b - 0x57)
  else none

/-- The percent sign. -/
def percent : UInt8 := 0x25

/-- Bytes with their percent codes resolved. A percent sign without two digits stays. -/
def percentDecode : List UInt8 → List UInt8
  | b :: high :: low :: rest =>
    match if b = percent then some (hexByte? high, hexByte? low) else none with
    | some (some h, some l) => (h * 16 + l) :: percentDecode rest
    | _ => b :: percentDecode (high :: low :: rest)
  | b :: rest => b :: percentDecode rest
  | [] => []

/-- A plus sign in a form is a space. -/
def plusToSpace (b : UInt8) : UInt8 := if b = 0x2B then 0x20 else b

/-- The text of a name or a value in a form. -/
def formText (bytes : List UInt8) : String :=
  Text.Utf8.lossy (percentDecode (bytes.map plusToSpace))

/-- The parts of bytes between separators. -/
def splitBytes (separator : UInt8) : List UInt8 → List (List UInt8)
  | [] => [[]]
  | b :: rest =>
    if b = separator then [] :: splitBytes separator rest
    else match splitBytes separator rest with
      | [] => [[b]]
      | p :: ps => (b :: p) :: ps

/-- The sign between a name and its value. -/
def isEquals (b : UInt8) : Bool := b = 0x3D

/-- A pair of a form; without an equals sign the value is empty. -/
def formPair (bytes : List UInt8) : String × String :=
  (formText (bytes.takeWhile (!isEquals ·)), formText ((bytes.dropWhile (!isEquals ·)).drop 1))

/-- The pairs of a form. -/
def formPairs (bytes : List UInt8) : List (String × String) :=
  ((splitBytes 0x26 bytes).filter (!·.isEmpty)).map formPair

end PipelineManager.Http
