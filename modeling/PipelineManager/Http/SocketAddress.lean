/-!
# Socket addresses

The address that the programming interface is bound to: an address of the internet protocol of
either version and, behind a colon, the number of the service there. An address of version 6 stands
in brackets. `isSocketAddress` says which texts are such addresses.
-/

namespace PipelineManager.Http

/-- The value of a digit below a radix of at most 16. -/
def digit? (radix : Nat) (c : Char) : Option Nat :=
  let value := if c.isDigit then some (c.toNat - '0'.toNat)
    else if 'a' ≤ c ∧ c ≤ 'f' then some (c.toNat - 'a'.toNat + 10)
    else if 'A' ≤ c ∧ c ≤ 'F' then some (c.toNat - 'A'.toNat + 10)
    else none
  value.filter (· < radix)

/-- How numbers of a kind are written. -/
structure NumberForm where
  radix : Nat
  greatest : Nat
  maxDigits : Option Nat := none
  leadingZeros : Bool := true

/-- A part of an address of version 4. -/
def octet : NumberForm where
  radix := 10
  greatest := 255
  maxDigits := some 3
  leadingZeros := false

/-- A part of an address of version 6. -/
def group : NumberForm where
  radix := 16
  greatest := 65535
  maxDigits := some 4

/-- The number of a service. -/
def serviceNumber : NumberForm where
  radix := 10
  greatest := 65535

/-- The zone of an address of version 6. -/
def zone : NumberForm where
  radix := 10
  greatest := 4294967295

/-- The text behind a number. -/
def skipNumber (f : NumberForm) (cs : List Char) : Option (List Char) :=
  let digits := cs.takeWhile fun c => (digit? f.radix c).isSome
  let value := digits.foldl (fun n c => n * f.radix + (digit? f.radix c).getD 0) 0
  if digits.isEmpty || f.greatest < value then none
  else if f.maxDigits.any (· < digits.length) then none
  else if !f.leadingZeros && digits.head? = some '0' && 1 < digits.length then none
  else some (cs.drop digits.length)

/-- The text behind a character. -/
def skipChar (c : Char) : List Char → Option (List Char)
  | d :: rest => if d = c then some rest else none
  | [] => none

/-- The text behind an address of version 4. -/
def skipVersion4 (cs : List Char) : Option (List Char) := do
  let cs ← skipChar '.' (← skipNumber octet cs)
  let cs ← skipChar '.' (← skipNumber octet cs)
  let cs ← skipChar '.' (← skipNumber octet cs)
  skipNumber octet cs

/-- The text behind a colon, unless nothing stands in front of it, and what follows it. -/
def skipSeparated (isFirst : Bool) (skip : List Char → Option (List Char)) (cs : List Char) :
    Option (List Char) := do
  skip (← if isFirst then some cs else skipChar ':' cs)

/-- How many of at most `count` groups there are, whether they end with an address of version 4,
which counts as two, and the text behind them. -/
def skipGroups (isFirst : Bool) : Nat → List Char → Nat × Bool × List Char
  | 0, cs => (0, false, cs)
  | count + 1, cs =>
    match if 0 < count then skipSeparated isFirst skipVersion4 cs else none with
    | some rest => (2, true, rest)
    | none =>
      match skipSeparated isFirst (skipNumber group) cs with
      | some rest =>
        let (n, embedded, rest) := skipGroups false count rest
        (n + 1, embedded, rest)
      | none => (0, false, cs)

/-- The text behind an address of version 6. Two colons stand for the groups that are left out. -/
def skipVersion6 (cs : List Char) : Option (List Char) :=
  match skipGroups true 8 cs with
  | (n, embedded, rest) =>
    if n = 8 then some rest
    else if embedded then none
    else do
      let rest ← skipChar ':' (← skipChar ':' rest)
      return (skipGroups true (7 - n) rest).2.2

/-- The text behind an address of version 6 in brackets, perhaps with its zone. -/
def skipBracketed (cs : List Char) : Option (List Char) := do
  let cs ← skipVersion6 (← skipChar '[' cs)
  let cs ← match cs with
    | '%' :: rest => skipNumber zone rest
    | cs => some cs
  skipChar ']' cs

/-- Whether a text is a socket address. -/
def isSocketAddress (text : String) : Bool :=
  let behind (skip : List Char → Option (List Char)) : Option (List Char) := do
    skipNumber serviceNumber (← skipChar ':' (← skip text.toList))
  behind skipVersion4 = some [] || behind skipBracketed = some []

end PipelineManager.Http
