import PipelineManager.Number.Word

/-!
# Binary64 numbers

A finite binary64 number is a sign, a mantissa below `2^53` and an exponent. The module rounds
exact quotients to the nearest such number and finds the fewest decimal digits that read back
to a given one, both in exact integer arithmetic.
-/

namespace PipelineManager

/-- The number `± mantissa * 2^exponent`. Numbers built by this module are in normal form:
the mantissa has 53 bits unless the exponent is the least one, `-1074`. -/
structure Binary64 where
  negative : Bool
  mantissa : Nat
  exponent : Int
deriving DecidableEq, Repr, Inhabited

namespace Binary64

/-- Zero, which keeps its sign. -/
def zero (negative : Bool) : Binary64 := ⟨negative, 0, -1074⟩

/-- Mantissas lie below this bound. -/
def mantissaBound : Nat := powerOfTwo 53

/-- The magnitude as a quotient of natural numbers. -/
def quotient (x : Binary64) : Nat × Nat :=
  if 0 ≤ x.exponent then (x.mantissa * powerOfTwo x.exponent.toNat, 1)
  else (x.mantissa, powerOfTwo (-x.exponent).toNat)

/-- The natural number nearest to `num / den`; a half goes to the even neighbour. -/
def roundHalfEven (num den : Nat) : Nat :=
  let q := num / den
  let r := num % den
  if 2 * r < den then q
  else if den < 2 * r then q + 1
  else q + q % 2

/-- The quotient `num / den` divided by `2^e`, again as a quotient. -/
def scaled (num den : Nat) (e : Int) : Nat × Nat :=
  if 0 ≤ e then (num, den * powerOfTwo e.toNat) else (num * powerOfTwo (-e).toNat, den)

/-- The number nearest to `± num / den`, a tie going to the even mantissa. There is none beyond
the range of finite numbers. -/
def ofQuotient? (negative : Bool) (num den : Nat) : Option Binary64 :=
  if num = 0 then some (zero negative)
  else
    let guess : Int := max (-1074) ((Nat.log2 num : Int) - (Nat.log2 den : Int) - 53)
    let atGuess := scaled num den guess
    let e := if mantissaBound ≤ atGuess.1 / atGuess.2 then guess + 1 else guess
    let atE := scaled num den e
    let m := roundHalfEven atE.1 atE.2
    let x : Binary64 :=
      if m = mantissaBound then ⟨negative, mantissaBound / 2, e + 1⟩ else ⟨negative, m, e⟩
    if x.exponent ≤ 971 then some x else none

/-- The number nearest to `± digits * 10^e`. Exponents far outside the range are answered
without forming the power of ten. -/
def ofDecimal? (negative : Bool) (digits : Nat) (e : Int) : Option Binary64 :=
  if digits = 0 then some (zero negative)
  else
    let size : Int := (Nat.log2 digits : Int)
    if 400 < e then none
    else if e < -(400 + size) then some (zero negative)
    else if 0 ≤ e then ofQuotient? negative (digits * powerOfTen e.toNat) 1
    else ofQuotient? negative digits (powerOfTen (-e).toNat)

/-- The magnitude of a product, rounded, with the sign of `x`. -/
def timesMagnitude? (x y : Binary64) : Option Binary64 :=
  let (a, b) := x.quotient
  let (c, d) := y.quotient
  ofQuotient? x.negative (a * c) (b * d)

/-- The magnitude of a quotient, rounded, with the sign of `x`. There is none by zero. -/
def overMagnitude? (x y : Binary64) : Option Binary64 :=
  let (a, b) := x.quotient
  let (c, d) := y.quotient
  if c = 0 then none else ofQuotient? x.negative (a * d) (b * c)

/-- The decimal exponent of a positive quotient: the `k` with `10^k ≤ num / den < 10^(k+1)`. -/
def decimalExponent (num den : Nat) : Int :=
  let guess : Int := ((Nat.toDigits 10 num).length : Int) - ((Nat.toDigits 10 den).length : Int)
  let reaches : Bool :=
    if 0 ≤ guess then decide (den * powerOfTen guess.toNat ≤ num)
    else decide (den ≤ num * powerOfTen (-guess).toNat)
  if reaches then guess else guess - 1

/-- Decimal digits with a decimal exponent, `digits * 10^exponent`. -/
structure Decimal where
  digits : Nat
  exponent : Int
deriving DecidableEq, Repr, Inhabited

/-- The point of the grid of `10^e` just below `num / den`, in units of the grid, and what is
left over as a quotient of that unit. -/
def gridBelow (num den : Nat) (e : Int) : Nat × Nat × Nat :=
  let scaledNum := if 0 ≤ e then num else num * powerOfTen (-e).toNat
  let scaledDen := if 0 ≤ e then den * powerOfTen e.toNat else den
  (scaledNum / scaledDen, scaledNum % scaledDen, scaledDen)

/-- Whether a decimal, given the sign of `x`, reads back to `x`. -/
def readsBack (x : Binary64) (d : Decimal) : Bool :=
  ofDecimal? x.negative d.digits d.exponent = some x

/-- The decimal of the grid `10^e` that reads back to `x`: of two, the nearer; of two equally
near, the even one. -/
def onGrid? (x : Binary64) (e : Int) : Option Decimal :=
  let (num, den) := x.quotient
  let (low, rest, unit) := gridBelow num den e
  let below : Decimal := ⟨low, e⟩
  let above : Decimal := ⟨low + 1, e⟩
  match readsBack x below, readsBack x above with
  | true, true =>
    if 2 * rest < unit then some below
    else if unit < 2 * rest then some above
    else if low % 2 = 0 then some below else some above
  | true, false => some below
  | false, true => some above
  | false, false => none

/-- Removes the zeros at the end of the digits, at most `fuel` of them. -/
def Decimal.trim : Nat → Decimal → Decimal
  | 0, d => d
  | fuel + 1, d =>
    if d.digits % 10 = 0 ∧ d.digits ≠ 0 then trim fuel ⟨d.digits / 10, d.exponent + 1⟩ else d

/-- The decimal with the fewest digits that reads back to the magnitude of `x`, the nearest one
of that length. -/
def shortest (x : Binary64) : Decimal :=
  if x.mantissa = 0 then ⟨0, 0⟩
  else
    let (num, den) := x.quotient
    let k := decimalExponent num den
    match (List.range 17).findSome? fun (n : Nat) => onGrid? x (k - n) with
    | some d => d.trim 20
    | none => ⟨num / den, 0⟩

end Binary64
end PipelineManager
