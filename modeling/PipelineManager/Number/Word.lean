/-!
# Bounds and powers

The ranges of integers of 64 bits, signed and unsigned, and powers of two and of ten.
-/

namespace PipelineManager

/-- A power of two. -/
def powerOfTwo (n : Nat) : Nat := Nat.pow 2 n

/-- A power of ten. -/
def powerOfTen (n : Nat) : Nat := Nat.pow 10 n

namespace Word

/-- The least signed integer of 64 bits. -/
def least : Int := -9223372036854775808

/-- The greatest signed integer of 64 bits. -/
def greatest : Int := 9223372036854775807

/-- The greatest unsigned integer of 64 bits. -/
def greatestUnsigned : Int := 18446744073709551615

/-- Whether an integer is a signed one of 64 bits. -/
def isSigned (n : Int) : Bool := least ≤ n && n ≤ greatest

/-- Whether an integer is an unsigned one of 64 bits. -/
def isUnsigned (n : Int) : Bool := 0 ≤ n && n ≤ greatestUnsigned

/-- The least number of a signed word as a power of two. -/
theorem least_eq : least = -(powerOfTwo 63 : Int) := rfl

/-- The greatest number of a signed word as a power of two. -/
theorem greatest_eq : greatest = powerOfTwo 63 - 1 := rfl

/-- The greatest number of an unsigned word as a power of two. -/
theorem greatestUnsigned_eq : greatestUnsigned = powerOfTwo 64 - 1 := rfl

end Word
end PipelineManager
