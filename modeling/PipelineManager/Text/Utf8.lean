/-!
# UTF-8

`decode` reads bytes as characters and shows where they are ill-formed. A piece that starts like
a character and breaks off counts as one ill-formed piece.
-/

namespace PipelineManager.Text.Utf8

/-- Reads the bytes that continue a character: the value so far, how many bytes are due, and the
range of the next one. -/
def continued (value : Nat) : Nat → Nat → Nat → List UInt8 → Option Nat × List UInt8
  | 0, _, _, bytes => (some value, bytes)
  | due + 1, low, high, b :: bytes =>
    if low ≤ b.toNat ∧ b.toNat ≤ high then
      continued (value * 64 + (b.toNat - 0x80)) due 0x80 0xBF bytes
    else (none, b :: bytes)
  | _ + 1, _, _, [] => (none, [])

/-- Reads the character that starts with a byte, and gives the bytes behind it. -/
def first (b : UInt8) (bytes : List UInt8) : Option Nat × List UInt8 :=
  let n := b.toNat
  if n < 0x80 then (some n, bytes)
  else if 0xC2 ≤ n ∧ n ≤ 0xDF then continued (n - 0xC0) 1 0x80 0xBF bytes
  else if n = 0xE0 then continued 0 2 0xA0 0xBF bytes
  else if n = 0xED then continued 0xD 2 0x80 0x9F bytes
  else if 0xE1 ≤ n ∧ n ≤ 0xEF then continued (n - 0xE0) 2 0x80 0xBF bytes
  else if n = 0xF0 then continued 0 3 0x90 0xBF bytes
  else if 0xF1 ≤ n ∧ n ≤ 0xF3 then continued (n - 0xF0) 3 0x80 0xBF bytes
  else if n = 0xF4 then continued 4 3 0x80 0x8F bytes
  else (none, bytes)

/-- Reading the rest of a character leaves no more bytes. -/
theorem length_continued_le (value due low high : Nat) (bytes : List UInt8) :
    (continued value due low high bytes).2.length ≤ bytes.length := by
  fun_induction continued value due low high bytes with
  | case1 => exact Nat.le_refl _
  | case2 _ _ _ _ _ _ _ ih => exact Nat.le_succ_of_le ih
  | case3 => exact Nat.le_refl _
  | case4 => exact Nat.le_refl _

/-- Reading the first character leaves no more bytes. -/
theorem length_first_le (b : UInt8) (bytes : List UInt8) :
    (first b bytes).2.length ≤ bytes.length := by
  unfold first
  dsimp only
  repeat' split
  all_goals first | exact Nat.le_refl _ | exact length_continued_le ..

/-- The characters of a text in order, none for each ill-formed piece. -/
def decode (bytes : List UInt8) : List (Option Char) :=
  match bytes with
  | [] => []
  | b :: rest =>
    have := length_first_le b rest
    ((first b rest).1.map Char.ofNat) :: decode (first b rest).2
termination_by bytes.length
decreasing_by simp only [List.length_cons]; omega

/-- The character that stands for what cannot be read. -/
def replacement : Char := Char.ofNat 0xFFFD

/-- The text of bytes, ill-formed pieces replaced. -/
def lossy (bytes : List UInt8) : String := String.ofList ((decode bytes).map (·.getD replacement))

/-- The text of well-formed bytes. -/
def strict? (bytes : List UInt8) : Option String := ((decode bytes).mapM id).map String.ofList

end PipelineManager.Text.Utf8
