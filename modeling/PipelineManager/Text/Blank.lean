/-!
# White space

The characters with the Unicode property White_Space, and texts without them at their ends.
-/

namespace PipelineManager.Text

/-- A white space character. -/
def isBlank (c : Char) : Bool :=
  let n := c.toNat
  (0x09 ≤ n && n ≤ 0x0D) || n = 0x20 || n = 0x85 || n = 0xA0 || n = 0x1680 ||
  (0x2000 ≤ n && n ≤ 0x200A) || n = 0x2028 || n = 0x2029 || n = 0x202F || n = 0x205F || n = 0x3000

/-- The text without the characters at its end that satisfy `p`. -/
def dropEndWhile (p : Char → Bool) (cs : List Char) : List Char := (cs.reverse.dropWhile p).reverse

/-- The text without the characters at both ends that satisfy `p`. -/
def trimWhile (p : Char → Bool) (cs : List Char) : List Char := dropEndWhile p (cs.dropWhile p)

/-- The text without white space at both ends. -/
def trim (cs : List Char) : List Char := trimWhile isBlank cs

/-- Whether a character is a slash. -/
def isSlash (c : Char) : Bool := c = '/'

/-- A path without slashes at both ends. -/
def trimSlashes (path : String) : String := String.ofList (trimWhile isSlash path.toList)

/-- A path or address without slashes at its end. -/
def dropEndSlashes (path : String) : String := String.ofList (dropEndWhile isSlash path.toList)

end PipelineManager.Text
