import PipelineManager.Document.Json.Reader

/-!
# Texts of TOML

The four kinds of quoted texts. Each reader takes what follows the opening quotes and gives the
text and what follows the closing ones. Line feeds end lines, and a carriage return stands only in
front of one.
-/

namespace PipelineManager.Toml

/-- A blank within a line. -/
def isBlank (c : Char) : Bool := c = ' ' || c = '\t'

/-- A character that may stand in comments and texts: a tab or what is no control character. -/
def isPrintable (c : Char) : Bool := c = '\t' || (32 ≤ c.toNat && c.toNat ≠ 127)

/-- The character of a code point written in hexadecimal digits. -/
def codePoint? (digits : List Char) : Option Char := do
  let n ← digits.foldlM (fun n c => return n * 16 + (← Json.hexValue? c)) 0
  if h : n.isValidChar then some ⟨n.toUInt32, by
    simp only [UInt32.isValidChar, Nat.toUInt32_eq, UInt32.toNat_ofNat']
    have : n < 2 ^ 32 := by rcases h with h | ⟨_, h⟩ <;> omega
    rwa [Nat.mod_eq_of_lt this]⟩
  else none

/-- The character that a backslash and one letter stand for. -/
def shortEscape? : Char → Option Char
  | '"' => some '"'
  | '\\' => some '\\'
  | 'b' => some '\x08'
  | 'f' => some '\x0c'
  | 'n' => some '\n'
  | 'r' => some '\r'
  | 't' => some '\t'
  | _ => none

/-- The character of an escape, behind its backslash. -/
def escape? : List Char → Option (Char × List Char)
  | 'u' :: a :: b :: c :: d :: rest => (codePoint? [a, b, c, d]).map fun ch => (ch, rest)
  | 'U' :: a :: b :: c :: d :: e :: f :: g :: h :: rest =>
    (codePoint? [a, b, c, d, e, f, g, h]).map fun ch => (ch, rest)
  | c :: rest => (shortEscape? c).map fun ch => (ch, rest)
  | [] => none

/-- Reading an escape leaves less text. -/
theorem length_lt_of_escape? {cs rest : List Char} {c : Char} (h : escape? cs = some (c, rest)) :
    rest.length < cs.length := by
  unfold escape? at h
  split at h
  · obtain ⟨_, _, e⟩ := Option.map_eq_some_iff.1 h
    obtain ⟨_, rfl⟩ := Prod.mk.inj e
    simp only [List.length_cons]; omega
  · obtain ⟨_, _, e⟩ := Option.map_eq_some_iff.1 h
    obtain ⟨_, rfl⟩ := Prod.mk.inj e
    simp only [List.length_cons]; omega
  · obtain ⟨_, _, e⟩ := Option.map_eq_some_iff.1 h
    obtain ⟨_, rfl⟩ := Prod.mk.inj e
    simp
  · simp at h

/-- A text between double quotes. -/
def basicTail (cs : List Char) : Option (List Char × List Char) :=
  match cs with
  | [] => none
  | '"' :: rest => some ([], rest)
  | '\\' :: rest =>
    match h : escape? rest with
    | none => none
    | some (c, rest') =>
      have := length_lt_of_escape? h
      (basicTail rest').map fun r => (c :: r.1, r.2)
  | c :: rest => if isPrintable c then (basicTail rest).map fun r => (c :: r.1, r.2) else none
termination_by cs.length
decreasing_by all_goals simp only [List.length_cons]; omega

/-- A text between single quotes. -/
def literalTail : List Char → Option (List Char × List Char)
  | [] => none
  | '\'' :: rest => some ([], rest)
  | c :: rest => if isPrintable c then (literalTail rest).map fun r => (c :: r.1, r.2) else none

/-- The text behind a line end, which opens a text of several lines. -/
def skipLineEnd : List Char → List Char
  | '\n' :: rest => rest
  | '\r' :: '\n' :: rest => rest
  | cs => cs

/-- The text behind blanks and line ends. -/
def skipBlankLines : List Char → List Char
  | ' ' :: rest | '\t' :: rest | '\n' :: rest => skipBlankLines rest
  | '\r' :: '\n' :: rest => skipBlankLines rest
  | cs => cs

/-- Skipping blank lines leaves no more text. -/
theorem length_skipBlankLines_le (cs : List Char) : (skipBlankLines cs).length ≤ cs.length := by
  fun_induction skipBlankLines cs <;> grind

/-- The text behind a gap, behind its backslash: the end of the line and all blanks and line ends
that follow. -/
def gap? (cs : List Char) : Option (List Char) :=
  match cs.dropWhile isBlank with
  | '\n' :: rest => some (skipBlankLines rest)
  | '\r' :: '\n' :: rest => some (skipBlankLines rest)
  | _ => none

/-- Skipping blanks leaves no more text. -/
theorem length_dropWhile_isBlank_le (cs : List Char) : (cs.dropWhile isBlank).length ≤ cs.length :=
  (List.dropWhile_sublist isBlank).length_le

/-- Reading a gap leaves less text. -/
theorem length_lt_of_gap? {cs rest : List Char} (h : gap? cs = some rest) :
    rest.length < cs.length := by
  have hd := length_dropWhile_isBlank_le cs
  unfold gap? at h
  split at h
  · next r e =>
    have := length_skipBlankLines_le r
    simp only [e, List.length_cons] at hd
    obtain rfl := Option.some.inj h
    omega
  · next r e =>
    have := length_skipBlankLines_le r
    simp only [e, List.length_cons] at hd
    obtain rfl := Option.some.inj h
    omega
  · simp at h

/-- Up to two quotes in front of three closing ones belong to the text. -/
def closing (quote : Char) : List Char → List Char × List Char
  | a :: b :: rest =>
    if a = quote ∧ b = quote then ([a, b], rest)
    else if a = quote then ([a], b :: rest)
    else ([], a :: b :: rest)
  | [a] => if a = quote then ([a], []) else ([], [a])
  | [] => ([], [])

/-- A text between three double quotes. -/
def basicLinesTail (cs : List Char) : Option (List Char × List Char) :=
  match cs with
  | [] => none
  | '"' :: '"' :: '"' :: rest => some (closing '"' rest)
  | '\r' :: '\n' :: rest => (basicLinesTail rest).map fun r => ('\n' :: r.1, r.2)
  | '\\' :: rest =>
    match hg : gap? rest with
    | some rest' =>
      have := length_lt_of_gap? hg
      basicLinesTail rest'
    | none =>
      match h : escape? rest with
      | none => none
      | some (c, rest') =>
        have := length_lt_of_escape? h
        (basicLinesTail rest').map fun r => (c :: r.1, r.2)
  | c :: rest =>
    if isPrintable c || c = '\n' then (basicLinesTail rest).map fun r => (c :: r.1, r.2) else none
termination_by cs.length
decreasing_by all_goals simp only [List.length_cons]; omega

/-- A text between three single quotes. -/
def literalLinesTail : List Char → Option (List Char × List Char)
  | [] => none
  | '\'' :: '\'' :: '\'' :: rest => some (closing '\'' rest)
  | '\r' :: '\n' :: rest => (literalLinesTail rest).map fun r => ('\n' :: r.1, r.2)
  | c :: rest =>
    if isPrintable c || c = '\n' then (literalLinesTail rest).map fun r => (c :: r.1, r.2) else none

/-- A quoted text of any kind. -/
def text? : List Char → Option (String × List Char)
  | '"' :: '"' :: '"' :: rest =>
    (basicLinesTail (skipLineEnd rest)).map fun r => (String.ofList r.1, r.2)
  | '"' :: rest => (basicTail rest).map fun r => (String.ofList r.1, r.2)
  | '\'' :: '\'' :: '\'' :: rest =>
    (literalLinesTail (skipLineEnd rest)).map fun r => (String.ofList r.1, r.2)
  | '\'' :: rest => (literalTail rest).map fun r => (String.ofList r.1, r.2)
  | _ => none

end PipelineManager.Toml
