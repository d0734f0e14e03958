import Mathlib.Data.List.Basic
import Mathlib.Tactic.SplitIfs
import PipelineManager.Pipeline.Command
import PipelineManager.Proofs.Text.Search

/-!
# Reading script strings and shell words

What stands in a single-quoted script string is read twice on the agent: the script engine takes
away one level of backslashes, and the shell splits the rest into words. The readers here do so
for the commands that a script begins a test with. A word written by `shellWord` comes out of both
readings as it was, whatever it is made of.
-/

namespace PipelineManager

/-! ## The script engine -/

/-- The character that a backslash and a character stand for in a script string. -/
def scriptEscape? (c : Char) : Option Char :=
  if c = '\\' ∨ c = '\'' ∨ c = '"' ∨ c = '$' then some c
  else if c = 'n' then some '\n'
  else if c = 't' then some '\t'
  else if c = 'r' then some '\r'
  else none

/-- What a script string stands for, up to its closing quote or to what the engine cannot read. -/
def scriptText : List Char → List Char
  | [] => []
  | ['\\'] => []
  | '\\' :: c :: rest =>
    match scriptEscape? c with
    | some d => d :: scriptText rest
    | none => []
  | c :: rest => if c = '\'' then [] else c :: scriptText rest

/-- A character that a script string stands for itself. -/
def isPlain (c : Char) : Bool := c ≠ '\\' && c ≠ '\''

/-- The characters of a class without the two special ones are plain. -/
theorem isPlain_of_class (P : Char → Bool) (hbackslash : P '\\' = false) (hquote : P '\'' = false)
    {c : Char} (hc : P c = true) : isPlain c = true := by
  have hplain : c ≠ '\\' ∧ c ≠ '\'' := by
    constructor
    · rintro rfl
      simp [hbackslash] at hc
    · rintro rfl
      simp [hquote] at hc
  simpa [isPlain] using hplain

/-- A plain character of a script text stands for itself. -/
theorem scriptText_cons {c : Char} (hc : isPlain c = true) (rest : List Char) :
    scriptText (c :: rest) = c :: scriptText rest := by
  have hplain : c ≠ '\\' ∧ c ≠ '\'' := by simpa [isPlain] using hc
  rw [scriptText.eq_def]
  split
  · contradiction
  · rename_i heq
    exact absurd (List.cons.inj heq).1 hplain.1
  · rename_i heq
    exact absurd (List.cons.inj heq).1 hplain.1
  · rename_i heq
    obtain ⟨rfl, rfl⟩ := List.cons.inj heq
    rw [if_neg hplain.2]

/-- Plain characters of a script text stand for themselves. -/
theorem scriptText_append {cs : List Char} (hcs : ∀ c ∈ cs, isPlain c = true) (rest : List Char) :
    scriptText (cs ++ rest) = cs ++ scriptText rest := by
  induction cs with
  | nil => rfl
  | cons c cs ih =>
    rw [List.cons_append, scriptText_cons (hcs c (List.mem_cons_self ..)),
      ih fun d hd => hcs d (List.mem_cons_of_mem c hd), List.cons_append]

/-- An escape of a script text stands for its character. -/
theorem scriptText_escape {c d : Char} (hc : scriptEscape? c = some d) (rest : List Char) :
    scriptText ('\\' :: c :: rest) = d :: scriptText rest := by
  rw [scriptText, hc]

/-! ## The shell -/

namespace Shell

/-- Whether a backslash in double quotes takes away the meaning of a character. -/
def isEscapable (c : Char) : Bool := c = '"' || c = '$' || c = '\x60' || c = '\\'

/-- Reads a word in double quotes behind the opening one, if nothing in it is expanded. The other
part is what follows the word. -/
def doubleQuoted? : List Char → Option (List Char × List Char)
  | [] => none
  | ['\\'] => none
  | '\\' :: c :: rest =>
    if isEscapable c then (doubleQuoted? rest).map fun p => (c :: p.1, p.2)
    else if c = '\n' then doubleQuoted? rest
    else (doubleQuoted? rest).map fun p => ('\\' :: c :: p.1, p.2)
  | c :: rest =>
    if c = '"' then some ([], rest)
    else if c = '$' ∨ c = '\x60' then none
    else (doubleQuoted? rest).map fun p => (c :: p.1, p.2)

/-- Reads a word: one in double quotes, or one of characters that mean themselves. -/
def word? (cs : List Char) : Option (List Char × List Char) :=
  match cs with
  | '"' :: rest => doubleQuoted? rest
  | _ =>
    if (cs.takeWhile isShellSafe).isEmpty then none
    else some (cs.takeWhile isShellSafe, cs.dropWhile isShellSafe)

/-- A character in double quotes. -/
def escapeInQuotes (c : Char) : List Char := if isEscapable c then ['\\', c] else [c]

/-- A text as one word of the shell. -/
def quotedWord (cs : List Char) : List Char :=
  if !cs.isEmpty && cs.all isShellSafe then cs else '"' :: cs.flatMap escapeInQuotes ++ ['"']

/-- The characters that the shell escapes in double quotes. -/
theorem isEscapable_iff {c : Char} :
    isEscapable c = true ↔ (c = '"' ∨ c = '$' ∨ c = '\x60') ∨ c = '\\' := by
  simp [isEscapable, or_assoc]

/-- A character that is escaped for double quotes is read back. -/
theorem doubleQuoted?_escapeInQuotes (c : Char) (rest : List Char) :
    doubleQuoted? (escapeInQuotes c ++ rest) = (doubleQuoted? rest).map
      fun p => (c :: p.1, p.2) := by
  by_cases hc : isEscapable c
  · simp [escapeInQuotes, hc, doubleQuoted?]
  · obtain ⟨hexpand, hbackslash⟩ := not_or.mp (mt isEscapable_iff.mpr hc)
    obtain ⟨hquote, hexpand⟩ := not_or.mp hexpand
    rw [escapeInQuotes, if_neg hc, List.singleton_append, doubleQuoted?.eq_def]
    split
    · contradiction
    · rename_i heq
      exact absurd (List.cons.inj heq).1 hbackslash
    · rename_i heq
      exact absurd (List.cons.inj heq).1 hbackslash
    · rename_i heq
      obtain ⟨rfl, rfl⟩ := List.cons.inj heq
      rw [if_neg hquote, if_neg hexpand]

/-- What is written in double quotes is read back. -/
theorem doubleQuoted?_flatMap (cs rest : List Char) :
    doubleQuoted? (cs.flatMap escapeInQuotes ++ '"' :: rest) = some (cs, rest) := by
  induction cs with
  | nil => simp [doubleQuoted?]
  | cons c cs ih => simp [List.flatMap_cons, doubleQuoted?_escapeInQuotes, ih]

/-- A word is read back when what follows it cannot belong to it. -/
theorem word?_quotedWord (cs : List Char) {rest : List Char}
    (hrest : ∀ c ∈ rest.head?, isShellSafe c = false) :
    word? (quotedWord cs ++ rest) = some (cs, rest) := by
  unfold quotedWord
  split
  · rename_i hbare
    obtain ⟨hne, hsafe⟩ : ¬ cs = [] ∧ ∀ c ∈ cs, isShellSafe c = true := by simpa using hbare
    obtain ⟨htake, hdrop⟩ := Text.takeWhile_dropWhile_append hsafe hrest
    have hquote : ∀ rest', cs ++ rest ≠ '"' :: rest' := by
      intro rest' heq
      obtain ⟨c, cs', rfl⟩ := List.exists_cons_of_ne_nil hne
      obtain rfl : c = '"' := (List.cons.inj heq).1
      exact absurd (hsafe '"' (List.mem_cons_self ..)) (by decide)
    rw [word?.eq_def]
    split
    · rename_i rest' heq
      exact absurd heq (hquote rest')
    · rw [htake, hdrop, if_neg (by simpa using hne)]
  · simp [word?, doubleQuoted?_flatMap]

end Shell

/-! ## Both readings -/

/-- The script text of an escaped character is its escape for the shell. -/
theorem scriptText_escapeShellChar (c : Char) (rest : List Char) :
    scriptText (escapeShellChar c ++ rest) = Shell.escapeInQuotes c ++ scriptText rest := by
  have hescaped (d : Char) (hd : scriptEscape? d = some d) (rest : List Char) :
      scriptText ('\\' :: d :: rest) = d :: scriptText rest := scriptText_escape hd rest
  unfold escapeShellChar
  split_ifs with hexpand hbackslash hquote hnewline
  · have hplain : isPlain c = true := by rcases hexpand with rfl | rfl | rfl <;> rfl
    have hescapable : Shell.isEscapable c = true := Shell.isEscapable_iff.mpr (Or.inl hexpand)
    simp [hescaped '\\' rfl, scriptText_cons hplain, Shell.escapeInQuotes, hescapable]
  · subst hbackslash
    simp [hescaped '\\' rfl, Shell.escapeInQuotes, Shell.isEscapable]
  · subst hquote
    simp [hescaped '\'' rfl, Shell.escapeInQuotes, Shell.isEscapable]
  · subst hnewline
    exact scriptText_escape rfl rest
  · have hescapable : ¬ Shell.isEscapable c = true :=
      mt Shell.isEscapable_iff.mp (not_or.mpr ⟨hexpand, hbackslash⟩)
    have hplain : isPlain c = true := by simp [isPlain, hbackslash, hquote]
    simp [scriptText_cons hplain, Shell.escapeInQuotes, hescapable]

/-- The script engine makes a word of the shell of what `shellWord` writes. -/
theorem scriptText_shellWord (cs rest : List Char) :
    scriptText (shellWord cs ++ rest) = Shell.quotedWord cs ++ scriptText rest := by
  unfold shellWord Shell.quotedWord
  split
  · rename_i hbare
    have hsafe : ∀ c ∈ cs, isShellSafe c = true := by simpa using (Bool.and_eq_true_iff.mp hbare).2
    exact scriptText_append (fun c hc => isPlain_of_class isShellSafe rfl rfl (hsafe c hc)) rest
  · have hquote : isPlain '"' = true := rfl
    have hinside : ∀ cs : List Char, scriptText (cs.flatMap escapeShellChar ++ '"' :: rest) =
        cs.flatMap Shell.escapeInQuotes ++ '"' :: scriptText rest := by
      intro cs
      induction cs with
      | nil => exact scriptText_cons hquote rest
      | cons c cs ih => simp [List.flatMap_cons, scriptText_escapeShellChar, ih]
    simp [scriptText_cons hquote, hinside]

/-! ## Exports -/

/-- A prefix is taken off what it stands in front of. -/
theorem isPrefixOf?_append (lead rest : List Char) : lead.isPrefixOf? (lead ++ rest) = some rest :=
  List.isPrefixOf?_eq_some_iff_append_eq.mpr rfl

namespace Shell

/-- A variable and the value that it is exported with. -/
abbrev Binding := String × String

/-- Reads an export. The other part is what follows it. -/
def export? (cs : List Char) : Option (Binding × List Char) := do
  let rest ← "export ".toList.isPrefixOf? cs
  match rest.dropWhile isVariableChar with
  | '=' :: value =>
    let (text, rest') ← word? value
    return ((String.ofList (rest.takeWhile isVariableChar), String.ofList text), rest')
  | _ => none

/-- Reading double quotes leaves less text. -/
theorem length_doubleQuoted? {cs : List Char} {p : List Char × List Char}
    (h : doubleQuoted? cs = some p) :
    p.2.length < cs.length := by
  fun_induction doubleQuoted? cs generalizing p with
  | case1 | case2 | case7 => cases h
  | case6 => cases h; simp
  | case4 rest _ ih =>
    have hrest := ih h
    simp only [List.length_cons]
    omega
  | case3 c rest _ ih | case5 c rest _ _ ih | case8 c rest _ _ _ _ ih =>
    obtain ⟨q, hq, rfl⟩ := Option.map_eq_some_iff.mp h
    have hrest := ih hq
    simp only [List.length_cons]
    omega

/-- Reading a word leaves no more text. -/
theorem length_word? {cs : List Char} {p : List Char × List Char} (h : word? cs = some p) :
    p.2.length ≤ cs.length := by
  unfold word? at h
  split at h
  · exact Nat.le_trans (Nat.le_of_lt (length_doubleQuoted? h)) (by simp)
  · split at h
    · cases h
    · cases h
      exact (List.dropWhile_sublist _).length_le

/-- Reading an export leaves less text. -/
theorem length_export? {cs rest : List Char} {b : Binding} (h : export? cs = some (b, rest)) :
    rest.length < cs.length := by
  simp only [export?, Option.bind_eq_bind, Option.bind_eq_some_iff] at h
  obtain ⟨assignment, hlead, h⟩ := h
  split at h
  · rename_i value hvalue
    obtain ⟨p, hword, hp⟩ := Option.bind_eq_some_iff.mp h
    cases hp
    have hlength := length_word? hword
    have hdrop := (List.dropWhile_sublist isVariableChar (l := assignment)).length_le
    rw [hvalue] at hdrop
    rw [← List.append_eq_of_isPrefixOf?_eq_some hlead, List.length_append]
    simp only [List.length_cons] at hdrop
    omega
  · cases h

/-- What follows an export and its separator is shorter. -/
theorem length_exports_rest {cs rest rest' : List Char} {b : Binding}
    (h : export? cs = some (b, rest)) (hrest : " ; ".toList.isPrefixOf? rest = some rest') :
    rest'.length < cs.length := by
  have hshorter := length_export? h
  rw [← List.append_eq_of_isPrefixOf?_eq_some hrest, List.length_append] at hshorter
  omega

/-- The exports that a text begins with, each followed by a separator. -/
def exports (cs : List Char) : List Binding :=
  match h : export? cs with
  | none => []
  | some (b, rest) =>
    match hrest : " ; ".toList.isPrefixOf? rest with
    | none => [b]
    | some rest' =>
      have : rest'.length < cs.length := length_exports_rest h hrest
      b :: exports rest'
termination_by cs.length

/-- An export is read back when its variable is one and what follows it cannot belong to
its value. -/
theorem export?_append {name : List Char} (hname : ∀ c ∈ name, isVariableChar c = true)
    (value : List Char) {rest : List Char} (hrest : ∀ c ∈ rest.head?, isShellSafe c = false) :
    export? ("export ".toList ++ (name ++ '=' :: (quotedWord value ++ rest))) =
      some ((String.ofList name, String.ofList value), rest) := by
  have hequals : ∀ c ∈ ('=' :: (quotedWord value ++ rest)).head?, isVariableChar c = false := by
    simp; rfl
  obtain ⟨htake, hdrop⟩ := Text.takeWhile_dropWhile_append hname hequals
  simp only [export?, isPrefixOf?_append, Option.bind_eq_bind, Option.bind_some, htake, hdrop,
    word?_quotedWord value hrest]
  rfl

/-- The first export and those behind it are the exports of a text. -/
theorem exports_cons {cs rest : List Char} {b : Binding}
    (h : export? cs = some (b, " ; ".toList ++ rest)) : exports cs = b :: exports rest := by
  rw [exports.eq_def]
  split
  · rename_i hnone
    rw [h] at hnone
    cases hnone
  · rename_i b' rest' hsome
    rw [h] at hsome
    cases hsome
    split
    · rename_i hnone
      rw [isPrefixOf?_append] at hnone
      cases hnone
    · rename_i rest' hsome
      rw [isPrefixOf?_append] at hsome
      cases hsome
      rfl

end Shell

/-- The exports that a command of a script begins with, as the shell of the agent reads them. -/
def commandExports (command : String) : List Shell.Binding :=
  match "sh '".toList.isPrefixOf? command.toList with
  | some rest => Shell.exports (scriptText rest)
  | none => []

end PipelineManager
