import PipelineManager.Proofs.Pipeline.ShellReading

/-!
# Shell words are read back

What `shellWord` writes is read in two layers: the script engine decodes a single-quoted string, and
the shell takes the result for one word. The readers here refuse what does not fit: an escape that
the word has no use for, a quote that would end the string or the word early, and a character that
would make the shell expand something. No word is refused, and each comes out as it was.
-/

namespace PipelineManager

/-! ## Script strings -/

/-- Whether a text can stand in single quotes of a script when the escapes of a backslash, of a
quote and of a line feed are the only ones. -/
def isScriptString : List Char → Bool
  | [] => true
  | ['\\'] => false
  | '\\' :: c :: rest => (c = '\\' || c = '\'' || c = 'n') && isScriptString rest
  | c :: rest => c ≠ '\'' && isScriptString rest

/-- What the script engine makes of a text in single quotes. -/
def scriptString? (cs : List Char) : Option (List Char) :=
  if isScriptString cs then some (scriptText cs) else none

/-- A plain character does not end a string of the script. -/
theorem isScriptString_cons {c : Char} (hc : isPlain c = true) (rest : List Char) :
    isScriptString (c :: rest) = isScriptString rest := by
  have hplain : c ≠ '\\' ∧ c ≠ '\'' := by simpa [isPlain] using hc
  rw [isScriptString.eq_def]
  split
  · contradiction
  · rename_i heq
    exact absurd (List.cons.inj heq).1 hplain.1
  · rename_i heq
    exact absurd (List.cons.inj heq).1 hplain.1
  · rename_i heq
    obtain ⟨rfl, rfl⟩ := List.cons.inj heq
    simp [hplain.2]

/-- Plain characters are a string of the script. -/
theorem isScriptString_of_plain {cs : List Char} (hcs : ∀ c ∈ cs, isPlain c = true) :
    isScriptString cs = true := by
  induction cs with
  | nil => rfl
  | cons c cs ih =>
    obtain ⟨hc, hcs⟩ := List.forall_mem_cons.mp hcs
    rw [isScriptString_cons hc, ih hcs]

/-- A character of a word can be followed by what can stand in the string. -/
theorem isScriptString_escapeShellChar (c : Char) (rest : List Char) :
    isScriptString (escapeShellChar c ++ rest) = isScriptString rest := by
  have hescape (d : Char) (hd : d = '\\' ∨ d = '\'' ∨ d = 'n') (rest : List Char) :
      isScriptString ('\\' :: d :: rest) = isScriptString rest := by
    rcases hd with rfl | rfl | rfl <;> simp [isScriptString]
  unfold escapeShellChar
  split_ifs with hexpand hbackslash hquote hnewline
  · have hplain : isPlain c = true := by rcases hexpand with rfl | rfl | rfl <;> rfl
    exact (hescape '\\' (.inl rfl) _).trans (isScriptString_cons hplain rest)
  · exact (hescape '\\' (.inl rfl) _).trans (hescape '\\' (.inl rfl) _)
  · exact hescape '\'' (.inr (.inl rfl)) rest
  · exact hescape 'n' (.inr (.inr rfl)) rest
  · exact isScriptString_cons (by simp [isPlain, hbackslash, hquote]) rest

/-- A shell word is a string of the script. -/
theorem isScriptString_shellWord (cs : List Char) : isScriptString (shellWord cs) = true := by
  unfold shellWord
  split
  · rename_i hbare
    have hsafe : ∀ c ∈ cs, isShellSafe c = true := by simpa using (Bool.and_eq_true_iff.mp hbare).2
    exact isScriptString_of_plain fun c hc => isPlain_of_class isShellSafe rfl rfl (hsafe c hc)
  · have hquote : isPlain '"' = true := rfl
    have hinside (cs : List Char) :
        isScriptString (cs.flatMap escapeShellChar ++ ['"']) = true := by
      induction cs with
      | nil => rfl
      | cons c cs ih => simp [List.flatMap_cons, isScriptString_escapeShellChar, ih]
    exact (isScriptString_cons hquote _).trans (hinside cs)

/-- The script engine makes one word of the shell of a word that stands alone. -/
theorem scriptString?_shellWord (cs : List Char) :
    scriptString? (shellWord cs) = some (Shell.quotedWord cs) := by
  have htext : scriptText (shellWord cs) = Shell.quotedWord cs := by
    simpa [scriptText] using scriptText_shellWord cs []
  rw [scriptString?, if_pos (isScriptString_shellWord cs), htext]

/-! ## The shell -/

namespace Shell

/-- Reads a text that is one word and nothing else. -/
def soleWord? (cs : List Char) : Option (List Char) :=
  match word? cs with
  | some (text, []) => some text
  | _ => none

/-- The characters of a text that the shell acts on: in double quotes those that begin an
expansion, and elsewhere all that do not mean themselves. A backslash takes the meaning from the
character behind it. -/
def activeChars (inQuotes : Bool) : List Char → List Char
  | [] => []
  | ['\\'] => ['\\']
  | '\\' :: _ :: rest => activeChars inQuotes rest
  | c :: rest =>
    if c = '"' then activeChars (!inQuotes) rest
    else if c = '$' ∨ c = '\x60' ∨ (inQuotes = false ∧ isShellSafe c = false) then
      c :: activeChars inQuotes rest
    else activeChars inQuotes rest

/-- A quoted word is read back, and nothing is left. -/
theorem soleWord?_quotedWord (cs : List Char) : soleWord? (quotedWord cs) = some cs := by
  have hword : word? (quotedWord cs ++ []) = some (cs, []) := word?_quotedWord cs (by simp)
  rw [List.append_nil] at hword
  rw [soleWord?, hword]

/-- A character that means itself is not acted on. -/
theorem activeChars_cons {inQuotes : Bool} {c : Char} (hbackslash : c ≠ '\\') (hquote : c ≠ '"')
    (hexpand : ¬ (c = '$' ∨ c = '\x60')) (hsafe : inQuotes = true ∨ isShellSafe c = true)
    (rest : List Char) :
    activeChars inQuotes (c :: rest) = activeChars inQuotes rest := by
  have hinactive : ¬ (c = '$' ∨ c = '\x60' ∨ (inQuotes = false ∧ isShellSafe c = false)) := by
    rintro (h | h | ⟨hout, hplain⟩)
    · exact hexpand (.inl h)
    · exact hexpand (.inr h)
    · rcases hsafe with h | h
      · exact absurd h (by simp [hout])
      · exact absurd h (by simp [hplain])
  rw [activeChars.eq_def]
  split
  · contradiction
  · rename_i heq
    exact absurd (List.cons.inj heq).1 hbackslash
  · rename_i heq
    exact absurd (List.cons.inj heq).1 hbackslash
  · rename_i heq
    obtain ⟨rfl, rfl⟩ := List.cons.inj heq
    rw [if_neg hquote, if_neg hinactive]

/-- A character that is escaped for double quotes is not active in them. -/
theorem activeChars_escapeInQuotes (c : Char) (rest : List Char) :
    activeChars true (escapeInQuotes c ++ rest) = activeChars true rest := by
  by_cases hc : isEscapable c = true
  · rw [escapeInQuotes, if_pos hc]
    simp [activeChars]
  · obtain ⟨hexpand, hbackslash⟩ := not_or.mp (mt isEscapable_iff.mpr hc)
    obtain ⟨hquote, hexpand⟩ := not_or.mp hexpand
    rw [escapeInQuotes, if_neg hc]
    exact activeChars_cons hbackslash hquote hexpand (.inl rfl) rest

/-- The shell acts on nothing in a word. -/
theorem activeChars_quotedWord (cs : List Char) : activeChars false (quotedWord cs) = [] := by
  unfold quotedWord
  split
  · rename_i hbare
    have hsafe : ∀ c ∈ cs, isShellSafe c = true := by simpa using (Bool.and_eq_true_iff.mp hbare).2
    clear hbare
    induction cs with
    | nil => rfl
    | cons c cs ih =>
      obtain ⟨hc, hcs⟩ := List.forall_mem_cons.mp hsafe
      have hne (d : Char) (hd : isShellSafe d = false) : c ≠ d := by
        rintro rfl
        exact absurd hc (by simp [hd])
      have hexpand : ¬ (c = '$' ∨ c = '\x60') := not_or.mpr ⟨hne '$' rfl, hne '\x60' rfl⟩
      rw [activeChars_cons (hne '\\' rfl) (hne '"' rfl) hexpand (.inr hc), ih hcs]
  · have hinside (cs : List Char) : activeChars true (cs.flatMap escapeInQuotes ++ ['"']) = [] := by
      induction cs with
      | nil => rfl
      | cons c cs ih => simp [List.flatMap_cons, activeChars_escapeInQuotes, ih]
    simpa [activeChars] using hinside cs

end Shell

/-- A text that is written as a shell word in a script string comes out of both readings as it was:
the script engine makes a text of it that the shell takes for one word, the text itself, without
acting on any of its characters. So different texts are written differently. -/
theorem shellWord_reads_back :
    (∀ cs, ∃ text, scriptString? (shellWord cs) = some text ∧ Shell.soleWord? text = some cs ∧
      Shell.activeChars false text = []) ∧
    Function.Injective shellWord := by
  have hread (cs : List Char) : (scriptString? (shellWord cs)).bind Shell.soleWord? = some cs := by
    rw [scriptString?_shellWord, Option.bind_some, Shell.soleWord?_quotedWord]
  refine ⟨fun cs => ?_, fun cs cs' h => ?_⟩
  · exact ⟨Shell.quotedWord cs, scriptString?_shellWord cs, Shell.soleWord?_quotedWord cs,
      Shell.activeChars_quotedWord cs⟩
  · have hsame : some cs = some cs' := by rw [← hread cs, h, hread cs']
    exact Option.some.inj hsame

/-- An expansion that is not escaped is acted on, and no word is read. -/
example : Shell.activeChars false "\"$(id)\"".toList = ['$'] ∧
    Shell.soleWord? "\"$(id)\"".toList = none := by decide

end PipelineManager
