import PipelineManager.CommandLine.Run

/-!
# The text of a store

The store is read from a text of JSON. Such a text is no configuration, which is a text of TOML: the
brace behind its blanks starts no statement.
-/

namespace PipelineManager

/-- Whether a text is that of a store. -/
def Store.IsText (s : Store) (text : String) : Prop :=
  (Json.read? text).bind Store.ofValue? = some s

/-! ## JSON texts -/

namespace Json

/-- Whether a dictionary starts behind the blanks of a text. -/
inductive Opens : List Char → Prop
  | brace (rest : List Char) : Opens ('\x7b' :: rest)
  | blank {c : Char} {cs : List Char} (hc : isBlank c = true) (h : Opens cs) : Opens (c :: cs)

/-- Texts that open a dictionary start with one of five characters. -/
theorem Opens.start {P : List Char → Prop} {cs : List Char} (h : Opens cs)
    (hbrace : ∀ cs, P ('\x7b' :: cs)) (hspace : ∀ cs, P (' ' :: cs)) (htab : ∀ cs, P ('\t' :: cs))
    (hline : ∀ cs, P ('\n' :: cs)) (hreturn : ∀ cs, P ('\r' :: cs)) : P cs := by
  cases h with
  | brace rest => exact hbrace rest
  | @blank c cs hc _ =>
    have hcases : ((c = ' ' ∨ c = '\t') ∨ c = '\n') ∨ c = '\r' := by simpa [isBlank] using hc
    rcases hcases with ((rfl | rfl) | rfl) | rfl
    · exact hspace cs
    · exact htab cs
    · exact hline cs
    · exact hreturn cs

/-- A text with a brace behind its blanks opens a dictionary. -/
theorem opens_of_skipBlanks {cs rest : List Char} (h : skipBlanks cs = '\x7b' :: rest) :
    Opens cs := by
  induction cs with
  | nil => cases h
  | cons c cs ih =>
    cases hc : isBlank c with
    | true => exact .blank hc (ih (by rwa [skipBlanks, List.dropWhile_cons_of_pos hc] at h))
    | false =>
      rw [skipBlanks, List.dropWhile_cons_of_neg (by simp [hc])] at h
      obtain ⟨rfl, -⟩ := List.cons.inj h
      exact .brace cs

/-- No numeral is a dictionary. -/
theorem Numeral.value?_ne_dict (n : Numeral) {entries : List (String × Value)} :
    n.value? ≠ some (.dict entries) := by
  have hreal {x : Option Binary64} : x.map Value.real ≠ some (.dict entries) := by cases x <;> simp
  unfold value?
  dsimp only
  split
  · split
    · exact hreal
    · split
      · split
        · exact hreal
        · simp
      · simp
  · exact hreal

/-- Only a brace starts a dictionary. -/
theorem exists_cons_of_readValue {fuel depth : Nat} {cs rest : List Char}
    {entries : List (String × Value)} (h : readValue fuel depth cs = some (.dict entries, rest)) :
    ∃ cs', cs = '\x7b' :: cs' := by
  rw [readValue.eq_def] at h
  have hother {α β : Type} {x : Option α} {f : α → Value × β} {r : β}
      (hx : x.map f = some (.dict entries, r))
      (hf : ∀ a es, (f a).1 ≠ .dict es) : False := by
    obtain ⟨a, -, ha⟩ := Option.map_eq_some_iff.mp hx
    exact hf a entries (by rw [ha])
  split at h
  · cases h
  -- The first character tells what the value is.
  split at h
  · exact (hother h fun _ _ => nofun).elim
  · split at h
    · cases h
    split at h
    · cases h
    · exact (hother h fun _ _ => nofun).elim
  · exact ⟨_, rfl⟩
  · exact (hother h fun _ _ => nofun).elim
  · exact (hother h fun _ _ => nofun).elim
  · exact (hother h fun _ _ => nofun).elim
  · obtain ⟨⟨n, rest⟩, -, hn⟩ := Option.bind_eq_some_iff.mp h
    obtain ⟨v, hv, hd⟩ := Option.bind_eq_some_iff.mp hn
    cases hd
    exact absurd hv n.value?_ne_dict

/-- A text that is read as a dictionary opens one. -/
theorem opens_of_read? {text : String} {entries : List (String × Value)}
    (h : read? text = some (.dict entries)) :
    Opens text.toList := by
  unfold read? at h
  split at h
  · next v rest hfirst =>
    split at h
    · cases v with
      | dict es =>
        obtain ⟨cs, hcs⟩ := exists_cons_of_readValue hfirst
        exact opens_of_skipBlanks hcs
      | _ => cases h
    · cases h
  · cases h

end Json

/-- A text of a store opens a dictionary. -/
theorem Store.IsText.opens {s : Store} {text : String} (h : s.IsText text) :
    Json.Opens text.toList := by
  obtain ⟨v, hread, hvalue⟩ := Option.bind_eq_some_iff.mp h
  cases v with
  | dict entries => exact Json.opens_of_read? hread
  | _ => cases hvalue

/-- The store is read from its text. -/
theorem Store.IsText.ofText?_eq {s : Store} {text : String} (h : s.IsText text) :
    Store.ofText? text = some s := by
  have hempty : ¬ text.isEmpty := by
    intro hempty
    have hopens := h.opens
    rw [String.isEmpty_iff.mp hempty] at hopens
    cases hopens
  rw [ofText?, if_neg hempty]
  exact h

/-! ## TOML texts -/

namespace Toml

variable {cs : List Char} (h : Json.Opens cs)
include h

/-- Without the blanks in front it still opens one. -/
theorem opens_skipBlanks : Json.Opens (skipBlanks cs) := by
  induction h with
  | brace rest => exact .brace rest
  | @blank c cs hc h ih =>
    cases hblank : isBlank c with
    | true => rwa [skipBlanks, List.dropWhile_cons_of_pos hblank]
    | false =>
      rw [skipBlanks, List.dropWhile_cons_of_neg (by simp [hblank])]
      exact .blank hc h

/-- There is no mark to skip. -/
theorem skipMark_of_opens : skipMark cs = cs := by
  apply h.start <;> exact fun _ => rfl

/-- There is no comment to skip. -/
theorem skipComment_of_opens : skipComment cs = cs := by
  apply h.start <;> exact fun _ => rfl

/-- The line is not empty. -/
theorem isEmpty_skipComment_of_opens : (skipComment cs).isEmpty = false := by
  apply h.start <;> exact fun _ => rfl

/-- The line starts no part of a key. -/
theorem keyPart?_of_opens : keyPart? cs = none := by
  apply h.start <;> exact fun _ => rfl

/-- Behind a line end it still opens a dictionary. -/
theorem opens_of_lineEnd? {rest : List Char} (hrest : lineEnd? cs = some rest) :
    Json.Opens rest := by
  unfold lineEnd? at hrest
  split at hrest
  · cases hrest
    cases h with
    | blank _ h => exact h
  · cases hrest
    cases h with
    | blank _ h =>
      cases h with
      | blank _ h => exact h
  · cases hrest

/-- Behind blank lines it still opens a dictionary. -/
theorem opens_skipLines (fuel : Nat) : Json.Opens (skipLines fuel cs) := by
  induction fuel generalizing cs with
  | zero => exact h
  | succ fuel ih =>
    have hblanks := opens_skipBlanks h
    rw [skipLines, skipComment_of_opens hblanks]
    split
    · next hrest => exact ih (opens_of_lineEnd? hblanks hrest)
    · exact hblanks

/-- The line starts no key. -/
theorem keyPath?_of_opens (parts : Nat) : keyPath? parts cs = none := by
  cases parts with
  | zero => rfl
  | succ parts =>
    rw [keyPath?, keyPart?_of_opens (opens_skipBlanks h)]
    rfl

/-- The line is no statement. -/
theorem readStatement_of_opens : readStatement cs = none := by
  unfold readStatement
  split
  · cases h with
    | blank hc _ => cases hc
  · cases h with
    | blank hc _ => cases hc
  · rw [keyPath?_of_opens h]
    rfl

end Toml

/-- The text of a store is no configuration. -/
theorem Store.IsText.ofToml?_eq_none {s : Store} {text : String} (h : s.IsText text) :
    Config.ofToml? text = none := by
  have hopens := h.opens
  have hread : Toml.read? text = none := by
    have hlines := Toml.opens_skipLines hopens text.toList.length
    rw [Toml.read?]
    simp only [Toml.skipMark_of_opens hopens, Toml.readStatements,
      Toml.isEmpty_skipComment_of_opens hlines, Toml.readStatement_of_opens hlines]
    rfl
  rw [Config.ofToml?, hread]
  rfl

end PipelineManager
