/-!
# Searching a text

`cut?` cuts a text around the first occurrence of a piece; joining the parts again gives the text.
-/

namespace PipelineManager.Text

/-- What stands behind `piece` at the start of a text. -/
def behind? : (piece : List Char) → List Char → Option (List Char)
  | [], cs => some cs
  | _ :: _, [] => none
  | p :: ps, c :: cs => if p = c then behind? ps cs else none

/-- What stands before and behind the first occurrence of `piece`. -/
def cut? (piece : List Char) : List Char → Option (List Char × List Char)
  | [] => if piece.isEmpty then some ([], []) else none
  | c :: cs =>
    match behind? piece (c :: cs) with
    | some rest => some ([], rest)
    | none => (cut? piece cs).map fun parts => (c :: parts.1, parts.2)

/-- What stands before the first occurrence of `piece`, the whole text when there is none. -/
def before (piece cs : List Char) : List Char :=
  match cut? piece cs with
  | some parts => parts.1
  | none => cs

/-- A piece and what stands behind it give the text again. -/
theorem eq_append_of_behind? {piece cs rest : List Char} (h : behind? piece cs = some rest) :
    cs = piece ++ rest := by
  fun_induction behind? piece cs with
  | case1 cs => simpa using h
  | case2 => simp at h
  | case3 ps p cs ih => simp [← ih h]
  | case4 => simp at h

/-- The parts around an occurrence give the text again. -/
theorem append_of_cut? {piece cs front rest : List Char}
    (h : cut? piece cs = some (front, rest)) : cs = front ++ piece ++ rest := by
  induction cs generalizing front with
  | nil =>
    rw [cut?] at h
    split at h
    · next e =>
      simp only [List.isEmpty_iff] at e
      simp_all
    · simp at h
  | cons c cs ih =>
    rw [cut?] at h
    split at h
    · next e =>
      obtain ⟨rfl, rfl⟩ := by simpa using h
      simpa using eq_append_of_behind? e
    · obtain ⟨⟨before, after⟩, hb, hr⟩ := Option.map_eq_some_iff.1 h
      obtain ⟨rfl, rfl⟩ := by simpa using hr
      simpa using ih hb

end PipelineManager.Text
