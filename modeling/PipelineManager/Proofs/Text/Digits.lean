import Mathlib.Data.List.Basic

/-!
# Separators and decimal digits

What stands in front of the first separator of a text, and what stands behind the last, is
determined by the text. The decimal digits of a number determine it and hold no separator.
-/

namespace PipelineManager

/-- What stands before the first separator is determined, and so is what follows it. -/
theorem append_separator_inj {α : Type} {c : α} {front front' back back' : List α}
    (hfront : c ∉ front) (hfront' : c ∉ front') (h : front ++ c :: back = front' ++ c :: back') :
    front = front' ∧ back = back' := by
  rcases List.append_eq_append_iff.mp h with ⟨between, heq, hrest⟩ | ⟨between, heq, hrest⟩
  all_goals
    cases between with
    | nil => exact ⟨by simp [heq], (List.cons.inj hrest).2 ▸ rfl⟩
    | cons d between =>
      obtain ⟨rfl, -⟩ := List.cons.inj hrest
      simp [heq] at hfront hfront'

/-- What follows the last separator is determined. -/
theorem eq_of_append_separator {α : Type} {c : α} {front front' back back' : List α}
    (hback : c ∉ back) (hback' : c ∉ back') (h : front ++ c :: back = front' ++ c :: back') :
    back = back' := by
  have hreversed := congrArg List.reverse h
  simp only [List.reverse_append, List.reverse_cons, List.append_assoc, List.singleton_append]
    at hreversed
  have hsame := append_separator_inj (by simpa using hback) (by simpa using hback') hreversed
  exact List.reverse_inj.mp hsame.1

namespace Json

/-- Different numbers have different digits. -/
theorem repr_injective : Function.Injective Nat.repr := by
  intro m n h
  have hdigits : Nat.toDigits 10 m = Nat.toDigits 10 n := by
    rw [← Nat.toList_repr, h, Nat.toList_repr]
  have hread := congrArg (fun digits => Nat.ofDigitChars 10 digits 0) hdigits
  simpa using hread

/-- A number is written with digits only. -/
theorem isDigit_of_mem_repr {n : Nat} {c : Char} (h : c ∈ (Nat.repr n).toList) :
    c.isDigit = true := by
  rw [Nat.toList_repr] at h
  exact Nat.isDigit_of_mem_toDigits (by decide) (by decide) h

end Json
end PipelineManager
