import Mathlib.Data.List.Basic
import PipelineManager.Text.Search

/-!
# First occurrences

A text is cut at an occurrence of a piece in front of which there is no other. The cut succeeds
exactly when the piece occurs. A part whose characters all have a property ends where one without it
follows.
-/

namespace PipelineManager.Text

variable {piece cs front rest : List Char}

/-- Behind a piece in front stands the rest. -/
theorem behind?_append (piece rest : List Char) : behind? piece (piece ++ rest) = some rest := by
  induction piece with
  | nil => rfl
  | cons c piece ih => rw [List.cons_append, behind?, if_pos rfl, ih]

/-- A text has a rest behind a piece iff the piece stands in front. -/
theorem behind?_eq_some_iff : behind? piece cs = some rest ↔ cs = piece ++ rest :=
  ⟨eq_append_of_behind?, fun h => h ▸ behind?_append piece rest⟩

/-- The first occurrence is not behind any other. -/
theorem length_le_of_cut? (h : cut? piece cs = some (front, rest)) {front' rest' : List Char}
    (hother : cs = front' ++ piece ++ rest') : front.length ≤ front'.length := by
  induction cs generalizing front front' with
  | nil =>
    have hpiece : piece = [] := by simp_all
    subst hpiece
    obtain ⟨rfl, -⟩ := Prod.mk.inj (Option.some.inj h)
    exact Nat.zero_le _
  | cons c cs ih =>
    rw [cut?] at h
    split at h
    · obtain ⟨rfl, -⟩ := Prod.mk.inj (Option.some.inj h)
      exact Nat.zero_le _
    · next hnot =>
      obtain ⟨⟨front, rest⟩, hcut, heq⟩ := Option.map_eq_some_iff.mp h
      obtain ⟨rfl, rfl⟩ := Prod.mk.inj heq
      cases front' with
      | nil => exact absurd (behind?_eq_some_iff.mpr hother) (by simp [hnot])
      | cons d front' =>
        simp only [List.cons_append] at hother
        exact Nat.succ_le_succ (ih hcut (List.cons.inj hother).2)

/-- A piece that occurs is found. -/
theorem isSome_cut?_append (front piece rest : List Char) :
    (cut? piece (front ++ piece ++ rest)).isSome := by
  induction front with
  | nil =>
    cases piece with
    | nil => cases rest <;> rfl
    | cons c piece =>
      have hbehind := behind?_append (c :: piece) rest
      rw [List.nil_append, List.cons_append, cut?]
      rw [List.cons_append] at hbehind
      rw [hbehind]
      rfl
  | cons c front ih =>
    simp only [List.cons_append]
    rw [cut?]
    split
    · rfl
    · simpa using ih

/-- A text is cut at the first occurrence of a piece. -/
theorem cut?_eq_some_iff : cut? piece cs = some (front, rest) ↔
    cs = front ++ piece ++ rest ∧
      ∀ front' rest', cs = front' ++ piece ++ rest' → front.length ≤ front'.length := by
  constructor
  · exact fun h => ⟨append_of_cut? h, fun _ _ hother => length_le_of_cut? h hother⟩
  · rintro ⟨hcs, hfirst⟩
    obtain ⟨⟨front', rest'⟩, hcut⟩ :=
      Option.isSome_iff_exists.mp (hcs ▸ isSome_cut?_append front piece rest)
    have hsame := append_of_cut? hcut
    have hlength : front'.length = front.length :=
      Nat.le_antisymm (length_le_of_cut? hcut hcs) (hfirst front' rest' hsame)
    have hparts : front' ++ (piece ++ rest') = front ++ (piece ++ rest) := by
      rw [← List.append_assoc, ← List.append_assoc, ← hsame, hcs]
    obtain ⟨rfl, hbehind⟩ := List.append_inj hparts hlength
    obtain rfl := List.append_cancel_left hbehind
    exact hcut

/-- An occurrence that starts no later than another one does not depend on what follows that one. -/
theorem exists_occurrence_of_le {front' rest' : List Char}
    (hother : front ++ piece ++ rest = front' ++ piece ++ rest')
    (hle : front'.length ≤ front.length) (tail : List Char) :
    ∃ tail', front ++ piece ++ tail = front' ++ piece ++ tail' := by
  have hlength : (front' ++ piece).length ≤ (front ++ piece).length := by simpa using hle
  obtain ⟨middle, hmiddle⟩ :=
    List.prefix_of_prefix_length_le ⟨rest', hother.symm⟩ ⟨rest, rfl⟩ hlength
  exact ⟨middle ++ tail, by rw [← hmiddle, List.append_assoc]⟩

/-- What follows an occurrence of a piece does not change what stands in front of the first one. -/
theorem before_append_piece (front piece rest rest' : List Char) :
    before piece (front ++ piece ++ rest') = before piece (front ++ piece ++ rest) := by
  obtain ⟨⟨first, tail⟩, hcut⟩ := Option.isSome_iff_exists.mp (isSome_cut?_append front piece rest)
  obtain ⟨htext, hfirst⟩ := cut?_eq_some_iff.mp hcut
  have hle := hfirst front rest rfl
  obtain ⟨tail', htext'⟩ := exists_occurrence_of_le htext hle rest'
  have hcut' : cut? piece (front ++ piece ++ rest') = some (first, tail') := by
    refine cut?_eq_some_iff.mpr ⟨htext', fun other behind hother => ?_⟩
    by_contra hlt
    obtain ⟨behind', hother'⟩ := exists_occurrence_of_le hother (by omega) rest
    exact hlt (hfirst other behind' hother')
  rw [before, before, hcut, hcut']

/-- A text is cut at a piece whose first character does not stand in front of it. -/
theorem cut?_append {c : Char} (hfront : c ∉ front) (piece rest : List Char) :
    cut? (c :: piece) (front ++ c :: piece ++ rest) = some (front, rest) := by
  induction front with
  | nil =>
    have hbehind := behind?_append (c :: piece) rest
    rw [List.nil_append, List.cons_append, cut?]
    rw [List.cons_append] at hbehind
    rw [hbehind]
  | cons d front ih =>
    obtain ⟨hne, hfront⟩ := not_or.mp (mt List.mem_cons.mpr hfront)
    rw [List.cons_append, List.cons_append, cut?, behind?, if_neg hne, ih hfront, Option.map_some]

/-- A text is cut at a character exactly where that stands for the first time. -/
theorem cut?_singleton_eq_some_iff {c : Char} :
    cut? [c] cs = some (front, rest) ↔ cs = front ++ c :: rest ∧ c ∉ front := by
  constructor
  · intro h
    refine ⟨by simpa using append_of_cut? h, fun hc => ?_⟩
    obtain ⟨front', back, hfront⟩ := List.append_of_mem hc
    have hother : cs = front' ++ [c] ++ (back ++ c :: rest) := by
      simpa [hfront] using append_of_cut? h
    have hle := length_le_of_cut? h hother
    simp only [hfront, List.length_append, List.length_cons] at hle
    omega
  · rintro ⟨rfl, hc⟩
    simpa using cut?_append hc [] rest

/-- In front of a character stands what does not have it. -/
theorem before_append {c : Char} (hfront : c ∉ front) (rest : List Char) :
    before [c] (front ++ c :: rest) = front := by
  have hcut : cut? [c] (front ++ c :: rest) = some (front, rest) := by
    simpa using cut?_append hfront [] rest
  rw [before, hcut]

/-- What all has a property is taken up to what follows without it. -/
theorem takeWhile_dropWhile_append {p : Char → Bool} (hfront : ∀ c ∈ front, p c = true)
    (hrest : ∀ c ∈ rest.head?, p c = false) :
    (front ++ rest).takeWhile p = front ∧ (front ++ rest).dropWhile p = rest := by
  rw [List.takeWhile_append_of_pos hfront, List.dropWhile_append_of_pos hfront]
  cases rest with
  | nil => simp
  | cons c rest =>
    have hc : p c = false := hrest c rfl
    simp [hc]

end PipelineManager.Text
