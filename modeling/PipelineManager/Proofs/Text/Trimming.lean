import Mathlib.Data.List.TakeWhile
import PipelineManager.Text.Blank

/-!
# Trimmed texts

What is cut off at the ends of a text satisfies the test, and what is left neither opens nor closes
with a character that does. There is one such middle of a text, so that two paths that differ in the
slashes around them are the same place.
-/

namespace PipelineManager.Text

variable {p : Char → Bool} {front back cs : List Char}

/-- What is dropped from the end meets the condition. -/
theorem exists_append_dropEndWhile (p : Char → Bool) (cs : List Char) :
    ∃ back, cs = dropEndWhile p cs ++ back ∧ ∀ c ∈ back, p c = true := by
  refine ⟨(cs.reverse.takeWhile p).reverse, ?_, fun c hc => ?_⟩
  · rw [dropEndWhile, ← List.reverse_append, List.takeWhile_append_dropWhile, List.reverse_reverse]
  · exact List.mem_takeWhile_imp (List.mem_reverse.mp hc)

/-- What is dropped from both ends meets the condition. -/
theorem exists_append_trimWhile (p : Char → Bool) (cs : List Char) :
    ∃ front back, cs = front ++ (trimWhile p cs ++ back) ∧ (∀ c ∈ front, p c = true) ∧ ∀ c ∈ back,
      p c = true := by
  obtain ⟨back, heq, hback⟩ := exists_append_dropEndWhile p (cs.dropWhile p)
  refine ⟨cs.takeWhile p, back, ?_, fun c hc => List.mem_takeWhile_imp hc, hback⟩
  rw [trimWhile, ← heq, List.takeWhile_append_dropWhile]

/-- What trimming drops is blank. -/
theorem exists_append_trim (cs : List Char) :
    ∃ front back, cs = front ++ (trim cs ++ back) ∧ (∀ c ∈ front, isBlank c = true) ∧ ∀ c ∈ back,
      isBlank c = true :=
  exists_append_trimWhile isBlank cs

/-- The first character that is left fails the condition. -/
theorem of_head?_dropWhile {c : Char} (h : (cs.dropWhile p).head? = some c) : p c = false := by
  have hkept := List.head?_dropWhile_not p cs
  rwa [h] at hkept

/-- The last character that is left fails the condition. -/
theorem of_getLast?_dropEndWhile {c : Char} (h : (dropEndWhile p cs).getLast? = some c) :
    p c = false := by
  rw [dropEndWhile, List.getLast?_reverse] at h
  exact of_head?_dropWhile h

/-- The first character that is left after trimming fails the condition. -/
theorem of_head?_trimWhile {c : Char} (h : (trimWhile p cs).head? = some c) : p c = false := by
  obtain ⟨back, heq, -⟩ := exists_append_dropEndWhile p (cs.dropWhile p)
  have hopens : (cs.dropWhile p).head? = some c := by
    rw [heq, List.head?_append]
    exact congrArg (·.or back.head?) h
  exact of_head?_dropWhile hopens

/-- Nothing is dropped from the front if its character fails the condition. -/
theorem dropWhile_of_head? (h : ∀ c, cs.head? = some c → p c = false) : cs.dropWhile p = cs := by
  cases cs with
  | nil => rfl
  | cons c cs => exact List.dropWhile_cons_of_neg (Bool.not_eq_true _ ▸ h c rfl)

/-- Nothing is dropped from the end if its character fails the condition. -/
theorem dropEndWhile_of_getLast? (h : ∀ c, cs.getLast? = some c → p c = false) :
    dropEndWhile p cs = cs := by
  rw [dropEndWhile, dropWhile_of_head? fun c hc => h c (List.head?_reverse ▸ hc),
    List.reverse_reverse]

/-- A text is known by its middle, whatever is cut off around it. -/
theorem trimWhile_append (hfront : ∀ c ∈ front, p c = true) (hback : ∀ c ∈ back, p c = true)
    (hopens : ∀ c, cs.head? = some c → p c = false)
    (hcloses : ∀ c, cs.getLast? = some c → p c = false) :
    trimWhile p (front ++ (cs ++ back)) = cs := by
  rw [trimWhile, List.dropWhile_append_of_pos hfront]
  cases cs with
  | nil =>
    rw [List.nil_append, List.dropWhile_eq_nil_iff.mpr hback]
    rfl
  | cons c cs =>
    have hkept : (c :: cs ++ back).dropWhile p = c :: cs ++ back :=
      dropWhile_of_head? fun d hd => hopens d hd
    rw [hkept, dropEndWhile, List.reverse_append,
      List.dropWhile_append_of_pos fun d hd => hback d (List.mem_reverse.mp hd)]
    exact dropEndWhile_of_getLast? hcloses

/-! ## Slashes -/

/-- All characters but one are no slash. -/
theorem isSlash_eq_false_iff {c : Char} : isSlash c = false ↔ c ≠ '/' := decide_eq_false_iff_not

/-- No slash is left at the end. -/
theorem getLast?_dropEndSlashes (text : String) :
    (dropEndSlashes text).toList.getLast? ≠ some '/' := by
  rw [dropEndSlashes, String.toList_ofList]
  exact fun h => isSlash_eq_false_iff.mp (of_getLast?_dropEndWhile h) rfl

/-- A text that does not end in a slash is left as it is. -/
theorem dropEndSlashes_of_getLast? {text : String} (h : text.toList.getLast? ≠ some '/') :
    dropEndSlashes text = text := by
  rw [dropEndSlashes, dropEndWhile_of_getLast?, String.ofList_toList]
  rintro c hc
  exact isSlash_eq_false_iff.mpr fun hslash => h (hslash ▸ hc)

/-- Whether a path is a place with slashes around it. The place itself has none at its ends. -/
structure Trims (path place : String) : Prop where
  around : ∃ before behind,
    path.toList = List.replicate before '/' ++ (place.toList ++ List.replicate behind '/')
  opens : place.toList.head? ≠ some '/'
  closes : place.toList.getLast? ≠ some '/'

/-- A text of slashes is determined by its length. -/
theorem eq_replicate_of_isSlash (h : ∀ c ∈ cs, isSlash c = true) :
    cs = List.replicate cs.length '/' :=
  List.eq_replicate_iff.mpr ⟨rfl, fun c hc => of_decide_eq_true (h c hc)⟩

/-- The trimmed path is the path without the slashes around it. -/
theorem trims_trimSlashes (path : String) : Trims path (trimSlashes path) := by
  obtain ⟨front, back, heq, hfront, hback⟩ := exists_append_trimWhile isSlash path.toList
  refine ⟨⟨front.length, back.length, ?_⟩, ?_, ?_⟩
  · rw [← eq_replicate_of_isSlash hfront, ← eq_replicate_of_isSlash hback, trimSlashes,
      String.toList_ofList]
    exact heq
  · rw [trimSlashes, String.toList_ofList]
    exact fun h => isSlash_eq_false_iff.mp (of_head?_trimWhile h) rfl
  · rw [trimSlashes, String.toList_ofList]
    exact fun h => isSlash_eq_false_iff.mp (of_getLast?_dropEndWhile h) rfl

/-- A path is one place. -/
theorem trims_iff {path place : String} : Trims path place ↔ trimSlashes path = place := by
  constructor
  · rintro ⟨⟨before, behind, heq⟩, hopens, hcloses⟩
    have hslashes (n : Nat) : ∀ c ∈ List.replicate n '/', isSlash c = true :=
      fun c hc => decide_eq_true (List.eq_of_mem_replicate hc)
    have hmiddle := trimWhile_append (hslashes before) (hslashes behind)
      (fun c hc => isSlash_eq_false_iff.mpr fun hslash => hopens (hslash ▸ hc))
      fun c hc => isSlash_eq_false_iff.mpr fun hslash => hcloses (hslash ▸ hc)
    rw [trimSlashes, heq, hmiddle, String.ofList_toList]
  · rintro rfl
    exact trims_trimSlashes path

end PipelineManager.Text
