import PipelineManager.Proofs.Text.Digits
import PipelineManager.Proofs.Text.Search
import PipelineManager.Schema.Check

/-!
# The text of a position

Behind a text that is not empty a step adds a mark: a point and the name of a field, or the number
of an item in brackets. Names of letters, digits and underscores end where the next mark begins, so
that positions of such names can be read off their marks.
-/

namespace PipelineManager.Schema

/-! ## Marks -/

/-- What a step adds behind a text that is not empty. -/
def Step.mark : Step → List Char
  | field name => '.' :: name.toList
  | item index => '[' :: ((Nat.repr index).toList ++ [']'])

/-- What the steps of a position add behind a text that is not empty. -/
def marks (position : Position) : List Char := position.flatMap Step.mark

/-- The empty position has no marks. -/
@[simp] theorem marks_nil : marks [] = [] := rfl

/-- The marks of a position are those of its steps in order. -/
@[simp] theorem marks_cons (step : Step) (position : Position) :
    marks (step :: position) = step.mark ++ marks position := rfl

/-- A step extends a path by its mark. -/
theorem Step.toList_extend {path : String} (hpath : path ≠ "") (step : Step) :
    (step.extend path).toList = path.toList ++ step.mark := by
  cases step with
  | field name => simp [extend, mark, String.isEmpty_iff, hpath]
  | item index => simp [extend, mark]

/-- A path that is extended is not empty. -/
theorem Step.extend_ne_empty {path : String} (hpath : path ≠ "") (step : Step) :
    step.extend path ≠ "" := by
  intro h
  have htext := step.toList_extend hpath
  rw [h] at htext
  exact hpath (String.toList_inj.mp (List.append_eq_nil_iff.mp htext.symm).1)

/-- The steps of a position extend a path by its marks. -/
theorem toList_foldl_extend {path : String} (hpath : path ≠ "") (position : Position) :
    (position.foldl Step.extend path).toList = path.toList ++ marks position := by
  induction position generalizing path with
  | nil => simp
  | cons step position ih =>
    rw [List.foldl_cons, ih (step.extend_ne_empty hpath), step.toList_extend hpath, marks_cons,
      List.append_assoc]

/-! ## Spelling -/

/-- What the steps of a position spell, one after the other. -/
def Position.spelling (position : Position) : String := position.foldl Step.extend ""

/-- A position is shown by its spelling, or as the root if that is empty. -/
theorem Position.text_eq (position : Position) :
    position.text = if position.spelling = "" then "<root>" else position.spelling := by
  rw [text, ← spelling]
  simp [String.isEmpty_iff]

/-- The first name of a position stands without its point. -/
theorem marks_eq_of_field {name : String} {rest : Position} (hname : name ≠ "" ∨ rest = []) :
    marks (.field name :: rest) = '.' :: (Position.spelling (.field name :: rest)).toList := by
  have hspelling : Position.spelling (.field name :: rest) = rest.foldl Step.extend name := rfl
  rw [hspelling]
  rcases hname with hname | rfl
  · rw [toList_foldl_extend hname, marks_cons]
    rfl
  · simp [Step.mark]

/-- A position that starts with an item is spelled by its marks. -/
theorem marks_eq_of_item (index : Nat) (rest : Position) :
    marks (.item index :: rest) = (Position.spelling (.item index :: rest)).toList := by
  have hspelling :
      Position.spelling (.item index :: rest) =
        rest.foldl Step.extend ((Step.item index).extend "") := rfl
  have hfirst : (Step.item index).extend "" ≠ "" := by
    intro h
    have htext := congrArg String.toList h
    simp [Step.extend] at htext
  rw [hspelling, toList_foldl_extend hfirst, marks_cons]
  simp [Step.extend, Step.mark]

/-- A name goes on with the steps behind it as if it were all the name of one field. -/
theorem foldl_extend_field {name : String} (hname : name ≠ "") (path : String) (rest : Position) :
    rest.foldl Step.extend ((Step.field name).extend path) =
      (Step.field (rest.foldl Step.extend name)).extend path := by
  by_cases hpath : path = ""
  · simp [Step.extend, hpath]
  · refine String.toList_inj.mp ?_
    rw [toList_foldl_extend ((Step.field name).extend_ne_empty hpath), Step.toList_extend hpath,
      Step.toList_extend hpath]
    simp [Step.mark, toList_foldl_extend hname]

/-! ## Reading marks -/

/-- A character of a plain name. -/
def isPlainChar (c : Char) : Bool := c.isAlphanum || c = '_'

/-- Whether a name is plain: not empty, of letters, digits and underscores. -/
def isPlainName (name : String) : Bool := !name.toList.isEmpty && name.toList.all isPlainChar

/-- A plain name is not empty. -/
theorem ne_empty_of_isPlainName {name : String} (h : isPlainName name = true) : name ≠ "" := by
  rintro rfl
  simp [isPlainName] at h

/-- Behind a plain name a position begins with a mark that does not belong to it. -/
theorem isPlainChar_head_marks (position : Position) : ∀ c ∈ (marks position).head?,
    isPlainChar c = false := by
  intro c hc
  cases position with
  | nil => cases hc
  | cons step rest =>
    cases step with
    | field name =>
      obtain rfl : '.' = c := Option.some.inj hc
      rfl
    | item index =>
      obtain rfl : '[' = c := Option.some.inj hc
      rfl

/-- A plain name can be told from the marks behind it. -/
theorem plainName_append_inj {name name' : String} {rest rest' : Position}
    (hname : isPlainName name = true) (hname' : isPlainName name' = true)
    (h : name.toList ++ marks rest = name'.toList ++ marks rest') :
    name = name' ∧ marks rest = marks rest' := by
  have hplain {name : String} (h : isPlainName name = true) : ∀ c ∈ name.toList,
      isPlainChar c = true :=
    List.all_eq_true.mp (Bool.and_eq_true_iff.mp h).2
  have hread := Text.takeWhile_dropWhile_append (hplain hname) (isPlainChar_head_marks rest)
  have hread' := Text.takeWhile_dropWhile_append (hplain hname') (isPlainChar_head_marks rest')
  rw [h] at hread
  exact ⟨String.toList_inj.mp (hread.1.symm.trans hread'.1), hread.2.symm.trans hread'.2⟩

/-- The mark of an item can be told from what is behind it. -/
theorem item_mark_append_inj {index index' : Nat} {back back' : List Char}
    (h : (Step.item index).mark ++ back = (Step.item index').mark ++ back') :
    index = index' ∧ back = back' := by
  have hclose (n : Nat) : ']' ∉ (Nat.repr n).toList :=
    fun h => absurd (Json.isDigit_of_mem_repr h) (by decide)
  simp only [Step.mark, List.cons_append, List.append_assoc] at h
  obtain ⟨hdigits, hback⟩ := append_separator_inj (hclose index) (hclose index') (List.cons.inj h).2
  exact ⟨Json.repr_injective (String.toList_inj.mp hdigits), hback⟩

end PipelineManager.Schema
