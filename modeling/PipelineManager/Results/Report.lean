import PipelineManager.Number.Word
import PipelineManager.Text.Search
import PipelineManager.Text.WordChar
import PipelineManager.Time.Moment

/-!
# Test reports

What the test runner writes about a test. The counts come from the tag of the total statistics,
and the test spans the time from the earliest start to the latest end of the status tags in front
of the statistics.
-/

namespace PipelineManager

/-- The summary of a report. -/
structure Report where
  passed : Nat
  failed : Nat
  startedAt : Option Moment
  endedAt : Option Moment
deriving DecidableEq, Repr, Inhabited

namespace Report

/-- Whether nothing failed. -/
def success (r : Report) : Bool := r.failed = 0

/-- Whether a word ends in front of a text. -/
def isWordEnd : List Char → Bool
  | [] => true
  | c :: _ => !Text.isWordChar c

/-- The attributes of a tag and what follows it, for a text behind the name of the tag. -/
def tagRest? (cs : List Char) : Option (List Char × List Char) :=
  if isWordEnd cs then Text.cut? ['>'] cs else none

/-- The opening of the total statistics. -/
def totalMark : List Char := "<total>".toList

/-- The opening of the tag of a statistic. -/
def statMark : List Char := "<stat".toList

/-- The opening of a status tag. -/
def statusMark : List Char := "<status".toList

/-- The opening of the statistics. -/
def statisticsMark : List Char := "<statistics>".toList

/-- The attributes of the total statistics, when a text starts with them. -/
def totalHere? (cs : List Char) : Option (List Char) := do
  let rest ← Text.behind? totalMark cs
  let rest ← Text.behind? statMark (rest.dropWhile Text.isBlank)
  return (← tagRest? rest).1

/-- The attributes of the first total statistics. -/
def total? : List Char → Option (List Char)
  | [] => none
  | c :: cs =>
    match totalHere? (c :: cs) with
    | some attributes => some attributes
    | none => total? cs

/-- The attributes of a status tag and what follows it, when a text starts with one. -/
def statusHere? (cs : List Char) : Option (List Char × List Char) := do
  tagRest? (← Text.behind? statusMark cs)

/-- What follows a status tag is shorter than the text. -/
theorem length_lt_of_statusHere? {cs attributes rest : List Char}
    (h : statusHere? cs = some (attributes, rest)) : rest.length < cs.length := by
  obtain ⟨tail, hr, ht⟩ := Option.bind_eq_some_iff.1 h
  have hc := Text.eq_append_of_behind? hr
  unfold tagRest? at ht
  split at ht
  · have ha := Text.append_of_cut? ht
    rw [hc, ha]
    simp only [List.length_append, List.length_cons, List.length_nil]
    omega
  · simp at ht

/-- The attributes of all status tags, in order. -/
def statusTags (cs : List Char) : List (List Char) :=
  match cs with
  | [] => []
  | c :: rest =>
    match h : statusHere? (c :: rest) with
    | some (attributes, tail) =>
      have := length_lt_of_statusHere? h
      attributes :: statusTags tail
    | none => statusTags rest
termination_by cs.length
decreasing_by all_goals simp only [List.length_cons] at *; omega

/-- A decimal numeral up to the largest count, with an optional plus in front. -/
def count? (cs : List Char) : Option Nat :=
  let ds := match cs with
    | '+' :: ds => ds
    | ds => ds
  let n := Decimal.digitsValue ds
  if !ds.isEmpty && ds.all (·.isDigit) && Word.isUnsigned n then some n else none

/-- The count behind the first `name="`, up to the next quote. What is no count is 0. -/
def count (name : String) (attributes : List Char) : Nat :=
  match Text.cut? (name.toList ++ "=\"".toList) attributes with
  | none => 0
  | some (_, rest) => (count? (Text.before ['"'] rest)).getD 0

/-- The value of an attribute, when a text starts with it. -/
def valueHere? (name cs : List Char) : Option (List Char) := do
  let rest ← Text.behind? (name ++ "=\"".toList) cs
  return (← Text.cut? ['"'] rest).1

/-- The value of the first attribute of a name. `inWord` says that the text continues a word, in
which no name starts. -/
def attributeFrom? (name : List Char) (inWord : Bool) : List Char → Option (List Char)
  | [] => none
  | c :: cs =>
    match if inWord then none else valueHere? name (c :: cs) with
    | some value => some value
    | none => attributeFrom? name (Text.isWordChar c) cs

/-- The value of the first attribute of a name. -/
def attribute? (name : String) (attributes : List Char) : Option (List Char) :=
  attributeFrom? name.toList false attributes

/-- The readable moment of an attribute. -/
def moment? (name : String) (attributes : List Char) : Option Moment :=
  (attribute? name attributes).bind Moment.read?

/-- What stands in front of the statistics. -/
def body (cs : List Char) : List Char := Text.before statisticsMark cs

/-- The readable moments of an attribute in the status tags of a report. -/
def moments (name : String) (cs : List Char) : List Moment :=
  (statusTags (body cs)).filterMap (moment? name)

/-- Summarises a report. There is no summary without total statistics. -/
def read? (text : String) : Option Report := do
  let cs := text.toList
  let attributes ← total? cs
  return {
    passed := count "pass" attributes
    failed := count "fail" attributes
    startedAt := Moment.earliest? (moments "starttime" cs)
    endedAt := Moment.latest? (moments "endtime" cs) }

/-- The wording for a text without total statistics. -/
def missingMessage : String := "output.xml has no total statistics"

end Report
end PipelineManager
