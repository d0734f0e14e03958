import PipelineManager.Proofs.Text.Digits
import PipelineManager.Proofs.Text.Search
import PipelineManager.Results.Report

/-!
# Status tags and their attributes

A status tag is an opening that stands in no other status tag, with what follows up to the next `>`.
A text is searched for exactly these tags, and a tag for the first attribute of a name at the start
of a word. A further tag that is put between the tags of a text leaves them as they are.
-/

namespace PipelineManager.Report

variable {cs front back attributes value tail : List Char} {name : List Char}

/-! ## Tags -/

/-- Whether a text ends in a status tag: one is opened in it and not closed behind that. -/
def IsOpen (front : List Char) : Prop :=
  ∃ before inside, front = before ++ (statusMark ++ inside) ∧ isWordEnd inside = true ∧ '>' ∉ inside

/-- A status tag of a text, with what stands in front of it and behind it. -/
structure IsStatusTag (cs front attributes back : List Char) : Prop where
  text : cs = front ++ (statusMark ++ (attributes ++ '>' :: back))
  wordEnd : isWordEnd attributes = true
  closed : '>' ∉ attributes
  outside : ¬ IsOpen front

/-- Whether a text has a status tag of some attributes. -/
def HasStatusTag (cs attributes : List Char) : Prop :=
  ∃ front back, IsStatusTag cs front attributes back

/-- A tag that is open stays so with more text in front. -/
theorem IsOpen.append (h : IsOpen back) (front : List Char) : IsOpen (front ++ back) := by
  obtain ⟨before, inside, rfl, hend, hclosed⟩ := h
  exact ⟨front ++ before, inside, (List.append_assoc ..).symm, hend, hclosed⟩

/-- The mark of a status tag does not close it. -/
theorem close_notMem_statusMark : '>' ∉ statusMark := by decide

/-- What is opened in front of a `>` is closed by it. -/
theorem isOpen_close_iff : IsOpen (front ++ '>' :: back) ↔ IsOpen back := by
  constructor
  · rintro ⟨before, inside, htext, hend, hclosed⟩
    have hnot : '>' ∉ statusMark ++ inside := by simp [close_notMem_statusMark, hclosed]
    rcases List.append_eq_append_iff.mp htext with ⟨rest, rfl, hrest⟩ | ⟨rest, -, hrest⟩
    · cases rest with
      | nil =>
        rw [List.nil_append] at hrest
        exact absurd List.mem_cons_self (hrest ▸ hnot)
      | cons c rest => exact ⟨rest, inside, (List.cons.inj hrest).2, hend, hclosed⟩
    · exact absurd (List.mem_append_right rest List.mem_cons_self) (hrest ▸ hnot)
  · intro h
    have hopen := h.append (front ++ ['>'])
    rwa [List.append_assoc] at hopen

/-- The bracket that closes attributes does not change whether a word ends in front. -/
theorem isWordEnd_append_close (attributes back : List Char) :
    isWordEnd (attributes ++ '>' :: back) = isWordEnd attributes := by
  cases attributes with
  | nil => exact (by decide : (!Text.isWordChar '>') = true)
  | cons c attributes => rfl

/-- If a word ends in front of a text, one ends in front of each beginning of it. -/
theorem isWordEnd_of_append (h : isWordEnd (front ++ back) = true) : isWordEnd front = true := by
  cases front with
  | nil => rfl
  | cons c front => exact h

/-- If a word ends in front of a text, one does with a status mark behind the text. -/
theorem isWordEnd_append_statusMark (h : isWordEnd front = true) (back : List Char) :
    isWordEnd (front ++ (statusMark ++ back)) = true := by
  cases front with
  | nil => exact (by decide : (!Text.isWordChar '<') = true)
  | cons c front => exact h

/-- A status tag is read iff its mark, its attributes and a closing bracket follow. -/
theorem statusHere?_eq_some_iff :
    statusHere? cs = some (attributes, back) ↔
      cs = statusMark ++ (attributes ++ '>' :: back) ∧ isWordEnd attributes = true ∧
        '>' ∉ attributes := by
  have hrest (rest : List Char) : tagRest? rest = some (attributes, back) ↔
      rest = attributes ++ '>' :: back ∧ isWordEnd attributes = true ∧ '>' ∉ attributes := by
    unfold tagRest?
    split
    · next hend =>
      rw [Text.cut?_singleton_eq_some_iff]
      refine and_congr_right fun htext => (and_iff_right ?_).symm
      rwa [htext, isWordEnd_append_close] at hend
    · next hend =>
      refine iff_of_false nofun fun h => hend ?_
      rw [h.1, isWordEnd_append_close]
      exact h.2.1
  simp only [statusHere?, Option.bind_eq_bind, Option.bind_eq_some_iff, Text.behind?_eq_some_iff,
    hrest]
  constructor
  · rintro ⟨rest, rfl, rfl, hattributes⟩
    exact ⟨rfl, hattributes⟩
  · rintro ⟨rfl, hattributes⟩
    exact ⟨_, rfl, rfl, hattributes⟩

/-- A text with a mark is not empty. -/
theorem append_statusMark_ne_nil (before behind : List Char) :
    before ++ (statusMark ++ behind) ≠ [] := by
  have hmark : statusMark ≠ [] := by decide
  exact List.append_ne_nil_of_right_ne_nil before (List.append_ne_nil_of_left_ne_nil hmark behind)

/-- No tag is open in the empty text. -/
theorem not_isOpen_nil : ¬ IsOpen [] := by
  rintro ⟨before, inside, htext, -⟩
  exact append_statusMark_ne_nil before inside htext.symm

/-- A mark alone opens a tag. -/
theorem isOpen_statusMark : IsOpen statusMark :=
  ⟨[], [], (List.append_nil _).symm, rfl, List.not_mem_nil⟩

/-- In a status tag with which a text starts no other starts: it is open there. -/
theorem eq_of_starts_inside {other rest : List Char} (hend : isWordEnd attributes = true)
    (hclosed : '>' ∉ attributes) (hfront : statusMark ++ attributes = front ++ rest)
    (hrest : rest ++ '>' :: tail = statusMark ++ (other ++ '>' :: back)) (hclosed' : '>' ∉ other)
    (houtside : ¬ IsOpen front) : other = attributes := by
  rcases List.append_eq_append_iff.mp hfront with ⟨inside, rfl, rfl⟩ | ⟨mark, hmark, rfl⟩
  · refine absurd ⟨[], inside, rfl, isWordEnd_of_append hend, ?_⟩ houtside
    exact fun hin => hclosed (List.mem_append_left rest hin)
  · cases front with
    | nil =>
      obtain rfl : statusMark = mark := hmark
      rw [List.append_assoc] at hrest
      exact (append_separator_inj hclosed' hclosed (List.append_cancel_left hrest).symm).1
    | cons c front =>
      cases mark with
      | nil =>
        rw [List.append_nil] at hmark
        exact absurd isOpen_statusMark (hmark ▸ houtside)
      | cons d mark =>
        -- The mark has only one `<`, at its start.
        obtain rfl : d = '<' := (List.cons.inj hrest).1
        have hin : '<' ∈ statusMark.tail := by simp [hmark]
        exact absurd hin (by decide)

/-- Where a text starts with a status tag, its tags are that one and those behind it. -/
theorem hasStatusTag_here (h : statusHere? cs = some (attributes, tail)) (other : List Char) :
    HasStatusTag cs other ↔ other = attributes ∨ HasStatusTag tail other := by
  obtain ⟨rfl, hend, hclosed⟩ := statusHere?_eq_some_iff.mp h
  constructor
  · rintro ⟨front, back, htext, hend', hclosed', houtside⟩
    rw [← List.append_assoc] at htext
    rcases List.append_eq_append_iff.mp htext with ⟨rest, rfl, hrest⟩ | ⟨rest, hfront, hrest⟩
    · cases rest with
      | nil => exact absurd (List.cons.inj hrest).1 (by decide)
      | cons c rest =>
        obtain ⟨rfl, htail⟩ := List.cons.inj hrest
        exact Or.inr ⟨rest, back, htail, hend', hclosed', mt isOpen_close_iff.mpr houtside⟩
    · exact Or.inl (eq_of_starts_inside hend hclosed hfront hrest.symm hclosed' houtside)
  · rintro (rfl | ⟨front, back, rfl, hend', hclosed', houtside⟩)
    · exact ⟨[], tail, rfl, hend, hclosed, not_isOpen_nil⟩
    · refine ⟨statusMark ++ (attributes ++ '>' :: front), back, by simp, hend', hclosed', ?_⟩
      rwa [← List.append_assoc, isOpen_close_iff]

/-- Where no status tag starts, the tags of a text are those behind its first character. -/
theorem hasStatusTag_skip {c : Char} (h : statusHere? (c :: cs) = none) (other : List Char) :
    HasStatusTag (c :: cs) other ↔ HasStatusTag cs other := by
  have hnot {attributes back : List Char}
      (htext : c :: cs = statusMark ++ (attributes ++ '>' :: back))
      (hend : isWordEnd attributes = true) (hclosed : '>' ∉ attributes) : False := by
    rw [statusHere?_eq_some_iff.mpr ⟨htext, hend, hclosed⟩] at h
    cases h
  constructor
  · rintro ⟨front, back, htext, hend, hclosed, houtside⟩
    cases front with
    | nil => exact (hnot htext hend hclosed).elim
    | cons d front =>
      exact ⟨front, back, (List.cons.inj htext).2, hend, hclosed,
        fun hopen => houtside (hopen.append [d])⟩
  · rintro ⟨front, back, rfl, hend, hclosed, houtside⟩
    refine ⟨c :: front, back, rfl, hend, hclosed, ?_⟩
    rintro ⟨before, inside, hfront, hend', hclosed'⟩
    cases before with
    | nil =>
      -- The tag that is open in front of the other one takes it in.
      have htext : c :: (front ++ (statusMark ++ (other ++ '>' :: back))) =
          statusMark ++ ((inside ++ (statusMark ++ other)) ++ '>' :: back) := by
        rw [← List.cons_append, hfront]
        simp
      refine hnot htext (isWordEnd_append_statusMark hend' other) ?_
      simp [hclosed, hclosed', close_notMem_statusMark]
    | cons d before => exact houtside ⟨before, inside, (List.cons.inj hfront).2, hend', hclosed'⟩

/-- The search finds the status tags of a text. -/
theorem mem_statusTags_iff : attributes ∈ statusTags cs ↔ HasStatusTag cs attributes := by
  fun_induction statusTags cs with
  | case1 =>
    refine iff_of_false List.not_mem_nil ?_
    rintro ⟨front, back, htext, -⟩
    exact append_statusMark_ne_nil front _ htext.symm
  | case2 c rest found tail h hlt ih => rw [List.mem_cons, hasStatusTag_here h, ih]
  | case3 c rest h ih => rw [hasStatusTag_skip h, ih]

/-- A tag with which a text starts is the first one that the search finds. -/
theorem statusTags_of_here (h : statusHere? cs = some (attributes, tail)) :
    statusTags cs = attributes :: statusTags tail := by
  cases cs with
  | nil => cases h
  | cons c cs =>
    rw [statusTags]
    split
    · next found rest hfound =>
      obtain ⟨rfl, rfl⟩ := Prod.mk.inj (Option.some.inj (hfound.symm.trans h))
      rfl
    · next hnone => exact absurd (h.symm.trans hnone) (Option.some_ne_none _)

/-! ## A further tag -/

/-- Whether a place of a text lies in none of its status tags: each ends in front of it or
starts behind. -/
def IsBetweenTags (front back : List Char) : Prop :=
  ∀ before attributes behind, IsStatusTag (front ++ back) before attributes behind →
    front.length ≤ before.length ∨ back.length ≤ behind.length

/-- What is put between the tags of a text, up to a `>`, leaves them as they are. -/
theorem HasStatusTag.insert (h : HasStatusTag (front ++ back) attributes)
    (hplace : IsBetweenTags front back) (further : List Char) :
    HasStatusTag (front ++ (further ++ '>' :: back)) attributes := by
  obtain ⟨before, behind, htag⟩ := h
  have hside := hplace before attributes behind htag
  obtain ⟨htext, hend, hclosed, houtside⟩ := htag
  rcases hside with hle | hle
  · obtain ⟨rest, rfl⟩ := List.prefix_of_prefix_length_le ⟨back, rfl⟩ ⟨_, htext.symm⟩ hle
    rw [List.append_assoc] at htext
    refine ⟨front ++ (further ++ '>' :: rest), behind, ?_, hend, hclosed, ?_⟩
    · simp [List.append_cancel_left htext]
    · rw [← List.append_assoc, isOpen_close_iff]
      exact fun hopen => houtside (hopen.append front)
  · have hbehind : before ++ (statusMark ++ (attributes ++ ['>'])) ++ behind = front ++ back := by
      simp [htext]
    obtain ⟨rest, rfl⟩ := List.suffix_of_suffix_length_le ⟨front, rfl⟩ ⟨_, hbehind⟩ hle
    rw [← List.append_assoc] at hbehind
    refine ⟨before, rest ++ (further ++ '>' :: back), ?_, hend, hclosed, houtside⟩
    simp [← List.append_cancel_right hbehind]

/-! ## Attributes -/

/-- Whether a text ends in a word. `inWord` says so of the empty text. -/
def endsInWord (inWord : Bool) (front : List Char) : Bool :=
  (front.getLast?.map Text.isWordChar).getD inWord

/-- A text ends in a word iff what follows its first character does, seen from there. -/
theorem endsInWord_cons (inWord : Bool) (c : Char) (front : List Char) :
    endsInWord inWord (c :: front) = endsInWord (Text.isWordChar c) front := by
  rw [endsInWord, endsInWord, List.getLast?_cons]
  cases front.getLast? <;> rfl

/-- Whether the value of an attribute stands behind some text of a tag: a word starts there with the
name, and the value goes up to the next quote. -/
structure IsValueAt (inWord : Bool) (name attributes front value : List Char) : Prop where
  text : ∃ back, attributes = front ++ (name ++ "=\"".toList ++ (value ++ '"' :: back))
  quoted : '"' ∉ value
  boundary : endsInWord inWord front = false

/-- Whether a value is that of the first attribute of a name. -/
def IsFirstValue (inWord : Bool) (name attributes value : List Char) : Prop :=
  ∃ front, IsValueAt inWord name attributes front value ∧
    ∀ front' value', IsValueAt inWord name attributes front' value' → front.length ≤ front'.length

variable {inWord : Bool} {c : Char}

/-- A value is read iff the name, the quotes and the value stand in front. -/
theorem valueHere?_eq_some_iff :
    valueHere? name cs = some value ↔
      (∃ back, cs = name ++ "=\"".toList ++ (value ++ '"' :: back)) ∧ '"' ∉ value := by
  simp only [valueHere?, Option.bind_eq_bind, Option.bind_eq_some_iff, Text.behind?_eq_some_iff,
    Option.pure_def, Option.some.injEq]
  constructor
  · rintro ⟨rest, rfl, ⟨value, back⟩, hcut, rfl⟩
    obtain ⟨rfl, hquoted⟩ := Text.cut?_singleton_eq_some_iff.mp hcut
    exact ⟨⟨back, rfl⟩, hquoted⟩
  · rintro ⟨⟨back, rfl⟩, hquoted⟩
    exact ⟨_, rfl, (value, back), Text.cut?_singleton_eq_some_iff.mpr ⟨rfl, hquoted⟩, rfl⟩

/-- A value stands in front iff it is read there, outside of a word. -/
theorem isValueAt_nil_iff :
    IsValueAt inWord name cs [] value ↔
      (if inWord then none else valueHere? name cs) = some value := by
  cases inWord with
  | true => exact iff_of_false (fun h => nomatch h.boundary) nofun
  | false =>
    rw [if_neg Bool.false_ne_true, valueHere?_eq_some_iff]
    exact ⟨fun h => ⟨h.text, h.quoted⟩, fun h => ⟨h.1, h.2, rfl⟩⟩

/-- A value stands behind more text iff it does so seen from the second character. -/
theorem isValueAt_cons_iff :
    IsValueAt inWord name (c :: cs) (c :: front) value ↔
      IsValueAt (Text.isWordChar c) name cs front value := by
  constructor
  · rintro ⟨⟨back, htext⟩, hquoted, hboundary⟩
    exact ⟨⟨back, (List.cons.inj htext).2⟩, hquoted, endsInWord_cons .. ▸ hboundary⟩
  · rintro ⟨⟨back, rfl⟩, hquoted, hboundary⟩
    exact ⟨⟨back, rfl⟩, hquoted, (endsInWord_cons ..).trans hboundary⟩

/-- What stands before a value further on starts with the first character. -/
theorem IsValueAt.front_eq_cons (h : IsValueAt inWord name (c :: cs) front value)
    (hfront : front ≠ []) :
    ∃ rest, front = c :: rest := by
  obtain ⟨back, htext⟩ := h.text
  cases front with
  | nil => exact absurd rfl hfront
  | cons d rest => exact ⟨rest, by rw [(List.cons.inj htext).1]⟩

/-- Where no value stands at the start of a tag, the first one is the first behind its
first character. -/
theorem isFirstValue_cons_iff (hnone : ∀ value, ¬ IsValueAt inWord name (c :: cs) [] value) :
    IsFirstValue inWord name (c :: cs) value ↔ IsFirstValue (Text.isWordChar c) name cs value := by
  constructor
  · rintro ⟨front, hvalue, hfirst⟩
    obtain ⟨front, rfl⟩ := hvalue.front_eq_cons fun hnil => hnone value (hnil ▸ hvalue)
    refine ⟨front, isValueAt_cons_iff.mp hvalue, fun front' value' hvalue' => ?_⟩
    exact Nat.le_of_succ_le_succ (hfirst (c :: front') value' (isValueAt_cons_iff.mpr hvalue'))
  · rintro ⟨front, hvalue, hfirst⟩
    refine ⟨c :: front, isValueAt_cons_iff.mpr hvalue, fun front' value' hvalue' => ?_⟩
    obtain ⟨front', rfl⟩ := hvalue'.front_eq_cons fun hnil => hnone value' (hnil ▸ hvalue')
    exact Nat.succ_le_succ (hfirst front' value' (isValueAt_cons_iff.mp hvalue'))

/-- The value that is found is the first that stands in the text. -/
theorem attributeFrom?_eq_some_iff :
    attributeFrom? name inWord cs = some value ↔ IsFirstValue inWord name cs value := by
  induction cs generalizing inWord with
  | nil =>
    refine iff_of_false nofun ?_
    rintro ⟨front, ⟨⟨back, htext⟩, -, -⟩, -⟩
    have hlength := congrArg List.length htext
    simp at hlength
  | cons c cs ih =>
    rw [attributeFrom?]
    split
    · next found hhere =>
      have hfound := isValueAt_nil_iff.mpr hhere
      constructor
      · intro h
        obtain rfl := Option.some.inj h
        exact ⟨[], hfound, fun _ _ _ => Nat.zero_le _⟩
      · rintro ⟨front, hvalue, hfirst⟩
        obtain rfl := List.eq_nil_of_length_eq_zero (Nat.le_zero.mp (hfirst [] found hfound))
        exact hhere.symm.trans (isValueAt_nil_iff.mp hvalue)
    · next hhere =>
      rw [ih, isFirstValue_cons_iff]
      intro value' hvalue'
      rw [isValueAt_nil_iff, hhere] at hvalue'
      cases hvalue'

/-- The value of an attribute is that of the first one of its name. -/
theorem attribute?_eq_some_iff {name : String} :
    attribute? name attributes = some value ↔ IsFirstValue false name.toList attributes value :=
  attributeFrom?_eq_some_iff

end PipelineManager.Report
