import Mathlib.Data.List.Nodup
import PipelineManager.Proofs.Pipeline.Markers
import PipelineManager.Proofs.Text.Trimming

/-!
# Parsing a template

A template is accepted exactly when it is well formed: each of its markers is permitted where it
stands, and each slot occurs once. `Offence` says what a line does wrong behind the lines before
it, and `Refused` which error a text is refused with: that of the first line that offends, or that
of the first slot that is missing.
-/

namespace PipelineManager

/-! ## The first of a list -/

section First

variable {α : Type} {fine bad : α → Prop} {x : α} {xs : List α}

/-- Behind something fine, the first that is bad is the first that is bad of the rest. -/
theorem exists_first_cons_of_fine (hx : fine x) (hbad : ¬ bad x) :
    (∃ before y after, x :: xs = before ++ y :: after ∧ (∀ m ∈ before, fine m) ∧ bad y) ↔
      ∃ before y after, xs = before ++ y :: after ∧ (∀ m ∈ before, fine m) ∧ bad y := by
  constructor
  · rintro ⟨before, y, after, heq, hbefore, hy⟩
    cases before with
    | nil =>
      obtain ⟨rfl, -⟩ := List.cons.inj heq
      exact absurd hy hbad
    | cons _ before =>
      exact ⟨before, y, after, (List.cons.inj heq).2, (List.forall_mem_cons.mp hbefore).2, hy⟩
  · rintro ⟨before, y, after, rfl, hbefore, hy⟩
    exact ⟨x :: before, y, after, rfl, List.forall_mem_cons.mpr ⟨hx, hbefore⟩, hy⟩

/-- What is not fine is itself the first that is bad, or none is. -/
theorem exists_first_cons_of_not_fine (hx : ¬ fine x) :
    (∃ before y after, x :: xs = before ++ y :: after ∧ (∀ m ∈ before, fine m) ∧ bad y) ↔
      bad x := by
  constructor
  · rintro ⟨before, y, after, heq, hbefore, hy⟩
    cases before with
    | nil =>
      obtain ⟨rfl, -⟩ := List.cons.inj heq
      exact hy
    | cons _ before =>
      obtain ⟨rfl, -⟩ := List.cons.inj heq
      exact absurd (List.forall_mem_cons.mp hbefore).1 hx
  · intro hbad
    exact ⟨[], x, xs, rfl, List.forall_mem_nil _, hbad⟩

end First

/-! ## Names of slots and placeholders -/

/-- A slot is found by its name. -/
theorem Slot.ofName?_name (s : Slot) : ofName? s.name = some s := by cases s <;> decide

/-- Only its own name finds a slot. -/
theorem Slot.ofName?_eq_some_iff {name : String} {s : Slot} :
    ofName? name = some s ↔ name = s.name := by
  constructor
  · intro h
    simpa [eq_comm] using List.find?_some h
  · rintro rfl
    exact ofName?_name s

/-- Every slot is listed. -/
theorem Slot.mem_all (s : Slot) : s ∈ all := by cases s <;> decide

/-- A placeholder is found by its name. -/
theorem Placeholder.ofName?_name (p : Placeholder) : ofName? p.name = some p := by
  cases p <;> decide

/-- Only its own name finds a placeholder. -/
theorem Placeholder.ofName?_eq_some_iff {name : String} {p : Placeholder} :
    ofName? name = some p ↔ name = p.name := by
  constructor
  · intro h
    simpa [eq_comm] using List.find?_some h
  · rintro rfl
    exact ofName?_name p

/-- No placeholder has the name of a slot. -/
theorem Placeholder.slot_ofName?_name (p : Placeholder) : Slot.ofName? p.name = none := by
  cases p <;> decide

/-- The name of a slot may stand in a marker. -/
theorem Slot.isMarkerName (s : Slot) : IsMarkerName s.name.toList := by
  have hchars : s.name.toList.all isMarkerChar = true := by cases s <;> decide
  cases s <;> exact ⟨⟨_, _, rfl, rfl⟩, List.all_eq_true.mp hchars⟩

/-- The marker of a slot is its name in brackets. -/
theorem Slot.marker_toList (s : Slot) : s.marker.toList = '<' :: (s.name.toList ++ ['>']) := by
  simp [marker]

/-! ## White space around a marker -/

/-- In blanks there is no marker. -/
theorem markerNames_of_blank {cs : List Char} (h : ∀ c ∈ cs, Text.isBlank c = true) :
    markerNames cs = [] := by
  induction cs with
  | nil => rw [markerNames_nil]
  | cons c cs ih =>
    obtain ⟨hc, hcs⟩ := List.forall_mem_cons.mp h
    rw [markerNames_char (fun heq => absurd (heq ▸ hc) (by decide)), ih hcs]

/-- The line of a slot that stands alone has no other marker. -/
theorem markerNames_of_trim_eq {line : List Char} {s : Slot}
    (h : Text.trim line = s.marker.toList) :
    markerNames line = [s.name] := by
  obtain ⟨front, back, heq, hfront, hback⟩ := Text.exists_append_trim line
  have hat : MarkerAt line front s.name.toList back := ⟨s.isMarkerName, by
    rw [heq, h, Slot.marker]
    simp⟩
  rw [hat.markerNames_eq, markerNames_of_blank hfront, markerNames_of_blank hback,
    String.ofList_toList, List.nil_append]

namespace Template

/-! ## Well-formed templates -/

/-- A marker that may stand in a line: a placeholder, or the slot that is alone on the line. -/
def Permitted (line : List Char) (name : String) : Prop :=
  (∃ p : Placeholder, name = p.name) ∨ ∃ s : Slot, name = s.name ∧ Text.trim line = s.marker.toList

/-- Every marker in a part of a line may stand in the line. -/
def MarkersPermitted (line part : List Char) : Prop :=
  ∀ before after (name : String), MarkerAt part before name.toList after → Permitted line name

/-- A text that is a template: every marker may stand in its line, and every slot stands at one
place. -/
structure WellFormed (text : String) : Prop where
  permitted : ∀ l ∈ Text.splitLines text.toList, MarkersPermitted l.text l.text
  once : ∀ s : Slot, ∃! before, ∃ after, MarkerAt text.toList before s.name.toList after

/-- What is wrong with a marker in a line. -/
inductive MarkerFault (line : List Char) (number : Nat) : String → TemplateError → Prop where
  | unknown {name : String} (hplaceholder : ∀ p : Placeholder, name ≠ p.name)
      (hslot : ∀ s : Slot, name ≠ s.name) :
        MarkerFault line number name (.unknownMarker name number)
  | inline {s : Slot} (halone : Text.trim line ≠ s.marker.toList) :
      MarkerFault line number s.name (.inlineSlot s number)

/-- Whether a slot stands in one of some lines. -/
def Stands (s : Slot) (lines : List Text.Line) : Prop :=
  ∃ l ∈ lines, ∃ before after, MarkerAt l.text before s.name.toList after

/-- What a line does wrong behind others: its leftmost marker that may not stand there, or else a
slot of an earlier line. -/
inductive Offence (earlier : List Text.Line) (l : Text.Line) : TemplateError → Prop where
  | marker {before after : List Char} {name : String} {e : TemplateError}
      (hat : MarkerAt l.text before name.toList after) (hleft : MarkersPermitted l.text before)
      (hfault : MarkerFault l.text (earlier.length + 1) name e) : Offence earlier l e
  | duplicate {s : Slot} (hpermitted : MarkersPermitted l.text l.text) (hat : Stands s [l])
      (hearlier : Stands s earlier) : Offence earlier l (.duplicateSlot s (earlier.length + 1))

/-- Whether none of some lines offends, each behind those before it. -/
def Passes : List Text.Line → List Text.Line → Prop
  | _, [] => True
  | earlier, l :: later => (∀ e, ¬ Offence earlier l e) ∧ Passes (earlier ++ [l]) later

/-- Which error lines are refused with: that of the first line that offends, or that of the first
slot that is missing if no line offends. -/
inductive Refused (lines : List Text.Line) : TemplateError → Prop where
  | offence {earlier later : List Text.Line} {l : Text.Line} {e : TemplateError}
      (hlines : lines = earlier ++ l :: later) (hearlier : Passes [] earlier)
      (h : Offence earlier l e) :
      Refused lines e
  | missing {before after : List Slot} {s : Slot} (hpasses : Passes [] lines)
      (hall : Slot.all = before ++ s :: after) (hbefore : ∀ s' ∈ before, Stands s' lines)
      (hmissing : ¬ Stands s lines) : Refused lines (.missingSlot s)

/-! ## One marker -/

variable {line : List Char} {number : Nat} {name : String}

/-- A marker may stand in its line, or there is something wrong with it. -/
theorem permitted_or_fault (line : List Char) (number : Nat) (name : String) :
    Permitted line name ∨ ∃ e, MarkerFault line number name e := by
  by_cases hslot : ∃ s : Slot, name = s.name
  · obtain ⟨s, rfl⟩ := hslot
    by_cases halone : Text.trim line = s.marker.toList
    · exact Or.inl (Or.inr ⟨s, rfl, halone⟩)
    · exact Or.inr ⟨_, .inline halone⟩
  · by_cases hplaceholder : ∃ p : Placeholder, name = p.name
    · exact Or.inl (Or.inl hplaceholder)
    · exact Or.inr ⟨_, .unknown (not_exists.mp hplaceholder) (not_exists.mp hslot)⟩

/-- The marker of a slot may stand only in a line of its own. -/
theorem Permitted.alone {s : Slot} (h : Permitted line s.name) :
    Text.trim line = s.marker.toList := by
  rcases h with ⟨p, hp⟩ | ⟨s', hs', halone⟩
  · have hnone := p.slot_ofName?_name
    rw [← hp, s.ofName?_name] at hnone
    exact nomatch hnone
  · have heq := s.ofName?_name
    rw [hs', s'.ofName?_name] at heq
    exact Option.some.inj heq ▸ halone

/-- With a marker that may stand in its line nothing is wrong. -/
theorem Permitted.not_fault {e : TemplateError} (h : Permitted line name) :
    ¬ MarkerFault line number name e := by
  intro hfault
  cases hfault with
  | unknown hplaceholder hslot =>
    rcases h with ⟨p, hp⟩ | ⟨s, hs, -⟩
    · exact hplaceholder p hp
    · exact hslot s hs
  | inline halone => exact halone h.alone

/-- The search for the slot of a line goes on behind a marker that may stand there. -/
theorem slotOfLine?_of_permitted (h : Permitted line name) (names : List String) :
    slotOfLine? number line (name :: names) =
      (slotOfLine? number line names).map fun later => later.or (Slot.ofName? name) := by
  rcases h with ⟨p, rfl⟩ | ⟨s, rfl, halone⟩
  · simp only [slotOfLine?, p.slot_ofName?_name, p.ofName?_name, Option.isSome_some, if_true,
      Option.or_none]
    cases slotOfLine? number line names <;> rfl
  · simp only [slotOfLine?, s.ofName?_name, if_pos halone]
    cases slotOfLine? number line names <;> rfl

/-- The search for the slot of a line ends at a marker with which something is wrong. -/
theorem slotOfLine?_of_fault {e : TemplateError} (h : MarkerFault line number name e)
    (names : List String) :
    slotOfLine? number line (name :: names) = .error e := by
  cases h with
  | unknown hplaceholder hslot =>
    have hs : Slot.ofName? name = none := Option.eq_none_iff_forall_ne_some.mpr fun s h =>
      hslot s (Slot.ofName?_eq_some_iff.mp h)
    have hp : Placeholder.ofName? name = none := Option.eq_none_iff_forall_ne_some.mpr fun p h =>
      hplaceholder p (Placeholder.ofName?_eq_some_iff.mp h)
    simp [slotOfLine?, hs, hp]
  | @inline s halone => simp [slotOfLine?, s.ofName?_name, halone]

/-- There is one thing wrong with a marker at most. -/
theorem MarkerFault.unique {e e' : TemplateError} (h : MarkerFault line number name e)
    (h' : MarkerFault line number name e') : e = e' :=
  Except.error.inj ((slotOfLine?_of_fault h []).symm.trans (slotOfLine?_of_fault h' []))

/-! ## One line -/

/-- The search for the slot of a line fails at the first marker with which something is wrong. -/
theorem slotOfLine?_eq_error_iff {names : List String} {e : TemplateError} :
    slotOfLine? number line names = .error e ↔ ∃ left name right, names = left ++ name :: right ∧
      (∀ m ∈ left, Permitted line m) ∧ MarkerFault line number name e := by
  induction names with
  | nil => simp [slotOfLine?]
  | cons name names ih =>
    rcases permitted_or_fault line number name with h | ⟨e', h⟩
    · rw [exists_first_cons_of_fine h h.not_fault, ← ih, slotOfLine?_of_permitted h]
      cases slotOfLine? number line names <;> simp [Except.map]
    · have hnot : ¬ Permitted line name := fun hpermitted => hpermitted.not_fault h
      rw [exists_first_cons_of_not_fine hnot, slotOfLine?_of_fault h, Except.error.injEq]
      constructor
      · rintro rfl
        exact h
      · exact h.unique

/-- When the search for the slot of a line succeeds, all its markers may stand there, and the last
slot among them is found. -/
theorem slotOfLine?_eq_ok {names : List String} {slot : Option Slot}
    (h : slotOfLine? number line names = .ok slot) :
    (∀ m ∈ names, Permitted line m) ∧ slot = (names.filterMap Slot.ofName?).getLast? := by
  induction names generalizing slot with
  | nil => exact ⟨List.forall_mem_nil _, (Except.ok.inj h).symm⟩
  | cons name names ih =>
    rcases permitted_or_fault line number name with hname | ⟨e, hname⟩
    · rw [slotOfLine?_of_permitted hname] at h
      cases hrest : slotOfLine? number line names with
      | error e => exact nomatch (congrArg (Except.map _) hrest).symm.trans h
      | ok later =>
        obtain ⟨hnames, rfl⟩ := ih hrest
        rw [hrest] at h
        obtain rfl := Except.ok.inj h
        refine ⟨List.forall_mem_cons.mpr ⟨hname, hnames⟩, ?_⟩
        cases hslot : Slot.ofName? name with
        | none =>
          rw [List.filterMap_cons_none hslot]
          exact Option.or_none
        | some s =>
          rw [List.filterMap_cons_some hslot, List.getLast?_cons]
          cases (names.filterMap Slot.ofName?).getLast? <;> rfl
    · exact nomatch (slotOfLine?_of_fault hname names).symm.trans h

/-- The slots whose markers stand in a text, in order. -/
def slotsIn (cs : List Char) : List Slot := (markerNames cs).filterMap Slot.ofName?

/-- The slots of some lines, in order. -/
def slotsOf (lines : List Text.Line) : List Slot := lines.flatMap fun l => slotsIn l.text

/-- A slot is in a text when its marker stands there somewhere. -/
theorem mem_slotsIn_iff {cs : List Char} {s : Slot} :
    s ∈ slotsIn cs ↔ ∃ before after, MarkerAt cs before s.name.toList after := by
  simp [slotsIn, Slot.ofName?_eq_some_iff, mem_markerNames_iff]

/-- A slot stands in lines when it is one of their slots. -/
theorem stands_iff {s : Slot} {lines : List Text.Line} : Stands s lines ↔ s ∈ slotsOf lines := by
  simp [Stands, slotsOf, mem_slotsIn_iff]

/-- The markers in a part of a line may stand there when each of their names may. -/
theorem markersPermitted_iff {line part : List Char} :
    MarkersPermitted line part ↔ ∀ name ∈ markerNames part, Permitted line name := by
  simp only [mem_markerNames_iff]
  exact ⟨fun h name ⟨before, after, hat⟩ => h before after name hat,
    fun h before after name hat => h name ⟨before, after, hat⟩⟩

/-- A line without fault has one slot at most. -/
theorem MarkersPermitted.slotsIn_eq (h : MarkersPermitted line line) :
    slotsIn line = (slotsIn line).getLast?.toList := by
  cases hslots : slotsIn line with
  | nil => rfl
  | cons s rest =>
    obtain ⟨before, after, hat⟩ :=
      mem_slotsIn_iff.mp (hslots ▸ List.mem_cons_self : s ∈ slotsIn line)
    have hnames := markerNames_of_trim_eq (h before after s.name hat).alone
    rw [slotsIn, hnames, List.filterMap_cons_some s.ofName?_name, List.filterMap_nil] at hslots
    rw [← hslots]
    rfl

/-- When the search for the slot of a line succeeds, it gives the slots of the line. -/
theorem slotOfLine?_spec {l : Text.Line} {slot : Option Slot}
    (h : slotOfLine? number l.text (markerNames l.text) = .ok slot) :
    MarkersPermitted l.text l.text ∧ slotsIn l.text = slot.toList := by
  obtain ⟨hnames, rfl⟩ := slotOfLine?_eq_ok h
  have hpermitted := markersPermitted_iff.mpr hnames
  exact ⟨hpermitted, hpermitted.slotsIn_eq⟩

/-- The search for the slot of a line fails at the first marker of the line with which something is
wrong. -/
theorem slotOfLine?_line_eq_error_iff {l : Text.Line} {e : TemplateError} :
    slotOfLine? number l.text (markerNames l.text) = .error e ↔
      ∃ before after name,
        MarkerAt l.text before (String.toList name) after ∧ MarkersPermitted l.text before ∧
        MarkerFault l.text number name e := by
  rw [slotOfLine?_eq_error_iff]
  constructor
  · rintro ⟨left, name, right, hnames, hleft, hfault⟩
    obtain ⟨before, after, hat, rfl, -⟩ := exists_markerAt hnames
    exact ⟨before, after, name, hat, markersPermitted_iff.mpr hleft, hfault⟩
  · rintro ⟨before, after, name, hat, hleft, hfault⟩
    refine ⟨markerNames before, name, markerNames after, ?_, markersPermitted_iff.mp hleft, hfault⟩
    rw [hat.markerNames_eq, String.ofList_toList]

variable {earlier : List Text.Line} {l : Text.Line}

/-- A line without a bad marker offends if its slot stood before. -/
theorem offence_iff_of_ok {slot : Option Slot} {e : TemplateError}
    (h : slotOfLine? (earlier.length + 1) l.text (markerNames l.text) = .ok slot) :
    Offence earlier l e ↔
      ∃ s, slot = some s ∧ Stands s earlier ∧ e = .duplicateSlot s (earlier.length + 1) := by
  obtain ⟨hpermitted, hslots⟩ := slotOfLine?_spec h
  have hstands (s : Slot) : Stands s [l] ↔ slot = some s := by simp [stands_iff, slotsOf, hslots]
  constructor
  · intro hoffence
    cases hoffence with
    | marker hat hleft hfault =>
      exact nomatch h.symm.trans (slotOfLine?_line_eq_error_iff.mpr ⟨_, _, _, hat, hleft, hfault⟩)
    | duplicate _ hat hearlier => exact ⟨_, (hstands _).mp hat, hearlier, rfl⟩
  · rintro ⟨s, hs, hearlier, rfl⟩
    exact .duplicate hpermitted ((hstands s).mpr hs) hearlier

/-- A line is refused for what it does wrong behind the lines whose slots were seen. -/
theorem readLine_eq_error_iff {e : TemplateError} :
    readLine (earlier.length + 1) (slotsOf earlier).reverse l = .error e ↔ Offence earlier l e := by
  cases hslot : slotOfLine? (earlier.length + 1) l.text (markerNames l.text) with
  | error e' =>
    have hread : readLine (earlier.length + 1) (slotsOf earlier).reverse l = .error e' := by
      rw [readLine, hslot]
      rfl
    rw [hread, Except.error.injEq]
    obtain ⟨before, after, name, hat, hleft, hfault⟩ := slotOfLine?_line_eq_error_iff.mp hslot
    constructor
    · rintro rfl
      exact .marker hat hleft hfault
    · intro hoffence
      cases hoffence with
      | marker hat' hleft' hfault' =>
        have herror := slotOfLine?_line_eq_error_iff.mpr ⟨_, _, _, hat', hleft', hfault'⟩
        exact Except.error.inj (hslot.symm.trans herror)
      | duplicate hpermitted _ _ => exact absurd hfault (hpermitted _ _ _ hat).not_fault
  | ok slot =>
    rw [offence_iff_of_ok hslot, readLine, hslot]
    cases slot with
    | none => simp [bind, Except.bind, pure, Except.pure]
    | some s =>
      by_cases hseen : s ∈ slotsOf earlier
      · simp [bind, Except.bind, hseen, stands_iff, eq_comm]
      · simp [bind, Except.bind, pure, Except.pure, hseen, stands_iff]

/-- A line that is read has only markers that may stand there, and its slot is given. -/
theorem readLine_eq_ok {seen : List Slot} {slot : Option Slot}
    (h : readLine number seen l = .ok slot) :
    MarkersPermitted l.text l.text ∧ slotsIn l.text = slot.toList := by
  unfold readLine at h
  cases hslot : slotOfLine? number l.text (markerNames l.text) with
  | error e => exact nomatch (congrArg (· >>= _) hslot).symm.trans h
  | ok slot' =>
    have hspec := slotOfLine?_spec hslot
    rw [hslot] at h
    cases slot' with
    | none =>
      obtain rfl := Except.ok.inj h
      exact hspec
    | some s =>
      by_cases hseen : s ∈ seen
      · simp [bind, Except.bind, hseen] at h
      · simp only [bind, Except.bind, List.contains_eq_mem, hseen, decide_false, Bool.false_eq_true,
          if_false] at h
        obtain rfl := Except.ok.inj h
        exact hspec

/-! ## All lines -/

/-- Parsing ends at a line that cannot be read. -/
theorem parseLines_cons_error {seen : List Slot} {e : TemplateError}
    (h : readLine number seen l = .error e) (later : List Text.Line) :
    parseLines number seen (l :: later) = .error e := by
  rw [parseLines, h]
  rfl

/-- Parsing goes on behind a line that is read, with its slot among those that were seen. -/
theorem parseLines_cons_ok {slot : Option Slot}
    (h : readLine (earlier.length + 1) (slotsOf earlier).reverse l = .ok slot)
    (later : List Text.Line) :
    parseLines (earlier.length + 1) (slotsOf earlier).reverse (l :: later) =
      (parseLines ((earlier ++ [l]).length + 1) (slotsOf (earlier ++ [l])).reverse later).map
        fun read =>
        (consSegment slot l read.1, read.2) := by
  have hseen : slot.toList ++ (slotsOf earlier).reverse = (slotsOf (earlier ++ [l])).reverse := by
    have hslots := (readLine_eq_ok h).2
    cases slot <;> simp [slotsOf, hslots]
  rw [parseLines, h, ← hseen, List.length_append, List.length_singleton]
  show parseLines _ _ later >>= _ = _
  cases parseLines (earlier.length + 1 + 1) (slot.toList ++ (slotsOf earlier).reverse) later <;> rfl

/-- A line that is read is read first, and the lines behind it after it. -/
theorem parseLines_cons_eq_ok {later : List Text.Line} {segments : List Segment} {seen : List Slot}
    (h : parseLines (earlier.length + 1) (slotsOf earlier).reverse (l :: later) =
      .ok (segments, seen)) :
    ∃ slot rest, readLine (earlier.length + 1) (slotsOf earlier).reverse l = .ok slot ∧
      parseLines ((earlier ++ [l]).length + 1) (slotsOf (earlier ++ [l])).reverse later =
        .ok (rest, seen) ∧
      segments = consSegment slot l rest := by
  cases hread : readLine (earlier.length + 1) (slotsOf earlier).reverse l with
  | error e => exact nomatch (parseLines_cons_error hread later).symm.trans h
  | ok slot =>
    rw [parseLines_cons_ok hread] at h
    cases hlater :
      parseLines ((earlier ++ [l]).length + 1) (slotsOf (earlier ++ [l])).reverse later with
    | error e => exact nomatch (congrArg (Except.map _) hlater).symm.trans h
    | ok read =>
      rw [hlater] at h
      obtain ⟨rfl, rfl⟩ := Prod.mk.inj (Except.ok.inj h)
      exact ⟨slot, read.1, rfl, rfl, rfl⟩

/-- Parsing fails at the first line that offends against those in front of it. -/
theorem parseLines_eq_error_iff (earlier : List Text.Line) {lines : List Text.Line}
    {e : TemplateError} :
    parseLines (earlier.length + 1) (slotsOf earlier).reverse lines = .error e ↔
      ∃ before l after, lines = before ++ l :: after ∧ Passes earlier before ∧
        Offence (earlier ++ before) l e := by
  -- by the lines that are left; a line that is read joins the earlier ones
  induction lines generalizing earlier with
  | nil => simp [parseLines]
  | cons l later ih =>
    cases hread : readLine (earlier.length + 1) (slotsOf earlier).reverse l with
    | error e' =>
      rw [parseLines_cons_error hread, Except.error.injEq]
      have hoffence := readLine_eq_error_iff.mp hread
      constructor
      · rintro rfl
        exact ⟨[], l, later, rfl, trivial, by rwa [List.append_nil]⟩
      · rintro ⟨before, m, after, heq, hpasses, hoffence'⟩
        cases before with
        | nil =>
          obtain ⟨rfl, -⟩ := List.cons.inj heq
          rw [List.append_nil, ← readLine_eq_error_iff, hread] at hoffence'
          exact Except.error.inj hoffence'
        | cons _ before =>
          obtain ⟨rfl, -⟩ := List.cons.inj heq
          exact absurd hoffence (hpasses.1 e')
    | ok slot =>
      have hnone (e : TemplateError) : ¬ Offence earlier l e := fun hoffence =>
        nomatch hread.symm.trans (readLine_eq_error_iff.mpr hoffence)
      have hmap : parseLines (earlier.length + 1) (slotsOf earlier).reverse (l :: later) =
        .error e ↔
          parseLines ((earlier ++ [l]).length + 1) (slotsOf (earlier ++ [l])).reverse later =
              .error e := by
        rw [parseLines_cons_ok hread]
        cases parseLines ((earlier ++ [l]).length + 1) (slotsOf (earlier ++ [l])).reverse later <;>
          simp [Except.map]
      rw [hmap, ih]
      constructor
      · rintro ⟨before, m, after, rfl, hpasses, hoffence⟩
        exact ⟨l :: before, m, after, rfl, ⟨hnone, hpasses⟩, by rwa [List.append_assoc] at hoffence⟩
      · rintro ⟨before, m, after, heq, hpasses, hoffence⟩
        cases before with
        | nil =>
          obtain ⟨rfl, -⟩ := List.cons.inj heq
          rw [List.append_nil] at hoffence
          exact absurd hoffence (hnone e)
        | cons _ before =>
          obtain ⟨rfl, hlater⟩ := List.cons.inj heq
          exact ⟨before, m, after, hlater, hpasses.2, by rwa [List.append_assoc]⟩

/-- When parsing succeeds, every line passes behind those in front of it, and all slots were
seen. -/
theorem parseLines_eq_ok (earlier : List Text.Line) {lines : List Text.Line}
    {segments : List Segment} {seen : List Slot}
    (h : parseLines (earlier.length + 1) (slotsOf earlier).reverse lines = .ok (segments, seen)) :
    Passes earlier lines ∧ seen = (slotsOf (earlier ++ lines)).reverse := by
  induction lines generalizing earlier segments with
  | nil =>
    obtain ⟨-, rfl⟩ := Prod.mk.inj (Except.ok.inj h)
    exact ⟨trivial, by rw [List.append_nil]⟩
  | cons l later ih =>
    obtain ⟨slot, rest, hread, hlater, -⟩ := parseLines_cons_eq_ok h
    have hnone (e : TemplateError) : ¬ Offence earlier l e := fun hoffence =>
      nomatch hread.symm.trans (readLine_eq_error_iff.mpr hoffence)
    obtain ⟨hpasses, hseen⟩ := ih _ hlater
    exact ⟨⟨hnone, hpasses⟩, by rw [hseen, List.append_assoc, List.singleton_append]⟩

/-- A line does nothing wrong if its markers may stand there and its slot is new. -/
theorem not_offence_iff : (∀ e, ¬ Offence earlier l e) ↔
    MarkersPermitted l.text l.text ∧ ∀ s ∈ slotsIn l.text, s ∉ slotsOf earlier := by
  constructor
  · intro h
    cases hslot : slotOfLine? (earlier.length + 1) l.text (markerNames l.text) with
    | error e =>
      obtain ⟨before, after, name, hat, hleft, hfault⟩ := slotOfLine?_line_eq_error_iff.mp hslot
      exact absurd (Offence.marker hat hleft hfault) (h e)
    | ok slot =>
      obtain ⟨hpermitted, hslots⟩ := slotOfLine?_spec hslot
      refine ⟨hpermitted, fun s hs hearlier => ?_⟩
      have hsome : slot = some s := by simpa [hslots] using hs
      exact h _ ((offence_iff_of_ok hslot).mpr ⟨s, hsome, stands_iff.mpr hearlier, rfl⟩)
  · rintro ⟨hpermitted, hnew⟩ e hoffence
    cases hoffence with
    | marker hat _ hfault => exact (hpermitted _ _ _ hat).not_fault hfault
    | @duplicate s _ hat hearlier =>
      have hs : s ∈ slotsIn l.text := by simpa [slotsOf] using stands_iff.mp hat
      exact hnew s hs (stands_iff.mp hearlier)

/-- A line of permitted markers has no slot twice. -/
theorem MarkersPermitted.nodup_slotsIn (h : MarkersPermitted line line) : (slotsIn line).Nodup := by
  rw [h.slotsIn_eq]
  cases (slotsIn line).getLast? <;> simp

/-- Lines pass when all their markers may stand there and no slot stands twice. -/
theorem passes_iff {lines : List Text.Line} (hearlier : (slotsOf earlier).Nodup) :
    Passes earlier lines ↔
      (∀ l ∈ lines, MarkersPermitted l.text l.text) ∧ (slotsOf (earlier ++ lines)).Nodup := by
  induction lines generalizing earlier with
  | nil => simp [Passes, hearlier]
  | cons l later ih =>
    have happend : slotsOf (earlier ++ [l]) = slotsOf earlier ++ slotsIn l.text := by simp [slotsOf]
    have hlines : earlier ++ l :: later = earlier ++ [l] ++ later := List.append_cons ..
    rw [Passes, not_offence_iff, List.forall_mem_cons, hlines]
    constructor
    · rintro ⟨⟨hpermitted, hnew⟩, hpasses⟩
      have hnodup : (slotsOf (earlier ++ [l])).Nodup := by
        rw [happend]
        exact hearlier.append hpermitted.nodup_slotsIn fun s hs hs' => hnew s hs' hs
      obtain ⟨hlater, hall⟩ := (ih hnodup).mp hpasses
      exact ⟨⟨hpermitted, hlater⟩, hall⟩
    · rintro ⟨⟨hpermitted, hlater⟩, hall⟩
      have hnodup : (slotsOf (earlier ++ [l])).Nodup := by
        rw [slotsOf, List.flatMap_append] at hall
        exact hall.of_append_left
      refine ⟨⟨hpermitted, fun s hs hs' => ?_⟩, (ih hnodup).mpr ⟨hlater, hall⟩⟩
      rw [happend] at hnodup
      exact List.disjoint_of_nodup_append hnodup hs' hs

/-! ## Whole templates -/

/-- The slots of a text are those of its lines. -/
theorem slotsOf_splitLines (cs : List Char) : slotsOf (Text.splitLines cs) = slotsIn cs := by
  rw [slotsIn, markerNames_splitLines, List.filterMap_flatMap]
  rfl

/-- A slot is in a text as often as its name is in a marker there. -/
theorem count_slotsIn (cs : List Char) (s : Slot) :
    (slotsIn cs).count s = (markerNames cs).count s.name := by
  rw [slotsIn, List.count_filterMap, List.count]
  refine List.countP_congr fun name _ => ?_
  simp [Slot.ofName?_eq_some_iff]

/-- A text is well formed when its lines pass and every slot stands in one. -/
theorem wellFormed_iff (text : String) : WellFormed text ↔
    Passes [] (Text.splitLines text.toList) ∧ ∀ s, s ∈ slotsOf (Text.splitLines text.toList) := by
  have honce (s : Slot) : (∃! before, ∃ after, MarkerAt text.toList before s.name.toList after) ↔
      (slotsOf (Text.splitLines text.toList)).count s = 1 := by
    rw [slotsOf_splitLines, count_slotsIn, count_markerNames_eq_one_iff]
  have hpasses : Passes [] (Text.splitLines text.toList) ↔ _ := passes_iff List.nodup_nil
  rw [List.nil_append] at hpasses
  constructor
  · rintro ⟨hpermitted, h⟩
    have hnodup := List.nodup_iff_count_le_one.mpr fun s => ((honce s).mp (h s)).le
    refine ⟨hpasses.mpr ⟨hpermitted, hnodup⟩, fun s => ?_⟩
    exact List.count_pos_iff.mp ((honce s).mp (h s) ▸ Nat.one_pos)
  · rintro ⟨h, hall⟩
    obtain ⟨hpermitted, hnodup⟩ := hpasses.mp h
    exact ⟨hpermitted, fun s => (honce s).mpr (List.count_eq_one_of_mem hnodup (hall s))⟩

/-- None of the lines that pass offends. -/
theorem Passes.not_offence {lines before after : List Text.Line} {e : TemplateError}
    (h : Passes earlier lines) (hlines : lines = before ++ l :: after) :
    ¬ Offence (earlier ++ before) l e := by
  intro hoffence
  induction before generalizing earlier lines with
  | nil =>
    subst hlines
    rw [List.append_nil] at hoffence
    exact h.1 e hoffence
  | cons m before ih =>
    subst hlines
    exact ih h.2 rfl (by rwa [List.append_assoc])

/-- Lines are read if none of them offends. -/
theorem exists_parseLines_iff (lines : List Text.Line) :
    (∃ read, parseLines 1 [] lines = .ok read) ↔ Passes [] lines := by
  constructor
  · rintro ⟨⟨segments, seen⟩, hread⟩
    exact (parseLines_eq_ok [] hread).1
  · intro hpasses
    cases hlines : parseLines 1 [] lines with
    | ok read => exact ⟨read, rfl⟩
    | error e =>
      obtain ⟨before, l, after, heq, -, hoffence⟩ := (parseLines_eq_error_iff []).mp hlines
      exact absurd hoffence (hpasses.not_offence heq)

/-- The first slot that does not stand in some lines. -/
def missing? (lines : List Text.Line) : Option Slot :=
  Slot.all.find? fun s => !((slotsOf lines).reverse.contains s)

/-- The first slot that stands in no line is missing. -/
theorem missing?_eq_some_iff {lines : List Text.Line} {s : Slot} :
    missing? lines = some s ↔
      ¬ Stands s lines ∧ ∃ before after, Slot.all = before ++ s :: after ∧ ∀ s' ∈ before,
        Stands s' lines := by
  simp [missing?, List.find?_eq_some_iff_append, stands_iff]

/-- No slot is missing when every one stands in some line. -/
theorem missing?_eq_none_iff {lines : List Text.Line} : missing? lines = none ↔ ∀ s,
    s ∈ slotsOf lines := by
  simp [missing?, Slot.mem_all]

/-- A text is no template when one of its lines offends. -/
theorem parse_of_lines_error {text : String} {e : TemplateError}
    (h : parseLines 1 [] (Text.splitLines text.toList) = .error e) : parse text = .error e := by
  rw [parse, h]
  rfl

/-- A text of lines that pass is a template unless a slot is missing. -/
theorem parse_of_lines_ok {text : String} {segments : List Segment} {seen : List Slot}
    (h : parseLines 1 [] (Text.splitLines text.toList) = .ok (segments, seen)) :
    parse text = match missing? (Text.splitLines text.toList) with
      | some s => .error (.missingSlot s)
      | none => .ok ⟨segments⟩ := by
  obtain ⟨-, rfl⟩ := parseLines_eq_ok [] h
  rw [parse, h]
  rfl

/-- The parts of a parsed template are those of the lines of its text. -/
theorem exists_parseLines_of_parse {text : String} {t : Template} (h : parse text = .ok t) :
    ∃ seen, parseLines 1 [] (Text.splitLines text.toList) = .ok (t.segments, seen) := by
  cases hlines : parseLines 1 [] (Text.splitLines text.toList) with
  | error e => exact nomatch (parse_of_lines_error hlines).symm.trans h
  | ok read =>
    rw [parse_of_lines_ok hlines] at h
    split at h
    · exact nomatch h
    · obtain rfl := Except.ok.inj h
      exact ⟨read.2, rfl⟩

/-- Lines are refused when one of them offends, or they pass and a slot is missing. -/
theorem refused_iff {lines : List Text.Line} {e : TemplateError} : Refused lines e ↔
    parseLines 1 [] lines = .error e ∨ Passes [] lines ∧ ∃ s,
      missing? lines = some s ∧ e = .missingSlot s := by
  have hoffends : parseLines 1 [] lines = .error e ↔ _ := parseLines_eq_error_iff []
  rw [hoffends]
  constructor
  · intro h
    cases h with
    | offence hlines hearlier hoffence => exact Or.inl ⟨_, _, _, hlines, hearlier, hoffence⟩
    | missing hpasses hall hbefore hmissing =>
      exact Or.inr ⟨hpasses, _, missing?_eq_some_iff.mpr ⟨hmissing, _, _, hall, hbefore⟩, rfl⟩
  · rintro (⟨before, l, after, hlines, hbefore, hoffence⟩ | ⟨hpasses, s, hs, rfl⟩)
    · exact .offence hlines hbefore hoffence
    · obtain ⟨hmissing, before, after, hall, hbefore⟩ := missing?_eq_some_iff.mp hs
      exact .missing hpasses hall hbefore hmissing

/-- Parsing fails with the reason for which the lines of the text are refused. -/
theorem parse_eq_error_iff (text : String) (e : TemplateError) :
    parse text = .error e ↔ Refused (Text.splitLines text.toList) e := by
  rw [refused_iff, ← exists_parseLines_iff]
  cases hlines : parseLines 1 [] (Text.splitLines text.toList) with
  | error e' => simp [parse_of_lines_error hlines]
  | ok read =>
    rw [parse_of_lines_ok hlines]
    cases missing? (Text.splitLines text.toList) <;> simp [eq_comm]

/-- The templates are the well-formed texts. -/
theorem exists_parse_iff (text : String) : (∃ t, parse text = .ok t) ↔ WellFormed text := by
  rw [wellFormed_iff, ← exists_parseLines_iff, ← missing?_eq_none_iff]
  cases hlines : parseLines 1 [] (Text.splitLines text.toList) with
  | error e => simp [parse_of_lines_error hlines]
  | ok read =>
    rw [parse_of_lines_ok hlines]
    cases missing? (Text.splitLines text.toList) <;> simp

/-- A text is accepted exactly when it is a template, and is refused otherwise with the error of the
first line that offends, or of the first slot that is missing if none does. -/
theorem parse_accepts_exactly (text : String) :
    ((∃ t, parse text = .ok t) ↔ WellFormed text) ∧
      ∀ e, parse text = .error e ↔ Refused (Text.splitLines text.toList) e :=
  ⟨exists_parse_iff text, parse_eq_error_iff text⟩

end Template

/-! ## A template of slots alone -/

/-- The line of a slot without indentation. -/
def bareLine (s : Slot) : Text.Line := ⟨s.marker.toList, true⟩

/-- A text that has nothing but the lines of all slots. -/
def bareText : String := String.join (Slot.all.map fun s => s.marker ++ "\n")

/-- The template of the bare text. -/
def bareTemplate : Template := ⟨Slot.all.map fun s => .slot s [] true⟩

/-- No blanks stand around a marker. -/
theorem trim_marker (s : Slot) : Text.trim s.marker.toList = s.marker.toList := by
  have hopen : Text.isBlank '<' = false := by decide
  have hclose : Text.isBlank '>' = false := by decide
  simp [s.marker_toList, Text.trim, Text.trimWhile, Text.dropEndWhile, hopen, hclose]

/-- A marker does not go across lines. -/
theorem newline_notMem_marker (s : Slot) : '\n' ∉ s.marker.toList := by
  intro h
  have hname : '\n' ∈ s.name.toList := by simpa [s.marker_toList] using h
  exact absurd (s.isMarkerName.chars _ hname) (by decide)

/-- The lines of the bare text are those of the slots. -/
theorem splitLines_bareText : Text.splitLines bareText.toList = Slot.all.map bareLine := by
  have htext : bareText.toList = (Slot.all.map fun s => s.marker.toList).flatMap (· ++ ['\n']) := by
    simp [bareText, List.flatMap_map]
  have hnewline : ∀ l ∈ Slot.all.map fun s => s.marker.toList, '\n' ∉ l :=
    List.forall_mem_map.mpr fun s _ => newline_notMem_marker s
  rw [htext, Text.splitLines_flatMap hnewline, List.map_map]
  rfl

/-- The bare line of a slot is read as the slot, if that was not seen before. -/
theorem readLine_bareLine {s : Slot} {number : Nat} {seen : List Slot} (h : s ∉ seen) :
    Template.readLine number seen (bareLine s) = .ok (some s) := by
  have hnames : markerNames s.marker.toList = [s.name] := markerNames_of_trim_eq (trim_marker s)
  simp [Template.readLine, bareLine, hnames, Template.slotOfLine?, s.ofName?_name, trim_marker, h,
    bind, Except.bind, pure, Except.pure]

/-- Bare lines of different slots are parsed as these. -/
theorem parseLines_bareLines {slots : List Slot} {number : Nat} {seen : List Slot}
    (hnodup : (slots.reverse ++ seen).Nodup) :
    Template.parseLines number seen (slots.map bareLine) =
      .ok (slots.map fun s => .slot s [] true, slots.reverse ++ seen) := by
  induction slots generalizing number seen with
  | nil => rfl
  | cons s slots ih =>
    rw [List.reverse_cons, List.append_assoc, List.singleton_append] at hnodup
    have hs : s ∉ seen := (List.nodup_cons.mp hnodup.of_append_right).1
    have hopen : Text.isBlank '<' = false := by decide
    rw [List.map_cons, Template.parseLines, readLine_bareLine hs]
    change Template.parseLines (number + 1) (s :: seen) (slots.map bareLine) >>= _ = _
    rw [ih hnodup]
    simp [bind, Except.bind, pure, Except.pure, Template.consSegment, bareLine, s.marker_toList,
      hopen]

/-- The bare text is a template. -/
theorem parse_bareText : Template.parse bareText = .ok bareTemplate := by
  rw [Template.parse, splitLines_bareText, parseLines_bareLines (by decide)]
  rfl

end PipelineManager
