import Mathlib.Data.List.Forall2
import PipelineManager.Proofs.Pipeline.TemplateParsing

/-!
# Filling a template

A template is parsed into slots and runs of text and filled part by part. Seen from its text, it is
rewritten line by line: `LineFilled` says what becomes of a line, and `Unfillable` which marker
keeps the text from being filled. Since no marker goes across the end of a line, filling a run of
text is filling its lines one by one.
-/

namespace PipelineManager

/-- What ends a line in its text. -/
def Text.Line.ending (l : Text.Line) : List Char := if l.ended then ['\n'] else []

namespace Template

/-! ## What filling means -/

/-- A text and the same text with the value of each placeholder in its place. What does not begin a
placeholder stays, and a value is not looked at again. -/
inductive Replaced (values : Placeholder → Option String) : List Char → List Char → Prop
  | nil : Replaced values [] []
  | char {c : Char} {rest out : List Char}
      (hnone : ∀ name after, ¬ MarkerAt (c :: rest) [] name after)
      (hrest : Replaced values rest out) : Replaced values (c :: rest) (c :: out)
  | placeholder {cs after out : List Char} {p : Placeholder} {v : String}
      (hat : MarkerAt cs [] p.name.toList after) (hv : values p = some v)
      (hafter : Replaced values after out) : Replaced values cs (v.toList ++ out)

/-- A line of a template and what takes its place. The line of a slot is replaced by the lines of
the slot's commands, each behind the white space that the line begins with. -/
inductive LineFilled (blocks : Slot → List String) (values : Placeholder → Option String)
    (l : Text.Line) :
    List Char → Prop
  | block {s : Slot} {indent trailing : List Char}
      (hline : l.text = indent ++ (s.marker.toList ++ trailing))
      (hindent : ∀ c ∈ indent, Text.isBlank c = true)
      (htrailing : ∀ c ∈ trailing, Text.isBlank c = true)
      (hblocks : blocks s ≠ []) :
      LineFilled blocks values l
        (List.intercalate ['\n']
          (((blocks s).flatMap fun c => Text.lines c.toList).map (indent ++ ·)) ++ l.ending)
  | text {out : List Char} (h : Replaced values l.text out) :
    LineFilled blocks values l (out ++ l.ending)

/-- A marker that cannot be filled: that of a slot without commands or of a placeholder without
value. -/
inductive Unfillable (blocks : Slot → List String) (values : Placeholder → Option String) :
    String → FillError → Prop
  | slot {s : Slot} (hblocks : blocks s = []) : Unfillable blocks values s.name (.emptySlot s)
  | placeholder {p : Placeholder} (hvalue : values p = none) :
    Unfillable blocks values p.name (.missingValue p.name)

/-! ## One text behind another -/

/-- The error of a filling that fails. -/
def failure? : Except FillError (List Char) → Option FillError
  | .ok _ => none
  | .error e => some e

/-- One filling and then another, their texts joined. -/
def joined (x y : Except FillError (List Char)) : Except FillError (List Char) := do
  return (← x) ++ (← y)

variable {x y z : Except FillError (List Char)}

/-- The first of two fillings that fails is the one that is reported. -/
theorem failure?_joined : failure? (joined x y) = (failure? x).or (failure? y) := by
  cases x <;> cases y <;> rfl

/-- Nothing behind a filling leaves it as it is. -/
theorem joined_ok_nil : joined x (.ok []) = x := by
  cases x with
  | error e => rfl
  | ok a => exact congrArg Except.ok (List.append_nil a)

/-- It makes no difference where a chain of fillings is cut. -/
theorem joined_assoc : joined (joined x y) z = joined x (joined y z) := by
  cases x with
  | error e => rfl
  | ok a =>
    cases y with
    | error e => rfl
    | ok b =>
      cases z with
      | error e => rfl
      | ok c => exact congrArg Except.ok (List.append_assoc a b c)

/-- Two fillings succeed when both do, with one text behind the other. -/
theorem joined_eq_ok_iff {out : List Char} :
    joined x y = .ok out ↔ ∃ a b, x = .ok a ∧ y = .ok b ∧ out = a ++ b := by
  cases x <;> cases y <;> simp [joined, bind, Except.bind, pure, Except.pure, eq_comm]

/-! ## Texts -/

variable {blocks : Slot → List String} {values : Placeholder → Option String}

/-- In no text nothing is replaced. -/
@[simp] theorem substitute_nil : substitute values [] = .ok [] := by
  rw [substitute, pieces_nil]
  rfl

/-- A text is filled piece by piece. -/
theorem substitute_of_pieces_cons {cs rest : List Char} {piece : Piece}
    (h : pieces cs = piece :: pieces rest) :
    substitute values cs = joined (fillPiece values piece) (substitute values rest) := by
  rw [substitute, substitute, h, List.mapM_cons]
  cases fillPiece values piece with
  | error e => rfl
  | ok a => cases (pieces rest).mapM (fillPiece values) <;> rfl

/-- A character that begins no marker stays. -/
theorem substitute_char {c : Char} {rest : List Char} (h : c = '<' → readMarker rest = none) :
    substitute values (c :: rest) = joined (.ok [c]) (substitute values rest) :=
  substitute_of_pieces_cons (pieces_char h)

/-- A marker at the beginning is filled. -/
theorem substitute_marker {name : List Char} (hname : IsMarkerName name) (after : List Char) :
    substitute values ('<' :: (name ++ '>' :: after)) =
      joined (fillPiece values (.marker name)) (substitute values after) :=
  substitute_of_pieces_cons (pieces_marker hname after)

/-- A text is filled up to the end of a line, and then what follows. -/
theorem substitute_append_newline (cs rest : List Char) :
    substitute values (cs ++ '\n' :: rest) =
      joined (substitute values cs) (substitute values ('\n' :: rest)) := by
  have hjoin (ps qs : List Piece) :
    (ps ++ qs).mapM (fillPiece values) >>= (fun outs => pure outs.flatten) =
      joined (ps.mapM (fillPiece values) >>= fun outs => pure outs.flatten)
        (qs.mapM (fillPiece values) >>= fun outs => pure outs.flatten) := by
    rw [List.mapM_append]
    cases ps.mapM (fillPiece values) with
    | error e => rfl
    | ok outs =>
      cases qs.mapM (fillPiece values) with
      | error e => rfl
      | ok outs' => exact congrArg Except.ok List.flatten_append
  rw [substitute, pieces_append_cons rfl (by decide)]
  exact hjoin _ _

/-- The end of a line stays. -/
theorem substitute_newline (rest : List Char) :
    substitute values ('\n' :: rest) = joined (.ok ['\n']) (substitute values rest) :=
  substitute_char nofun

/-- A line is filled before its end, which stays. -/
theorem substitute_source (l : Text.Line) :
    substitute values l.source = joined (substitute values l.text) (.ok l.ending) := by
  cases hended : l.ended with
  | true =>
    rw [Text.Line.source_of_ended hended, substitute_append_newline, substitute_newline,
      substitute_nil, joined_ok_nil, Text.Line.ending, if_pos hended]
  | false =>
    rw [Text.Line.source_of_not_ended hended, Text.Line.ending, hended, if_neg Bool.false_ne_true,
      joined_ok_nil]

/-- A line that ends is filled apart from what is behind it. -/
theorem substitute_source_append {l : Text.Line} (h : l.ended = true) (rest : List Char) :
    substitute values (l.source ++ rest) =
      joined (substitute values l.source) (substitute values rest) := by
  rw [substitute_source, Text.Line.ending, if_pos h, Text.Line.source_of_ended h, List.append_assoc,
    List.singleton_append, substitute_append_newline, substitute_newline, joined_assoc]

/-- A placeholder is filled with its value, if it has one. -/
theorem fillPiece_eq_ok_iff {p : Placeholder} {out : List Char} :
    fillPiece values (.marker p.name.toList) = .ok out ↔ ∃ v,
      values p = some v ∧ out = v.toList := by
  rw [fillPiece, String.ofList_toList, p.ofName?_name, Option.bind_some]
  cases values p <;> simp [eq_comm]

/-- What is filled is what has its placeholders replaced. -/
theorem substitute_eq_ok_iff {cs out : List Char} :
    substitute values cs = .ok out ↔ Replaced values cs out := by
  constructor
  · intro h
    induction cs using scan_induct generalizing out with
    | nil =>
      obtain rfl := Except.ok.inj (substitute_nil.symm.trans h)
      exact .nil
    | char c rest hc ih =>
      rw [substitute_char hc] at h
      obtain ⟨_, tail, hhead, htail, rfl⟩ := joined_eq_ok_iff.mp h
      obtain rfl := Except.ok.inj hhead
      exact .char (readMarker_eq_none_iff.mp hc) (ih htail)
    | marker name after hname ih =>
      rw [substitute_marker hname] at h
      obtain ⟨value, tail, hvalue, htail, rfl⟩ := joined_eq_ok_iff.mp h
      have hfilled := hvalue
      rw [fillPiece] at hvalue
      cases hp : Placeholder.ofName? (String.ofList name) with
      | none =>
        rw [hp] at hvalue
        exact nomatch hvalue
      | some p =>
        have hname' : name = p.name.toList := by
          rw [← Placeholder.ofName?_eq_some_iff.mp hp, String.toList_ofList]
        subst hname'
        obtain ⟨v, hv, rfl⟩ := fillPiece_eq_ok_iff.mp hfilled
        exact .placeholder ⟨hname, rfl⟩ hv (ih htail)
  · intro h
    induction h with
    | nil => exact substitute_nil
    | char hnone _ ih =>
      rw [substitute_char (readMarker_eq_none_iff.mpr hnone), ih]
      rfl
    | placeholder hat hv _ ih =>
      rw [hat.eq, List.nil_append, substitute_marker hat.isName, ih,
        fillPiece_eq_ok_iff.mpr ⟨_, hv, rfl⟩]
      rfl

/-! ## The first marker that cannot be filled -/

/-- The error of a marker that cannot be filled. -/
def fault? (blocks : Slot → List String) (values : Placeholder → Option String) (name : String) :
    Option FillError :=
  match Slot.ofName? name with
  | some s => if (blocks s).isEmpty then some (.emptySlot s) else none
  | none =>
    if ((Placeholder.ofName? name).bind values).isSome then none else some (.missingValue name)

/-- A slot is at fault when there are no commands for it. -/
theorem fault?_slot (s : Slot) :
    fault? blocks values s.name = if (blocks s).isEmpty then some (.emptySlot s) else none := by
  rw [fault?, s.ofName?_name]

/-- A placeholder is at fault when there is no value for it. -/
theorem fault?_placeholder (p : Placeholder) :
    fault? blocks values p.name = if (values p).isSome then none
      else some (.missingValue p.name) := by
  rw [fault?, p.slot_ofName?_name, p.ofName?_name, Option.bind_some]

/-- Of the markers that may stand in a line it is the slots and the placeholders that may be at
fault. -/
theorem fault?_eq_some_iff {line : List Char} {name : String} {e : FillError}
    (h : Permitted line name) :
    fault? blocks values name = some e ↔ Unfillable blocks values name e := by
  constructor
  · intro hfault
    rcases h with ⟨p, rfl⟩ | ⟨s, rfl, -⟩
    · rw [fault?_placeholder] at hfault
      cases hp : values p with
      | some v => simp [hp] at hfault
      | none =>
        rw [hp] at hfault
        obtain rfl := Option.some.inj hfault
        exact .placeholder hp
    · rw [fault?_slot] at hfault
      by_cases hs : blocks s = []
      · rw [hs] at hfault
        obtain rfl := Option.some.inj hfault
        exact .slot hs
      · simp [hs] at hfault
  · intro hunfillable
    cases hunfillable with
    | slot hs => simp [fault?_slot, hs]
    | placeholder hp => simp [fault?_placeholder, hp]

/-- A text without slots fails for the first of its markers that is at fault. -/
theorem failure?_substitute (blocks : Slot → List String) {cs : List Char}
    (h : ∀ name ∈ markerNames cs, Slot.ofName? name = none) :
    failure? (substitute values cs) = (markerNames cs).findSome? (fault? blocks values) := by
  induction cs using scan_induct with
  | nil => simp [failure?]
  | char c rest hc ih =>
    rw [markerNames_char hc] at h ⊢
    rw [substitute_char hc, failure?_joined, ih h]
    rfl
  | marker name after hname ih =>
    rw [markerNames_marker hname, List.forall_mem_cons] at h
    rw [substitute_marker hname, failure?_joined, markerNames_marker hname, List.findSome?_cons,
      ih h.2, fillPiece, fault?, h.1]
    cases (Placeholder.ofName? (String.ofList name)).bind values <;> rfl

/-! ## Lines -/

/-- The part of a template that a line alone makes. -/
def lineSegment (l : Text.Line) : Segment :=
  match (slotsIn l.text).head? with
  | some s => .slot s (l.text.takeWhile Text.isBlank) l.ended
  | none => .text l.source

/-- The filled parts of a template, joined. -/
def fillAll (blocks : Slot → List String) (values : Placeholder → Option String)
    (segments : List Segment) :
    Except FillError (List Char) := do
  return (← segments.mapM (fillSegment blocks values)).flatten

/-- A template is filled by filling its segments. -/
theorem fill_eq (t : Template) :
    t.fill blocks values = (fillAll blocks values t.segments).map String.ofList := by
  rw [fill, fillAll]
  cases t.segments.mapM (fillSegment blocks values) <;> rfl

/-- No segments are filled with nothing. -/
@[simp] theorem fillAll_nil : fillAll blocks values [] = .ok [] := rfl

/-- Segments are filled one behind the other. -/
theorem fillAll_cons (segment : Segment) (later : List Segment) :
    fillAll blocks values (segment :: later) =
      joined (fillSegment blocks values segment) (fillAll blocks values later) := by
  rw [fillAll, fillAll, List.mapM_cons]
  cases fillSegment blocks values segment with
  | error e => rfl
  | ok a => cases later.mapM (fillSegment blocks values) <;> rfl

/-- A line that joins a text is filled by itself. -/
theorem fillAll_consSegment {slot : Option Slot} {l : Text.Line} {later : List Segment}
    (hslot : slotsIn l.text = slot.toList) (hended : l.ended = true ∨ later = []) :
    fillAll blocks values (consSegment slot l later) =
      joined (fillSegment blocks values (lineSegment l)) (fillAll blocks values later) := by
  cases slot with
  | some s => rw [consSegment, fillAll_cons, lineSegment, hslot]; rfl
  | none =>
    have hsegment : lineSegment l = .text l.source := by rw [lineSegment, hslot]; rfl
    rw [hsegment]
    unfold consSegment
    split
    · contradiction
    · have hl : l.ended = true := hended.resolve_right (List.cons_ne_nil _ _)
      rw [fillAll_cons, fillAll_cons, ← joined_assoc]
      exact congrArg (joined · _) (substitute_source_append hl _)
    · exact fillAll_cons _ _

/-- Filling what was read from lines is filling the lines. -/
theorem fillAll_of_parseLines (earlier : List Text.Line) {lines : List Text.Line}
    {segments : List Segment} {seen : List Slot} (hlines : lines.IsChain fun l _ => l.ended = true)
    (h : parseLines (earlier.length + 1) (slotsOf earlier).reverse lines = .ok (segments, seen)) :
    fillAll blocks values segments = fillAll blocks values (lines.map lineSegment) := by
  induction lines generalizing earlier segments seen with
  | nil =>
    obtain ⟨rfl, -⟩ := Prod.mk.inj (Except.ok.inj h)
    rfl
  | cons l later ih =>
    obtain ⟨hl, hlater⟩ := List.isChain_cons.mp hlines
    obtain ⟨slot, rest, hread, hrest, rfl⟩ := parseLines_cons_eq_ok h
    -- a line that is not ended is the last, so that there is nothing that it could join
    have hended : l.ended = true ∨ rest = [] := by
      cases later with
      | nil =>
        obtain ⟨rfl, -⟩ := Prod.mk.inj (Except.ok.inj hrest)
        exact Or.inr rfl
      | cons m _ => exact Or.inl (hl m rfl)
    rw [fillAll_consSegment (readLine_eq_ok hread).2 hended, ih _ hlater hrest, List.map_cons,
      fillAll_cons]

/-- The segments of a template are filled as the lines of its text are. -/
theorem fillAll_of_parse {text : String} {t : Template} (h : parse text = .ok t) :
    fillAll blocks values t.segments =
      fillAll blocks values ((Text.splitLines text.toList).map lineSegment) := by
  obtain ⟨seen, hlines⟩ := exists_parseLines_of_parse h
  exact fillAll_of_parseLines [] (Text.splitLines_isChain text.toList) hlines

variable {l : Text.Line}

/-- The line of a slot has the marker of the slot, and white space around it. -/
theorem lineSegment_of_slot {s : Slot} {indent trailing : List Char}
    (hline : l.text = indent ++ (s.marker.toList ++ trailing))
    (hindent : ∀ c ∈ indent, Text.isBlank c = true) (hslots : slotsIn l.text = [s]) :
    lineSegment l = .slot s indent l.ended := by
  have hopen : Text.isBlank '<' = false := by decide
  have htake : l.text.takeWhile Text.isBlank = indent := by
    rw [hline, s.marker_toList, List.takeWhile_append_of_pos hindent]
    simp [hopen]
  rw [lineSegment, hslots, htake]
  rfl

/-- A line without slot is a segment of text. -/
theorem lineSegment_of_text (hslots : slotsIn l.text = []) : lineSegment l = .text l.source := by
  rw [lineSegment, hslots]
  rfl

/-- A line that may stand in a template is the line of one slot, or has no slot. -/
theorem line_cases (h : MarkersPermitted l.text l.text) :
    (∃ s indent trailing, l.text = indent ++ (s.marker.toList ++ trailing) ∧
      (∀ c ∈ indent, Text.isBlank c = true) ∧ (∀ c ∈ trailing, Text.isBlank c = true) ∧
      markerNames l.text = [s.name] ∧ slotsIn l.text = [s]) ∨ slotsIn l.text = [] := by
  cases hslots : slotsIn l.text with
  | nil => exact Or.inr rfl
  | cons s rest =>
    obtain ⟨before, after, hat⟩ :=
      mem_slotsIn_iff.mp (hslots ▸ List.mem_cons_self : s ∈ slotsIn l.text)
    have halone := (h before after s.name hat).alone
    have hnames := markerNames_of_trim_eq halone
    obtain ⟨indent, trailing, hline, hindent, htrailing⟩ := Text.exists_append_trim l.text
    rw [halone] at hline
    have hslot : slotsIn l.text = [s] := by
      rw [slotsIn, hnames, List.filterMap_cons_some s.ofName?_name, List.filterMap_nil]
    exact Or.inl ⟨s, indent, trailing, hline, hindent, htrailing, hnames, hslots ▸ hslot⟩

/-- The slot whose marker is in a line is one of its slots. -/
theorem mem_slotsIn_of_line {s : Slot} {indent trailing : List Char}
    (hline : l.text = indent ++ (s.marker.toList ++ trailing)) : s ∈ slotsIn l.text :=
  mem_slotsIn_iff.mpr ⟨indent, trailing, s.isMarkerName, by rw [hline, s.marker_toList]; simp⟩

/-- A text whose placeholders are replaced has no slot. -/
theorem Replaced.slotsIn_eq_nil {cs out : List Char} (h : Replaced values cs out) :
    slotsIn cs = [] := by
  induction h with
  | nil => rw [slotsIn, markerNames_nil, List.filterMap_nil]
  | char hnone _ ih =>
    rw [slotsIn, markerNames_char (readMarker_eq_none_iff.mpr hnone), ← slotsIn, ih]
  | @placeholder cs after out p v hat _ _ ih =>
    rw [slotsIn, hat.markerNames_eq, markerNames_nil, List.nil_append, String.ofList_toList,
      List.filterMap_cons_none p.slot_ofName?_name, ← slotsIn, ih]

/-- The part that a line makes is filled as the line is. -/
theorem fillSegment_lineSegment_eq_ok_iff (h : MarkersPermitted l.text l.text) {out : List Char} :
    fillSegment blocks values (lineSegment l) = .ok out ↔ LineFilled blocks values l out := by
  rcases line_cases h with ⟨s, indent, trailing, hline, hindent, htrailing, -, hslots⟩ | hslots
  · rw [lineSegment_of_slot hline hindent hslots, fillSegment]
    constructor
    · intro hfill
      by_cases hempty : blocks s = []
      · simp [hempty] at hfill
      · rw [if_neg (by simpa using hempty)] at hfill
        obtain rfl := Except.ok.inj hfill
        exact .block hline hindent htrailing hempty
    · intro hfilled
      cases hfilled with
      | @block s' indent' trailing' hline' hindent' _ hblocks =>
        obtain rfl : s' = s := by simpa [hslots] using mem_slotsIn_of_line hline'
        have hsegment := (lineSegment_of_slot hline' hindent' hslots).symm.trans
          (lineSegment_of_slot hline hindent hslots)
        obtain ⟨-, rfl, -⟩ := Segment.slot.inj hsegment
        rw [if_neg (by simpa using hblocks)]
        rfl
      | text hreplaced => exact nomatch hslots.symm.trans hreplaced.slotsIn_eq_nil
  · rw [lineSegment_of_text hslots, fillSegment, substitute_source, joined_eq_ok_iff]
    constructor
    · rintro ⟨filled, _, htext, hending, rfl⟩
      obtain rfl := Except.ok.inj hending
      exact .text (substitute_eq_ok_iff.mp htext)
    · intro hfilled
      cases hfilled with
      | block hline _ _ _ => exact absurd (mem_slotsIn_of_line hline) (hslots ▸ List.not_mem_nil)
      | text hreplaced => exact ⟨_, _, substitute_eq_ok_iff.mpr hreplaced, rfl, rfl⟩

/-- A line fails for the first of its markers that is at fault. -/
theorem failure?_lineSegment (h : MarkersPermitted l.text l.text) :
    failure? (fillSegment blocks values (lineSegment l)) =
      (markerNames l.text).findSome? (fault? blocks values) := by
  rcases line_cases h with ⟨s, indent, trailing, hline, hindent, -, hnames, hslots⟩ | hslots
  · rw [lineSegment_of_slot hline hindent hslots, hnames, List.findSome?_singleton, fault?_slot,
      fillSegment]
    cases (blocks s).isEmpty <;> rfl
  · have hnone : ∀ name ∈ markerNames l.text, Slot.ofName? name = none :=
      List.filterMap_eq_nil_iff.mp hslots
    rw [lineSegment_of_text hslots, fillSegment, substitute_source, failure?_joined,
      failure?_substitute blocks hnone]
    exact Option.or_none

/-- Permitted lines are filled line by line, when all of them can be. -/
theorem fillAll_lines_eq_ok_iff {lines : List Text.Line}
    (h : ∀ l ∈ lines, MarkersPermitted l.text l.text) {out : List Char} :
    fillAll blocks values (lines.map lineSegment) = .ok out ↔
      ∃ outs, List.Forall₂ (LineFilled blocks values) lines outs ∧ out = outs.flatten := by
  induction lines generalizing out with
  | nil => simp [eq_comm]
  | cons l lines ih =>
    obtain ⟨hl, hlines⟩ := List.forall_mem_cons.mp h
    simp only [List.map_cons, fillAll_cons, joined_eq_ok_iff, fillSegment_lineSegment_eq_ok_iff hl,
      ih hlines, List.forall₂_cons_left_iff]
    constructor
    · rintro ⟨first, _, hfirst, ⟨outs, houts, rfl⟩, rfl⟩
      exact ⟨first :: outs, ⟨first, outs, hfirst, houts, rfl⟩, rfl⟩
    · rintro ⟨_, ⟨first, outs, hfirst, houts, rfl⟩, rfl⟩
      exact ⟨first, outs.flatten, hfirst, ⟨outs, houts, rfl⟩, rfl⟩

/-- Permitted lines cannot be filled because of their first marker that is at fault. -/
theorem failure?_fillAll_lines {lines : List Text.Line}
    (h : ∀ l ∈ lines, MarkersPermitted l.text l.text) :
    failure? (fillAll blocks values (lines.map lineSegment)) =
      (lines.flatMap fun l => markerNames l.text).findSome? (fault? blocks values) := by
  induction lines with
  | nil => rfl
  | cons l lines ih =>
    obtain ⟨hl, hlines⟩ := List.forall_mem_cons.mp h
    rw [List.map_cons, fillAll_cons, failure?_joined, failure?_lineSegment hl, ih hlines,
      List.flatMap_cons, List.findSome?_append]

/-! ## Templates -/

variable {text : String} {t : Template}

/-- All markers of a text that is a template may stand in their lines. -/
theorem permitted_of_parse (h : parse text = .ok t) :
    ∀ l ∈ Text.splitLines text.toList, MarkersPermitted l.text l.text :=
  ((exists_parse_iff text).mp ⟨t, h⟩).permitted

/-- A template is filled when all lines of its text can be, with what takes their place. -/
theorem fill_eq_ok_iff (h : parse text = .ok t) {script : String} :
    t.fill blocks values = .ok script ↔
      ∃ outs, List.Forall₂ (LineFilled blocks values) (Text.splitLines text.toList) outs ∧
        script = String.ofList outs.flatten := by
  have hlines (out : List Char) :
      fillAll blocks values ((Text.splitLines text.toList).map lineSegment) = .ok out ↔
        ∃ outs, List.Forall₂ (LineFilled blocks values) (Text.splitLines text.toList) outs ∧
            out = outs.flatten :=
    fillAll_lines_eq_ok_iff (permitted_of_parse h)
  rw [fill_eq, fillAll_of_parse h]
  constructor
  · intro hfill
    cases hall : fillAll blocks values ((Text.splitLines text.toList).map lineSegment) with
    | error e => exact nomatch (congrArg (Except.map _) hall).symm.trans hfill
    | ok out =>
      obtain ⟨outs, houts, rfl⟩ := (hlines out).mp hall
      rw [hall] at hfill
      exact ⟨outs, houts, (Except.ok.inj hfill).symm⟩
  · rintro ⟨outs, houts, rfl⟩
    rw [(hlines _).mpr ⟨outs, houts, rfl⟩]
    rfl

/-- A template fails for the first of its markers that is at fault. -/
theorem failure?_fillAll (h : parse text = .ok t) :
    failure? (fillAll blocks values t.segments) =
      (markerNames text.toList).findSome? (fault? blocks values) := by
  rw [fillAll_of_parse h, failure?_fillAll_lines (permitted_of_parse h), markerNames_splitLines]

/-- Every marker of a template is one that may stand in its line. -/
theorem exists_permitted_of_parse (h : parse text = .ok t) {name : String}
    (hname : name ∈ markerNames text.toList) : ∃ line, Permitted line name := by
  rw [markerNames_splitLines, List.mem_flatMap] at hname
  obtain ⟨l, hl, hname⟩ := hname
  exact ⟨l.text, markersPermitted_iff.mp (permitted_of_parse h l hl) name hname⟩

/-- In the text of a template, the markers at fault are those that cannot be filled. -/
theorem fault?_of_parse (h : parse text = .ok t) {name : String}
    (hname : name ∈ markerNames text.toList) {e : FillError} :
    fault? blocks values name = some e ↔ Unfillable blocks values name e :=
  have ⟨_, hpermitted⟩ := exists_permitted_of_parse h hname
  fault?_eq_some_iff hpermitted

/-- A template cannot be filled for its leftmost marker that cannot. -/
theorem fill_eq_error_iff (h : parse text = .ok t) {e : FillError} :
    t.fill blocks values = .error e ↔ ∃ before after, ∃ name : String,
      MarkerAt text.toList before name.toList after ∧ Unfillable blocks values name e ∧
        ∀ name' ∈ markerNames before, ∀ e', ¬ Unfillable blocks values name' e' := by
  have hfailure : t.fill blocks values = .error e ↔
      failure? (fillAll blocks values t.segments) = some e := by
    rw [fill_eq]
    cases fillAll blocks values t.segments <;> simp [failure?, Except.map]
  rw [hfailure, failure?_fillAll h, List.findSome?_eq_some_iff]
  constructor
  · rintro ⟨left, name, right, hnames, hname, hleft⟩
    have hmem : ∀ m ∈ left ++ name :: right, m ∈ markerNames text.toList := fun m hm => hnames ▸ hm
    obtain ⟨before, after, hat, rfl, -⟩ := exists_markerAt hnames
    refine ⟨before, after, name, hat, (fault?_of_parse h (hmem _ (by simp))).mp hname,
      fun m hm e' hm' => ?_⟩
    have hsome := (fault?_of_parse h (hmem m (List.mem_append_left _ hm))).mpr hm'
    exact nomatch (hleft m hm).symm.trans hsome
  · rintro ⟨before, after, name, hat, hname, hbefore⟩
    have hnames := hat.markerNames_eq
    rw [String.ofList_toList] at hnames
    have hmem : ∀ m ∈ markerNames before ++ name :: markerNames after,
        m ∈ markerNames text.toList :=
      fun m hm => hnames ▸ hm
    refine ⟨_, name, _, hnames, (fault?_of_parse h (hmem _ (by simp))).mpr hname, fun m hm => ?_⟩
    refine Option.eq_none_iff_forall_ne_some.mpr fun e' hm' => ?_
    exact hbefore m hm e' ((fault?_of_parse h (hmem m (List.mem_append_left _ hm))).mp hm')

/-- A template is filled if every slot has commands and every placeholder in it a value. -/
theorem exists_fill_iff (h : parse text = .ok t) :
    (∃ script, t.fill blocks values = .ok script) ↔
      (∀ s, blocks s ≠ []) ∧ ∀ p : Placeholder,
        p.name ∈ markerNames text.toList → values p ≠ none := by
  have hslots (s : Slot) : s.name ∈ markerNames text.toList :=
    mem_markerNames_iff.mpr (((exists_parse_iff text).mp ⟨t, h⟩).once s).exists
  have hfailure : (∃ script, t.fill blocks values = .ok script) ↔
      failure? (fillAll blocks values t.segments) = none := by
    rw [fill_eq]
    cases fillAll blocks values t.segments <;> simp [failure?, Except.map]
  have hfine : (∃ script, t.fill blocks values = .ok script) ↔
      ∀ name ∈ markerNames text.toList, ∀ e, ¬ Unfillable blocks values name e := by
    rw [hfailure, failure?_fillAll h, List.findSome?_eq_none_iff]
    refine forall₂_congr fun name hname => ?_
    rw [Option.eq_none_iff_forall_ne_some]
    exact forall_congr' fun e => not_congr (fault?_of_parse h hname)
  rw [hfine]
  constructor
  · intro hall
    exact ⟨fun s hs => hall _ (hslots s) _ (.slot hs),
      fun p hp hvalue => hall _ hp _ (.placeholder hvalue)⟩
  · rintro ⟨hblocks, hvalues⟩ name hname e hunfillable
    cases hunfillable with
    | slot hs => exact hblocks _ hs
    | placeholder hp => exact hvalues _ hname hp

/-- A template is filled exactly when every slot has commands and every placeholder that occurs has
a value. The script is then the text rewritten line by line, and else the error is that of the
leftmost marker that cannot be filled. -/
theorem fill_rewrites_lines (ht : parse text = .ok t) (blocks : Slot → List String)
    (values : Placeholder → Option String) :
    ((∃ script, t.fill blocks values = .ok script) ↔ (∀ s, blocks s ≠ []) ∧
      ∀ p before after,
        MarkerAt text.toList before (Placeholder.name p).toList after → values p ≠ none) ∧
    (∀ script, t.fill blocks values = .ok script ↔
      ∃ outs, List.Forall₂ (LineFilled blocks values) (Text.splitLines text.toList) outs ∧
        script = String.ofList outs.flatten) ∧
    ∀ e, t.fill blocks values = .error e ↔ ∃ before after, ∃ name : String,
      MarkerAt text.toList before name.toList after ∧ Unfillable blocks values name e ∧
        ∀ left right (earlier : String), MarkerAt before left earlier.toList right →
          ∀ e', ¬ Unfillable blocks values earlier e' := by
  refine ⟨?_, fun script => fill_eq_ok_iff ht, fun e => ?_⟩
  · rw [exists_fill_iff ht]
    simp only [mem_markerNames_iff, forall_exists_index]
  · rw [fill_eq_error_iff ht]
    simp only [mem_markerNames_iff, forall_exists_index]
    refine exists_congr fun before => exists_congr fun after => exists_congr fun name => ?_
    refine and_congr_right fun _ => and_congr_right fun _ => ?_
    exact ⟨fun h left right earlier => h earlier left right,
      fun h earlier left right => h left right earlier⟩

/-- A text with a placeholder in front of the lines of all slots. -/
def headedText : String := Placeholder.testId.marker ++ "\n" ++ bareText

/-- The template of the text. -/
def headedTemplate : Template :=
  ⟨.text (Placeholder.testId.marker.toList ++ ['\n']) :: bareTemplate.segments⟩

/-- The marker of the run has its name alone. -/
theorem markerNames_testId :
    markerNames Placeholder.testId.marker.toList = [Placeholder.testId.name] := by
  have hname : IsMarkerName Placeholder.testId.name.toList :=
    ⟨⟨_, _, rfl, rfl⟩, List.all_eq_true.mp (by decide)⟩
  exact (markerNames_marker hname []).trans (by rw [markerNames_nil, String.ofList_toList])

/-- The lines of the headed text are that of the run and those of the slots. -/
theorem splitLines_headedText :
    Text.splitLines headedText.toList =
      ⟨Placeholder.testId.marker.toList, true⟩ :: Slot.all.map bareLine := by
  have htext : headedText.toList = Placeholder.testId.marker.toList ++ '\n' :: bareText.toList := by
    simp [headedText]
  rw [htext, Text.splitLines_append_newline (by decide), splitLines_bareText]

/-- The headed text is a template. -/
theorem parse_headedText : parse headedText = .ok headedTemplate := by
  have hread : readLine 1 [] ⟨Placeholder.testId.marker.toList, true⟩ = .ok none := by
    rw [readLine, markerNames_testId]
    rfl
  rw [parse, splitLines_headedText, parseLines, hread]
  change (parseLines 2 [] (Slot.all.map bareLine) >>= _) >>= _ = _
  rw [parseLines_bareLines (by decide)]
  rfl

/-- Commands and values that look like markers stand in the script as they are. Without a value the
placeholder is at fault before any slot. -/
theorem fill_rewrites_lines_headed :
    parse headedText = .ok headedTemplate ∧
      headedTemplate.fill (fun _ => ["<perform_tests>"]) (fun _ => some "<test_id>") =
        .ok (String.join ("<test_id>\n" :: Slot.all.map fun _ => "<perform_tests>\n")) ∧
      headedTemplate.fill (fun _ => []) (fun _ => none) = .error (.missingValue "test_id") := by
  have hat : MarkerAt Placeholder.testId.marker.toList [] Placeholder.testId.name.toList [] :=
    ⟨⟨⟨_, _, rfl, rfl⟩, List.all_eq_true.mp (by decide)⟩, rfl⟩
  refine ⟨parse_headedText, ?_, ?_⟩
  · have hhead : LineFilled (fun _ => ["<perform_tests>"]) (fun _ => some "<test_id>")
        ⟨Placeholder.testId.marker.toList, true⟩ "<test_id>\n".toList :=
      .text (.placeholder (v := "<test_id>") hat rfl .nil)
    have hblock (s : Slot) : LineFilled (fun _ => ["<perform_tests>"]) (fun _ => some "<test_id>")
        (bareLine s) "<perform_tests>\n".toList :=
      .block (show (bareLine s).text = [] ++ (s.marker.toList ++ []) by simp [bareLine])
        nofun nofun nofun
    have hscript : String.join ("<test_id>\n" :: Slot.all.map fun _ => "<perform_tests>\n") =
        String.ofList
            ("<test_id>\n".toList :: Slot.all.map fun _ => "<perform_tests>\n".toList).flatten := by
      rw [← String.toList_inj, String.toList_join, String.toList_ofList, List.flatMap_cons,
        List.flatMap_map, List.flatten_cons, List.flatMap_def]
    refine ((fill_rewrites_lines parse_headedText _ _).2.1 _).mpr ⟨_, ?_, hscript⟩
    rw [splitLines_headedText]
    refine .cons hhead ?_
    rw [List.forall₂_map_left_iff, List.forall₂_map_right_iff]
    exact List.forall₂_same.mpr fun s _ => hblock s
  · refine ((fill_rewrites_lines parse_headedText _ _).2.2 _).mpr
      ⟨[], '\n' :: bareText.toList, Placeholder.testId.name, ⟨hat.isName, ?_⟩, .placeholder rfl,
        fun left right earlier hbefore => ?_⟩
    · simp [headedText, Placeholder.marker]
    · exact absurd hbefore.eq (by simp)

end Template
end PipelineManager
