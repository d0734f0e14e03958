import Mathlib.Data.List.Chain
import Mathlib.Data.List.TakeWhile
import Mathlib.Logic.ExistsUnique
import PipelineManager.Pipeline.Template

/-!
# Markers in a text

`MarkerAt` says where a marker stands in a text. A marker holds no opening bracket and no line
feed, so that scanning a text in front of such a character and behind it scans the text. Hence the
scanner finds exactly the markers that stand in a text, from left to right, and it makes no
difference whether lines are scanned one by one or all at once.
-/

namespace PipelineManager

/-- A name that stands in markers: a lower-case letter, and then letters, digits and underscores. -/
structure IsMarkerName (name : List Char) : Prop where
  head : ∃ c rest, name = c :: rest ∧ c.isLower = true
  chars : ∀ c ∈ name, isMarkerChar c = true

/-- The marker of a name stands in a text, between what is before it and what is after it. -/
structure MarkerAt (cs before name after : List Char) : Prop where
  isName : IsMarkerName name
  eq : cs = before ++ '<' :: (name ++ '>' :: after)

/-! ## Reading a marker -/

/-- A name of a marker is read up to the bracket behind it. -/
theorem readMarker_append {name : List Char} (hname : IsMarkerName name) (rest : List Char) :
    readMarker (name ++ '>' :: rest) = some (name, rest) := by
  have htake : (name ++ '>' :: rest).takeWhile isMarkerChar = name := by
    rw [List.takeWhile_append_of_pos hname.chars]
    simp [isMarkerChar]
  have hdrop : (name ++ '>' :: rest).dropWhile isMarkerChar = '>' :: rest := by
    rw [List.dropWhile_append_of_pos hname.chars]
    simp [isMarkerChar]
  obtain ⟨c, tail, rfl, hc⟩ := hname.head
  simp only [readMarker, htake, hdrop, hc, if_true]

/-- A marker is read iff a name of one stands in front, closed by a bracket. -/
theorem readMarker_eq_some_iff {cs name rest : List Char} :
    readMarker cs = some (name, rest) ↔ IsMarkerName name ∧ cs = name ++ '>' :: rest := by
  constructor
  · intro h
    unfold readMarker at h
    split at h
    · next c tail after htake hdrop =>
      split at h
      · next hc =>
        obtain ⟨rfl, rfl⟩ := Prod.mk.inj (Option.some.inj h)
        refine ⟨⟨⟨c, tail, rfl, hc⟩, fun d hd => ?_⟩, ?_⟩
        · exact List.mem_takeWhile_imp (htake ▸ hd)
        · rw [← htake, ← hdrop, List.takeWhile_append_dropWhile]
      · exact nomatch h
    · exact nomatch h
  · rintro ⟨hname, rfl⟩
    exact readMarker_append hname rest

/-- What reads as a marker does so whatever follows, and no marker begins in front of a character
that can be in none. -/
theorem readMarker_append_cons {c : Char} (hc : isMarkerChar c = false) (hc' : c ≠ '>')
    (cs rest : List Char) :
    readMarker (cs ++ c :: rest) = (readMarker cs).map
      fun read => (read.1, read.2 ++ c :: rest) := by
  cases hread : readMarker cs with
  | some read =>
    obtain ⟨hname, heq⟩ := readMarker_eq_some_iff.mp hread
    rw [heq, List.append_assoc, List.cons_append]
    exact readMarker_append hname _
  | none =>
    rw [Option.map_none, Option.eq_none_iff_forall_ne_some]
    rintro ⟨name, after⟩ h
    obtain ⟨hname, heq⟩ := readMarker_eq_some_iff.mp h
    rcases List.append_eq_append_iff.mp heq with ⟨inside, hinside, hrest⟩ | ⟨left, hleft, hrest⟩
    · cases inside with
      | nil => exact hc' (List.cons.inj hrest).1
      | cons d inside =>
        obtain rfl := (List.cons.inj hrest).1
        have hmem : c ∈ name := hinside ▸ List.mem_append_right cs List.mem_cons_self
        exact Bool.noConfusion (hc.symm.trans (hname.chars c hmem))
    · cases left with
      | nil => exact hc' (List.cons.inj hrest).1.symm
      | cons d left =>
        obtain rfl := (List.cons.inj hrest).1
        exact nomatch hread.symm.trans (readMarker_eq_some_iff.mpr ⟨hname, hleft⟩)

/-- No marker begins with a character that is no opening bracket, or behind which none is read. -/
theorem readMarker_eq_none_iff {c : Char} {rest : List Char} :
    (c = '<' → readMarker rest = none) ↔ ∀ name after, ¬ MarkerAt (c :: rest) [] name after := by
  constructor
  · intro h name after hat
    obtain ⟨rfl, rfl⟩ := List.cons.inj hat.eq
    exact nomatch (h rfl).symm.trans (readMarker_append hat.isName after)
  · rintro h rfl
    refine Option.eq_none_iff_forall_ne_some.mpr fun ⟨name, after⟩ hread => ?_
    obtain ⟨hname, rfl⟩ := readMarker_eq_some_iff.mp hread
    exact h name after ⟨hname, rfl⟩

/-! ## Scanning a text -/

/-- The empty text has no pieces. -/
@[simp] theorem pieces_nil : pieces [] = [] := by rw [pieces]

/-- A marker in front is one piece. -/
theorem pieces_marker {name : List Char} (hname : IsMarkerName name) (after : List Char) :
    pieces ('<' :: (name ++ '>' :: after)) = .marker name :: pieces after := by
  rw [pieces, if_pos rfl]
  split
  · next h =>
    obtain ⟨rfl, rfl⟩ :=
      Prod.mk.inj (Option.some.inj ((readMarker_append hname after).symm.trans h))
    rfl
  · next h => exact absurd ((readMarker_append hname after).symm.trans h) (Option.some_ne_none _)

/-- A character that starts no marker is one piece. -/
theorem pieces_char {c : Char} {rest : List Char} (h : c = '<' → readMarker rest = none) :
    pieces (c :: rest) = .char c :: pieces rest := by
  rw [pieces]
  by_cases hc : c = '<'
  · rw [if_pos hc]
    split
    · next hread => exact absurd (hread.symm.trans (h hc)) (Option.some_ne_none _)
    · rfl
  · rw [if_neg hc]

/-- A text is empty, or begins with a marker or with a character that begins none. -/
@[elab_as_elim]
theorem scan_induct {motive : List Char → Prop} (nil : motive [])
    (char : ∀ c rest, (c = '<' → readMarker rest = none) → motive rest → motive (c :: rest))
    (marker : ∀ name after,
      IsMarkerName name → motive after → motive ('<' :: (name ++ '>' :: after)))
    (cs : List Char) : motive cs := by
  induction hn : cs.length using Nat.strongRecOn generalizing cs with
  | ind n ih =>
    cases cs with
    | nil => exact nil
    | cons c rest =>
      have hrest := ih rest.length (hn ▸ Nat.lt_succ_self _) rest rfl
      by_cases hc : c = '<' ∧ readMarker rest ≠ none
      · obtain ⟨rfl, hread⟩ := hc
        obtain ⟨⟨name, after⟩, hread⟩ := Option.ne_none_iff_exists'.mp hread
        obtain ⟨hname, rfl⟩ := readMarker_eq_some_iff.mp hread
        refine marker name after hname (ih after.length ?_ after rfl)
        simp only [List.length_cons, List.length_append] at hn
        omega
      · exact char c rest (fun heq => by simpa [heq] using hc) hrest

/-- No marker goes across a character that can be in none. -/
theorem pieces_append_cons {c : Char} (hc : isMarkerChar c = false) (hc' : c ≠ '>')
    (cs rest : List Char) :
    pieces (cs ++ c :: rest) = pieces cs ++ pieces (c :: rest) := by
  induction cs using scan_induct with
  | nil => simp
  | char d cs hd ih =>
    have hd' : d = '<' → readMarker (cs ++ c :: rest) = none := fun heq => by
      rw [readMarker_append_cons hc hc', hd heq, Option.map_none]
    rw [List.cons_append, pieces_char hd, pieces_char hd', ih, List.cons_append]
  | marker name after hname ih =>
    have happend :
        '<' :: (name ++ '>' :: after) ++ c :: rest =
          '<' :: (name ++ '>' :: (after ++ c :: rest)) := by simp
    rw [happend, pieces_marker hname, pieces_marker hname, ih, List.cons_append]

/-- The empty text has no markers. -/
@[simp] theorem markerNames_nil : markerNames [] = [] := by simp [markerNames]

/-- A character that starts no marker adds no name. -/
theorem markerNames_char {c : Char} {rest : List Char} (h : c = '<' → readMarker rest = none) :
    markerNames (c :: rest) = markerNames rest := by
  rw [markerNames, pieces_char h, List.filterMap_cons_none rfl, markerNames]

/-- A marker in front adds its name. -/
theorem markerNames_marker {name : List Char} (hname : IsMarkerName name) (after : List Char) :
    markerNames ('<' :: (name ++ '>' :: after)) = String.ofList name :: markerNames after := by
  rw [markerNames, pieces_marker hname]
  rfl

/-- A character that no marker contains keeps the markers on both sides apart. -/
theorem markerNames_append_cons {c : Char} (hc : isMarkerChar c = false) (hc' : c ≠ '>')
    (cs rest : List Char) :
    markerNames (cs ++ c :: rest) = markerNames cs ++ markerNames (c :: rest) := by
  rw [markerNames, pieces_append_cons hc hc', List.filterMap_append, markerNames, markerNames]

/-! ## The markers of a text -/

namespace MarkerAt

variable {cs before name after : List Char}

/-- The names around a marker are those before it, its own, and those after it. -/
theorem markerNames_eq (h : MarkerAt cs before name after) :
    markerNames cs = markerNames before ++ String.ofList name :: markerNames after := by
  rw [h.eq, markerNames_append_cons rfl (by decide), markerNames_marker h.isName]

/-- A marker stands in every text around its text. -/
theorem within (h : MarkerAt cs before name after) (left right : List Char) :
    MarkerAt (left ++ (cs ++ right)) (left ++ before) name (after ++ right) :=
  ⟨h.isName, by simp [h.eq]⟩

/-- Of two markers the one that begins later stands behind the other. -/
theorem behind {before' name' after' : List Char} (h : MarkerAt cs before name after)
    (h' : MarkerAt cs before' name' after') (hlt : before.length < before'.length) :
    ∃ between, MarkerAt after between name' after' := by
  -- the later marker begins within the earlier one's text only if that holds an opening bracket
  rcases List.append_eq_append_iff.mp (h.eq.symm.trans h'.eq) with
    ⟨left, hleft, hrest⟩ | ⟨left, hleft, -⟩
  · cases left with
    | nil => simp [hleft] at hlt
    | cons c left =>
      have hrest := (List.cons.inj hrest).2
      rcases List.append_eq_append_iff.mp hrest with
        ⟨between, -, hafter⟩ | ⟨inside, hinside, hafter⟩
      · cases between with
        | nil => exact nomatch (List.cons.inj hafter).1
        | cons d between => exact ⟨between, h'.isName, (List.cons.inj hafter).2⟩
      · cases inside with
        | nil => exact nomatch (List.cons.inj hafter).1
        | cons d inside =>
          obtain rfl := (List.cons.inj hafter).1
          have hmem : '<' ∈ name := hinside ▸ List.mem_append_right left List.mem_cons_self
          exact absurd (h.isName.chars _ hmem) (by decide)
  · rw [hleft, List.length_append] at hlt
    omega

end MarkerAt

/-- The scanner finds the markers that stand in a text, from left to right. -/
theorem exists_markerAt {cs : List Char} {name : String} {left right : List String}
    (h : markerNames cs = left ++ name :: right) :
    ∃ before after, MarkerAt cs before name.toList after ∧ markerNames before = left ∧
      markerNames after = right := by
  induction cs using scan_induct generalizing left with
  | nil => simp at h
  | char c cs hc ih =>
    obtain ⟨before, after, hat, -, hright⟩ := ih ((markerNames_char hc).symm.trans h)
    have hat' : MarkerAt (c :: cs) (c :: before) name.toList after :=
      ⟨hat.isName, by rw [hat.eq, List.cons_append]⟩
    refine ⟨c :: before, after, hat', ?_, hright⟩
    rw [hat'.markerNames_eq, hright, String.ofList_toList] at h
    exact List.append_cancel_right h
  | marker first rest hfirst ih =>
    rw [markerNames_marker hfirst] at h
    cases left with
    | nil =>
      obtain ⟨hname, hright⟩ := List.cons.inj h
      rw [← hname, String.toList_ofList]
      exact ⟨[], rest, ⟨hfirst, rfl⟩, markerNames_nil, hright⟩
    | cons m left =>
      obtain ⟨rfl, hrest⟩ := List.cons.inj h
      obtain ⟨before, after, hat', rfl, hright⟩ := ih hrest
      exact ⟨'<' :: (first ++ '>' :: before), after, ⟨hat'.isName, by simp [hat'.eq]⟩,
        markerNames_marker hfirst before, hright⟩

/-- The names are those of the markers that stand in the text. -/
theorem mem_markerNames_iff {cs : List Char} {name : String} :
    name ∈ markerNames cs ↔ ∃ before after, MarkerAt cs before name.toList after := by
  constructor
  · intro h
    obtain ⟨left, right, h⟩ := List.append_of_mem h
    obtain ⟨before, after, hat, -⟩ := exists_markerAt h
    exact ⟨before, after, hat⟩
  · rintro ⟨before, after, hat⟩
    simp [hat.markerNames_eq]

namespace MarkerAt

variable {cs before after : List Char} {name : String}

/-- A marker is the only one of its name iff none before or after has it. -/
theorem count_eq_one_iff (h : MarkerAt cs before name.toList after) :
    (markerNames cs).count name = 1 ↔
      name ∉ markerNames before ∧ name ∉ markerNames after := by
  rw [h.markerNames_eq, String.ofList_toList, List.count_append, List.count_cons_self,
    ← List.count_eq_zero, ← List.count_eq_zero]
  omega

/-- Of two markers of a name one stands behind the other, unless they are the same. -/
theorem before_eq {before' after' : List Char} (h : MarkerAt cs before name.toList after)
    (h' : MarkerAt cs before' name.toList after') (hafter : name ∉ markerNames after)
    (hafter' : name ∉ markerNames after') : before' = before := by
  rcases lt_trichotomy before.length before'.length with hlt | heq | hlt
  · obtain ⟨between, hbetween⟩ := h.behind h' hlt
    exact absurd (mem_markerNames_iff.mpr ⟨between, after', hbetween⟩) hafter
  · exact List.append_inj_left (h'.eq.symm.trans h.eq) heq.symm
  · obtain ⟨between, hbetween⟩ := h'.behind h hlt
    exact absurd (mem_markerNames_iff.mpr ⟨between, after, hbetween⟩) hafter'

/-- A marker in front of another one stands at another place. -/
theorem exists_ne_of_mem_before (h : MarkerAt cs before name.toList after)
    (hmem : name ∈ markerNames before) :
    ∃ before' after', MarkerAt cs before' name.toList after' ∧ before' ≠ before := by
  obtain ⟨b, a, hat⟩ := mem_markerNames_iff.mp hmem
  have hat' := hat.within [] ('<' :: (name.toList ++ '>' :: after))
  rw [List.nil_append, ← h.eq] at hat'
  refine ⟨_, _, hat', fun heq => ?_⟩
  have hlength := congrArg List.length heq
  simp [hat.eq] at hlength

/-- A marker behind another one stands at another place. -/
theorem exists_ne_of_mem_after (h : MarkerAt cs before name.toList after)
    (hmem : name ∈ markerNames after) :
    ∃ before' after', MarkerAt cs before' name.toList after' ∧ before' ≠ before := by
  obtain ⟨b, a, hat⟩ := mem_markerNames_iff.mp hmem
  have hat' := hat.within (before ++ '<' :: (name.toList ++ ['>'])) []
  have heq : before ++ '<' :: (name.toList ++ ['>']) ++ (after ++ []) = cs := by simp [h.eq]
  rw [heq] at hat'
  refine ⟨_, _, hat', fun heq => ?_⟩
  have hlength := congrArg List.length heq
  simp at hlength

end MarkerAt

/-- A name is found once if its marker stands at one place only. -/
theorem count_markerNames_eq_one_iff {cs : List Char} {name : String} :
    (markerNames cs).count name = 1 ↔ ∃! before, ∃ after, MarkerAt cs before name.toList after := by
  constructor
  · intro hcount
    have hmem : name ∈ markerNames cs := List.count_pos_iff.mp (hcount ▸ Nat.one_pos)
    obtain ⟨before, after, hat⟩ := mem_markerNames_iff.mp hmem
    refine ⟨before, ⟨after, hat⟩, fun before' ⟨after', hat'⟩ => ?_⟩
    have hafter := (hat.count_eq_one_iff.mp hcount).2
    have hafter' := (hat'.count_eq_one_iff.mp hcount).2
    exact hat.before_eq hat' hafter hafter'
  · rintro ⟨before, ⟨after, hat⟩, hunique⟩
    refine hat.count_eq_one_iff.mpr ⟨fun hmem => ?_, fun hmem => ?_⟩
    · obtain ⟨before', after', hat', hne⟩ := hat.exists_ne_of_mem_before hmem
      exact hne (hunique before' ⟨after', hat'⟩)
    · obtain ⟨before', after', hat', hne⟩ := hat.exists_ne_of_mem_after hmem
      exact hne (hunique before' ⟨after', hat'⟩)

/-! ## Lines -/

namespace Text

/-- In a list of lines of a text each but the last is ended. -/
theorem splitLines_isChain (cs : List Char) :
    (splitLines cs).IsChain fun l _ => l.ended = true := by
  induction cs with
  | nil => exact .nil
  | cons c cs ih =>
    unfold splitLines
    split
    · exact List.isChain_cons.mpr ⟨fun _ _ => rfl, ih⟩
    · cases hlines : splitLines cs with
      | nil => exact .singleton _
      | cons l rest =>
        rw [hlines] at ih
        exact List.isChain_cons.mpr (List.isChain_cons.mp ih)

/-- Lines that a line feed ends each are the lines of their text. -/
theorem splitLines_flatMap {lines : List (List Char)} (h : ∀ l ∈ lines, '\n' ∉ l) :
    splitLines (lines.flatMap (· ++ ['\n'])) = lines.map (⟨·, true⟩) := by
  induction lines with
  | nil => rfl
  | cons l lines ih =>
    obtain ⟨hl, hlines⟩ := List.forall_mem_cons.mp h
    rw [List.flatMap_cons, List.append_assoc, List.singleton_append, splitLines_append_newline hl,
      ih hlines, List.map_cons]

/-- The source of a line that is ended has a line feed behind its text. -/
theorem Line.source_of_ended {l : Line} (h : l.ended = true) : l.source = l.text ++ ['\n'] := by
  rw [Line.source, if_pos h]

/-- The source of a line that is not ended is its text. -/
theorem Line.source_of_not_ended {l : Line} (h : l.ended = false) : l.source = l.text := by
  rw [Line.source, h, if_neg Bool.false_ne_true]

end Text

/-- A line feed starts no marker. -/
theorem markerNames_newline (cs : List Char) : markerNames ('\n' :: cs) = markerNames cs :=
  markerNames_char nofun

/-- The markers of a line and of what follows it, which is nothing if the line is not ended. -/
theorem markerNames_source_append {l : Text.Line} {rest : List Char}
    (h : l.ended = true ∨ rest = []) :
    markerNames (l.source ++ rest) = markerNames l.text ++ markerNames rest := by
  cases hended : l.ended with
  | true =>
    rw [Text.Line.source_of_ended hended, List.append_assoc, List.singleton_append,
      markerNames_append_cons rfl (by decide), markerNames_newline]
  | false =>
    obtain rfl := h.resolve_left (by rw [hended]; nofun)
    rw [Text.Line.source_of_not_ended hended, markerNames_nil, List.append_nil, List.append_nil]

/-- It makes no difference whether lines are scanned one by one or all at once. -/
theorem markerNames_flatMap_source {ls : List Text.Line}
    (h : ls.IsChain fun l _ => l.ended = true) :
    markerNames (ls.flatMap Text.Line.source) = ls.flatMap fun l => markerNames l.text := by
  induction ls with
  | nil => simp
  | cons l ls ih =>
    obtain ⟨hl, hls⟩ := List.isChain_cons.mp h
    have hended : l.ended = true ∨ ls.flatMap Text.Line.source = [] := by
      cases ls with
      | nil => exact Or.inr rfl
      | cons m _ => exact Or.inl (hl m rfl)
    rw [List.flatMap_cons, markerNames_source_append hended, ih hls, List.flatMap_cons]

/-- The markers of a text are those of its lines. -/
theorem markerNames_splitLines (cs : List Char) :
    markerNames cs = (Text.splitLines cs).flatMap fun l => markerNames l.text := by
  rw [← markerNames_flatMap_source (Text.splitLines_isChain cs), Text.flatMap_source_splitLines]

end PipelineManager
